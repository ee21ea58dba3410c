import Strongbox.Proofs.Key.Consistency
/-!
# Questions about rotation

Whether a key is due is found from its age, and the age of a key is the span between two instants
that exist. When it will be due is found by adding its period to the date of its creation, and the
sum may lie beyond the last date of the calendar: such a key *outlasts* the calendar. A question
that needs the date has no answer then, and neither has a list of answers in which one key outlasts
the calendar.

The period is what the policy says or what an attribute of the key says; neither is bounded but by
the size of its word, so the policies that pass their check do not rule this out.

## Main results

* `dueAt?_eq_none_iff`: which keys outlast the calendar.
* `breaksOff_iff`: which questions break off, over any storage and whatever fails.
-/

namespace Strongbox

/-- The outcome is neither a result nor an error. -/
def Outcome.breaksOff {α : Type} : Outcome α → Bool
  | .ok _ | .error (.failed _) => false
  | .error .outOfCalendar | .error .outOfMemory => true

namespace Rotation

open Key (Metadata IsIdentifier)
open Key.Catalogue (stored? listed)
open Storage (Memory)
open Time (Instant)

variable {d d' : Memory} {failed : List Request} {policy : Policy} {m : Metadata}
  {identifier : String}

/-! ## Dates beyond the calendar -/

/-- The period of a key ends after the last second of the calendar. -/
def Outlasts (policy : Policy) (m : Metadata) : Prop :=
  Time.lastSecond < m.createdAt.seconds + 86400 * ((periodOf policy m).toNat : Int)

theorem dueAt?_eq_none_iff : dueAt? policy m = none ↔ Outlasts policy m :=
  Instant.plus?_ofDays_eq_none_iff

theorem breaksOff_daysRemaining_iff {now : Instant} :
    (daysRemaining policy m now).breaksOff = true ↔ Outlasts policy m := by
  rw [← dueAt?_eq_none_iff, daysRemaining]
  cases dueAt? policy m with
  | none => exact iff_of_true rfl rfl
  | some due => exact iff_of_false Bool.false_ne_true (Option.some_ne_none due)

theorem summarize_eq_of_outlasts (h : Outlasts policy m) (now : Instant) :
    summarize policy m now = .error .outOfCalendar := by
  rw [summarize, daysRemaining, dueAt?_eq_none_iff.2 h]
  rfl

theorem exists_summarize (h : ¬ Outlasts policy m) (now : Instant) :
    ∃ summary, summarize policy m now = .ok summary := by
  obtain ⟨due, hdue⟩ := Option.ne_none_iff_exists'.1 (mt dueAt?_eq_none_iff.1 h)
  rw [summarize, daysRemaining, hdue]
  exact ⟨_, rfl⟩

theorem breaksOff_summarize_iff {now : Instant} :
    (summarize policy m now).breaksOff = true ↔ Outlasts policy m := by
  by_cases h : Outlasts policy m
  · rw [summarize_eq_of_outlasts h]
    exact iff_of_true rfl h
  · obtain ⟨summary, hsummary⟩ := exists_summarize h now
    rw [hsummary]
    exact iff_of_false Bool.false_ne_true h

/-- A list of summaries breaks off at the first key that `Outlasts` the calendar. -/
theorem breaksOff_summaries_iff {ms : List Metadata} {now : Instant} :
    Outcome.breaksOff (ms.mapM fun m => summarize policy m now) = true
      ↔ ∃ m ∈ ms, Outlasts policy m := by
  induction ms with
  | nil => exact iff_of_false Bool.false_ne_true (by simp)
  | cons m ms ih =>
    simp only [List.mem_cons, exists_eq_or_imp]
    rw [List.mapM_cons, ← ih]
    by_cases h : Outlasts policy m
    · rw [summarize_eq_of_outlasts h]
      exact iff_of_true rfl (.inl h)
    · obtain ⟨summary, hsummary⟩ := exists_summarize h now
      rw [hsummary, or_iff_right h]
      rcases ms.mapM fun m => summarize policy m now with halt | summaries
      · exact Iff.rfl
      · exact Iff.rfl

/-! ## Questions about one key -/

/-- The key has metadata, and they are these. -/
structure IsKnown (d : Memory) (identifier : String) (m : Metadata) : Prop where
  named : IsIdentifier identifier
  stored : stored? d identifier = .ok (some m)

theorem IsKnown.unique {m' : Metadata} (h : IsKnown d identifier m)
    (h' : IsKnown d identifier m') : m' = m := by
  cases h.stored.symm.trans h'.stored
  rfl

/-- The metadata of a key are found by `metadataOf` if they are known. There is an error if a
request fails or they are not. -/
theorem runs_metadataOf {outcome : Outcome Metadata}
    (hrun : (metadataOf identifier).Runs d outcome d' failed) :
    (∃ m, IsKnown d identifier m ∧ failed = [] ∧ outcome = .ok m)
      ∨ (∃ e, outcome = .error (.failed e))
        ∧ ¬ (failed = [] ∧ ∃ m, IsKnown d identifier m) := by
  rw [metadataOf, Key.Catalogue.get?] at hrun
  by_cases hname : IsIdentifier identifier
  · rcases Key.Catalogue.runs_load?_bind ((Key.runs_checked_bind_iff hname).1 hrun) with
      ⟨found, hfound, hend⟩ | ⟨⟨e, he, rfl⟩, -, -⟩ | ⟨⟨e, rfl⟩, -, rfl⟩
    · cases found with
      | none =>
        obtain ⟨rfl, -, -⟩ := Action.runs_fail_iff.1 hend
        refine .inr ⟨⟨_, rfl⟩, fun ⟨_, m, hknown⟩ => ?_⟩
        cases hfound.symm.trans hknown.stored
      | some m =>
        obtain ⟨rfl, -, rfl⟩ := Action.runs_pure_iff.1 hend
        exact .inl ⟨m, ⟨hname, hfound⟩, rfl, rfl⟩
    · refine .inr ⟨⟨e, rfl⟩, fun ⟨_, m, hknown⟩ => ?_⟩
      cases he.symm.trans hknown.stored
    · exact .inr ⟨⟨_, rfl⟩, fun h => List.cons_ne_nil _ _ h.1⟩
  · rw [bind_assoc] at hrun
    rcases Action.runs_ofExcept_bind_iff.1 hrun with ⟨_, hchecked, -⟩ | ⟨e, -, rfl, -, -⟩
    · exact absurd (Key.checkIdentifier_eq_ok_iff.1 hchecked) hname
    · exact .inr ⟨⟨e, rfl⟩, fun h => hname h.2.choose_spec.named⟩

/-- A question about a key is answered from its metadata and the time. There is an error if a
request fails or the metadata are not known. -/
theorem runs_metadataOf_now {α : Type} {answer : Metadata → Instant → Outcome α}
    {outcome : Outcome α}
    (hrun : (metadataOf identifier >>= fun m => Action.now >>= fun now =>
      Action.ofOutcome (answer m now)).Runs d outcome d' failed) :
    (∃ m now, IsKnown d identifier m ∧ failed = [] ∧ outcome = answer m now)
      ∨ (∃ e, outcome = .error (.failed e))
        ∧ ¬ (failed = [] ∧ ∃ m, IsKnown d identifier m) := by
  rcases Action.runs_bind_iff.1 hrun with
    ⟨m, d₁, before, after, hfound, hrest, rfl⟩ | ⟨halt, hfound, rfl⟩
  · obtain ⟨now, hend⟩ := Action.runs_now_bind hrest
    obtain ⟨rfl, -, rfl⟩ := Action.runs_ofOutcome_iff.1 hend
    rcases runs_metadataOf hfound with ⟨m', hknown, rfl, hm⟩ | ⟨⟨e, he⟩, -⟩
    · cases hm
      exact .inl ⟨m, now, hknown, rfl, rfl⟩
    · cases he
  · rcases runs_metadataOf hfound with ⟨m, -, -, hm⟩ | ⟨⟨e, he⟩, hnot⟩
    · cases hm
    · cases he
      exact .inr ⟨⟨e, rfl⟩, hnot⟩

/-- A question about a key breaks off if its answer does. -/
theorem breaksOff_metadataOf_now_iff {α : Type} (answer : Metadata → Instant → Outcome α)
    (P : Metadata → Prop) (hanswer : ∀ m now, (answer m now).breaksOff = true ↔ P m)
    {outcome : Outcome α}
    (hrun : (metadataOf identifier >>= fun m => Action.now >>= fun now =>
      Action.ofOutcome (answer m now)).Runs d outcome d' failed) :
    outcome.breaksOff = true ↔ failed = [] ∧ ∃ m, IsKnown d identifier m ∧ P m := by
  rcases runs_metadataOf_now hrun with ⟨m, now, hknown, rfl, rfl⟩ | ⟨⟨e, rfl⟩, hnot⟩
  · rw [hanswer]
    constructor
    · exact fun h => ⟨rfl, m, hknown, h⟩
    · rintro ⟨-, m', hknown', h⟩
      rwa [hknown.unique hknown'] at h
  · exact iff_of_false Bool.false_ne_true fun h => hnot ⟨h.1, h.2.imp fun _ => And.left⟩

/-! ## Questions about all keys -/

/-- Every record of the catalogue can be read. -/
def IsReadable (d : Memory) : Prop := ∀ identifier, ∃ found, stored? d identifier = .ok found

/-- What `Catalogue.all` lists are the metadata of all keys. There is an error if a request fails or
some record cannot be read. -/
theorem runs_all {outcome : Outcome (List Metadata)}
    (hrun : Key.Catalogue.all.Runs d outcome d' failed) :
    (∃ ms, outcome = .ok ms ∧ failed = [] ∧ IsReadable d
        ∧ ∀ m, m ∈ ms ↔ ∃ identifier, stored? d identifier = .ok (some m))
      ∨ (∃ e, outcome = .error (.failed e)) ∧ ¬ (failed = [] ∧ IsReadable d) := by
  obtain ⟨-, ⟨⟨found, hfound, ho⟩, rfl⟩ | ⟨⟨e, rfl⟩, hfailed⟩⟩ := Key.Catalogue.runs_all hrun
  · -- what is not listed has no record
    have hothers : ∀ {identifier : String},
        identifier ∉ Key.Material.identifiersUnder Key.Catalogue.locationStart found →
        stored? d identifier = .ok none := by
      intro identifier hnot
      rw [Key.mem_identifiersUnder_iff hfound] at hnot
      exact Key.Catalogue.stored?_eq_none_iff.2 (Option.not_isSome_iff_eq_none.1 hnot)
    cases hlisted : listed d
        (Key.Material.identifiersUnder Key.Catalogue.locationStart found) with
    | ok ms =>
      rw [hlisted] at ho
      refine .inl ⟨ms, ho, rfl, fun identifier => ?_, fun m => ?_⟩
      · by_cases hmem : identifier ∈
            Key.Material.identifiersUnder Key.Catalogue.locationStart found
        · exact Key.Catalogue.exists_stored?_of_listed hlisted hmem
        · exact ⟨none, hothers hmem⟩
      · rw [Key.Catalogue.mem_listed_iff hlisted]
        refine ⟨fun ⟨identifier, _, h⟩ => ⟨identifier, h⟩,
          fun ⟨identifier, h⟩ => ⟨identifier, ?_, h⟩⟩
        by_contra hnot
        cases h.symm.trans (hothers hnot)
    | error e =>
      rw [hlisted] at ho
      refine .inr ⟨⟨e, ho⟩, fun ⟨_, hreadable⟩ => ?_⟩
      obtain ⟨ms, hms⟩ := Key.Catalogue.exists_listed fun identifier
        (_ : identifier ∈ Key.Material.identifiersUnder Key.Catalogue.locationStart found) =>
          hreadable identifier
      cases hlisted.symm.trans hms
  · exact .inr ⟨⟨_, rfl⟩, fun h => hfailed h.1⟩

theorem runs_due {outcome : Outcome (List String)}
    (hrun : (due policy).Runs d outcome d' failed) : outcome.breaksOff = false := by
  rcases Action.runs_bind_iff.1 hrun with ⟨ms, d₁, before, after, -, hrest, -⟩ | ⟨halt, hall, rfl⟩
  · obtain ⟨now, hend⟩ := Action.runs_now_bind hrest
    obtain ⟨rfl, -, -⟩ := Action.runs_pure_iff.1 hend
    rfl
  · rcases runs_all hall with ⟨ms, hms, -⟩ | ⟨⟨e, he⟩, -⟩
    · cases hms
    · cases he
      rfl

/-- What `summaries` gives of all keys breaks off if every record can be read and one key outlasts
the calendar. -/
theorem runs_summaries {outcome : Outcome (List Summary)}
    (hrun : (summaries policy).Runs d outcome d' failed) :
    outcome.breaksOff = true
      ↔ failed = [] ∧ IsReadable d
        ∧ ∃ identifier m, stored? d identifier = .ok (some m) ∧ Outlasts policy m := by
  obtain ⟨now, hrun⟩ := Action.runs_now_bind hrun
  rcases Action.runs_bind_iff.1 hrun with
    ⟨ms, d₁, before, after, hall, hend, rfl⟩ | ⟨halt, hall, rfl⟩
  · obtain ⟨rfl, -, rfl⟩ := Action.runs_ofOutcome_iff.1 hend
    rcases runs_all hall with ⟨ms, hms, rfl, hreadable, hmem⟩ | ⟨⟨e, he⟩, -⟩
    · cases hms
      rw [breaksOff_summaries_iff]
      constructor
      · rintro ⟨m, hm, houtlasts⟩
        obtain ⟨identifier, hstored⟩ := (hmem m).1 hm
        exact ⟨rfl, hreadable, identifier, m, hstored, houtlasts⟩
      · rintro ⟨-, -, identifier, m, hstored, houtlasts⟩
        exact ⟨m, (hmem m).2 ⟨identifier, hstored⟩, houtlasts⟩
    · cases he
  · rcases runs_all hall with ⟨ms, hms, -⟩ | ⟨⟨e, he⟩, hnot⟩
    · cases hms
    · cases he
      exact iff_of_false Bool.false_ne_true fun h => hnot ⟨h.1, h.2.1⟩

/-- Whether a key is due, and which keys are, is answered or refused, whatever metadata are stored.
A question that needs the date at which a key will be due breaks off exactly if it gets to that
question, because no request fails and the records can be read, and the key `Outlasts` the calendar.
For a summary of all keys one such key is enough. -/
theorem breaksOff_iff (S : Surroundings) (policy : Policy) (identifier : String) (s : S.State) :
    (S.perform (shouldRotate policy identifier) s).1.breaksOff = false
      ∧ (S.perform (due policy) s).1.breaksOff = false
      ∧ ((S.perform (timeUntil policy identifier) s).1.breaksOff = true
        ↔ S.failures (timeUntil policy identifier) s = []
          ∧ ∃ m, IsKnown (S.data s) identifier m ∧ Outlasts policy m)
      ∧ ((S.perform (summary policy identifier) s).1.breaksOff = true
        ↔ S.failures (summary policy identifier) s = []
          ∧ ∃ m, IsKnown (S.data s) identifier m ∧ Outlasts policy m)
      ∧ ((S.perform (summaries policy) s).1.breaksOff = true
        ↔ S.failures (summaries policy) s = [] ∧ IsReadable (S.data s)
          ∧ ∃ identifier m, stored? (S.data s) identifier = .ok (some m)
            ∧ Outlasts policy m) := by
  have hshould := breaksOff_metadataOf_now_iff (fun m now => .ok (isDue policy m now))
    (fun _ => False) (fun _ _ => iff_of_false Bool.false_ne_true id)
    (S.runs_perform (shouldRotate policy identifier) s)
  have htime := breaksOff_metadataOf_now_iff (daysRemaining policy) (Outlasts policy)
    (fun _ _ => breaksOff_daysRemaining_iff) (S.runs_perform (timeUntil policy identifier) s)
  have hsummary := breaksOff_metadataOf_now_iff (summarize policy) (Outlasts policy)
    (fun _ _ => breaksOff_summarize_iff) (S.runs_perform (summary policy identifier) s)
  refine ⟨?_, runs_due (S.runs_perform _ s), htime, hsummary, runs_summaries (S.runs_perform _ s)⟩
  exact Bool.eq_false_iff.2 fun h => (hshould.1 h).2.choose_spec.2

/-- A key whose attributes ask for the longest period there is. -/
def lastingKey : Key.Creation :=
  .generate "mail" .aesGcm (Table.empty.insert Metadata.periodAttribute "4294967295")

/-- The key is made without complaint. It is not due, but when it will be cannot be told, and no
summary of all keys can be given as long as it is there. -/
theorem lastingKey_breaksOff :
    let made := World.plainSurroundings.perform lastingKey.action Key.keylessWorld
    Policy.default.validate = .ok ()
      ∧ made.1 = .ok "mail_v1"
      ∧ (World.plainSurroundings.perform (shouldRotate .default "mail_v1") made.2).1 = .ok false
      ∧ (World.plainSurroundings.perform (due .default) made.2).1 = .ok []
      ∧ (World.plainSurroundings.perform (timeUntil .default "mail_v1") made.2).1
        = .error .outOfCalendar
      ∧ (World.plainSurroundings.perform (summary .default "mail_v1") made.2).1.breaksOff = true
      ∧ (World.plainSurroundings.perform (summaries .default) made.2).1.breaksOff = true := by
  decide +kernel

end Rotation

end Strongbox
