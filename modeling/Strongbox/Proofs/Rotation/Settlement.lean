import Strongbox.Proofs.Rotation.Countdown
import Strongbox.Proofs.Rotation.Minting
/-!
# Rotating what is due

A key that is due is listed until some other one says that it has replaced it. Every rotation adds
one key, which says so of the key that was rotated, and changes nothing that was there before
(`Grows`). The new key is not due as long as the clock stands still. So when every key that was
listed has been rotated, by whichever function and in whatever order, none is left.

A key is listed again once the only other key that has replaced it is deleted. What a key says to
have replaced is an attribute like any other, though, and is taken at its word: a key that names
itself there is hidden although no rotation has replaced it.

## Main results

* `Manner.grows`: what a rotation does to the records.
* `grows_rotateAll`: what any number of rotations do.
* `due_settled_iff`: rotating what is due leaves nothing due; which due keys are not listed.
-/

namespace Strongbox.Rotation

open Key
open Key.Catalogue (stored?)
open Storage (Memory)
open Time (Instant)

variable {d d' d'' : Memory} {failed : List Request} {policy : Policy} {now : Instant}
  {identifier name : String}

/-! ## Rotations -/

/-- The ways to rotate a key. -/
inductive Manner where
  | byVersion
  | unique

/-- The rotation of a key. -/
def Manner.creation : Manner → String → Creation
  | byVersion, identifier => .rotate identifier
  | unique, identifier => .rotateUnique identifier

/-- Rotates keys one after another. The result are the identifiers of the new keys. -/
def rotateAll : List (Manner × String) → Action (List String)
  | [] => pure []
  | (manner, identifier) :: rest => do
    let name ← (manner.creation identifier).action
    return name :: (← rotateAll rest)

/-- A rotation that succeeds has read the old pair, and none of its requests has failed. -/
theorem Manner.exists_loaded {manner : Manner}
    (hrun : (manner.creation identifier).action.Runs d (.ok name) d' failed) :
    failed = [] ∧ IsIdentifier name
      ∧ ∃ oldKey old, Pair.Loaded identifier d (.ok (oldKey, old)) []
        ∧ (manner = byVersion → ∃ current, VersionedId.parse identifier = .ok current) := by
  cases Creation.effect_of_runs hrun with
  | made hmakes hname _ =>
    refine ⟨rfl, hname, ?_⟩
    cases manner with
    | byVersion =>
      cases hmakes with
      | rotated _ hloaded _ hparse => exact ⟨_, _, hloaded, fun _ => ⟨_, hparse⟩⟩
    | unique =>
      cases hmakes with
      | rotatedUnique _ _ hloaded _ => exact ⟨_, _, hloaded, fun h => by cases h⟩

/-- A rotation that succeeds has `Minted` a key, in either manner. -/
private theorem Manner.minted {manner : Manner} {allowed : Allowance}
    (hpaired : ∀ name, Paired d name)
    (hrun : (manner.creation identifier).action.RunsUnder allowed d (.ok name) d' failed) :
    ∃ oldKey old createdAt, allowed .now createdAt
      ∧ Minted d d' identifier name oldKey old createdAt := by
  obtain ⟨rfl, hname, oldKey, old, hloaded, hversion⟩ := exists_loaded hrun.runs
  have hpair := (hpaired identifier).hasPair_of_loaded hloaded
  refine ⟨oldKey, old, ?_⟩
  cases manner with
  | byVersion =>
    obtain ⟨current, hparse⟩ := hversion rfl
    rcases runsUnder_rotate hloaded hpair.key_ne_nil hparse hrun with
      ⟨-, hunused, hok, hadds⟩ | ⟨-, ⟨text, reason, hrefused⟩, -⟩
    · cases hok
      exact minted_of_adds hname (hpaired _) hpair hunused hadds
    · cases hrefused
  | unique =>
    obtain ⟨unique, -, ⟨hunused, hok, hadds⟩ | ⟨-, halt, hrefused⟩⟩ :=
      runsUnder_rotateUnique hloaded hpair.key_ne_nil hrun
    · cases hok
      exact minted_of_adds hname (hpaired _) hpair hunused hadds
    · cases hrefused

/-! ## What rotations do to the records -/

/-- Some key is stored that says to have replaced this one. -/
def IsReplaced (d : Memory) (identifier : String) : Prop :=
  ∃ other m, stored? d other = .ok (some m) ∧ m.rotatedFrom? = some identifier

/-- All records are kept, and those that are new were made now. -/
structure Grows (now : Instant) (d d' : Memory) : Prop where
  paired : ∀ name, Paired d' name
  kept : ∀ {name m}, stored? d name = .ok (some m) → stored? d' name = .ok (some m)
  fresh : ∀ {name m}, stored? d' name = .ok (some m) →
    stored? d name = .ok (some m) ∨ m.createdAt = now

theorem Grows.refl (hpaired : ∀ name, Paired d name) : Grows now d d :=
  ⟨hpaired, fun h => h, .inl⟩

theorem Grows.trans (h : Grows now d d') (h' : Grows now d' d'') : Grows now d d'' where
  paired := h'.paired
  kept hstored := h'.kept (h.kept hstored)
  fresh hstored := by
    rcases h'.fresh hstored with hearlier | hnow
    · exact h.fresh hearlier
    · exact .inr hnow

/-- What `IsReplaced` stays so as the data grow. -/
theorem Grows.isReplaced (h : Grows now d d') (hreplaced : IsReplaced d identifier) :
    IsReplaced d' identifier := by
  obtain ⟨other, m, hstored, hfrom⟩ := hreplaced
  exact ⟨other, m, h.kept hstored, hfrom⟩

/-- A key that is `Minted` now adds a record that says what the key has replaced. -/
theorem Minted.grows {oldKey : Bytes} {old : Metadata}
    (h : Minted d d' identifier name oldKey old now) (hpaired : ∀ name, Paired d name) :
    Grows now d d' ∧ IsReplaced d' identifier := by
  obtain ⟨key, m, hpair, -, hreplaces⟩ := h.made
  have hothers : ∀ {other}, other ≠ name →
      d'.get? (Material.location other) = d.get? (Material.location other)
        ∧ d'.get? (Catalogue.location other) = d.get? (Catalogue.location other) := by
    intro other hother
    exact ⟨h.untouched _ (by simpa using hother) (by simp),
      h.untouched _ (by simp) (by simpa using hother)⟩
  have hstored : ∀ {other}, other ≠ name → stored? d' other = stored? d other := by
    intro other hother
    rw [stored?, stored?, (hothers hother).2]
  refine ⟨⟨fun other => ?_, fun {other m'} hm' => ?_, fun {other m'} hm' => ?_⟩,
    name, m, hpair.stored, hreplaces.rotatedFrom_eq⟩
  · by_cases hother : other = name
    · subst hother
      exact .inr ⟨key, m, hpair⟩
    · exact (hpaired other).congr (hothers hother).1 (hothers hother).2
  · rw [hstored, hm']
    rintro rfl
    obtain ⟨record, hrecord, -⟩ := Catalogue.stored?_eq_some_iff.1 hm'
    cases h.vacant.no_metadata.symm.trans hrecord
  · by_cases hother : other = name
    · subst hother
      cases hpair.stored.symm.trans hm'
      exact .inr hreplaces.createdAt_eq
    · rw [hstored hother] at hm'
      exact .inl hm'

/-- Rotations by `rotateAll` keep all records and leave every key replaced that was rotated. -/
theorem grows_rotateAll {S : Surroundings} {s t : S.State} {turns : List (Manner × String)}
    {made : List String} (hclock : S.StandsAt now s) (hpaired : ∀ name, Paired (S.data s) name)
    (h : S.perform (rotateAll turns) s = (.ok made, t)) :
    Grows now (S.data s) (S.data t) ∧ ∀ turn ∈ turns, IsReplaced (S.data t) turn.2 := by
  induction turns generalizing s made with
  | nil =>
    cases h
    exact ⟨.refl hpaired, fun _ hturn => by cases hturn⟩
  | cons turn rest ih =>
    obtain ⟨manner, identifier⟩ := turn
    obtain ⟨name, s', hrotated, hrest⟩ := Action.exists_of_perform_bind_eq S.answer h
    obtain ⟨names, t', hothers, hend⟩ := Action.exists_of_perform_bind_eq S.answer hrest
    cases hend
    change S.perform (manner.creation identifier).action s = _ at hrotated
    have hstands := hclock.of_perform_eq hrotated
    have hrun := S.runsUnder_perform (manner.creation identifier).action s
    rw [hrotated] at hrun
    obtain ⟨oldKey, old, createdAt, hread, hminted⟩ := Manner.minted hpaired hrun
    rw [hclock.eq_of_readsClock hread] at hminted
    obtain ⟨hgrows, hreplaced⟩ := hminted.grows hpaired
    obtain ⟨hgrowsOn, hreplacedOn⟩ := ih hstands hgrows.paired hothers
    refine ⟨hgrows.trans hgrowsOn, fun turn hturn => ?_⟩
    rcases List.mem_cons.1 hturn with rfl | hturn
    · exact hgrowsOn.isReplaced hreplaced
    · exact hreplacedOn turn hturn

/-! ## What is due -/

/-- A key is not due at its own `createdAt`. -/
private theorem isDue_createdAt (hpolicy : policy.validate = .ok ()) (m : Metadata) :
    isDue policy m m.createdAt = false := by
  have hperiod := periodOf_pos hpolicy m
  have hzero : ∀ age : Int, age = -age → age = 0 := fun age hneg => by omega
  have hage := hzero _ (Instant.since_eq_neg m.createdAt m.createdAt)
  rw [isDue, hage, decide_eq_false_iff_not, spanOf]
  show ¬ ((periodOf policy m).toNat : Int) * 86400000000000 ≤ 0
  omega

/-- Where every identifier is `Paired`, a record is under the identifier that it carries. -/
theorem id_of_stored {m : Metadata} (hpaired : ∀ name, Paired d name)
    (hstored : stored? d name = .ok (some m)) : m.id = name := by
  rcases hpaired name with hvacant | ⟨key, m', hpair⟩
  · obtain ⟨record, hrecord, -⟩ := Catalogue.stored?_eq_some_iff.1 hstored
    cases hvacant.no_metadata.symm.trans hrecord
  · cases hpair.stored.symm.trans hstored
    exact hpair.id_eq

variable {S : Surroundings} {s : S.State} {names : List String}

/-- There is a list of what is `due`, unless a request fails. -/
theorem exists_due (hclock : S.StandsAt now s) (hpaired : ∀ name, Paired (S.data s) name)
    (hserved : S.failures (due policy) s = []) :
    ∃ names, (S.perform (due policy) s).1 = .ok names := by
  obtain ⟨names, hnames, -⟩ :=
    exists_of_due hclock (fun name => (hpaired name).exists_stored?) hserved
  exact ⟨names, hnames⟩

/-- What `due` lists is what is due and not replaced. -/
theorem mem_due_iff (hclock : S.StandsAt now s) (hpaired : ∀ name, Paired (S.data s) name)
    (h : (S.perform (due policy) s).1 = .ok names) :
    identifier ∈ names
      ↔ (∃ m, stored? (S.data s) identifier = .ok (some m) ∧ isDue policy m now = true)
        ∧ ¬ IsReplaced (S.data s) identifier := by
  have hanswer := hclock.perform_bind_now Key.Catalogue.all fun all t => .ok (dueKeys policy all t)
  change (S.perform (due policy) s).1 = _ at hanswer
  rw [h] at hanswer
  rcases runs_all (S.runs_perform Key.Catalogue.all s) with ⟨ms, hms, -, -, hmem⟩ | ⟨⟨e, he⟩, -⟩
  · rw [hms] at hanswer
    cases hanswer
    rw [mem_dueKeys_iff]
    refine and_congr ⟨?_, ?_⟩ ⟨?_, ?_⟩
    · rintro ⟨m, hm, rfl, hcome⟩
      obtain ⟨other, hstored⟩ := (hmem m).1 hm
      rw [id_of_stored hpaired hstored]
      exact ⟨m, hstored, hcome⟩
    · rintro ⟨m, hstored, hcome⟩
      exact ⟨m, (hmem m).2 ⟨identifier, hstored⟩, id_of_stored hpaired hstored, hcome⟩
    · rintro hkept ⟨other, m, hstored, hfrom⟩
      exact hkept m ((hmem m).2 ⟨other, hstored⟩) hfrom
    · intro hkept m hm hfrom
      obtain ⟨other, hstored⟩ := (hmem m).1 hm
      exact hkept ⟨other, m, hstored, hfrom⟩
  · rw [he] at hanswer
    cases hanswer

/-- After every key that `due` has listed has been rotated, none is listed. -/
private theorem due_eq_nil_of_rotateAll {listed settled : S.State} {turns : List (Manner × String)}
    {made : List String} (hpolicy : policy.validate = .ok ()) (hclock : S.StandsAt now s)
    (hpaired : ∀ name, Paired (S.data s) name)
    (hdue : S.perform (due policy) s = (.ok names, listed))
    (hturns : (turns.map (·.2)).Perm names)
    (hrotated : S.perform (rotateAll turns) listed = (.ok made, settled))
    (hserved : S.failures (due policy) settled = []) :
    (S.perform (due policy) settled).1 = .ok [] := by
  have hdata : S.data listed = S.data s :=
    (Surroundings.runs_of_perform_eq hdue).data_eq (inspects_due policy).asks
  have hclock' : S.StandsAt now listed := hclock.of_perform_eq hdue
  have hclock'' : S.StandsAt now settled := hclock'.of_perform_eq hrotated
  obtain ⟨hgrows, hreplaced⟩ := grows_rotateAll hclock' (hdata ▸ hpaired) hrotated
  rw [hdata] at hgrows
  obtain ⟨names', hnames'⟩ := exists_due hclock'' hgrows.paired hserved
  rw [hnames']
  congr 1
  rw [List.eq_nil_iff_forall_not_mem]
  intro identifier hmem
  obtain ⟨⟨m, hstored, hcome⟩, hkept⟩ := (mem_due_iff hclock'' hgrows.paired hnames').1 hmem
  rcases hgrows.fresh hstored with hearlier | rfl
  · -- the key was due before, so it was rotated then or had been replaced already
    by_cases hlisted : identifier ∈ names
    · obtain ⟨turn, hturn, rfl⟩ := List.mem_map.1 (hturns.mem_iff.2 hlisted)
      exact hkept (hreplaced turn hturn)
    · rw [mem_due_iff hclock hpaired (congrArg Prod.fst hdue)] at hlisted
      exact hkept (hgrows.isReplaced
        (not_not.1 fun hnot => hlisted ⟨⟨m, hearlier, hcome⟩, hnot⟩))
  · rw [isDue_createdAt hpolicy] at hcome
    cases hcome

/-- The key says to have replaced another, and no other key says so. -/
structure IsSoleSuccessor (d : Memory) (successor identifier : String) : Prop where
  replaces : ∃ m, stored? d successor = .ok (some m) ∧ m.rotatedFrom? = some identifier
  sole : ∀ {other m}, stored? d other = .ok (some m) → m.rotatedFrom? = some identifier →
    other = successor

/-- What is `stored?` once a key is deleted. -/
theorem stored?_removed (d : Memory) (deleted name : String) :
    stored? (Pair.removed d deleted) name
      = if name = deleted then .ok none else stored? d name := by
  by_cases hname : name = deleted
  · rw [if_pos hname, Catalogue.stored?_eq_none_iff, hname]
    simp [Pair.removed]
  · rw [if_neg hname, stored?, stored?]
    simp [Pair.removed, hname]

/-- A due key is listed again once its only successor is deleted, unless that is the key itself. -/
private theorem mem_due_of_delete_iff {successor : String} {m : Metadata} {t : S.State}
    (hclock : S.StandsAt now s) (hpaired : ∀ name, Paired (S.data s) name)
    (hstored : stored? (S.data s) identifier = .ok (some m)) (hcome : isDue policy m now = true)
    (hsole : IsSoleSuccessor (S.data s) successor identifier)
    (hdeleted : S.perform (Pair.delete successor) s = (.ok (), t))
    (hserved : S.failures (due policy) t = []) :
    ∃ names, (S.perform (due policy) t).1 = .ok names
      ∧ (identifier ∈ names ↔ successor ≠ identifier) := by
  have hdata : S.data t = Pair.removed (S.data s) successor := by
    have hrun := Pair.runs_delete (Surroundings.runs_of_perform_eq hdeleted)
    generalize S.failures (Pair.delete successor) s = failed at hrun
    generalize S.data t = d' at hrun ⊢
    cases hrun with
    | deleted => rfl
  have hclock' : S.StandsAt now t := hclock.of_perform_eq hdeleted
  have hpaired' : ∀ name, Paired (S.data t) name :=
    fun name => hdata ▸ paired_removed (hpaired name)
  obtain ⟨names, hnames⟩ := exists_due hclock' hpaired' hserved
  refine ⟨names, hnames, ?_⟩
  rw [mem_due_iff hclock' hpaired' hnames, hdata]
  constructor
  · rintro ⟨⟨m', hm', -⟩, -⟩ rfl
    rw [stored?_removed, if_pos rfl] at hm'
    cases hm'
  · intro hother
    refine ⟨⟨m, ?_, hcome⟩, fun ⟨other, m', hm', hfrom⟩ => ?_⟩
    · rw [stored?_removed, if_neg (Ne.symm hother)]
      exact hstored
    · rw [stored?_removed] at hm'
      split at hm'
      · cases hm'
      · rename_i hkept
        exact hkept (hsole.sole hm' hfrom)

/-- If every key that is due is rotated, by either function and in any order, none is due any more.
In any state, a due key is missing from what `due` lists exactly if some other key has replaced it
or it says so of itself. In the first case, once the `IsSoleSuccessor` is deleted, it is listed. -/
theorem due_settled_iff (S : Surroundings) (hpolicy : policy.validate = .ok ()) {s : S.State}
    (hclock : S.StandsAt now s) (hpaired : ∀ name, Paired (S.data s) name) :
    (∀ names listed turns made settled, S.perform (due policy) s = (.ok names, listed) →
        (turns.map (·.2)).Perm names →
        S.perform (rotateAll turns) listed = (.ok made, settled) →
        S.failures (due policy) settled = [] →
        (S.perform (due policy) settled).1 = .ok [])
      ∧ ∀ identifier m, stored? (S.data s) identifier = .ok (some m) →
        isDue policy m now = true →
        (S.failures (due policy) s = [] → ∃ names, (S.perform (due policy) s).1 = .ok names
          ∧ (identifier ∉ names ↔ m.rotatedFrom? = some identifier
            ∨ ∃ successor other, successor ≠ identifier
              ∧ stored? (S.data s) successor = .ok (some other)
              ∧ other.rotatedFrom? = some identifier))
        ∧ ∀ successor t, IsSoleSuccessor (S.data s) successor identifier →
          S.perform (Pair.delete successor) s = (.ok (), t) → S.failures (due policy) t = [] →
          ∃ names, (S.perform (due policy) t).1 = .ok names
            ∧ (identifier ∈ names ↔ successor ≠ identifier) := by
  refine ⟨fun names listed turns made settled => due_eq_nil_of_rotateAll hpolicy hclock hpaired,
    fun identifier m hstored hcome => ⟨fun hserved => ?_, fun successor t =>
      mem_due_of_delete_iff hclock hpaired hstored hcome⟩⟩
  obtain ⟨names, hnames⟩ := exists_due hclock hpaired hserved
  refine ⟨names, hnames, ?_⟩
  rw [mem_due_iff hclock hpaired hnames, not_and_not_right]
  constructor
  · intro hreplaced
    obtain ⟨successor, other, hother, hfrom⟩ := hreplaced ⟨m, hstored, hcome⟩
    by_cases hself : successor = identifier
    · subst hself
      cases hstored.symm.trans hother
      exact .inl hfrom
    · exact .inr ⟨successor, other, hself, hother, hfrom⟩
  · rintro (hself | ⟨successor, other, -, hother, hfrom⟩) -
    · exact ⟨identifier, m, hstored, hself⟩
    · exact ⟨successor, other, hother, hfrom⟩

/-- Ninety days after noon on 1 January 2026. -/
def ninetyDaysLater : Instant := .ofSecond 1775044800 (by decide)

/-- The key that comes of a creation at noon, ninety days later. -/
def ninetyDaysOld (c : Creation) : World.plainSurroundings.State :=
  atClock ninetyDaysLater (World.plainSurroundings.perform c.action keylessWorld).2

theorem paired_ninetyDaysOld (c : Creation) (name : String) :
    Paired (World.plainSurroundings.data (ninetyDaysOld c)) name := by
  have hcalm : Undisturbed World.plainSurroundings [.create c] keylessWorld :=
    undisturbed_of_isReliable World.isReliable_plainSurroundings _ _
  exact paired_after World.plainSurroundings hcalm (fun other => paired_empty other) name

/-- A key whose attributes say that it has replaced itself. -/
def selfReplacing : Creation :=
  .generate "mail" .aesGcm (Table.empty.insert Metadata.rotatedFromAttribute "mail_v1")

/-- It comes to be due and there is no other key, but it is not listed. -/
theorem selfReplacing_hidden :
    Policy.default.validate = .ok ()
      ∧ World.plainSurroundings.StandsAt ninetyDaysLater (ninetyDaysOld selfReplacing)
      ∧ (∀ name, Paired (World.plainSurroundings.data (ninetyDaysOld selfReplacing)) name)
      ∧ (World.plainSurroundings.data (ninetyDaysOld selfReplacing)).keys
        = [Material.location "mail_v1", Catalogue.location "mail_v1"]
      ∧ (World.plainSurroundings.perform (shouldRotate .default "mail_v1")
        (ninetyDaysOld selfReplacing)).1 = .ok true
      ∧ (World.plainSurroundings.perform (due .default) (ninetyDaysOld selfReplacing)).1
        = .ok [] :=
  ⟨by decide, World.standsAt_clock _, paired_ninetyDaysOld selfReplacing, by decide +kernel,
    by decide +kernel, by decide +kernel⟩

/-- The key for mail is listed, and then rotated. -/
def rotatedMail : World.plainSurroundings.State :=
  (World.plainSurroundings.perform (rotateAll [(.byVersion, "mail_v1")])
    (World.plainSurroundings.perform (due .default) (ninetyDaysOld mailKey)).2).2

private theorem data_rotatedMail :
    World.plainSurroundings.data rotatedMail
      = Pair.added (Pair.added Table.empty (List.replicate 32 0) (mailOf noon))
        (List.replicate 32 0) (successor (mailOf noon) "mail_v2" ninetyDaysLater) := by
  decide +kernel

/-- There are the old key and its successor. -/
theorem stored?_rotatedMail (name : String) :
    stored? (World.plainSurroundings.data rotatedMail) name
      = if name = "mail_v2" then .ok (some (successor (mailOf noon) "mail_v2" ninetyDaysLater))
        else if name = "mail_v1" then .ok (some (mailOf noon)) else .ok none := by
  rw [data_rotatedMail, Catalogue.stored?_added, Catalogue.stored?_added]
  rfl

private theorem isSoleSuccessor_rotatedMail :
    IsSoleSuccessor (World.plainSurroundings.data rotatedMail) "mail_v2" "mail_v1" := by
  refine ⟨⟨_, stored?_rotatedMail "mail_v2", by decide⟩, fun {other m} hstored hfrom => ?_⟩
  rw [stored?_rotatedMail] at hstored
  split at hstored
  · assumption
  · split at hstored
    · cases hstored
      exact absurd hfrom (by decide)
    · cases hstored

/-- Nothing is due once the key for mail is rotated, and it is again once its successor is
deleted. -/
theorem rotatedMail_settled :
    (World.plainSurroundings.perform (due .default) (ninetyDaysOld mailKey)).1 = .ok ["mail_v1"]
      ∧ (World.plainSurroundings.perform (due .default) rotatedMail).1 = .ok []
      ∧ ∃ names, (World.plainSurroundings.perform (due .default)
            (World.plainSurroundings.perform (Pair.delete "mail_v2") rotatedMail).2).1 = .ok names
          ∧ "mail_v1" ∈ names := by
  have hpolicy : Policy.default.validate = .ok () := by decide
  have hclock : World.plainSurroundings.StandsAt ninetyDaysLater (ninetyDaysOld mailKey) :=
    World.standsAt_clock _
  have hlisted : (World.plainSurroundings.perform (due .default) (ninetyDaysOld mailKey)).1
      = .ok ["mail_v1"] := by decide +kernel
  have hrotated : (World.plainSurroundings.perform (rotateAll [(.byVersion, "mail_v1")])
      (World.plainSurroundings.perform (due .default) (ninetyDaysOld mailKey)).2).1
      = .ok ["mail_v2"] := by decide +kernel
  obtain ⟨hsettles, -⟩ :=
    due_settled_iff World.plainSurroundings hpolicy hclock (paired_ninetyDaysOld mailKey)
  have hpaired : ∀ name, Paired (World.plainSurroundings.data rotatedMail) name := by
    intro name
    have hstands := hclock.perform (due .default)
    have hdata : World.plainSurroundings.data
        (World.plainSurroundings.perform (due .default) (ninetyDaysOld mailKey)).2
        = World.plainSurroundings.data (ninetyDaysOld mailKey) := by decide +kernel
    exact (grows_rotateAll hstands (hdata ▸ paired_ninetyDaysOld mailKey)
      (Prod.ext hrotated rfl)).1.paired name
  obtain ⟨-, hhidden⟩ :=
    due_settled_iff World.plainSurroundings hpolicy (World.standsAt_clock rotatedMail) hpaired
  obtain ⟨-, hdeleted⟩ := hhidden "mail_v1" (mailOf noon) (stored?_rotatedMail "mail_v1")
    (by decide +kernel)
  obtain ⟨names, hnames, hmem⟩ := hdeleted "mail_v2" _ isSoleSuccessor_rotatedMail
    (Prod.ext (by decide +kernel) rfl) (by decide +kernel)
  exact ⟨hlisted, hsettles _ _ _ _ _ (Prod.ext hlisted rfl) (.refl _) (Prod.ext hrotated rfl)
    (World.failures_eq_nil (by decide +kernel) _), names, hnames, hmem.2 (by decide)⟩

end Strongbox.Rotation
