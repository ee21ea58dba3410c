import Strongbox.Proofs.Key.Exclusion
/-!
# Nobody sees half a pair

Operations on pairs run together, and each of their requests is a step that may stand between any
two of the others. Where nothing fails, whoever looks up a pair sees what one creation has made of
it, or nothing. It takes the lock of the pair for that, and at that moment both halves were written
by one program, or neither is there. From then on its outcome is one that it has alone, over whole
pairs.

Who has written what stands at a location is read off the events (`writer?`). That both halves of a
pair have one writer is an invariant of the run, except while a creation or a deletion is between
its two steps, which happens under the lock (`Origins`).

## Main results

* `origins_of_passes`: who has written the halves of a pair.
* `lookups_isolated`: what looking up a pair comes to, among other operations.
-/

namespace Strongbox.Key

open Storage (Memory)

/-! ## Writers -/

/-- Who has last stored something at a location, if anybody has. -/
def writer? (location : String) : List Event → Option Nat
  | [] => none
  | e :: events =>
    if e.request.storedAt? e.answer = some location then some e.task else writer? location events

/-- Both halves of a pair have one writer, or none. Who has custody and has written the key is its
writer, and that of the record as soon as there is one. -/
structure Origins (writer : String → Option Nat) (l : Nat → Standing) : Prop where
  rest : ∀ identifier, IsFree l identifier →
    writer (Material.location identifier) = writer (Catalogue.location identifier)
  untouched : ∀ {i c}, (l i).custody = some c → c.made = false →
    writer (Material.location c.identifier) = writer (Catalogue.location c.identifier)
  written : ∀ {i c}, (l i).custody = some c → c.made = true →
    writer (Material.location c.identifier) = some i
      ∧ (c.now.record.isSome = true → writer (Catalogue.location c.identifier) = some i)

/-- Who `writer?` names after something was stored by a program. -/
def wrote (writer : String → Option Nat) (stored : Option String) (i : Nat) : String → Option Nat :=
  fun location => if stored = some location then some i else writer location

section Wrote

variable (writer : String → Option Nat) (i : Nat) {identifier other : String}

theorem wrote_self (location : String) : wrote writer (some location) i location = some i :=
  if_pos rfl

theorem wrote_of_ne {location place : String} (h : location ≠ place) :
    wrote writer (some location) i place = writer place :=
  if_neg fun hsame => h (Option.some.inj hsame)

/-- A key is written under one identifier, so the writers of other keys and of records stay. -/
private theorem wrote_key_others (h : other ≠ identifier) :
    wrote writer (some (Material.location identifier)) i (Material.location other)
        = writer (Material.location other)
      ∧ wrote writer (some (Material.location identifier)) i (Catalogue.location other)
        = writer (Catalogue.location other) :=
  ⟨wrote_of_ne _ _ fun hsame => h (Material.location_inj.1 hsame).symm,
    wrote_of_ne _ _ (Material.location_ne_location _ _)⟩

private theorem wrote_record_others (h : other ≠ identifier) :
    wrote writer (some (Catalogue.location identifier)) i (Material.location other)
        = writer (Material.location other)
      ∧ wrote writer (some (Catalogue.location identifier)) i (Catalogue.location other)
        = writer (Catalogue.location other) :=
  ⟨wrote_of_ne _ _ (Catalogue.location_ne_location _ _),
    wrote_of_ne _ _ fun hsame => h (Catalogue.location_inj.1 hsame).symm⟩

end Wrote

namespace Origins

variable {reliable : Prop} {op : Nat → Operation} {l : Nat → Standing} {held : List Lock}
  {d d' : Memory} {i : Nat} {r : Request} {stored : Option String} {l' : Standing}
  {writer : String → Option Nat}

/-- A step that leaves custodies alone and stores nothing. -/
theorem step_same (h : Origins writer l) (hcustody : l'.custody = (l i).custody) :
    Origins (wrote writer none i) (Function.update l i l') := by
  have hwriter : wrote writer none i = writer := rfl
  have hsame := update_same Standing.custody hcustody
  rw [hwriter]
  refine ⟨fun identifier hfree => h.rest identifier fun j c hc => hfree j c ((hsame j).trans hc),
    fun hc hmade => ?_, fun hc hmade => ?_⟩
  · rw [hsame] at hc
    exact h.untouched hc hmade
  · rw [hsame] at hc
    exact h.written hc hmade

/-- A custodian has changed what stands under its identifier, and still has custody. -/
theorem step_custody (h : Origins writer l) (hexclusive : Exclusive reliable op l held d)
    {c c' : Custody} (hc : (l i).custody = some c) (hc' : l'.custody = some c')
    (hidentifier : c'.identifier = c.identifier)
    (hothers : ∀ other, other ≠ c.identifier →
      wrote writer stored i (Material.location other) = writer (Material.location other)
        ∧ wrote writer stored i (Catalogue.location other) = writer (Catalogue.location other))
    (huntouched : c'.made = false → wrote writer stored i (Material.location c.identifier)
      = wrote writer stored i (Catalogue.location c.identifier))
    (hwritten : c'.made = true → wrote writer stored i (Material.location c.identifier) = some i
      ∧ (c'.now.record.isSome = true →
          wrote writer stored i (Catalogue.location c.identifier) = some i)) :
    Origins (wrote writer stored i) (Function.update l i l') := by
  refine ⟨fun identifier hfree => ?_, fun hc₁ hmade => ?_, fun hc₁ hmade => ?_⟩
  · have hother : identifier ≠ c.identifier := by
      rw [← hidentifier]
      exact hfree.ne_of_self hc'
    rw [(hothers identifier hother).1, (hothers identifier hother).2]
    exact h.rest identifier (hfree.of_update_of_ne hc hother)
  · rcases custody_of_update hc₁ with ⟨rfl, hnew⟩ | ⟨hji, hold⟩
    · rw [hc'] at hnew
      cases hnew
      rw [hidentifier]
      exact huntouched hmade
    · have hother := hothers _ (hexclusive.identifier_ne hji hold hc)
      rw [hother.1, hother.2]
      exact h.untouched hold hmade
  · rcases custody_of_update hc₁ with ⟨rfl, hnew⟩ | ⟨hji, hold⟩
    · rw [hc'] at hnew
      cases hnew
      rw [hidentifier]
      exact hwritten hmade
    · have hother := hothers _ (hexclusive.identifier_ne hji hold hc)
      rw [hother.1, hother.2]
      exact h.written hold hmade

/-- Custody is taken of a pair whose halves have one writer. -/
theorem step_takePair (h : Origins writer l) (hexclusive : Exclusive reliable op l held d)
    {identifier : String} (hnone : (l i).custody = none) (hfree : Pair.lock identifier ∉ held) :
    Origins writer (Function.update l i ((l i).acquired (Pair.lock identifier) d)) := by
  have hequal := h.rest identifier (hexclusive.isFree hfree)
  refine ⟨fun other hother => h.rest other (hother.of_update_of_none hnone), fun hc hmade => ?_,
    fun hc hmade => ?_⟩
  · rcases custody_of_update hc with ⟨rfl, hnew⟩ | ⟨-, hold⟩
    · cases hnew
      exact hequal
    · exact h.untouched hold hmade
  · rcases custody_of_update hc with ⟨rfl, hnew⟩ | ⟨-, hold⟩
    · cases hnew
      cases hmade
    · exact h.written hold hmade

/-- Custody is given up of a pair whose halves have one writer: it was left alone, or it was
completed by who has written its key. -/
theorem step_givePair (h : Origins writer l) {c : Custody} (hc : (l i).custody = some c)
    (hcompleted : c.made = true → c.now.record.isSome = true) :
    Origins writer (Function.update l i { l i with custody := none }) := by
  have hequal : writer (Material.location c.identifier)
      = writer (Catalogue.location c.identifier) := by
    cases hmade : c.made with
    | false => exact h.untouched hc hmade
    | true =>
      obtain ⟨hkey, hrecord⟩ := h.written hc hmade
      rw [hkey, hrecord (hcompleted hmade)]
  refine ⟨fun other hother => ?_, fun hc' hmade => ?_, fun hc' hmade => ?_⟩
  · by_cases hsame : other = c.identifier
    · rw [hsame]
      exact hequal
    · exact h.rest other (hother.of_update_of_ne hc hsame)
  · rcases custody_of_update hc' with ⟨rfl, hnew⟩ | ⟨-, hold⟩
    · cases hnew
    · exact h.untouched hold hmade
  · rcases custody_of_update hc' with ⟨rfl, hnew⟩ | ⟨-, hold⟩
    · cases hnew
    · exact h.written hold hmade

/-- A `Step` of an operation, where nothing fails. -/
theorem step (h : Origins writer l) (hreliable : reliable)
    (hexclusive : Exclusive reliable op l held d)
    (hstep : Step reliable (op i) (l i) d r stored l' d')
    (hfree : ∀ lock, r = .acquire lock → lock ∉ held) :
    Origins (wrote writer stored i) (Function.update l i l') := by
  cases hstep with
  | still => exact h.step_same rfl
  | listed | tookTurn | gaveTurn => exact h.step_same rfl
  | tookPair identifier hnone => exact h.step_takePair hexclusive hnone (hfree _ rfl)
  | gavePair hc _ hcompleted =>
    exact h.step_givePair hc fun hmade => hcompleted hmade hreliable
  | @storedKey c creation d' key ho hc hnone hmay hd' =>
    have hview : View.of d c.identifier = ⟨none, none⟩ :=
      (hexclusive.unused_of_store (.storeKey key ho hc hnone hmay)).2 _ rfl
    refine h.step_custody hexclusive hc rfl rfl (fun _ hother => wrote_key_others _ _ hother)
      (fun hmade => (by cases hmade)) fun _ => ⟨wrote_self _ _ _, fun hpresent => ?_⟩
    rw [show (c.update d').now = View.of d' c.identifier from rfl, hd', View.of_insert_key, hview]
      at hpresent
    cases hpresent
  | @storedRecord c creation d' record ho hc hmade hpresent hnone hd' =>
    refine h.step_custody hexclusive hc rfl rfl (fun _ hother => wrote_record_others _ _ hother)
      (fun hnot => ?_) fun _ => ⟨?_, fun _ => wrote_self _ _ _⟩
    · rw [show (c.update d').made = c.made from rfl, hmade] at hnot
      cases hnot
    · rw [wrote_of_ne _ _ (Catalogue.location_ne_location _ _)]
      exact (h.written hc hmade).1
  | undidKey _ hunreliable => exact absurd hreliable hunreliable
  | @deletedHalf c identifier location d' ho hc hlocation hd' =>
    refine h.step_custody hexclusive hc rfl rfl (fun _ _ => ⟨rfl, rfl⟩) (fun hmade => ?_)
      fun hmade => ⟨(h.written hc hmade).1, fun hpresent => (h.written hc hmade).2 ?_⟩
    · exact h.untouched hc hmade
    · rw [← (hexclusive.fits hc).agrees]
      rw [show (c.update d').now = View.of d' c.identifier from rfl, hd'] at hpresent
      rcases hlocation with rfl | rfl
      · rwa [View.of_erase_key] at hpresent
      · rw [View.of_erase_record] at hpresent
        cases hpresent

end Origins

/-! ## Runs -/

variable {α β : Type} {S : Surroundings} {op : Nat → Operation} {Q : Nat → Standing → α → Prop}
  {s t : Together S.State α} {events : List Event} {i : Nat} {identifier : String} {view : View}

/-- In every run of operations on pairs where nothing fails, both halves of a pair have one
`writer?`, unless it is being made. -/
theorem origins_of_passes (h : Start S op Q s) (hreliable : S.IsReliable)
    (hpasses : Passes S s events t) :
    Origins (fun location => writer? location events) (fun i => standingOf i events) := by
  induction hpasses with
  | start =>
    exact ⟨fun _ _ => rfl, fun hc => (by cases hc), fun hc => (by cases hc)⟩
  | @step events t u i r next hpasses htask hstep ih =>
    obtain ⟨hallowed, hfree⟩ := step_of_passes h hpasses htask hstep
    rw [standingOf_cons]
    exact ih.step hreliable (exclusive_of_passes h hpasses).1 hallowed hfree

/-! ## What is found under a lock -/

/-- At some moment a program has taken the lock of a pair. This stood under the identifier then, and
both halves had one writer. -/
def Found (events : List Event) (i : Nat) (identifier : String) (view : View) : Prop :=
  ∃ later e earlier, events = later ++ e :: earlier ∧ e.task = i
    ∧ e.request = .acquire (Pair.lock identifier) ∧ View.of e.after identifier = view
    ∧ writer? (Material.location identifier) (e :: earlier)
        = writer? (Catalogue.location identifier) (e :: earlier)

theorem Found.append (h : Found events i identifier view) (later : List Event) :
    Found (later ++ events) i identifier view := by
  obtain ⟨between, e, earlier, rfl, hrest⟩ := h
  exact ⟨later ++ between, e, earlier, (List.append_assoc _ _ _).symm, hrest⟩

private theorem Standing.seen_after_or (l : Standing) (r : Request) (x : r.Response) (d : Memory) :
    (l.after r x d).seen = l.seen
      ∨ ∃ identifier, r = .acquire (Pair.lock identifier)
          ∧ l.after r x d = l.acquired (Pair.lock identifier) d := by
  cases r with
  | store location content =>
    cases x with
    | error e => exact .inl rfl
    | ok u =>
      left
      show (l.stored location d).seen = l.seen
      rw [stored]
      cases l.custody with
      | none => rfl
      | some c =>
        show (if _ then _ else _ : Standing).seen = _
        split <;> rfl
  | acquire lock =>
    obtain ⟨kind, identifier⟩ := lock
    cases kind with
    | pair => exact .inr ⟨identifier, rfl, rfl⟩
    | rotation | key | metadata | credential => exact .inl rfl
  | release lock =>
    obtain ⟨kind, identifier⟩ := lock
    cases kind <;> exact .inl rfl
  | delete | list | retrieve | contains | draw => cases x <;> exact .inl rfl
  | now => exact .inl rfl

/-- What a program has `seen` under an identifier, it has seen as it has taken the lock. -/
private theorem exists_of_mem_seen (h : (identifier, view) ∈ (standingOf i events).seen) :
    ∃ later e earlier, events = later ++ e :: earlier ∧ e.task = i
      ∧ e.request = .acquire (Pair.lock identifier) ∧ View.of e.after identifier = view
      ∧ (standingOf i (e :: earlier)).custody = some ⟨identifier, view, view, false⟩ := by
  induction events with
  | nil => cases h
  | cons e events ih =>
    have hlater : (identifier, view) ∈ (standingOf i events).seen →
        ∃ later e' earlier, e :: events = later ++ e' :: earlier ∧ e'.task = i
          ∧ e'.request = .acquire (Pair.lock identifier) ∧ View.of e'.after identifier = view
          ∧ (standingOf i (e' :: earlier)).custody = some ⟨identifier, view, view, false⟩ := by
      intro hmem
      obtain ⟨later, e', earlier, rfl, hrest⟩ := ih hmem
      exact ⟨e :: later, e', earlier, rfl, hrest⟩
    rw [standingOf] at h
    by_cases htask : e.task = i
    · rw [if_pos htask] at h
      rcases (standingOf i events).seen_after_or e.request e.answer e.after with
        hsame | ⟨other, hrequest, hacquired⟩
      · rw [hsame] at h
        exact hlater h
      · rw [hacquired] at h
        rcases List.mem_cons.1 h with hfirst | hmem
        · cases hfirst
          refine ⟨[], e, events, rfl, htask, hrequest, rfl, ?_⟩
          rw [standingOf, if_pos htask, hacquired]
          rfl
        · exact hlater hmem
    · rw [if_neg htask] at h
      exact hlater h

/-- What was `seen` under an identifier was sound, and both halves had one writer. -/
private theorem found_of_mem_seen (h : Start S op Q s) (hreliable : S.IsReliable)
    (hpasses : Passes S s events t) (hseen : (identifier, view) ∈ (standingOf i events).seen) :
    Found events i identifier view ∧ view.IsSound True := by
  obtain ⟨later, e, earlier, rfl, htask, hrequest, hview, hcustody⟩ := exists_of_mem_seen hseen
  obtain ⟨t', hpasses', -⟩ := hpasses.exists_of_append
  have hwriters := (origins_of_passes h hreliable hpasses').untouched hcustody rfl
  have hsound := ((exclusive_of_passes h hpasses').1.fits hcustody).sound
  exact ⟨⟨later, e, earlier, rfl, htask, hrequest, hview, hwriters⟩,
    hsound.1, fun _ => hsound.2 hreliable⟩

/-! ## Looking up among others -/

/-- The outcome is one that the action has alone, over data in which every pair is whole. They have
under the identifier what the program has `Found` under its lock, unless no key can be named so. -/
def AsIfAlone (events : List Event) (i : Nat) (identifier : String) (action : Action β)
    (outcome : Outcome β) : Prop :=
  ∃ d failed, HasWholePairs d ∧ action.Runs d outcome d failed ∧ Served failed
    ∧ (¬ IsIdentifier identifier ∨ Found events i identifier (View.of d identifier))

theorem AsIfAlone.append {action : Action β} {outcome : Outcome β}
    (h : AsIfAlone events i identifier action outcome) (later : List Event) :
    AsIfAlone (later ++ events) i identifier action outcome := by
  obtain ⟨d, failed, hwhole, hrun, hserved, hfound⟩ := h
  exact ⟨d, failed, hwhole, hrun, hserved, hfound.imp_right (·.append later)⟩

theorem asIfAlone_of_readAlone (h : Start S op Q s) (hreliable : S.IsReliable)
    (hpasses : Passes S s events t) {action : Action β} {outcome : Outcome β}
    (hread : ReadAlone S.IsReliable action identifier (standingOf i events) outcome) :
    AsIfAlone events i identifier action outcome := by
  have hview : ∀ view : View, View.of (view.only identifier) identifier = view := by
    intro view
    rw [View.of_only, if_pos rfl]
  rcases hread with ⟨hunnamed, halone⟩ | ⟨view, hseen, halone⟩
  · have hsound : (View.mk none none).IsSound True :=
      ⟨fun hrecord => (by cases hrecord), fun _ hkey => (by cases hkey)⟩
    obtain ⟨failed, hrun, hserved⟩ := halone ⟨none, none⟩ _ (hview _)
    exact ⟨_, failed, View.hasWholePairs_only hsound, hrun, hserved hreliable, .inl hunnamed⟩
  · obtain ⟨hfound, hsound⟩ := found_of_mem_seen h hreliable hpasses hseen
    obtain ⟨failed, hrun, hserved⟩ := halone _ (hview view)
    refine ⟨_, failed, View.hasWholePairs_only hsound, hrun, hserved hreliable, .inr ?_⟩
    rw [hview]
    exact hfound

/-- A program that begins by looking up a pair is still at it, or what it has looked up is what it
would have looked up alone. -/
def LooksUpAlone (events : List Event) (i : Nat) (identifier : String) : Prop :=
  (∃ r next, (Pair.load identifier).run.Takes (traceOf i events) (.ask r next))
    ∨ ∃ first rest outcome, traceOf i events = first ++ rest
        ∧ (Pair.load identifier).run.Takes first (.done outcome)
        ∧ AsIfAlone events i identifier (Pair.load identifier) outcome

/-- The beginning of a trace is `traceOf` the events up to some moment. -/
private theorem exists_of_traceOf_eq {first rest : Trace} (h : traceOf i events = first ++ rest) :
    ∃ later earlier, events = later ++ earlier ∧ traceOf i earlier = first := by
  induction events generalizing rest with
  | nil =>
    have hfirst : first = [] := (List.append_eq_nil_iff.1 h.symm).1
    exact ⟨[], [], rfl, hfirst.symm⟩
  | cons e events ih =>
    rw [traceOf] at h
    by_cases htask : e.task = i
    · rw [if_pos htask] at h
      rcases List.eq_nil_or_concat rest with rfl | ⟨rest', last, rfl⟩
      · refine ⟨[], e :: events, rfl, ?_⟩
        rw [traceOf, if_pos htask, h, List.append_nil]
      · rw [List.concat_eq_append, ← List.append_assoc] at h
        obtain ⟨later, earlier, rfl, hfirst⟩ := ih (List.append_inj_left' h rfl)
        exact ⟨e :: later, earlier, rfl, hfirst⟩
    · rw [if_neg htask] at h
      obtain ⟨later, earlier, rfl, hfirst⟩ := ih h
      exact ⟨e :: later, earlier, rfl, hfirst⟩

theorem looksUpAlone_of_passes (h : Start S op Q s) (hreliable : S.IsReliable)
    (hpasses : Passes S s events t) {f : Outcome (Bytes × Metadata) → Program α}
    (htask : s.tasks[i]? = some ((Pair.load identifier).run.bind f)) :
    LooksUpAlone events i identifier := by
  obtain ⟨q, -, htakes⟩ := hpasses.takes htask
  rcases htakes.of_bind with ⟨r, next, htakes, -⟩ | ⟨first, rest, outcome, htrace, hfirst, -⟩
  · exact .inl ⟨r, next, htakes⟩
  · obtain ⟨later, earlier, rfl, rfl⟩ := exists_of_traceOf_eq htrace
    obtain ⟨t', hpasses', -⟩ := hpasses.exists_of_append
    have hlooked := hpasses'.follows (D := rules S.IsReliable (op i)) rfl
      (fun earlier t' hpasses => by
        rw [standing_rules]
        exact (exclusive_of_passes h hpasses).1.rely i)
      (Pair.follows_load rfl) hfirst
    rw [standing_rules] at hlooked
    refine .inr ⟨_, rest, outcome, htrace, hfirst, ?_⟩
    exact (asIfAlone_of_readAlone h hreliable hpasses'
      (Pair.Looked.readAlone hlooked)).append later

/-- The identifier of the pair that an operation begins by looking up, if it does. -/
def Operation.lookedUp? : Operation → Option String
  | encrypt identifier _ _ | decrypt identifier _ _ => some identifier
  | create (.rotate identifier) | create (.rotateUnique identifier) => some identifier
  | _ => none

private theorem Operation.exists_of_lookedUp? {o : Operation} (h : o.lookedUp? = some identifier) :
    ∃ next, o.action = Pair.load identifier >>= next := by
  cases o with
  | create c =>
    cases c with
    | rotate other | rotateUnique other =>
      cases h
      exact ⟨_, rfl⟩
    | generate | generateUnique | importKey => cases h
  | encrypt | decrypt =>
    cases h
    exact ⟨_, rfl⟩
  | _ => cases h

/-- Where nothing fails, operations on pairs may run together in any order of their steps. Whoever
looks up a pair by `Pair.load`, as encryptions, decryptions and rotations do, looks up what it would
have looked up alone over whole pairs (`LooksUpAlone`), and so do encryptions and decryptions end
(`AsIfAlone`). -/
theorem lookups_isolated (S : Surroundings) (hreliable : S.IsReliable) (ops : List Operation)
    (hpairs : ∀ o ∈ ops, o.IsOnPairs) (s : S.State) (hwhole : HasWholePairs (S.data s))
    {events : List Event} {t : Together S.State (Σ o : Operation, Outcome o.Result)}
    (hpasses : Passes S (.start s (ops.map Operation.task)) events t) {i : Nat} {o : Operation}
    (ho : ops[i]? = some o) {identifier : String} (hlooksUp : o.lookedUp? = some identifier) :
    LooksUpAlone events i identifier
      ∧ ∀ result, t.tasks[i]? = some (.done result) →
          ∃ outcome : Outcome o.Result, result = ⟨o, outcome⟩
            ∧ ((∀ c, o ≠ .create c) → AsIfAlone events i identifier o.action outcome) := by
  let op : Nat → Operation := fun i => (ops[i]?).getD (.delete "")
  have hstart : Start S op (fun i => (op i).TaskEnds S.IsReliable)
      (.start s (ops.map Operation.task)) := by
    refine ⟨fun j p hp => ?_, rfl, hwhole⟩
    obtain ⟨other, hother, rfl⟩ := Option.map_eq_some_iff.1 (List.getElem?_map.symm.trans hp)
    have hop : op j = other := by
      show (ops[j]?).getD _ = _
      rw [hother]
      rfl
    rw [hop]
    exact other.follows_task (hpairs other (List.mem_of_getElem? hother)) fun _ _ => hreliable
  have hop : op i = o := by
    show (ops[i]?).getD _ = _
    rw [ho]
    rfl
  refine ⟨?_, fun result hdone => ?_⟩
  · obtain ⟨next, hnext⟩ := Operation.exists_of_lookedUp? hlooksUp
    have htask : (ops.map Operation.task)[i]? = some o.task := by
      rw [List.getElem?_map, ho]
      rfl
    have hrun : o.task = (Pair.load identifier).run.bind fun found =>
        (ExceptT.bindCont next found).bind fun outcome => .done ⟨o, outcome⟩ := by
      rw [Operation.task, hnext]
      exact Program.bind_assoc _ _ _
    rw [hrun] at htask
    exact looksUpAlone_of_passes hstart hreliable hpasses htask
  · have hends : (op i).TaskEnds S.IsReliable (standingOf i events) result :=
      (exclusive_of_passes hstart hpasses).2 i _ hdone
    rw [hop] at hends
    obtain ⟨outcome, rfl, hends⟩ := hends
    refine ⟨outcome, rfl, fun hreads => ?_⟩
    cases o with
    | create c => exact absurd rfl (hreads c)
    | encrypt | decrypt =>
      cases hlooksUp
      exact asIfAlone_of_readAlone hstart hreliable hpasses hends.2
    | _ => cases hlooksUp

/-- A world with a key for mail. -/
def keyedWorld : World.plainSurroundings.State :=
  after World.plainSurroundings [.create (.generate "mail" .aesCbc Table.empty)] keylessWorld

/-- The key is deleted and made anew, and a letter is encrypted under it. -/
def turmoil : List Operation :=
  [.delete "mail_v1", .create (.generate "mail" .aesCbc Table.empty),
    .encrypt "mail_v1" [1, 2, 3] none]

/-- The operations after they have taken 60 steps each by turns, as far as they could step. -/
def settled : Together World.plainSurroundings.State (Σ o : Operation, Outcome o.Result) :=
  (Together.start keyedWorld (turmoil.map Operation.task)).run World.plainSurroundings.answer
    (List.replicate 60 [0, 1, 2]).flatten

/-- The encryption has waited for the others, and ends `AsIfAlone`. -/
theorem encrypted_in_turmoil :
    World.plainSurroundings.IsReliable ∧ (∀ o ∈ turmoil, o.IsOnPairs)
      ∧ HasWholePairs (World.plainSurroundings.data keyedWorld)
      ∧ ∃ events, Passes World.plainSurroundings
            (.start keyedWorld (turmoil.map Operation.task)) events settled
          ∧ LooksUpAlone events 2 "mail_v1"
          ∧ ∃ outcome : Outcome Bytes,
              settled.tasks[2]? = some (.done ⟨.encrypt "mail_v1" [1, 2, 3] none, outcome⟩)
                ∧ AsIfAlone events 2 "mail_v1" (Manager.encrypt "mail_v1" [1, 2, 3] none)
                    outcome := by
  have hreliable := World.isReliable_plainSurroundings
  have hpairs : ∀ o ∈ turmoil, o.IsOnPairs := by
    intro o ho
    rcases List.mem_cons.1 ho with rfl | ho
    · trivial
    rcases List.mem_cons.1 ho with rfl | ho
    · trivial
    rw [List.mem_singleton.1 ho]
    trivial
  have hwhole : HasWholePairs (World.plainSurroundings.data keyedWorld) :=
    hasWholePairs_after hreliable _ rfl
  obtain ⟨events, hpasses⟩ := Passes.start.of_reaches
    (Together.reaches_run World.plainSurroundings.answer
      (.start keyedWorld (turmoil.map Operation.task)) (List.replicate 60 [0, 1, 2]).flatten)
  rw [List.append_nil] at hpasses
  have hresult : ((settled.tasks[2]?).bind Program.result?).isSome = true := by decide +kernel
  obtain ⟨result, hresult⟩ := Option.isSome_iff_exists.1 hresult
  obtain ⟨p, hp, hdone⟩ := Option.bind_eq_some_iff.1 hresult
  rw [Program.eq_done_of_result? hdone] at hp
  obtain ⟨hlooksUp, hends⟩ := lookups_isolated World.plainSurroundings hreliable turmoil hpairs
    keyedWorld hwhole hpasses (i := 2) rfl rfl
  obtain ⟨outcome, rfl, halone⟩ := hends result hp
  exact ⟨hreliable, hpairs, hwhole, events, hpasses, hlooksUp, outcome, hp,
    halone fun c hc => by cases hc⟩

end Strongbox.Key
