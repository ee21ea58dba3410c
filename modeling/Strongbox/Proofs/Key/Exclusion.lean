import Mathlib.Logic.Function.Basic
import Strongbox.Proofs.Key.Conduct
import Strongbox.Proofs.Key.Consistency
/-!
# Operations on pairs exclude each other

Operations that run together each remember their own steps (`standingOf`). What these memories have
to do with the locks and the storage is an invariant of the run (`Exclusive`): who has custody of an
identifier holds its lock, alone, and knows what stands there; what nobody has custody of is sound;
and a rotation has its turn alone among those of its base. So each may rely on what its rules
promise it, and the invariant is kept by whatever the rules allow.

## Main results

* `Exclusive.unused_of_store`: what is about to be written to is not in use.
* `Exclusive.step`: a step that the rules allow keeps the invariant.
* `exclusive_of_passes`: it holds in every run, and every operation keeps to its rules.
-/

namespace Strongbox.Key

open Storage (Memory)

/-! ## The invariant -/

/-- The lock of what an operation has custody of. -/
def Standing.pairLock (l : Standing) : Option Lock := l.custody.map fun c => Pair.lock c.identifier

/-- The lock of the turn that a rotation has. -/
def Standing.turnLock (l : Standing) : Option Lock := l.turn.map fun turn => Rotation.lock turn.base

/-- Nobody has custody of the identifier. -/
def IsFree (l : Nat → Standing) (identifier : String) : Prop :=
  ∀ i c, (l i).custody = some c → c.identifier ≠ identifier

section Update

variable {l : Nat → Standing} {i j : Nat} {l' : Standing} {c : Custody} {identifier : String}

theorem custody_of_update (h : (Function.update l i l' j).custody = some c) :
    j = i ∧ l'.custody = some c ∨ j ≠ i ∧ (l j).custody = some c := by
  by_cases hji : j = i
  · subst hji
    rw [Function.update_self] at h
    exact .inl ⟨rfl, h⟩
  · rw [Function.update_of_ne hji] at h
    exact .inr ⟨hji, h⟩

/-- What `IsFree` after a step was free before, unless the one who has made the step had custody of
it. -/
theorem IsFree.of_update (h : IsFree (Function.update l i l') identifier)
    (hself : ∀ c, (l i).custody = some c → c.identifier ≠ identifier) : IsFree l identifier := by
  intro j c hc
  by_cases hji : j = i
  · subst hji
    exact hself c hc
  · refine h j c ?_
    rw [Function.update_of_ne hji, hc]

theorem IsFree.of_update_of_none (h : IsFree (Function.update l i l') identifier)
    (hnone : (l i).custody = none) : IsFree l identifier := by
  refine h.of_update fun c hc => ?_
  rw [hnone] at hc
  cases hc

theorem IsFree.of_update_of_ne (h : IsFree (Function.update l i l') identifier)
    (hc : (l i).custody = some c) (hother : identifier ≠ c.identifier) : IsFree l identifier := by
  refine h.of_update fun c' hc' => ?_
  rw [hc] at hc'
  cases hc'
  exact hother.symm

theorem IsFree.ne_of_self (h : IsFree (Function.update l i l') identifier)
    (hc : l'.custody = some c) : identifier ≠ c.identifier := by
  refine (h i c ?_).symm
  rw [Function.update_self, hc]

end Update

/-- A custodian knows what stands under the identifier. What stood there before was sound. -/
structure Custody.Fits (reliable : Prop) (o : Operation) (d : Memory) (c : Custody) : Prop where
  agrees : View.of d c.identifier = c.now
  sound : c.before.IsSound reliable
  orderly : ∀ creation, o = .create creation → c.now.IsOrderly

/-- What the `Standing`s of operations have to do with the locks and the storage. -/
structure Exclusive (reliable : Prop) (op : Nat → Operation) (l : Nat → Standing)
    (held : List Lock) (d : Memory) : Prop where
  pairs : HeldAlone (fun i => (l i).pairLock) held
  turns : HeldAlone (fun i => (l i).turnLock) held
  fits : ∀ {i c}, (l i).custody = some c → c.Fits reliable (op i) d
  rest : ∀ identifier, IsFree l identifier → (View.of d identifier).IsSound reliable

namespace Exclusive

variable {reliable : Prop} {op : Nat → Operation} {l : Nat → Standing} {held held' : List Lock}
  {d d' : Memory} {i j : Nat} {c c' : Custody} {identifier : String}

theorem rely (h : Exclusive reliable op l held d) (i : Nat) :
    (rules reliable (op i)).Rely (l i) d :=
  fun _ hc => ⟨(h.fits hc).agrees, (h.fits hc).orderly⟩

theorem pairLock_eq (hc : (l i).custody = some c) :
    (l i).pairLock = some (Pair.lock c.identifier) := by
  rw [Standing.pairLock, hc]
  rfl

/-- Two operations have custody of different identifiers. -/
theorem identifier_ne (h : Exclusive reliable op l held d) (hij : i ≠ j)
    (hc : (l i).custody = some c) (hc' : (l j).custody = some c') :
    c.identifier ≠ c'.identifier := by
  intro hsame
  apply hij
  refine h.pairs.alone (pairLock_eq hc) ?_
  rw [hsame]
  exact pairLock_eq hc'

/-- An identifier whose `Pair.lock` is free is in nobody's custody. -/
theorem isFree (h : Exclusive reliable op l held d) (hfree : Pair.lock identifier ∉ held) :
    IsFree l identifier := by
  rintro i c hc rfl
  exact hfree (h.pairs.mem (pairLock_eq hc))

/-- The turns of two rotations are of different bases. -/
theorem base_ne (h : Exclusive reliable op l held d) (hij : i ≠ j) {turn turn' : Turn}
    (hturn : (l i).turn = some turn) (hturn' : (l j).turn = some turn') :
    turn.base ≠ turn'.base := by
  intro hsame
  apply hij
  refine h.turns.alone (k := Rotation.lock turn.base) ?_ ?_
  · show (l i).turnLock = _
    rw [Standing.turnLock, hturn]
    rfl
  · show (l j).turnLock = _
    rw [Standing.turnLock, hturn', hsame]
    rfl

/-- What is about to be written to is not in use; for a key this goes for both halves of its pair.
-/
theorem unused_of_store (h : Exclusive reliable op l held d) {location : String}
    {content : Bytes} (hallowed : Allowed reliable (op i) (l i) (.store location content)) :
    d.get? location = none
      ∧ ∀ identifier, location = Material.location identifier →
          View.of d identifier = ⟨none, none⟩ := by
  cases hallowed with
  | quiet hquiet => cases hquiet
  | @storeKey c creation key ho hc hnone hmay =>
    have hfits := h.fits hc
    have hrecord : c.now.record = none := by
      apply Option.not_isSome_iff_eq_none.1
      intro hrecord
      have hkey := hfits.orderly creation ho hrecord
      rw [hnone] at hkey
      cases hkey
    have hview : View.of d c.identifier = ⟨none, none⟩ := by
      rw [hfits.agrees]
      show View.mk c.now.key c.now.record = _
      rw [hnone, hrecord]
    refine ⟨congrArg View.key hview, fun identifier hlocation => ?_⟩
    rw [← Material.location_inj.1 hlocation]
    exact hview
  | @storeRecord c creation record ho hc hmade hkey hnone =>
    refine ⟨?_, fun identifier hlocation => absurd hlocation (Catalogue.location_ne_location _ _)⟩
    rw [← hnone, ← (h.fits hc).agrees]
    rfl

/-! ## Steps -/

variable {l' : Standing} {stored : Option String}

/-- Each custodian still `Fits` the data. -/
theorem fits_update (h : Exclusive reliable op l held d)
    (hself : ∀ c, l'.custody = some c → c.Fits reliable (op i) d')
    (hviews : ∀ j c, j ≠ i → (l j).custody = some c →
      View.of d' c.identifier = View.of d c.identifier)
    (hc : (Function.update l i l' j).custody = some c) : c.Fits reliable (op j) d' := by
  rcases custody_of_update hc with ⟨rfl, hnew⟩ | ⟨hji, hold⟩
  · exact hself c hnew
  · have hfits := h.fits hold
    exact ⟨(hviews j c hji hold).trans hfits.agrees, hfits.sound, hfits.orderly⟩

/-- A step that leaves custodies and data alone. -/
theorem step_still (h : Exclusive reliable op l held d) (hcustody : l'.custody = (l i).custody)
    (hheld : ∀ identifier, Pair.lock identifier ∈ held → Pair.lock identifier ∈ held')
    (hturns : HeldAlone (fun j => (Function.update l i l' j).turnLock) held') :
    Exclusive reliable op (Function.update l i l') held' d := by
  have hsame := update_same Standing.custody hcustody
  refine ⟨h.pairs.keep (fun j => ?_) fun j k hk hmem => ?_, hturns, fun hc => ?_,
    fun identifier hfree => h.rest identifier fun j c hc => hfree j c ((hsame j).trans hc)⟩
  · rw [Standing.pairLock, hsame]
    rfl
  · obtain ⟨c, -, rfl⟩ := Option.map_eq_some_iff.1 hk
    exact hheld _ hmem
  · rw [hsame] at hc
    exact h.fits hc

/-- A custodian changes what stands under its identifier. -/
theorem step_write (h : Exclusive reliable op l held d) (hc : (l i).custody = some c)
    (hc' : l'.custody = some c') (hidentifier : c'.identifier = c.identifier)
    (hbefore : c'.before = c.before) (hagrees : View.of d' c.identifier = c'.now)
    (horderly : ∀ creation, op i = .create creation → c'.now.IsOrderly)
    (hturn : l'.turnLock = (l i).turnLock)
    (hviews : ∀ other, other ≠ c.identifier → View.of d' other = View.of d other) :
    Exclusive reliable op (Function.update l i l') held d' := by
  have hlocks : l'.pairLock = (l i).pairLock := by
    rw [Standing.pairLock, hc', Standing.pairLock, hc, Option.map_some, hidentifier]
    rfl
  refine ⟨h.pairs.keep (update_same Standing.pairLock hlocks) fun _ _ _ hmem => hmem,
    h.turns.keep (update_same Standing.turnLock hturn) fun _ _ _ hmem => hmem,
    h.fits_update (fun c₁ hc₁ => ?_) fun j c₁ hji hc₁ => ?_, fun identifier hfree => ?_⟩
  · rw [hc'] at hc₁
    cases hc₁
    refine ⟨?_, ?_, horderly⟩
    · rw [hidentifier, hagrees]
    · rw [hbefore]
      exact (h.fits hc).sound
  · exact hviews _ (h.identifier_ne hji hc₁ hc)
  · have hother : identifier ≠ c.identifier := by
      rw [← hidentifier]
      exact hfree.ne_of_self hc'
    rw [hviews identifier hother]
    exact h.rest identifier (hfree.of_update_of_ne hc hother)

/-- Custody is taken of what nobody has custody of. -/
theorem step_takePair (h : Exclusive reliable op l held d) (hnone : (l i).custody = none)
    (hfree : Pair.lock identifier ∉ held) :
    Exclusive reliable op (Function.update l i ((l i).acquired (Pair.lock identifier) d))
      (Pair.lock identifier :: held) d := by
  have hsound : (View.of d identifier).IsSound reliable :=
    h.rest identifier (h.isFree hfree)
  refine ⟨h.pairs.take (i := i) hfree ?_ fun j hji => ?_,
    h.turns.keep (update_same Standing.turnLock rfl) fun _ _ _ hmem => List.mem_cons_of_mem _ hmem,
    h.fits_update (fun c hc => ?_) fun _ _ _ _ => rfl,
    fun other hother => h.rest other (hother.of_update_of_none hnone)⟩
  · rw [Function.update_self]
    rfl
  · rw [Function.update_of_ne hji]
  · cases hc
    exact ⟨rfl, hsound, fun _ _ => hsound.1⟩

/-- Custody is given up of what is sound. -/
theorem step_givePair (h : Exclusive reliable op l held d) (hc : (l i).custody = some c)
    (hsound : c.before.IsSound reliable → c.now.IsSound reliable) :
    Exclusive reliable op (Function.update l i { l i with custody := none })
      (held.erase (Pair.lock c.identifier)) d := by
  refine ⟨h.pairs.give (i := i) (pairLock_eq hc) ?_ fun j hji => ?_,
    h.turns.keep (update_same Standing.turnLock rfl) fun j k hk hmem => ?_,
    h.fits_update (fun c hc => (by cases hc)) fun _ _ _ _ => rfl, fun identifier hfree => ?_⟩
  · rw [Function.update_self]
    rfl
  · rw [Function.update_of_ne hji]
  · obtain ⟨turn, -, rfl⟩ := Option.map_eq_some_iff.1 hk
    exact (List.mem_erase_of_ne fun h => (by cases h)).2 hmem
  · by_cases hidentifier : identifier = c.identifier
    · rw [hidentifier, (h.fits hc).agrees]
      exact hsound (h.fits hc).sound
    · exact h.rest identifier (hfree.of_update_of_ne hc hidentifier)

/-- A `Step` keeps operations `Exclusive`. -/
theorem step (h : Exclusive reliable op l held d) {r : Request}
    (hstep : Step reliable (op i) (l i) d r stored l' d')
    (hfree : ∀ lock, r = .acquire lock → lock ∉ held) :
    Exclusive reliable op (Function.update l i l') (r.heldAfter held) d' := by
  have hturns : ∀ {l' : Standing} {held' : List Lock}, l'.turnLock = (l i).turnLock →
      (∀ base, Rotation.lock base ∈ held → Rotation.lock base ∈ held') →
      HeldAlone (fun j => (Function.update l i l' j).turnLock) held' := by
    intro l' held' hturn hheld
    refine h.turns.keep (update_same Standing.turnLock hturn) fun j k hk hmem => ?_
    obtain ⟨turn, -, rfl⟩ := Option.map_eq_some_iff.1 hk
    exact hheld _ hmem
  cases hstep with
  | still hminor =>
    have hheld : ∀ lock ∈ held, ¬ IsMinorLock lock → lock ∈ r.heldAfter held := by
      intro lock hlock hmajor
      cases r with
      | acquire other => exact List.mem_cons_of_mem _ hlock
      | release other =>
        refine (List.mem_erase_of_ne ?_).2 hlock
        rintro rfl
        exact hmajor (hminor _ (.inr rfl))
      | _ => exact hlock
    exact h.step_still rfl (fun identifier hlock => hheld _ hlock fun hminor => hminor.1 rfl)
      (hturns rfl fun base hlock => hheld _ hlock fun hminor => hminor.2 rfl)
  | listed =>
    refine h.step_still rfl (fun _ hlock => hlock) (hturns ?_ fun _ hlock => hlock)
    rw [Standing.turnLock, Option.map_map]
    rfl
  | tookPair identifier hnone => exact h.step_takePair hnone (hfree _ rfl)
  | gavePair hc hsound => exact h.step_givePair hc hsound
  | tookTurn base hnone =>
    refine h.step_still rfl (fun _ hlock => List.mem_cons_of_mem _ hlock)
      (h.turns.take (i := i) (hfree _ rfl) ?_ fun j hji => ?_)
    · rw [Function.update_self]
      rfl
    · rw [Function.update_of_ne hji]
  | @gaveTurn turn hnone hturn =>
    refine h.step_still rfl (fun _ hlock => (List.mem_erase_of_ne fun h => (by cases h)).2 hlock)
      (h.turns.give (i := i) ?_ ?_ fun j hji => ?_)
    · show (l i).turnLock = _
      rw [Standing.turnLock, hturn]
      rfl
    · rw [Function.update_self]
      rfl
    · rw [Function.update_of_ne hji]
  | @storedKey c creation d' key ho hc hnone hmay hd' =>
    subst hd'
    refine h.step_write hc rfl rfl rfl rfl (fun _ _ _ => ?_) ?_ fun other hother =>
      View.of_insert_key_of_ne hother key
    · show (View.of _ _).key.isSome = true
      rw [View.of_insert_key]
      rfl
    · rw [Standing.turnLock, Standing.keyStored, Option.map_map]
      rfl
  | @storedRecord c creation d' record ho hc hmade hkey hnone hd' =>
    subst hd'
    refine h.step_write hc rfl rfl rfl rfl (fun _ _ _ => ?_) rfl fun other hother =>
      View.of_insert_record_of_ne hother record
    show (View.of _ _).key.isSome = true
    rw [View.of_insert_record, (h.fits hc).agrees]
    exact hkey
  | @undidKey c creation d' ho hunreliable hc hmade hkey hnone hd' =>
    subst hd'
    refine h.step_write hc rfl rfl rfl rfl (fun _ _ hrecord => ?_) rfl fun other hother =>
      View.of_erase_key_of_ne hother
    rw [show (c.update _).now = View.of _ _ from rfl, View.of_erase_key, (h.fits hc).agrees, hnone]
      at hrecord
    cases hrecord
  | @deletedHalf c identifier location d' ho hc hlocation hd' =>
    subst hd'
    refine h.step_write hc rfl rfl rfl rfl (fun _ hcreate => ?_) rfl fun other hother => ?_
    · rw [ho] at hcreate
      cases hcreate
    · rcases hlocation with rfl | rfl
      · exact View.of_erase_key_of_ne hother
      · exact View.of_erase_record_of_ne hother

end Exclusive

/-! ## Runs -/

/-- What an operation remembers of its steps after some events. -/
def standingOf (i : Nat) : List Event → Standing
  | [] => .start
  | e :: events =>
    if e.task = i then (standingOf i events).after e.request e.answer e.after
    else standingOf i events

theorem standing_rules (reliable : Prop) (o : Operation) (i : Nat) (events : List Event) :
    (rules reliable o).standing .start i events = standingOf i events := by
  induction events with
  | nil => rfl
  | cons e events ih =>
    rw [Discipline.standing, standingOf, ih]
    rfl

theorem standingOf_cons (e : Event) (events : List Event) :
    (fun j => standingOf j (e :: events))
      = Function.update (fun j => standingOf j events) e.task
          ((standingOf e.task events).after e.request e.answer e.after) := by
  have hrules := (rules True .catalogue).standing_cons .start e events
  simp only [standing_rules] at hrules
  exact hrules

variable {α : Type} {S : Surroundings} {op : Nat → Operation} {Q : Nat → Standing → α → Prop}
  {s t u : Together S.State α} {events : List Event} {i : Nat}

/-- Operations one `after` another leave whole pairs, where nothing fails. -/
theorem hasWholePairs_after (hreliable : S.IsReliable) (ops : List Operation) {s : S.State}
    (hempty : S.data s = Table.empty) : HasWholePairs (S.data (after S ops s)) := by
  intro identifier
  refine (paired_after S (undisturbed_of_isReliable hreliable ops s) (fun other => ?_)
    identifier).contains_eq
  rw [hempty]
  exact paired_empty other

/-- Programs of operations that are about to run together, over whole pairs. -/
structure Start (S : Surroundings) (op : Nat → Operation) (Q : Nat → Standing → α → Prop)
    (s : Together S.State α) : Prop where
  follows : ∀ i (p : Program α), s.tasks[i]? = some p →
    p.Follows (rules S.IsReliable (op i)) (Q i) .start
  free : s.held = []
  whole : HasWholePairs (S.data s.world)

theorem exclusive_start (h : Start S op Q s) :
    Exclusive S.IsReliable op (fun i => standingOf i []) s.held (S.data s.world) := by
  refine ⟨⟨fun h => (by cases h), fun h => (by cases h)⟩,
    ⟨fun h => (by cases h), fun h => (by cases h)⟩, fun h => (by cases h), fun identifier _ => ?_⟩
  have hsound := hasWholePairs_iff.1 h.whole identifier
  exact ⟨hsound.1, fun _ => hsound.2 trivial⟩

/-- What is known of a run of operations on pairs: they are `Exclusive`, and each keeps to its
rules. -/
theorem exclusive_of_passes (h : Start S op Q s) (hpasses : Passes S s events t) :
    Exclusive S.IsReliable op (fun i => standingOf i events) t.held (S.data t.world)
      ∧ ∀ i (p : Program α), t.tasks[i]? = some p →
          p.Follows (rules S.IsReliable (op i)) (Q i) (standingOf i events) := by
  have hmaintained := hpasses.maintains (D := fun i => rules S.IsReliable (op i)) (l := .start)
    (I := fun events t =>
      Exclusive S.IsReliable op (fun i => standingOf i events) t.held (S.data t.world))
    (fun _ => rfl) h.follows (exclusive_start h) (fun events t hinv i => ?_)
    fun events t u i r next hinv htask hallowed hstep => ?_
  · refine ⟨hmaintained.1, fun i p hp => ?_⟩
    rw [← standing_rules S.IsReliable (op i)]
    exact hmaintained.2 i p hp
  · rw [standing_rules]
    exact hinv.rely i
  · obtain ⟨r', next', htask', -, hheld, hfree, hanswered⟩ := Together.exists_of_step? hstep
    rw [htask] at htask'
    cases htask'
    rw [standing_rules] at hallowed
    rw [standingOf_cons, hheld]
    exact hinv.step (Allowed.step hallowed hanswered) hfree

/-- A step of a run is a `Step` that the rules allow. -/
theorem step_of_passes (h : Start S op Q s) (hpasses : Passes S s events t) {r : Request}
    {next : r.Response → Program α} (htask : t.tasks[i]? = some (.ask r next))
    (hstep : t.step? S.answer i = some u) :
    Step S.IsReliable (op i) (standingOf i events) (S.data t.world) r
        (r.storedAt? (S.answer r t.world).1)
        ((standingOf i events).after r (S.answer r t.world).1 (S.data u.world)) (S.data u.world)
      ∧ ∀ lock, r = .acquire lock → lock ∉ t.held := by
  obtain ⟨r', next', htask', -, -, hfree, hanswered⟩ := Together.exists_of_step? hstep
  rw [htask] at htask'
  cases htask'
  exact ⟨Allowed.step ((exclusive_of_passes h hpasses).2 i _ htask).1 hanswered, hfree⟩

/-- Who has not been among the programs has made no step: the standing is that of the `start`. -/
theorem standingOf_of_none (hpasses : Passes S s events t) (hnone : t.tasks[i]? = none) :
    standingOf i events = .start := by
  rw [← standing_rules S.IsReliable .catalogue]
  exact hpasses.standing_of_none hnone

end Strongbox.Key
