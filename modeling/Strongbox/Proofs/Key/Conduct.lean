import Strongbox.Proofs.Key.Custody
/-!
# The operations on pairs keep to the rules

Each operation is followed from request to request, whatever the answers are. Inside the lock of a
pair it is known what stands there, so that what is written is new and what is left is sound.

## Main results

* `Pair.follows_load`: a pair is looked up under its lock, and what comes of it comes of looking it
  up alone.
* `Pair.follows_create`, `Pair.follows_delete`: making and deleting a pair keep to the rules.
* `Operation.follows`: so do the operations on pairs, and how they end.
-/

namespace Strongbox.Key

open Storage (Memory)

variable {reliable : Prop} {o : Operation} {l : Standing} {identifier : String}

theorem isMinorLock_material (identifier : String) : IsMinorLock (Material.lock identifier) :=
  ⟨by simp [Material.lock], by simp [Material.lock]⟩

theorem isMinorLock_catalogue (identifier : String) : IsMinorLock (Catalogue.lock identifier) :=
  ⟨by simp [Catalogue.lock], by simp [Catalogue.lock]⟩

/-- A lock that goes with neither custody nor a turn can be taken anywhere. -/
theorem follows_minorLock {α : Type} {lock : Lock} {action : Action α}
    {Q : Standing → Outcome α → Prop} (hlock : IsMinorLock lock)
    (h : action.Follows (rules reliable o) Q l) :
    (Action.withLock lock action).Follows (rules reliable o) Q l := by
  have hacquire : ∀ l d, (rules reliable o).after l (.acquire lock) () d = l :=
    fun l d => after_of_quiet (r := .acquire lock) hlock () d
  have hrelease : ∀ l d, (rules reliable o).after l (.release lock) () d = l :=
    fun l d => after_of_quiet (r := .release lock) hlock () d
  refine Action.follows_withLock (R := Q) (.quiet hlock) (fun d _ => ?_) fun l' outcome hQ =>
    ⟨.quiet hlock, fun d _ => ?_⟩
  · rw [hacquire]
    exact h
  · rw [hrelease]
    exact hQ

/-- An operation that has custody of nothing takes it, keeps it in order and gives it up. -/
theorem follows_pairLock {α : Type} {action : Action α} {Q : Standing → Outcome α → Prop}
    (hfree : l.custody = none)
    (h : ∀ view, action.Follows (rules reliable o)
      (fun l' outcome => ∃ c, l'.custody = some c ∧ c.identifier = identifier
        ∧ (c.before.IsSound reliable → c.now.IsSound reliable)
        ∧ (c.made = true → reliable → c.now.record.isSome = true)
        ∧ Q { l' with custody := none } outcome)
      { l with
        custody := some ⟨identifier, view, view, false⟩, seen := (identifier, view) :: l.seen }) :
    (Action.withLock (Pair.lock identifier) action).Follows (rules reliable o) Q l := by
  refine Action.follows_withLock (.takePair identifier hfree) (fun d _ => h (.of d identifier))
    fun l' outcome hend => ?_
  obtain ⟨c, hc, rfl, hsound, hcompleted, hQ⟩ := hend
  exact ⟨.givePair hc hsound hcompleted, fun _ _ => hQ⟩

/-- The outcome is one that the action has alone, over any data with that `View`, without failures
that the surroundings exclude. -/
def HasAlone {α : Type} (reliable : Prop) (action : Action α) (identifier : String) (view : View)
    (outcome : Outcome α) : Prop :=
  ∀ d, View.of d identifier = view → ∃ failed, action.Runs d outcome d failed
    ∧ (reliable → ∀ r ∈ failed, ∃ source size, r = .draw source size)

namespace Pair

/-! ## Looking up -/

theorem IsLookup.isQuiet {r : Request} (h : IsLookup identifier r) : IsQuiet r := by
  cases r with
  | retrieve => trivial
  | acquire lock | release lock =>
    rcases h with rfl | rfl
    · exact isMinorLock_material identifier
    · exact isMinorLock_catalogue identifier
  | _ => cases h

/-- What is looked up depends on the `View` alone. -/
private theorem IsLookup.serves {r : Request} {x : r.Response} {d d' d₁ : Memory}
    (h : IsLookup identifier r) (hserves : r.Serves x d d')
    (hview : View.of d₁ identifier = View.of d identifier) : r.Serves x d₁ d₁ := by
  obtain ⟨hkey, hrecord⟩ := View.mk.inj hview
  cases hserves with
  | retrieved hget =>
    rcases h with rfl | rfl
    · exact .retrieved (hkey.trans hget)
    · exact .retrieved (hrecord.trans hget)
  | nothingRetrieved name hget =>
    rcases h with rfl | rfl
    · exact .nothingRetrieved name (hkey.trans hget)
    · exact .nothingRetrieved name (hrecord.trans hget)
  | acquired lock => exact .acquired lock d₁
  | released lock => exact .released lock d₁
  | _ => cases h

/-- What can come of `load`: it is refused for the identifier, or it has the outcome that it has
alone over what was found when the lock was taken. -/
inductive Looked (reliable : Prop) (identifier : String) (l : Standing) :
    Standing → Outcome (Bytes × Metadata) → Prop where
  | unnamed {e : Error} : ¬ IsIdentifier identifier →
    (∀ view, HasAlone reliable (load identifier) identifier view (.error (.failed e))) →
    Looked reliable identifier l l (.error (.failed e))
  | seen {view : View} {outcome : Outcome (Bytes × Metadata)} :
    HasAlone reliable (load identifier) identifier view outcome →
    Looked reliable identifier l { l with seen := (identifier, view) :: l.seen } outcome

theorem follows_load (hfree : l.custody = none) :
    (load identifier).Follows (rules reliable o) (Looked reliable identifier l) l := by
  refine Action.follows_ofExcept_bind (fun _ hchecked => ?_) fun e he => ?_
  · refine follows_pairLock hfree fun view => ?_
    have hsteady : ∀ l : Standing, l.custody = some ⟨identifier, view, view, false⟩ →
        (loadLocked identifier).Follows (rules reliable o)
          (fun l' outcome => l' = l
            ∧ HasAlone reliable (loadLocked identifier) identifier view outcome)
          l := by
      intro l hcustody
      exact Program.follows_of_steady (looksUp_loadLocked identifier).asks
        (fun r hr => .quiet hr.isQuiet) (fun r x d hr => after_of_quiet hr.isQuiet x d)
        (fun d hrely => (hrely _ hcustody).1)
        fun r x d d' hr hserves hd d₁ hd₁ => hr.serves hserves (hd₁.trans hd.symm)
    refine (hsteady _ rfl).mono ?_
    rintro l' outcome ⟨rfl, hruns⟩
    refine ⟨_, rfl, rfl, id, fun h => (by cases h), ?_⟩
    have hstanding : { l with custody := none, seen := (identifier, view) :: l.seen }
        = { l with seen := (identifier, view) :: l.seen } := by rw [hfree]
    show Looked reliable identifier l { l with custody := none, seen := _ } outcome
    rw [hstanding]
    refine .seen fun d hd => ?_
    obtain ⟨failed, hrun, hfailed⟩ := hruns d hd
    exact ⟨failed, Action.runs_ofExcept_bind_iff.2
      (.inl ⟨(), hchecked, Action.runs_withLock_iff.2 hrun⟩), hfailed⟩
  · refine .unnamed (not_isIdentifier_of_error he) fun view d _ =>
      ⟨[], ?_, fun _ _ h => absurd h List.not_mem_nil⟩
    exact Action.runs_ofExcept_bind_iff.2 (.inr ⟨e, he, rfl, rfl, rfl⟩)

/-- A lookup that finds a pair has seen a `View` that is whole. -/
private theorem isWhole_of_hasAlone {view : View} {key : Bytes} {m : Metadata}
    (h : HasAlone reliable (load identifier) identifier view (.ok (key, m))) : view.IsWhole := by
  have hview : View.of (view.only identifier) identifier = view := by
    rw [View.of_only, if_pos rfl]
  obtain ⟨failed, hrun, -⟩ := h _ hview
  have hloaded := (runs_load hrun).2
  cases hloaded with
  | loaded _ hkey hrecord _ =>
    rw [← hview]
    constructor
    · show Option.isSome (Table.get? _ _) = true
      rw [hkey]
      rfl
    · show Option.isSome (Table.get? _ _) = true
      rw [hrecord]
      rfl

/-! ## Making -/

/-- What is left to be said at the end of a creation, or of its part that makes the pair: custody is
given up, the turn is still that of the same base, and a pair is completed if there is a result. -/
structure Makes {α : Type} (l : Standing) (identifier : String) (l' : Standing)
    (outcome : Outcome α) : Prop where
  custody : l'.custody = none
  turn : l'.turn.map (·.base) = l.turn.map (·.base)
  made : ∀ a, outcome = .ok a → l'.made = identifier :: l.made
  undone : ∀ halt, outcome = .error halt → l'.made = l.made

variable {creation : Creation} {view : View}

/-- A standing in custody of an identifier. -/
def inCustody (l : Standing) (identifier : String) (before now : View) (made : Bool) : Standing :=
  { l with custody := some ⟨identifier, before, now, made⟩ }

private theorem stored_key (l : Standing) (identifier : String) (before now : View) (made : Bool)
    (d : Memory) :
    (inCustody l identifier before now made).stored (Material.location identifier) d
      = inCustody { l with turn := l.turn.map fun turn => { turn with listing := none } } identifier
        before (.of d identifier) true := by
  rw [Standing.stored]
  simp only [inCustody, if_true, Standing.keyStored, Custody.update]

private theorem stored_record (l : Standing) (identifier : String) (before now : View) (made : Bool)
    (d : Memory) :
    (inCustody l identifier before now made).stored (Catalogue.location identifier) d
      = inCustody { l with made := identifier :: l.made } identifier before (.of d identifier)
        made := by
  rw [Standing.stored]
  simp only [inCustody, Catalogue.location_ne_location, if_false, Standing.recordStored,
    Custody.update]

/-- A key is written by `Material.create` where there is neither key nor record, or nothing is done.
-/
theorem follows_createKey {key : Bytes}
    (hmay : creation.MayMake (inCustody l identifier view view false) identifier) :
    (Material.create identifier key).Follows (rules reliable (.create creation))
      (fun l' outcome => match outcome with
        | .ok _ => IsIdentifier identifier ∧ l' = inCustody { l with
            turn := l.turn.map fun turn => { turn with listing := none } } identifier view
            ⟨some key, none⟩ true
        | .error _ => l' = inCustody l identifier view view false)
      (inCustody l identifier view view false) := by
  refine Action.follows_ofExcept_bind (fun _ hchecked => ?_) fun _ _ => rfl
  refine Action.follows_ofExcept_bind (fun _ _ => ?_) fun _ _ => rfl
  refine follows_minorLock (isMinorLock_material identifier) ?_
  refine Action.follows_contains_bind (.quiet trivial) (fun d hrely => ?_) fun _ _ _ => rfl
  obtain ⟨hview, horderly⟩ := hrely _ rfl
  show Action.Follows _ _ _ (if d.contains (Material.location identifier) = true then _ else _)
  by_cases hkey : d.contains (Material.location identifier) = true
  · rw [if_pos hkey]
    rfl
  · rw [if_neg hkey]
    have hnoKey : view.key = none := by
      rw [← show View.of d identifier = view from hview]
      exact Option.not_isSome_iff_eq_none.1 hkey
    have hnoRecord : view.record = none := by
      apply Option.not_isSome_iff_eq_none.1
      intro hrecord
      have hsome := horderly creation rfl hrecord
      rw [hnoKey] at hsome
      cases hsome
    have hallows : Allowed reliable (.create creation) (inCustody l identifier view view false)
        (.store (Material.location identifier) key) :=
      .storeKey (c := ⟨identifier, view, view, false⟩) key rfl rfl hnoKey hmay
    refine Action.follows_store hallows (fun d hrely => ?_) fun _ _ _ _ => rfl
    refine ⟨checkIdentifier_eq_ok_iff.1 hchecked, ?_⟩
    have hview : View.of (d.insert (Material.location identifier) key) identifier
        = ⟨some key, none⟩ := by
      rw [View.of_insert_key, show View.of d identifier = view from (hrely _ rfl).1, hnoRecord]
    refine (stored_key l identifier view view false _).trans ?_
    rw [hview]

/-- A record is written by `Catalogue.store` next to the key that was just written, unless the
storage fails. -/
theorem follows_storeRecord {m : Metadata} {before : View} {key : Bytes}
    (hname : IsIdentifier m.id) :
    (Catalogue.store m).Follows (rules reliable (.create creation))
      (fun l' outcome => match outcome with
        | .ok _ => l' = inCustody { l with made := m.id :: l.made } m.id before
            ⟨some key, some m.write⟩ true
        | .error _ => ¬ reliable ∧ l' = inCustody l m.id before ⟨some key, none⟩ true)
      (inCustody l m.id before ⟨some key, none⟩ true) := by
  refine Action.follows_ofExcept_bind (fun _ _ => ?_) fun e he => ?_
  · refine follows_minorLock (isMinorLock_catalogue m.id) ?_
    have hallows : Allowed reliable (.create creation)
        (inCustody l m.id before ⟨some key, none⟩ true)
        (.store (Catalogue.location m.id) m.write) :=
      .storeRecord (c := ⟨m.id, before, ⟨some key, none⟩, true⟩) m.write rfl rfl rfl rfl rfl
    refine Action.follows_store hallows (fun d hrely => ?_) fun hunreliable _ _ _ =>
      ⟨hunreliable, rfl⟩
    have hview : View.of (d.insert (Catalogue.location m.id) m.write) m.id
        = ⟨some key, some m.write⟩ := by
      rw [View.of_insert_record, show View.of d m.id = ⟨some key, none⟩ from (hrely _ rfl).1]
    refine (stored_record l m.id before _ true _).trans ?_
    rw [hview]
  · exact absurd hname (not_isIdentifier_of_error he)

/-- A key whose record could not be written is taken back by `Material.delete`, if the storage lets
it. -/
theorem follows_undoKey {before : View} {key : Bytes} (hunreliable : ¬ reliable) :
    (Material.delete identifier).Follows (rules reliable (.create creation))
      (fun l' _ => ∃ left, l' = inCustody l identifier before ⟨left, none⟩ true)
      (inCustody l identifier before ⟨some key, none⟩ true) := by
  have hdelete : (Material.deleteIfPresent identifier).Follows (rules reliable (.create creation))
      (fun l' _ => ∃ left, l' = inCustody l identifier before ⟨left, none⟩ true)
      (inCustody l identifier before ⟨some key, none⟩ true) := by
    refine Action.follows_ofExcept_bind (fun _ _ => ?_) fun _ _ => ⟨some key, rfl⟩
    refine follows_minorLock (isMinorLock_material identifier) ?_
    have hallows : Allowed reliable (.create creation)
        (inCustody l identifier before ⟨some key, none⟩ true)
        (.delete (Material.location identifier)) :=
      .undoKey (c := ⟨identifier, before, ⟨some key, none⟩, true⟩) rfl hunreliable rfl rfl rfl rfl
    refine Action.follows_deleteIfPresent hallows (fun d hrely => ⟨none, ?_⟩)
      (fun _ _ _ _ => ⟨some key, rfl⟩) fun _ _ _ _ => ⟨some key, rfl⟩
    have hview : View.of (d.erase (Material.location identifier)) identifier = ⟨none, none⟩ := by
      rw [View.of_erase_key, show View.of d identifier = ⟨some key, none⟩ from (hrely _ rfl).1]
    show inCustody l identifier before (.of _ identifier) true = _
    rw [hview]
  refine Action.follows_bind hdelete (fun l' found hleft => ?_) fun _ _ hleft => hleft
  cases found with
  | true => exact hleft
  | false => exact hleft

theorem follows_create {key : Bytes} {m : Metadata} (hfree : l.custody = none)
    (hmay : ∀ view, creation.MayMake
      (inCustody { l with seen := (m.id, view) :: l.seen } m.id view view false) m.id) :
    (create key m).Follows (rules reliable (.create creation)) (Makes l m.id) l := by
  have hturn : (l.turn.map fun turn => { turn with listing := none }).map (·.base)
      = l.turn.map (·.base) := by
    rw [Option.map_map]
    rfl
  refine follows_pairLock hfree fun view => ?_
  refine Action.follows_bind (follows_createKey (hmay view)) (fun l₁ _ hkey => ?_)
    fun l₁ halt hkey => ?_
  · obtain ⟨hname, rfl⟩ := hkey
    refine Action.follows_attempt_bind (follows_storeRecord hname) fun l₂ stored hrecord => ?_
    cases stored with
    | ok _ =>
      obtain rfl := hrecord
      refine ⟨_, rfl, rfl, fun _ => ⟨fun _ => rfl, fun _ _ => rfl⟩, fun _ _ => rfl, ?_⟩
      exact ⟨rfl, hturn, fun _ _ => rfl, fun _ h => by cases h⟩
    | error halt =>
      obtain ⟨hunreliable, rfl⟩ := hrecord
      refine Action.follows_attempt_bind (follows_undoKey hunreliable) fun l₃ _ hleft => ?_
      obtain ⟨left, rfl⟩ := hleft
      refine ⟨_, rfl, rfl, fun _ => ⟨fun h => (by cases h), fun h => absurd h hunreliable⟩,
        fun _ h => absurd h hunreliable, ?_⟩
      exact ⟨rfl, hturn, fun _ h => (by cases h), fun _ _ => rfl⟩
  · obtain rfl := hkey
    exact ⟨_, rfl, rfl, id, fun h => (by cases h), rfl, rfl, fun _ h => (by cases h),
      fun _ _ => rfl⟩

/-! ## Deleting -/

/-- One half of a pair is deleted, if it is there. Then it is not there. -/
theorem follows_deleteHalf {lock : Lock} {location : String} {before now after : View}
    (hreliable : reliable) (hname : IsIdentifier identifier) (hlock : IsMinorLock lock)
    (hallows : Allowed reliable o (inCustody l identifier before now false) (.delete location))
    (herase : ∀ d, View.of d identifier = now → View.of (d.erase location) identifier = after) :
    (do Action.ofExcept (checkIdentifier identifier)
        Action.withLock lock (Action.deleteIfPresent location) : Action Bool).Follows
      (rules reliable o)
      (fun l' outcome => (∃ found, outcome = .ok found)
        ∧ l' = inCustody l identifier before after false)
      (inCustody l identifier before now false) := by
  refine Action.follows_ofExcept_bind (fun _ _ => follows_minorLock hlock ?_) fun e he => ?_
  · refine Action.follows_deleteIfPresent hallows (fun d hrely => ⟨⟨true, rfl⟩, ?_⟩)
      (fun _ d hrely habsent => ⟨⟨false, rfl⟩, ?_⟩) fun hunreliable => absurd hreliable hunreliable
    · rw [← herase d (hrely _ rfl).1]
      rfl
    · have hsame := herase d (hrely _ rfl).1
      rw [Action.erase_of_not_contains habsent,
        show View.of d identifier = now from (hrely _ rfl).1] at hsame
      rw [← hsame]
      rfl
  · exact absurd hname (not_isIdentifier_of_error he)

theorem follows_delete (hreliable : reliable) (hfree : l.custody = none) :
    (delete identifier).Follows (rules reliable (.delete identifier))
      (fun l' _ => l'.custody = none) l := by
  refine Action.follows_ofExcept_bind (fun _ hchecked => ?_) fun _ _ => hfree
  have hname := checkIdentifier_eq_ok_iff.1 hchecked
  refine follows_pairLock hfree fun view => ?_
  generalize hl₀ : ({ l with seen := (identifier, view) :: l.seen } : Standing) = l₀
  have hkey : (Material.deleteIfPresent identifier).Follows (rules reliable (.delete identifier))
      (fun l' outcome => (∃ found, outcome = .ok found)
        ∧ l' = inCustody l₀ identifier view ⟨none, view.record⟩ false)
      (inCustody l₀ identifier view view false) :=
    follows_deleteHalf hreliable hname (isMinorLock_material identifier)
      (.deleteHalf (c := ⟨identifier, view, view, false⟩) rfl rfl (.inl rfl))
      fun d hd => by rw [View.of_erase_key, hd]
  have hrecord : (Catalogue.deleteIfPresent identifier).Follows
      (rules reliable (.delete identifier))
      (fun l' outcome => (∃ found, outcome = .ok found)
        ∧ l' = inCustody l₀ identifier view ⟨none, none⟩ false)
      (inCustody l₀ identifier view ⟨none, view.record⟩ false) :=
    follows_deleteHalf hreliable hname (isMinorLock_catalogue identifier)
      (.deleteHalf (c := ⟨identifier, view, ⟨none, view.record⟩, false⟩) rfl rfl (.inr rfl))
      fun d hd => by rw [View.of_erase_record, hd]
  have hsound : (View.mk none none).IsSound reliable :=
    ⟨fun h => (by cases h), fun _ h => (by cases h)⟩
  subst hl₀
  refine Action.follows_bind hkey (fun l₁ hadKey hl₁ => ?_) fun _ _ h => ?_
  · obtain ⟨-, rfl⟩ := hl₁
    refine Action.follows_bind hrecord (fun l₂ hadMetadata hl₂ => ?_) fun _ _ h => ?_
    · obtain ⟨-, rfl⟩ := hl₂
      by_cases hfound : (hadKey || hadMetadata) = true
      · rw [if_pos hfound]
        exact ⟨_, rfl, rfl, fun _ => hsound, fun h => (by cases h), rfl⟩
      · rw [if_neg hfound]
        exact ⟨_, rfl, rfl, fun _ => hsound, fun h => (by cases h), rfl⟩
    · obtain ⟨⟨_, h⟩, -⟩ := h
      cases h
  · obtain ⟨⟨_, h⟩, -⟩ := h
    cases h

end Pair

/-! ## Creations -/

/-- What is to be said of a creation, or of its part that makes the pair and names it: custody is
given up, the turn is still that of the same base, and the pair that is named was completed. -/
structure Mints (l l' : Standing) (outcome : Outcome String) : Prop where
  custody : l'.custody = none
  turn : l'.turn.map (·.base) = l.turn.map (·.base)
  made : ∀ identifier, outcome = .ok identifier → l'.made = identifier :: l.made
  undone : ∀ halt, outcome = .error halt → l'.made = l.made

theorem Mints.of_same {l₁ l' : Standing} {outcome : Outcome String} (h : Mints l₁ l' outcome)
    (hturn : l₁.turn.map (·.base) = l.turn.map (·.base)) (hmade : l₁.made = l.made) :
    Mints l l' outcome :=
  ⟨h.custody, h.turn.trans hturn, fun made h' => by rw [h.made made h', hmade],
    fun halt h' => by rw [h.undone halt h', hmade]⟩

namespace Creation

variable {c : Creation}

theorem mints_of_error (hfree : l.custody = none) (halt : Halt) : Mints l l (.error halt) :=
  ⟨hfree, rfl, fun _ h => (by cases h), fun _ _ => rfl⟩

/-- A pair is made and named: what `Mints` says. -/
theorem follows_create_named {key : Bytes} {m : Metadata} (hfree : l.custody = none)
    (hmay : ∀ view, c.MayMake
      (Pair.inCustody { l with seen := (m.id, view) :: l.seen } m.id view view false) m.id) :
    (do Pair.create key m; pure m.id : Action String).Follows (rules reliable (.create c)) (Mints l)
      l := by
  refine Action.follows_bind (Pair.follows_create hfree hmay) (fun l' _ hmade => ?_)
    fun l' halt hmade => ?_
  · refine ⟨hmade.custody, hmade.turn, fun identifier h => ?_, fun _ h => (by cases h)⟩
    cases h
    exact hmade.made _ rfl
  · exact ⟨hmade.custody, hmade.turn, fun _ h => (by cases h), fun _ _ => hmade.undone halt rfl⟩

theorem follows_generateAs {purpose : String} {algorithm : Cipher.Algorithm}
    {attributes : Table String} (hfree : l.custody = none)
    (hmay : ∀ l made, c.MayMake l made) :
    (Manager.generateAs identifier purpose algorithm attributes).Follows
      (rules reliable (.create c)) (Mints l) l := by
  refine Action.follows_ofExcept_bind (fun _ _ => ?_) fun _ _ => mints_of_error hfree _
  refine Action.follows_draw_bind (.quiet trivial) (fun key d _ => ?_)
    fun _ _ _ => mints_of_error hfree _
  refine Action.follows_now_bind (.quiet trivial) fun createdAt d _ => ?_
  exact follows_create_named hfree fun _ => hmay _ _

/-- The key that replaces another is made and named: what `Mints` says. -/
theorem follows_mint_named {oldKey : Bytes} {old : Metadata} (hfree : l.custody = none)
    (hmay : ∀ view, c.MayMake
      (Pair.inCustody { l with seen := (identifier, view) :: l.seen } identifier view view false)
      identifier) :
    (do Rotation.mint oldKey old identifier; pure identifier : Action String).Follows
      (rules reliable (.create c)) (Mints l) l := by
  rw [Rotation.mint, bind_assoc]
  refine Action.follows_draw_bind (.quiet trivial) (fun key d _ => ?_)
    fun _ _ _ => mints_of_error hfree _
  rw [bind_assoc]
  refine Action.follows_now_bind (.quiet trivial) fun createdAt d _ => ?_
  exact follows_create_named (m := Rotation.successor old identifier createdAt) hfree hmay

/-- In its turn a rotation lists the keys and makes the version that is `next` to them. -/
theorem follows_turn {current : VersionedId} {view : View} {oldKey : Bytes} {old : Metadata}
    (hfree : l.custody = none) (hturn : l.turn = some ⟨current.base, none⟩)
    (hcurrent : VersionedId.parse identifier = .ok current) (hseen : (identifier, view) ∈ l.seen)
    (hwhole : view.IsWhole) :
    (do
      let stored ← Rotation.storedVersions current.base
      let next ← Action.ofExcept
        (VersionedId.next ⟨current.base, Rotation.latest current.version stored⟩)
      Action.ofExcept (checkIdentifier next.text)
      Rotation.mint oldKey old next.text
      pure next.text : Action String).Follows
      (rules reliable (.create (.rotate identifier))) (Mints l) l := by
  rw [Rotation.storedVersions, Material.identifiers, bind_assoc, bind_assoc]
  refine Action.follows_identifiers_bind (.list hfree) (fun found d _ _ => ?_)
    fun _ _ _ => mints_of_error hfree _
  have hlisted : (rules reliable (.create (.rotate identifier))).after l .list (.ok found) d
      = { l with turn := some ⟨current.base, some found⟩ } := by
    show { l with turn := l.turn.map _ } = _
    rw [hturn]
    rfl
  rw [hlisted]
  generalize hl₁ : ({ l with turn := some ⟨current.base, some found⟩ } : Standing) = l₁
  have hfree₁ : l₁.custody = none := by rw [← hl₁, hfree]
  have hsame : ∀ {l' outcome}, Mints l₁ l' outcome → Mints l l' outcome :=
    fun h => h.of_same (by rw [← hl₁, hturn]; rfl) (by rw [← hl₁])
  refine Action.follows_ofExcept_bind (fun next hnext => ?_) fun _ _ =>
    hsame (mints_of_error hfree₁ _)
  refine Action.follows_ofExcept_bind (fun _ _ => ?_) fun _ _ => hsame (mints_of_error hfree₁ _)
  refine (follows_mint_named hfree₁ fun other => ?_).mono fun _ _ => hsame
  subst hl₁
  exact ⟨current, found, next, view, hcurrent, rfl, hnext, rfl, List.mem_cons_of_mem _ hseen,
    hwhole⟩

theorem follows_rotate (hfree : l.custody = none) (hturn : l.turn = none) :
    (Rotation.rotate identifier).Follows (rules reliable (.create (.rotate identifier))) (Mints l)
      l := by
  refine Action.follows_bind (Pair.follows_load hfree) (fun l₁ found hlooked => ?_)
    fun l₁ halt hlooked => ?_
  · obtain ⟨oldKey, old⟩ := found
    cases hlooked with
    | @seen view _ halone =>
      refine Action.follows_ofExcept_bind (fun current hcurrent => ?_) fun _ _ =>
        ⟨hfree, rfl, fun _ h => (by cases h), fun _ _ => rfl⟩
      refine Action.follows_withLock (.takeTurn current.base hturn) (fun d _ => ?_) ?_ (R := Mints
        { l with seen := (identifier, view) :: l.seen, turn := some ⟨current.base, none⟩ })
      · exact follows_turn hfree rfl hcurrent List.mem_cons_self (Pair.isWhole_of_hasAlone halone)
      · intro l' outcome hmints
        obtain ⟨turn, hturn', hbase⟩ := Option.map_eq_some_iff.1 hmints.turn
        refine ⟨?_, fun _ _ => ⟨hmints.custody, ?_, hmints.made, hmints.undone⟩⟩
        · rw [← show turn.base = current.base from hbase]
          exact .giveTurn hmints.custody hturn'
        · rw [hturn]
          rfl
  · cases hlooked with
    | unnamed => exact mints_of_error hfree _
    | seen => exact ⟨hfree, rfl, fun _ h => (by cases h), fun _ _ => rfl⟩

theorem follows_rotateUnique (hfree : l.custody = none) :
    (Rotation.rotateUnique identifier).Follows (rules reliable (.create (.rotateUnique identifier)))
      (Mints l) l := by
  refine Action.follows_bind (Pair.follows_load hfree) (fun l₁ found hlooked => ?_)
    fun l₁ halt hlooked => ?_
  · obtain ⟨oldKey, old⟩ := found
    cases hlooked with
    | @seen view _ halone =>
      generalize hl₁ : ({ l with seen := (identifier, view) :: l.seen } : Standing) = l₁
      have hfree₁ : l₁.custody = none := by rw [← hl₁, hfree]
      have hsame : ∀ {l' outcome}, Mints l₁ l' outcome → Mints l l' outcome :=
        fun h => h.of_same (by rw [← hl₁]) (by rw [← hl₁])
      refine Action.follows_draw_bind (.quiet trivial) (fun unique d _ => ?_)
        fun _ _ _ => hsame (mints_of_error hfree₁ _)
      generalize Rotation.tagOf old.purpose ++ "_" ++ Text.unique unique = id
      refine Action.follows_ofExcept_bind (fun _ _ => ?_) fun _ _ => hsame (mints_of_error hfree₁ _)
      exact (follows_mint_named (c := .rotateUnique identifier) hfree₁ fun _ => trivial).mono
        fun _ _ => hsame
  · cases hlooked with
    | unnamed => exact mints_of_error hfree _
    | seen => exact ⟨hfree, rfl, fun _ h => (by cases h), fun _ _ => rfl⟩

/-- Every `Creation` keeps to its rules. -/
theorem follows (c : Creation) (hfree : l.custody = none) (hturn : l.turn = none) :
    c.action.Follows (rules reliable (.create c)) (Mints l) l := by
  cases c with
  | generate purpose algorithm attributes => exact follows_generateAs hfree fun _ _ => trivial
  | generateUnique purpose algorithm attributes =>
    refine Action.follows_draw_bind (.quiet trivial) (fun unique d _ => ?_)
      fun _ _ _ => mints_of_error hfree _
    exact follows_generateAs hfree fun _ _ => trivial
  | importKey key m =>
    rw [action, Manager.importKey, bind_assoc]
    refine Action.follows_ofExcept_bind (fun _ _ => ?_) fun _ _ => mints_of_error hfree _
    exact follows_create_named hfree fun _ => trivial
  | rotate identifier => exact follows_rotate hfree hturn
  | rotateUnique identifier => exact follows_rotateUnique hfree

end Creation

/-! ## Reading -/

/-- The outcome is one that the action `HasAlone`: over what was seen under an identifier when its
lock was taken or, if no key can be named so, over anything. -/
def ReadAlone {α : Type} (reliable : Prop) (action : Action α) (identifier : String) (l : Standing)
    (outcome : Outcome α) : Prop :=
  (¬ IsIdentifier identifier ∧ ∀ view, HasAlone reliable action identifier view outcome)
    ∨ ∃ view, (identifier, view) ∈ l.seen ∧ HasAlone reliable action identifier view outcome

theorem Pair.Looked.readAlone {l' : Standing} {outcome : Outcome (Bytes × Metadata)}
    (h : Pair.Looked reliable identifier l l' outcome) :
    ReadAlone reliable (Pair.load identifier) identifier l' outcome := by
  cases h with
  | unnamed hunnamed halone => exact .inl ⟨hunnamed, halone⟩
  | seen halone => exact .inr ⟨_, List.mem_cons_self, halone⟩

theorem Pair.Looked.custody_eq {l' : Standing} {outcome : Outcome (Bytes × Metadata)}
    (h : Pair.Looked reliable identifier l l' outcome) : l'.custody = l.custody := by
  cases h <;> rfl

theorem ReadAlone.imp {α β : Type} {action : Action α} {other : Action β} {outcome : Outcome α}
    {result : Outcome β} (h : ReadAlone reliable action identifier l outcome)
    (himp : ∀ view, HasAlone reliable action identifier view outcome →
      HasAlone reliable other identifier view result) :
    ReadAlone reliable other identifier l result := by
  rcases h with ⟨hunnamed, halone⟩ | ⟨view, hview, halone⟩
  · exact .inl ⟨hunnamed, fun view => himp view (halone view)⟩
  · exact .inr ⟨view, hview, himp view halone⟩

/-- Whoever looks up a pair by `load`, and then at most draws random bytes, reads it as if alone. -/
theorem follows_reading {α : Type} {next : Bytes × Metadata → Action α} (hfree : l.custody = none)
    (hnext : ∀ pair, (next pair).Asks fun r => ∃ source size, r = .draw source size) :
    (Pair.load identifier >>= next).Follows (rules reliable o)
      (fun l' outcome => l'.custody = none
        ∧ ReadAlone reliable (Pair.load identifier >>= next) identifier l' outcome) l := by
  refine Action.follows_bind (Pair.follows_load hfree) (fun l₁ pair hlooked => ?_)
    fun l₁ halt hlooked => ⟨hlooked.custody_eq.trans hfree,
      hlooked.readAlone.imp fun view h d hd => ?_⟩
  · have hsteady : (next pair).Follows (rules reliable o)
        (fun l' outcome => l' = l₁ ∧ ∀ d, True → ∃ failed, (next pair).Runs d outcome d failed
          ∧ (reliable → ∀ r ∈ failed, ∃ source size, r = .draw source size)) l₁ := by
      refine Program.follows_of_steady (hnext pair) (fun r hr => ?_) (fun r x d hr => ?_)
        (fun _ _ => trivial) fun r x d d' hr hserves _ d₁ _ => ?_
      · obtain ⟨source, size, rfl⟩ := hr
        exact .quiet trivial
      · obtain ⟨source, size, rfl⟩ := hr
        exact after_of_quiet (r := .draw source size) trivial x d
      · obtain ⟨source, size, rfl⟩ := hr
        cases hserves
        exact .drawn source _ d₁
    refine hsteady.mono fun l' outcome hend => ?_
    obtain ⟨rfl, hruns⟩ := hend
    refine ⟨hlooked.custody_eq.trans hfree, hlooked.readAlone.imp fun view h d hd => ?_⟩
    obtain ⟨before, hload, hbefore⟩ := h d hd
    obtain ⟨after, hrest, hafter⟩ := hruns d trivial
    refine ⟨before ++ after, Action.runs_bind_iff.2
      (.inl ⟨pair, d, before, after, hload, hrest, rfl⟩), fun hreliable r hr => ?_⟩
    rcases List.mem_append.1 hr with hr | hr
    · exact hbefore hreliable r hr
    · exact hafter hreliable r hr
  · obtain ⟨failed, hload, hfailed⟩ := h d hd
    exact ⟨failed, Action.runs_bind_iff.2 (.inr ⟨halt, hload, rfl⟩), hfailed⟩

/-! ## Operations -/

namespace Operation

/-- The operation is on pairs: it creates or deletes one, or encrypts or decrypts under one. -/
def IsOnPairs : Operation → Prop
  | create _ | delete _ | encrypt _ _ _ | decrypt _ _ _ => True
  | key _ | metadata _ | catalogue | shouldRotate _ _ | timeUntil _ _ | due _ | summary _ _
  | summaries _ | versions _ => False

/-- How an operation on pairs ends. -/
def Ends (reliable : Prop) : (o : Operation) → Standing → Outcome o.Result → Prop
  | create _, l, outcome => Mints .start l outcome
  | delete _, l, _ => l.custody = none
  | encrypt identifier plaintext aad, l, outcome =>
    l.custody = none
      ∧ ReadAlone reliable (Manager.encrypt identifier plaintext aad) identifier l outcome
  | decrypt identifier blob aad, l, outcome =>
    l.custody = none
      ∧ ReadAlone reliable (Manager.decrypt identifier blob aad) identifier l outcome
  | key _, _, _ | metadata _, _, _ | catalogue, _, _ | shouldRotate _ _, _, _ | timeUntil _ _, _, _
  | due _, _, _ | summary _ _, _, _ | summaries _, _, _ | versions _, _, _ => True

/-- Every operation that `IsOnPairs` keeps to its rules. Of deletions this holds where nothing
fails, for they are not undone. -/
theorem follows (o : Operation) (hpairs : o.IsOnPairs)
    (hdelete : ∀ identifier, o = .delete identifier → reliable) :
    o.action.Follows (rules reliable o) (o.Ends reliable) .start := by
  cases o with
  | create c => exact c.follows rfl rfl
  | delete identifier => exact Pair.follows_delete (hdelete identifier rfl) rfl
  | encrypt identifier plaintext aad =>
    refine follows_reading rfl fun pair => ?_
    exact Action.asks_bind (Action.asks_ofOutcome _) fun _ =>
      Action.asks_bind (Action.asks_draw ⟨_, _, rfl⟩) fun _ => Action.asks_ofOutcome _
  | decrypt identifier blob aad => exact follows_reading rfl fun pair => Action.asks_ofOutcome _
  | _ => cases hpairs

/-- An operation as a program among others. Its result says which operation it is of. -/
def task (o : Operation) : Program (Σ o : Operation, Outcome o.Result) :=
  o.action.run.bind fun outcome => .done ⟨o, outcome⟩

/-- How the program of an operation ends: as the operation `Ends`. -/
def TaskEnds (reliable : Prop) (o : Operation) (l : Standing)
    (result : Σ o : Operation, Outcome o.Result) : Prop :=
  ∃ outcome, result = ⟨o, outcome⟩ ∧ o.Ends reliable l outcome

theorem follows_task (o : Operation) (hpairs : o.IsOnPairs)
    (hdelete : ∀ identifier, o = .delete identifier → reliable) :
    o.task.Follows (rules reliable o) (o.TaskEnds reliable) .start :=
  (o.follows hpairs hdelete).bind fun _ outcome hends => ⟨outcome, rfl, hends⟩

end Operation

end Strongbox.Key
