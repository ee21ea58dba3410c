import Strongbox.Key.Pair
import Strongbox.Proofs.Program.Surroundings
/-!
# Pairs of key and metadata

What the operations on pairs do to a storage that may fail, one list of cases for each: making a
pair (`Created`), reading it (`Loaded`) and deleting it (`Deleted`).

Making a pair is undone if its metadata cannot be written; deleting one is not undone if its
metadata cannot be deleted.

## Main results

* `runs_create`, `runs_load`, `runs_delete`: each run is one of the cases listed.
-/

namespace Strongbox.Key

open Storage (Memory)

variable {identifier : String} {d d' : Memory} {failed : List Request}

/-! ## Locations -/

@[simp] theorem Material.location_inj {a b : String} :
    Material.location a = Material.location b ↔ a = b := by
  simp [Material.location, ← String.toList_inj]

@[simp] theorem Catalogue.location_inj {a b : String} :
    Catalogue.location a = Catalogue.location b ↔ a = b := by
  simp [Catalogue.location, ← String.toList_inj]

/-- No key stands where metadata are looked for: a `Material.location` is no `Catalogue.location`.
-/
@[simp] theorem Material.location_ne_location (a b : String) :
    Material.location a ≠ Catalogue.location b := by
  intro h
  have hlists := congrArg String.toList h
  simp [Material.location, Material.locationStart, Catalogue.location, Catalogue.locationStart]
    at hlists

@[simp] theorem Catalogue.location_ne_location (a b : String) :
    Catalogue.location a ≠ Material.location b :=
  (Material.location_ne_location b a).symm

/-! ## Keys alone and metadata alone -/

theorem not_isIdentifier_of_error {e : Error} (h : checkIdentifier identifier = .error e) :
    ¬ IsIdentifier identifier := by
  intro hname
  rw [checkIdentifier_eq_ok_iff.2 hname] at h
  cases h

/-- Neither the check of a proper identifier nor a lock shows in a run. -/
theorem runs_checked_iff {α : Type} {lock : Lock} {action : Action α} {outcome : Outcome α}
    (hname : IsIdentifier identifier) :
    Action.Runs (do
        Action.ofExcept (checkIdentifier identifier)
        Action.withLock lock action) d outcome d' failed
      ↔ action.Runs d outcome d' failed := by
  rw [Action.runs_ofExcept_bind_iff, checkIdentifier_eq_ok_iff.2 hname]
  simp [Action.runs_withLock_iff]

theorem runs_checked_bind_iff {α β : Type} {lock : Lock} {action : Action α} {next : α → Action β}
    {outcome : Outcome β} (hname : IsIdentifier identifier) :
    Action.Runs ((do
        Action.ofExcept (checkIdentifier identifier)
        Action.withLock lock action) >>= next) d outcome d' failed
      ↔ (action >>= next).Runs d outcome d' failed := by
  simp only [Action.runs_bind_iff, runs_checked_iff hname]

theorem Material.runs_create {key : Bytes} {outcome : Outcome Unit}
    (h : (Material.create identifier key).Runs d outcome d' failed) :
    (outcome = .ok () ∧ IsIdentifier identifier ∧ d.get? (Material.location identifier) = none
        ∧ d' = d.insert (Material.location identifier) key ∧ failed = [])
      ∨ (∃ halt, outcome = .error halt) ∧ d' = d := by
  rcases Action.runs_ofExcept_bind_iff.1 h with ⟨_, hname, h⟩ | ⟨e, -, rfl, rfl, rfl⟩
  · rcases Action.runs_ofExcept_bind_iff.1 h with ⟨_, -, h⟩ | ⟨e, -, rfl, rfl, rfl⟩
    · rcases Action.runs_contains_bind (Action.runs_withLock_iff.1 h) with
        h | ⟨⟨e, rfl⟩, rfl, -⟩
      · by_cases hkey : d.contains (Material.location identifier) = true
        · rw [if_pos hkey] at h
          obtain ⟨rfl, rfl, rfl⟩ := Action.runs_fail_iff.1 h
          exact .inr ⟨⟨_, rfl⟩, rfl⟩
        · rw [if_neg hkey] at h
          rcases Action.runs_store h with ⟨rfl, rfl, rfl⟩ | ⟨⟨e, rfl⟩, rfl, rfl⟩
          · exact .inl ⟨rfl, checkIdentifier_eq_ok_iff.1 hname,
              Option.not_isSome_iff_eq_none.1 hkey, rfl, rfl⟩
          · exact .inr ⟨⟨_, rfl⟩, rfl⟩
      · exact .inr ⟨⟨_, rfl⟩, rfl⟩
    · exact .inr ⟨⟨_, rfl⟩, rfl⟩
  · exact .inr ⟨⟨_, rfl⟩, rfl⟩

/-- A key is stored by `create` under an identifier that has none, unless a request fails. -/
theorem Material.runs_create_of_unused {key : Bytes} {outcome : Outcome Unit}
    (hname : IsIdentifier identifier) (hkey : key ≠ [])
    (hnew : d.get? (Material.location identifier) = none)
    (h : (Material.create identifier key).Runs d outcome d' []) :
    outcome = .ok () ∧ d' = d.insert (Material.location identifier) key := by
  have hmaterial : Material.checkMaterial key = .ok () := if_neg hkey
  rw [Material.create] at h
  rcases Action.runs_ofExcept_bind_iff.1 h with ⟨_, -, h⟩ | ⟨e, he, -⟩
  · rcases Action.runs_ofExcept_bind_iff.1 h with ⟨_, -, h⟩ | ⟨e, he, -⟩
    · rcases Action.runs_contains_bind (Action.runs_withLock_iff.1 h) with h | ⟨-, -, hfailed⟩
      · rw [Table.contains, hnew, Option.isSome_none, if_neg Bool.false_ne_true] at h
        rcases Action.runs_store h with ⟨rfl, rfl, -⟩ | ⟨-, -, hfailed⟩
        · exact ⟨rfl, rfl⟩
        · cases hfailed
      · cases hfailed
    · cases hmaterial.symm.trans he
  · exact absurd hname (not_isIdentifier_of_error he)

theorem Material.runs_delete {outcome : Outcome Unit} (hname : IsIdentifier identifier)
    (h : (Material.delete identifier).Runs d outcome d' failed) :
    d' = d.erase (Material.location identifier) ∧ failed = []
      ∨ d' = d ∧ failed = [.delete (Material.location identifier)] := by
  rcases Action.runs_deleteIfPresent_bind ((runs_checked_bind_iff hname).1 h) with
    h | ⟨-, rfl, rfl⟩
  · by_cases hkey : d.contains (Material.location identifier) = true
    · rw [if_pos hkey] at h
      obtain ⟨-, rfl, rfl⟩ := Action.runs_pure_iff.1 h
      exact .inl ⟨rfl, rfl⟩
    · rw [if_neg hkey] at h
      obtain ⟨-, rfl, rfl⟩ := Action.runs_fail_iff.1 h
      exact .inl ⟨rfl, rfl⟩
  · exact .inr ⟨rfl, rfl⟩

/-- What `Metadata.read` makes of the record under an identifier, if there is one. -/
def Catalogue.stored? (d : Memory) (identifier : String) : Except Error (Option Metadata) :=
  match d.get? (location identifier) with
  | none => .ok none
  | some record => (Metadata.read record).map some

theorem Catalogue.stored?_eq_none_iff :
    stored? d identifier = .ok none ↔ d.get? (location identifier) = none := by
  rw [stored?]
  cases d.get? (location identifier) with
  | none => simp
  | some record => cases hread : Metadata.read record <;> simp [Except.map, hread]

theorem Catalogue.stored?_eq_some_iff {m : Metadata} :
    stored? d identifier = .ok (some m)
      ↔ ∃ record, d.get? (location identifier) = some record ∧ Metadata.read record = .ok m := by
  rw [stored?]
  cases d.get? (location identifier) with
  | none => simp
  | some record => cases hread : Metadata.read record <;> simp [Except.map, hread]

theorem Catalogue.stored?_eq_error_iff {e : Error} :
    stored? d identifier = .error e
      ↔ ∃ record, d.get? (location identifier) = some record
        ∧ Metadata.read record = .error e := by
  rw [stored?]
  cases d.get? (location identifier) with
  | none => simp
  | some record => cases hread : Metadata.read record <;> simp [Except.map, hread]

/-- After `load?`, an action runs on what is read. A record that is no metadata is an error. -/
theorem Catalogue.runs_load?_bind {β : Type} {next : Option Metadata → Action β}
    {outcome : Outcome β} (h : (load? identifier >>= next).Runs d outcome d' failed) :
    (∃ found, stored? d identifier = .ok found ∧ (next found).Runs d outcome d' failed)
      ∨ (∃ e, stored? d identifier = .error e ∧ outcome = .error (.failed e)) ∧ d' = d
        ∧ failed = []
      ∨ (∃ e, outcome = .error (.failed (.storage e))) ∧ d' = d
        ∧ failed = [.retrieve (location identifier)] := by
  rw [load?, bind_assoc] at h
  rcases Action.runs_retrieve?_bind h with h | ⟨⟨e, rfl⟩, rfl, rfl⟩
  · cases hget : d.get? (location identifier) with
    | none =>
      rw [hget] at h
      exact .inl ⟨none, stored?_eq_none_iff.2 hget, h⟩
    | some record =>
      rw [hget, bind_assoc] at h
      rcases Action.runs_ofExcept_bind_iff.1 h with ⟨m, hread, h⟩ | ⟨e, hread, rfl, rfl, rfl⟩
      · exact .inl ⟨some m, stored?_eq_some_iff.2 ⟨record, hget, hread⟩, h⟩
      · exact .inr (.inl ⟨⟨e, stored?_eq_error_iff.2 ⟨record, hget, hread⟩, rfl⟩, rfl, rfl⟩)
  · exact .inr (.inr ⟨⟨e, rfl⟩, rfl, rfl⟩)

namespace Pair

/-! ## Making a pair -/

/-- The data with a key and its metadata. -/
def added (d : Memory) (key : Bytes) (m : Metadata) : Memory :=
  (d.insert (Material.location m.id) key).insert (Catalogue.location m.id) m.write

/-- What can come of `create`. -/
inductive Created (key : Bytes) (m : Metadata) (d : Memory) :
    Outcome Unit → Memory → List Request → Prop where
  | made : IsIdentifier m.id → d.get? (Material.location m.id) = none →
    Created key m d (.ok ()) (added d key m) []
  | refused {halt : Halt} {failed : List Request} : Created key m d (.error halt) d failed
  /-- The metadata could not be written, and then the key not be removed. -/
  | stranded {halt : Halt} : d.get? (Material.location m.id) = none →
    Created key m d (.error halt) (d.insert (Material.location m.id) key)
      [.store (Catalogue.location m.id) m.write, .delete (Material.location m.id)]

/-- A new entry that is erased again leaves nothing behind. -/
private theorem erase_insert {location : String} {content : Bytes} (h : d.get? location = none) :
    (d.insert location content).erase location = d := by
  refine Table.ext_get? fun k => ?_
  rw [Table.get?_erase, Table.get?_insert]
  by_cases hk : k = location
  · rw [if_pos hk, hk, h]
  · rw [if_neg hk, if_neg hk]

theorem runs_create {key : Bytes} {m : Metadata} {outcome : Outcome Unit}
    (hrun : (create key m).Runs d outcome d' failed) : Created key m d outcome d' failed := by
  rcases Action.runs_bind_iff.1 (Action.runs_withLock_iff.1 hrun) with
    ⟨_, d₁, before, after, hkey, hrest, rfl⟩ | ⟨halt, hkey, rfl⟩
  · rcases Material.runs_create hkey with ⟨-, hname, hnew, rfl, rfl⟩ | ⟨⟨halt, he⟩, -⟩
    · rcases Action.runs_bind_iff.1 hrest with
        ⟨stored, d₂, before, after, hattempt, hbranch, rfl⟩ | ⟨halt, hattempt, -⟩
      · obtain ⟨_, hstored, hstore⟩ := Action.runs_attempt_iff.1 hattempt
        cases hstored
        rcases Action.runs_store ((runs_checked_iff hname).1 hstore) with
          ⟨rfl, rfl, rfl⟩ | ⟨⟨e, rfl⟩, rfl, rfl⟩
        · obtain ⟨rfl, rfl, rfl⟩ := Action.runs_pure_iff.1 hbranch
          exact .made hname hnew
        · -- the key is removed again, unless that fails as well
          rcases Action.runs_bind_iff.1 hbranch with
            ⟨removed, d₃, before, after, hundo, hend, rfl⟩ | ⟨halt, hundo, -⟩
          · obtain ⟨o, -, hdelete⟩ := Action.runs_attempt_iff.1 hundo
            obtain ⟨rfl, rfl, rfl⟩ := Action.runs_ofOutcome_iff.1 hend
            rcases Material.runs_delete hname hdelete with ⟨rfl, rfl⟩ | ⟨rfl, rfl⟩
            · rw [erase_insert hnew]
              exact .refused
            · exact .stranded hnew
          · obtain ⟨o, ho, -⟩ := Action.runs_attempt_iff.1 hundo
            cases ho
      · obtain ⟨o, ho, -⟩ := Action.runs_attempt_iff.1 hattempt
        cases ho
    · cases he
  · rcases Material.runs_create hkey with ⟨he, -⟩ | ⟨-, rfl⟩
    · cases he
    · exact .refused

/-- A pair is made by `create` under an identifier that has no key, unless a request fails. -/
theorem runs_create_of_unused {key : Bytes} {m : Metadata} {outcome : Outcome Unit}
    (hname : IsIdentifier m.id) (hkey : key ≠ [])
    (hnew : d.get? (Material.location m.id) = none)
    (hrun : (create key m).Runs d outcome d' []) : outcome = .ok () ∧ d' = added d key m := by
  rcases Action.runs_bind_iff.1 (Action.runs_withLock_iff.1 hrun) with
    ⟨_, d₁, before, after, hcreate, hrest, hnone⟩ | ⟨halt, hcreate, -⟩
  · obtain ⟨rfl, rfl⟩ := List.append_eq_nil_iff.1 hnone.symm
    obtain ⟨-, rfl⟩ := Material.runs_create_of_unused hname hkey hnew hcreate
    rcases Action.runs_bind_iff.1 hrest with
      ⟨stored, d₂, before, after, hattempt, hbranch, hnone⟩ | ⟨halt, hattempt, -⟩
    · obtain ⟨rfl, rfl⟩ := List.append_eq_nil_iff.1 hnone.symm
      obtain ⟨_, hstored, hstore⟩ := Action.runs_attempt_iff.1 hattempt
      cases hstored
      rcases Action.runs_store ((runs_checked_iff hname).1 hstore) with
        ⟨rfl, rfl, -⟩ | ⟨-, -, hfailed⟩
      · obtain ⟨rfl, rfl, -⟩ := Action.runs_pure_iff.1 hbranch
        exact ⟨rfl, rfl⟩
      · cases hfailed
    · obtain ⟨o, ho, -⟩ := Action.runs_attempt_iff.1 hattempt
      cases ho
  · cases (Material.runs_create_of_unused hname hkey hnew hcreate).1

/-! ## Reading a pair -/

/-- What can come of `load`. -/
inductive Loaded (identifier : String) (d : Memory) :
    Outcome (Bytes × Metadata) → List Request → Prop where
  | loaded {key record : Bytes} {m : Metadata} : IsIdentifier identifier →
    d.get? (Material.location identifier) = some key →
    d.get? (Catalogue.location identifier) = some record → Metadata.read record = .ok m →
    Loaded identifier d (.ok (key, m)) []
  | unnamed {e : Error} : ¬ IsIdentifier identifier → Loaded identifier d (.error (.failed e)) []
  | missing : d.get? (Material.location identifier) = none
      ∨ d.get? (Catalogue.location identifier) = none →
    Loaded identifier d (.error (.failed (.keyNotFound identifier))) []
  | unreadable {record : Bytes} {e : Error} :
    d.get? (Catalogue.location identifier) = some record → Metadata.read record = .error e →
    Loaded identifier d (.error (.failed e)) []
  | failed {e : StorageError} {location : String} :
    Loaded identifier d (.error (.failed (.storage e))) [.retrieve location]

theorem runs_load {outcome : Outcome (Bytes × Metadata)}
    (h : (load identifier).Runs d outcome d' failed) :
    d' = d ∧ Loaded identifier d outcome failed := by
  rcases Action.runs_ofExcept_bind_iff.1 h with ⟨_, hchecked, h⟩ | ⟨e, he, rfl, rfl, rfl⟩
  · have hname := checkIdentifier_eq_ok_iff.1 hchecked
    rcases Action.runs_retrieve?_bind
      ((runs_checked_bind_iff hname).1 (Action.runs_withLock_iff.1 h)) with
      h | ⟨⟨e, rfl⟩, rfl, rfl⟩
    · cases hkey : d.get? (Material.location identifier) with
      | none =>
        rw [hkey] at h
        obtain ⟨rfl, rfl, rfl⟩ := Action.runs_fail_iff.1 h
        exact ⟨rfl, .missing (.inl hkey)⟩
      | some key =>
        rw [hkey] at h
        rcases Catalogue.runs_load?_bind ((runs_checked_bind_iff hname).1 h) with
          ⟨found, hfound, h⟩ | ⟨⟨e, he, rfl⟩, rfl, rfl⟩ | ⟨⟨e, rfl⟩, rfl, rfl⟩
        · cases found with
          | none =>
            obtain ⟨rfl, rfl, rfl⟩ := Action.runs_fail_iff.1 h
            exact ⟨rfl, .missing (.inr (Catalogue.stored?_eq_none_iff.1 hfound))⟩
          | some m =>
            obtain ⟨rfl, rfl, rfl⟩ := Action.runs_pure_iff.1 h
            obtain ⟨record, hrecord, hread⟩ := Catalogue.stored?_eq_some_iff.1 hfound
            exact ⟨rfl, .loaded hname hkey hrecord hread⟩
        · obtain ⟨record, hrecord, hread⟩ := Catalogue.stored?_eq_error_iff.1 he
          exact ⟨rfl, .unreadable hrecord hread⟩
        · exact ⟨rfl, .failed⟩
    · exact ⟨rfl, .failed⟩
  · exact ⟨rfl, .unnamed (not_isIdentifier_of_error he)⟩

/-- A pair that can be `Loaded` is read wherever its entries are the same, unless a request fails.
-/
theorem Loaded.eq_ok {key : Bytes} {m : Metadata} {outcome : Outcome (Bytes × Metadata)}
    (h : Loaded identifier d (.ok (key, m)) [])
    (hkey : d'.get? (Material.location identifier) = d.get? (Material.location identifier))
    (hmetadata : d'.get? (Catalogue.location identifier)
      = d.get? (Catalogue.location identifier))
    (h' : Loaded identifier d' outcome []) : outcome = .ok (key, m) := by
  cases h with
  | loaded hname hget hrecord hread =>
    rw [hget] at hkey
    rw [hrecord] at hmetadata
    cases h' with
    | loaded hname' hget' hrecord' hread' =>
      cases hkey.symm.trans hget'
      cases hmetadata.symm.trans hrecord'
      cases hread.symm.trans hread'
      rfl
    | unnamed hunnamed => exact absurd hname hunnamed
    | missing hmissing =>
      rcases hmissing with hmissing | hmissing
      · cases hkey.symm.trans hmissing
      · cases hmetadata.symm.trans hmissing
    | unreadable hrecord' hread' =>
      cases hmetadata.symm.trans hrecord'
      cases hread.symm.trans hread'

/-- After `load`, an action runs on the pair that was read. -/
theorem runs_load_bind {α : Type} {next : Bytes × Metadata → Action α} {outcome : Outcome α}
    (hrun : (load identifier >>= next).Runs d outcome d' failed) :
    (∃ key m, Loaded identifier d (.ok (key, m)) [] ∧ (next (key, m)).Runs d outcome d' failed)
      ∨ (∃ halt, outcome = .error halt ∧ Loaded identifier d (.error halt) failed) ∧ d' = d := by
  rcases Action.runs_bind_iff.1 hrun with
    ⟨⟨key, m⟩, d₁, before, after, hload, hnext, rfl⟩ | ⟨halt, hload, rfl⟩
  · obtain ⟨rfl, hloaded⟩ := runs_load hload
    cases hloaded with
    | loaded hname hkey hrecord hread =>
      exact .inl ⟨key, m, .loaded hname hkey hrecord hread, hnext⟩
  · obtain ⟨rfl, hloaded⟩ := runs_load hload
    exact .inr ⟨⟨halt, rfl, hloaded⟩, rfl⟩

/-! ## Deleting a pair -/

/-- The data without a key and its metadata. -/
def removed (d : Memory) (identifier : String) : Memory :=
  (d.erase (Material.location identifier)).erase (Catalogue.location identifier)

/-- What can come of `delete`. -/
inductive Deleted (identifier : String) (d : Memory) :
    Outcome Unit → Memory → List Request → Prop where
  | deleted : IsIdentifier identifier → Deleted identifier d (.ok ()) (removed d identifier) []
  | unnamed {e : Error} : Deleted identifier d (.error (.failed e)) d []
  | absent : d.contains (Material.location identifier) = false →
    d.contains (Catalogue.location identifier) = false →
    Deleted identifier d (.error (.failed (.keyNotFound identifier))) d []
  | keyFailed {e : StorageError} :
    Deleted identifier d (.error (.failed (.storage e))) d
      [.delete (Material.location identifier)]
  /-- The key is gone by then. -/
  | metadataFailed {e : StorageError} :
    Deleted identifier d (.error (.failed (.storage e)))
      (d.erase (Material.location identifier)) [.delete (Catalogue.location identifier)]

private theorem contains_erase_of_ne {location other : String} (h : other ≠ location) :
    (d.erase location).contains other = d.contains other := by
  rw [Table.contains, Table.get?_erase, if_neg h, Table.contains]

theorem runs_delete {outcome : Outcome Unit}
    (hrun : (delete identifier).Runs d outcome d' failed) :
    Deleted identifier d outcome d' failed := by
  rcases Action.runs_ofExcept_bind_iff.1 hrun with ⟨_, hchecked, hlocked⟩ | ⟨e, -, rfl, rfl, rfl⟩
  · have hname := checkIdentifier_eq_ok_iff.1 hchecked
    rcases Action.runs_deleteIfPresent_bind
      ((runs_checked_bind_iff hname).1 (Action.runs_withLock_iff.1 hlocked)) with
      hrest | ⟨⟨e, rfl⟩, rfl, rfl⟩
    · rcases Action.runs_deleteIfPresent_bind ((runs_checked_bind_iff hname).1 hrest) with
        hend | ⟨⟨e, rfl⟩, rfl, rfl⟩
      · rw [contains_erase_of_ne (Catalogue.location_ne_location _ _)] at hend
        by_cases hany : (d.contains (Material.location identifier)
            || d.contains (Catalogue.location identifier)) = true
        · rw [if_pos hany] at hend
          obtain ⟨rfl, rfl, rfl⟩ := Action.runs_pure_iff.1 hend
          exact .deleted hname
        · rw [if_neg hany] at hend
          obtain ⟨rfl, rfl, rfl⟩ := Action.runs_fail_iff.1 hend
          obtain ⟨hnoKey, hnoMetadata⟩ := Bool.or_eq_false_iff.1 (Bool.not_eq_true _ ▸ hany)
          rw [Action.erase_of_not_contains hnoKey, Action.erase_of_not_contains hnoMetadata]
          exact .absent hnoKey hnoMetadata
      · exact .metadataFailed
    · exact .keyFailed
  · exact .unnamed

end Pair

end Strongbox.Key
