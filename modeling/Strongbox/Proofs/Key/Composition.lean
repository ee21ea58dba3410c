import Strongbox.Key.Manager
import Strongbox.Proofs.Program.Composed
import Strongbox.Rotation.Service
/-!
# What is done with keys, part by part

Keys and their metadata lie behind the beginnings `key:` and `metadata:`, which make up the `region`
of keys. Locks are taken by their `depth`: that of a turn, inside it that of a pair, and inside that
the lock of one of its halves.

Everything that is done with keys keeps to this region and to this order (`Works`). Some of it only
reads (`Inspects`), and what looks up one pair asks for nothing but its two halves (`LooksUp`).

## Main results

* `Pair.works_create`, `Pair.works_delete`: the writing of pairs, also where it is undone.
* `Pair.looksUp_loadLocked`: the looking up of a pair.
* `Rotation.works_rotate`: a rotation, from the old pair to the new one.
-/

namespace Strongbox.Key

open Storage (beginsWith)

/-! ## Region and order -/

/-- Where keys and metadata are stored. -/
def region (location : String) : Bool :=
  beginsWith Material.locationStart location || beginsWith Catalogue.locationStart location

theorem region_material (identifier : String) : region (Material.location identifier) = true := by
  rw [region, Material.location, beginsWith_append, Bool.true_or]

theorem region_catalogue (identifier : String) : region (Catalogue.location identifier) = true := by
  rw [region, Catalogue.location, beginsWith_append, Bool.or_true]

/-- How deep inside others a lock is taken. -/
def depth (lock : Lock) : Nat :=
  match lock.kind with
  | .rotation | .credential => 0
  | .pair => 1
  | .key | .metadata => 2

theorem depth_le (lock : Lock) : depth lock ≤ 2 := by
  unfold depth
  cases lock.kind <;> decide

/-- The requests of looking up a pair under its lock. -/
def Pair.IsLookup (identifier : String) : Request → Prop
  | .retrieve location =>
    location = Material.location identifier ∨ location = Catalogue.location identifier
  | .acquire lock | .release lock =>
    lock = Material.lock identifier ∨ lock = Catalogue.lock identifier
  | .store _ _ | .delete _ | .contains _ | .list | .now | .draw _ _ => False

private theorem Pair.IsLookup.isRead {identifier : String} {r : Request}
    (h : IsLookup identifier r) : r.IsRead := by
  cases r with
  | store | delete => cases h
  | _ => trivial

variable {α : Type} {n m : Nat} {action : Action α} {identifier : String}

/-- The action keeps to the `region` of keys and takes locks by their `depth`, from `n` on. -/
abbrev Works (n : Nat) (action : Action α) : Prop :=
  action.Composed (fun _ => True) region depth n

/-- The action `Works` and leaves the storage alone. -/
abbrev Inspects (n : Nat) (action : Action α) : Prop :=
  action.Composed Request.IsRead region depth n

/-- The action `Works` and asks for the halves of one pair only. -/
abbrev LooksUp (identifier : String) (n : Nat) (action : Action α) : Prop :=
  action.Composed (Pair.IsLookup identifier) region depth n

theorem Inspects.works (h : Inspects m action) (hle : n ≤ m) : Works n action :=
  h.mono (fun _ _ => trivial) hle

theorem LooksUp.inspects (h : LooksUp identifier m action) (hle : n ≤ m) : Inspects n action :=
  h.mono (fun _ => Pair.IsLookup.isRead) hle

theorem Works.mono (h : Works m action) (hle : n ≤ m) : Works n action :=
  Action.Composed.mono h (fun _ => id) hle

theorem Inspects.mono (h : Inspects m action) (hle : n ≤ m) : Inspects n action :=
  Action.Composed.mono h (fun _ => id) hle

/-- An operation that is checked and locked works if what it does works. -/
theorem works_checked {lock : Lock} (hlock : depth lock = n) (haction : Works (n + 1) action) :
    Works n (do
      Action.ofExcept (checkIdentifier identifier)
      Action.withLock lock action) := by
  subst hlock
  exact .bind (.ofOutcome _) fun _ => .withLock trivial trivial (Nat.le_refl _) haction

/-- A list of identifiers depends on the locations alone that begin as theirs do. -/
theorem Material.identifiersUnder_eq {start : String}
    (hstart : ∀ location, beginsWith start location = true → region location = true)
    {a b : List String} (hperm : (a.filter region).Perm (b.filter region)) :
    identifiersUnder start a = identifiersUnder start b := by
  let read (location : String) : Option String :=
    if beginsWith start location then
      some (String.ofList (location.toList.drop start.length))
    else none
  have hfilter (locations : List String) :
      locations.filterMap read = (locations.filter region).filterMap read := by
    rw [List.filterMap_filter]
    congr 1
    funext location
    by_cases h : region location = true
    · rw [if_pos h]
    · rw [if_neg h]
      exact if_neg fun hbegins => h (hstart location hbegins)
  have hread : (a.filterMap read).Perm (b.filterMap read) := by
    rw [hfilter a, hfilter b]
    exact hperm.filterMap read
  have hsorted : ((a.filterMap read).mergeSort (· ≤ ·)).Perm
      ((b.filterMap read).mergeSort (· ≤ ·)) :=
    (List.mergeSort_perm _ _).trans (hread.trans (List.mergeSort_perm _ _).symm)
  exact hsorted.eq_of_pairwise (fun _ _ _ _ => String.le_antisymm)
    (Storage.pairwise_mergeSort _) (Storage.pairwise_mergeSort _)

/-! ## Keys alone -/

namespace Material

theorem works_store (identifier : String) (key : Bytes) : Works 2 (store identifier key) :=
  .bind (.ofOutcome _) fun _ => .bind (.ofOutcome _) fun _ =>
    .withLock trivial trivial (Nat.le_refl 2)
      (Action.composed_store trivial (region_material identifier))

theorem works_create (identifier : String) (key : Bytes) : Works 2 (create identifier key) := by
  refine .bind (.ofOutcome _) fun _ => .bind (.ofOutcome _) fun _ =>
    .withLock trivial trivial (Nat.le_refl 2) (.bind
      (Action.composed_contains trivial (region_material identifier)) fun found => ?_)
  cases found with
  | true => exact .ofOutcome _
  | false => exact Action.composed_store trivial (region_material identifier)

theorem looksUp_get? (identifier : String) : LooksUp identifier 2 (get? identifier) :=
  .bind (.ofOutcome _) fun _ => .withLock (.inl rfl) (.inl rfl) (Nat.le_refl 2)
    (Action.composed_retrieve? (.inl rfl) (region_material identifier))

theorem works_deleteIfPresent (identifier : String) : Works 2 (deleteIfPresent identifier) :=
  works_checked rfl (Action.composed_deleteIfPresent trivial (region_material identifier))

theorem works_delete (identifier : String) : Works 2 (delete identifier) := by
  refine .bind (works_deleteIfPresent identifier) fun found => ?_
  cases found <;> exact .ofOutcome _

theorem works_contains (identifier : String) : Works 2 (contains identifier) :=
  works_checked rfl (Action.composed_contains trivial (region_material identifier))

theorem inspects_identifiers : Inspects 2 identifiers :=
  .listing trivial fun _ _ => identifiersUnder_eq fun location h => by
    rw [region, h, Bool.true_or]

end Material

/-! ## Metadata alone -/

namespace Catalogue

theorem works_store (m : Metadata) : Works 2 (store m) :=
  works_checked rfl (Action.composed_store trivial (region_catalogue m.id))

theorem looksUp_load? (identifier : String) : LooksUp identifier n (load? identifier) := by
  refine .bind (Action.composed_retrieve? (.inr rfl) (region_catalogue identifier)) fun found => ?_
  cases found with
  | none => exact .ofOutcome _
  | some record => exact .bind (.ofOutcome _) fun _ => .ofOutcome _

theorem looksUp_get? (identifier : String) : LooksUp identifier 2 (get? identifier) :=
  .bind (.ofOutcome _) fun _ => .withLock (.inr rfl) (.inr rfl) (Nat.le_refl 2)
    (looksUp_load? identifier)

theorem works_deleteIfPresent (identifier : String) : Works 2 (deleteIfPresent identifier) :=
  works_checked rfl (Action.composed_deleteIfPresent trivial (region_catalogue identifier))

theorem works_delete (identifier : String) : Works 2 (delete identifier) := by
  refine .bind (works_deleteIfPresent identifier) fun found => ?_
  cases found <;> exact .ofOutcome _

theorem inspects_identifiers : Inspects 2 identifiers :=
  .listing trivial fun _ _ => Material.identifiersUnder_eq fun location h => by
    rw [region, h, Bool.or_true]

theorem inspects_loadAll (identifiers : List String) : Inspects 2 (loadAll identifiers) := by
  induction identifiers with
  | nil => exact .ofOutcome _
  | cons identifier rest ih =>
    refine .bind ((looksUp_load? identifier).inspects (Nat.le_refl 2)) fun found => ?_
    cases found with
    | none => exact ih
    | some m => exact .bind ih fun _ => .ofOutcome _

theorem inspects_all : Inspects 2 all := .bind inspects_identifiers inspects_loadAll

end Catalogue

/-! ## Keys with their metadata -/

namespace Pair

/-- Also when a creation is undone, the key's lock is taken inside that of the pair. -/
theorem works_create (key : Bytes) (m : Metadata) : Works 1 (create key m) := by
  refine .withLock trivial trivial (Nat.le_refl 1) (.bind (Material.works_create m.id key)
    fun _ => .bind (.attempt (Catalogue.works_store m)) fun stored => ?_)
  cases stored with
  | ok u => exact .ofOutcome _
  | error halt => exact .bind (.attempt (Material.works_delete m.id)) fun _ => .ofOutcome _

/-- What a lookup does once it has the lock. -/
def loadLocked (identifier : String) : Action (Bytes × Metadata) := do
  match ← Material.get? identifier with
  | none => Action.fail (.keyNotFound identifier)
  | some key =>
    match ← Catalogue.get? identifier with
    | none => Action.fail (.keyNotFound identifier)
    | some m => pure (key, m)

theorem looksUp_loadLocked (identifier : String) :
    LooksUp identifier 2 (loadLocked identifier) := by
  refine .bind (Material.looksUp_get? identifier) fun key => ?_
  cases key with
  | none => exact .ofOutcome _
  | some key =>
    refine .bind (Catalogue.looksUp_get? identifier) fun m => ?_
    cases m <;> exact .ofOutcome _

theorem inspects_load (identifier : String) : Inspects 1 (load identifier) :=
  .bind (.ofOutcome _) fun _ => .withLock trivial trivial (Nat.le_refl 1)
    ((looksUp_loadLocked identifier).inspects (Nat.le_refl 2))

theorem works_delete (identifier : String) : Works 1 (delete identifier) := by
  refine works_checked rfl (.bind (Material.works_deleteIfPresent identifier) fun hadKey =>
    .bind (Catalogue.works_deleteIfPresent identifier) fun hadMetadata => ?_)
  split <;> exact .ofOutcome _

end Pair

namespace Manager

theorem works_generateAs (identifier purpose : String) (algorithm : Cipher.Algorithm)
    (attributes : Table String) : Works 1 (generateAs identifier purpose algorithm attributes) :=
  .bind (.ofOutcome _) fun _ => .bind (Action.composed_draw trivial) fun _ =>
    .bind (Action.composed_now trivial) fun _ =>
      .bind (Pair.works_create _ _) fun _ => .ofOutcome _

theorem inspects_encrypt (identifier : String) (plaintext : Bytes) (aad : Option Bytes) :
    Inspects 1 (encrypt identifier plaintext aad) :=
  .bind (Pair.inspects_load identifier) fun _ => .bind (.ofOutcome _) fun _ =>
    .bind (Action.composed_draw trivial) fun _ => .ofOutcome _

theorem inspects_decrypt (identifier : String) (blob : Bytes) (aad : Option Bytes) :
    Inspects 1 (decrypt identifier blob aad) :=
  .bind (Pair.inspects_load identifier) fun _ => .ofOutcome _

end Manager

end Strongbox.Key

/-! ## Rotations -/

namespace Strongbox.Rotation

open Key (Inspects Works)

theorem works_mint (oldKey : Bytes) (old : Key.Metadata) (id : String) :
    Works 1 (mint oldKey old id) :=
  .bind (Action.composed_draw trivial) fun _ => .bind (Action.composed_now trivial) fun _ =>
    Key.Pair.works_create _ _

theorem inspects_storedVersions (base : String) : Inspects 2 (storedVersions base) :=
  .bind Key.Material.inspects_identifiers fun _ => .ofOutcome _

/-- The old pair is read before the turn begins, and the new one is made within it. -/
theorem works_rotate (identifier : String) : Works 0 (rotate identifier) :=
  .bind ((Key.Pair.inspects_load identifier).works (Nat.zero_le 1)) fun _ =>
    .bind (.ofOutcome _) fun current => .withLock trivial trivial (Nat.zero_le _)
      (.bind ((inspects_storedVersions current.base).works (Nat.le_succ 1)) fun _ =>
        .bind (.ofOutcome _) fun _ => .bind (.ofOutcome _) fun _ =>
          .bind (works_mint _ _ _) fun _ => .ofOutcome _)

theorem works_rotateUnique (identifier : String) : Works 1 (rotateUnique identifier) :=
  .bind ((Key.Pair.inspects_load identifier).works (Nat.le_refl 1)) fun _ =>
    .bind (Action.composed_draw trivial) fun _ => .bind (.ofOutcome _) fun _ =>
      .bind (works_mint _ _ _) fun _ => .ofOutcome _

theorem inspects_metadataOf (identifier : String) : Inspects 2 (metadataOf identifier) := by
  refine .bind ((Key.Catalogue.looksUp_get? identifier).inspects (Nat.le_refl 2)) fun found => ?_
  cases found <;> exact .ofOutcome _

theorem inspects_due (policy : Policy) : Inspects 2 (due policy) :=
  .bind Key.Catalogue.inspects_all fun _ => .bind (Action.composed_now trivial) fun _ =>
    .ofOutcome _

end Strongbox.Rotation
