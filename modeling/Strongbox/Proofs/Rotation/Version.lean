import Strongbox.Proofs.Key.Catalogue
import Strongbox.Proofs.Key.Form
import Strongbox.Rotation.Service
/-!
# Versions of keys

Which versions of a base are stored can be said of the data; the version that a rotation makes is
the one after all of them.

## Main results

* `parse_versionName`: the names of versions are read as those versions.
* `highest_le_iff`: what bounds the highest version that is stored.
* `latest_eq_highest`: what a rotation finds in a listing of all keys.
-/

namespace Strongbox

open Storage (Memory)

namespace Rotation

open Key

/-! ## The highest version -/

/-- A bound on the `latest` of some versions is one on each of them. -/
theorem latest_le_iff {current : UInt32} {others : List VersionedId} {n : Nat} :
    (latest current others).toNat ≤ n
      ↔ current.toNat ≤ n ∧ ∀ id ∈ others, id.version.toNat ≤ n := by
  rw [latest]
  induction others generalizing current with
  | nil => simp
  | cons id rest ih =>
    have hmax : (max current id.version).toNat ≤ n
        ↔ current.toNat ≤ n ∧ id.version.toNat ≤ n := by
      show (if current ≤ id.version then id.version else current).toNat ≤ n ↔ _
      split
      · rename_i hle
        have : current.toNat ≤ id.version.toNat := hle
        omega
      · rename_i hlt
        have : ¬ current.toNat ≤ id.version.toNat := hlt
        omega
    rw [List.foldl_cons, ih, hmax, List.forall_mem_cons, and_assoc]

theorem mem_versionsOf_iff {base : String} {identifiers : List String} {id : VersionedId} :
    id ∈ versionsOf base identifiers
      ↔ id.base = base ∧ ∃ identifier ∈ identifiers, VersionedId.parse identifier = .ok id := by
  rw [versionsOf, List.mem_filter, List.mem_filterMap, beq_iff_eq, and_comm]
  simp only [VersionedId.parse?_eq_some_iff]

/-! ## Stored versions -/

/-- The name of a version of a base. -/
def versionName (base : String) (n : Nat) : String := base ++ "_v" ++ toString n

theorem toList_versionName (base : String) (n : Nat) :
    (versionName base n).toList = base.toList ++ '_' :: 'v' :: Nat.toDigits 10 n := by
  simp [versionName]

theorem parse_versionName {base : String} {n : Nat} (h : VersionedId.IsBase base)
    (hn : n < UInt32.size) :
    ∃ id, VersionedId.parse (versionName base n) = .ok id ∧ id.base = base
      ∧ id.version.toNat = n := by
  have hversion : (UInt32.ofNat n).toNat = n := UInt32.toNat_ofNat_of_lt' hn
  refine ⟨⟨base, UInt32.ofNat n⟩, ?_, rfl, hversion⟩
  have hname : versionName base n = VersionedId.text ⟨base, UInt32.ofNat n⟩ := by
    rw [versionName, VersionedId.text, hversion]
  rw [hname]
  exact VersionedId.parse_text h

theorem next_eq_ok {id next : VersionedId} (h : id.next = .ok next) :
    next.text = versionName id.base (id.version.toNat + 1)
      ∧ id.version.toNat + 1 < UInt32.size := by
  obtain ⟨hbase, hnumber⟩ := VersionedId.next_eq_ok_iff.1 h
  rw [VersionedId.text, hbase, hnumber]
  refine ⟨rfl, ?_⟩
  rw [← hnumber]
  exact next.version.toNat_lt

/-- The highest version of a base that has a key; 0 if there is none. -/
def highest (d : Memory) (base : String) : Nat :=
  (latest 0 (versionsOf base (Material.identifiersUnder Material.locationStart d.keys))).toNat

variable {d : Memory} {base : String}

theorem highest_le_iff {n : Nat} :
    highest d base ≤ n ↔ ∀ identifier id, d.contains (Material.location identifier) = true →
      VersionedId.parse identifier = .ok id → id.base = base → id.version.toNat ≤ n := by
  rw [highest, latest_le_iff]
  constructor
  · rintro ⟨-, hbound⟩ identifier id hcontains hparse hbase
    refine hbound id (mem_versionsOf_iff.2 ⟨hbase, identifier, ?_, hparse⟩)
    exact Material.mem_identifiersUnder.2 (Table.mem_keys_iff.2 hcontains)
  · intro hbound
    refine ⟨Nat.zero_le n, fun id hid => ?_⟩
    obtain ⟨hbase, identifier, hmem, hparse⟩ := mem_versionsOf_iff.1 hid
    exact hbound identifier id
      (Table.mem_keys_iff.1 (Material.mem_identifiersUnder.1 hmem)) hparse hbase

theorem le_highest {identifier : String} {id : VersionedId}
    (hcontains : d.contains (Material.location identifier) = true)
    (hparse : VersionedId.parse identifier = .ok id) : id.version.toNat ≤ highest d id.base :=
  highest_le_iff.1 (Nat.le_refl _) identifier id hcontains hparse rfl

/-- The `highest` version is what a rotation of a stored key finds in a listing of all keys. -/
theorem latest_eq_highest {identifier : String} {current : VersionedId} {found : List String}
    (hperm : found.Perm d.keys) (hcontains : d.contains (Material.location identifier) = true)
    (hparse : VersionedId.parse identifier = .ok current) :
    (latest current.version (versionsOf current.base
        (Material.identifiersUnder Material.locationStart found))).toNat
      = highest d current.base := by
  have hlisted : ∀ identifier,
      identifier ∈ Material.identifiersUnder Material.locationStart found
        ↔ d.contains (Material.location identifier) = true := by
    intro identifier
    rw [Material.mem_identifiersUnder, hperm.mem_iff]
    exact Table.mem_keys_iff
  apply Nat.le_antisymm
  · refine latest_le_iff.2 ⟨le_highest hcontains hparse, fun id hid => ?_⟩
    obtain ⟨hbase, other, hmem, hother⟩ := mem_versionsOf_iff.1 hid
    rw [← hbase]
    exact le_highest ((hlisted other).1 hmem) hother
  · rw [highest_le_iff]
    intro other id hstored hother hbase
    exact (latest_le_iff.1 (Nat.le_refl _)).2 id
      (mem_versionsOf_iff.2 ⟨hbase, other, (hlisted other).2 hstored, hother⟩)

end Rotation

end Strongbox
