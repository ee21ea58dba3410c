import Strongbox.Proofs.Rotation.Minting
/-!
# Rotations in succession

A key that was generated is the first version of its purpose, and each rotation of the latest
version makes the one after it. What one rotation needs of the data and leaves for the next is said
by `IsLatest`: the version has a key and metadata, and no higher one of its base is stored. So
versions follow one another without gaps as long as identifiers and numbers do not get too long.

There is one purpose for which this fails from the start. An empty purpose is accepted, but the key
that is generated for it is no version of anything: what stands in front of a version is not empty.

## Main results

* `IsLatest.runs_rotate`: a rotation of the latest version.
* `IsLatest.runs_successively`: any number of rotations, each of the version that was made last.
* `successively_iff`: which generated keys can be rotated.
-/

namespace Strongbox.Rotation

open Key
open Storage (Memory)

variable {d d' : Memory} {failed : List Request} {base identifier : String} {n k : Nat}

/-! ## Names of versions -/

/-- What stands in front of a version in an identifier is an `IsBase`, as it is on one line. -/
private theorem isBase_of_isIdentifier (h : IsIdentifier (versionName base n))
    (hnonempty : base ≠ "") : VersionedId.IsBase base := by
  refine ⟨fun hnil => hnonempty (String.toList_inj.1 hnil), fun hline => ?_⟩
  have hmem : '\n' ∈ (versionName base n).toList := by
    rw [toList_versionName]
    exact List.mem_append_left _ hline
  cases h.no_control _ hmem

/-! ## One rotation -/

/-- The version has a key and metadata, and it is the highest one of its base. -/
structure IsLatest (d : Memory) (base : String) (n : Nat) : Prop where
  isBase : VersionedId.IsBase base
  inRange : n < UInt32.size
  named : IsIdentifier (versionName base n)
  key : ∃ key, d.get? (Material.location (versionName base n)) = some key ∧ key ≠ []
  metadata : ∃ m, Catalogue.stored? d (versionName base n) = .ok (some m)
  highest_eq : highest d base = n

/-- A new key with its metadata `IsLatest`, if it is one more than the highest. -/
theorem isLatest_added {key : Bytes} {m : Metadata} (hbase : VersionedId.IsBase base)
    (hsize : n < UInt32.size) (hname : IsIdentifier (versionName base n))
    (hid : m.id = versionName base n) (hkey : key ≠ [])
    (hhighest : ∀ identifier id, d.contains (Material.location identifier) = true →
      VersionedId.parse identifier = .ok id → id.base = base → id.version.toNat ≤ n) :
    IsLatest (Pair.added d key m) base n := by
  obtain ⟨id, hparse, rfl, hversion⟩ := parse_versionName hbase hsize
  have hget : ∀ identifier, (Pair.added d key m).get? (Material.location identifier)
      = if identifier = m.id then some key else d.get? (Material.location identifier) := by
    intro identifier
    simp [Pair.added]
  refine ⟨hbase, hsize, hname, ⟨key, ?_, hkey⟩, ⟨m, ?_⟩, Nat.le_antisymm ?_ ?_⟩
  · rw [hget, if_pos hid.symm]
  · rw [Catalogue.stored?_added, if_pos hid.symm]
  · rw [highest_le_iff]
    intro identifier other hstored hother hsame
    rw [Table.contains, hget] at hstored
    by_cases hnew : identifier = m.id
    · rw [hnew, hid, hparse] at hother
      cases hother
      exact Nat.le_of_eq hversion
    · rw [if_neg hnew] at hstored
      exact hhighest identifier other hstored hother hsame
  · have hstored : (Pair.added d key m).contains
        (Material.location (versionName id.base n)) = true := by
      rw [Table.contains, hget, if_pos hid.symm]
      rfl
    have hle := le_highest hstored hparse
    omega

/-- The version that `IsLatest` and its metadata can be read. -/
theorem IsLatest.exists_loaded (h : IsLatest d base n) :
    ∃ key m, Pair.Loaded (versionName base n) d (.ok (key, m)) [] ∧ key ≠ [] := by
  obtain ⟨key, hkey, hnonempty⟩ := h.key
  obtain ⟨m, hm⟩ := h.metadata
  obtain ⟨record, hrecord, hread⟩ := Catalogue.stored?_eq_some_iff.1 hm
  exact ⟨key, m, .loaded h.named hkey hrecord hread, hnonempty⟩

/-- A rotation of the version that `IsLatest` makes the one after it, which is the latest then. -/
theorem IsLatest.runs_rotate (h : IsLatest d base n) (hsize : n + 1 < UInt32.size)
    (hshort : (versionName base (n + 1)).toList.length ≤ maxIdentifierLength)
    {outcome : Outcome String}
    (hrun : (rotate (versionName base n)).Runs d outcome d' []) :
    outcome = .ok (versionName base (n + 1)) ∧ IsLatest d' base (n + 1) := by
  obtain ⟨current, hparse, rfl, -⟩ := parse_versionName h.isBase h.inRange
  obtain ⟨oldKey, old, hloaded, hold⟩ := h.exists_loaded
  have hname := VersionedId.isIdentifier_versionName hparse h.named hshort
  have hrotated := runsUnder_rotate hloaded hold hparse hrun.runsUnder
  rw [h.highest_eq] at hrotated
  rcases hrotated with ⟨-, -, rfl, key, createdAt, hlength, -, rfl⟩ | ⟨hneither, -⟩
  · have hkey : key ≠ [] := by
      rw [← List.length_pos_iff, hlength, List.length_pos_iff]
      exact hold
    refine ⟨rfl, isLatest_added h.isBase hsize hname rfl hkey ?_⟩
    intro name id hstored hid hbase
    have hle := le_highest hstored hid
    rw [hbase, h.highest_eq] at hle
    omega
  · exact absurd ⟨hsize, hshort⟩ hneither

/-! ## Any number of rotations -/

/-- Rotations one after another, each of the key that the one before it has made. The result are the
identifiers of the new keys. -/
def successively : Nat → String → Action (List String)
  | 0, _ => pure []
  | k + 1, identifier => do
    let next ← rotate identifier
    return next :: (← successively k next)

/-- Rotations `successively` from the latest version make the versions after it, without gaps. -/
theorem IsLatest.runs_successively (h : IsLatest d base n) (hsize : n + k < UInt32.size)
    (hshort : ∀ i < k, (versionName base (n + 1 + i)).toList.length ≤ maxIdentifierLength)
    {outcome : Outcome (List String)}
    (hrun : (successively k (versionName base n)).Runs d outcome d' []) :
    outcome = .ok ((List.range k).map fun i => versionName base (n + 1 + i)) := by
  induction k generalizing d d' n outcome with
  | zero => exact (Action.runs_pure_iff.1 hrun).1
  | succ k ih =>
    rcases Action.runs_bind_iff.1 hrun with
      ⟨next, d₁, before, after, hrotate, hrest, hnone⟩ | ⟨halt, hrotate, -⟩
    · obtain ⟨rfl, rfl⟩ := List.append_eq_nil_iff.1 hnone.symm
      obtain ⟨hnext, hlatest⟩ := h.runs_rotate (by omega) (hshort 0 (by omega)) hrotate
      cases hnext
      have hothers : ∀ i,
          versionName base (n + 1 + 1 + i) = versionName base (n + 1 + (i + 1)) := by
        intro i
        congr 1
        omega
      have hshort' : ∀ i < k,
          (versionName base (n + 1 + 1 + i)).toList.length ≤ maxIdentifierLength := by
        intro i hi
        rw [hothers]
        exact hshort (i + 1) (by omega)
      rcases Action.runs_bind_iff.1 hrest with
        ⟨rest, d₂, before, after, hothersRun, hend, hnone⟩ | ⟨halt, hothersRun, -⟩
      · obtain ⟨rfl, rfl⟩ := List.append_eq_nil_iff.1 hnone.symm
        cases ih hlatest (by omega) hshort' hothersRun
        rw [(Action.runs_pure_iff.1 hend).1]
        simp [List.range_succ_eq_map, hothers]
      · cases ih hlatest (by omega) hshort' hothersRun
    · cases (h.runs_rotate (by omega) (hshort 0 (by omega)) hrotate).1

/-! ## Keys that were generated -/

/-- What `generate` makes is the latest version, if its purpose is not empty and no version of it
was stored. -/
private theorem isLatest_of_runs_generate {purpose : String} {algorithm : Cipher.Algorithm}
    {attributes : Table String}
    (hrun : (Manager.generate purpose algorithm attributes).Runs d (.ok identifier) d' failed)
    (hfirst : ∀ name id, d.contains (Material.location name) = true →
      VersionedId.parse name = .ok id → id.base ≠ purpose) :
    identifier = versionName purpose 1 ∧ (purpose ≠ "" → IsLatest d' purpose 1) := by
  cases Creation.effect_of_runs (c := .generate purpose algorithm attributes) hrun with
  | made hmakes hname hnew =>
    cases hmakes with
    | generated createdAt hlength =>
      refine ⟨rfl, fun hnonempty => ?_⟩
      have hname' : IsIdentifier (versionName purpose 1) := hname
      refine isLatest_added (isBase_of_isIdentifier hname' hnonempty) (by decide) hname' rfl ?_ ?_
      · rw [← List.length_pos_iff, hlength]
        cases algorithm <;> decide
      · intro name id hstored hid hbase
        exact absurd hbase (hfirst name id hstored hid)

/-- What `rotate` accepts has a version. -/
private theorem exists_of_runs_rotate {next : String}
    (hrun : (rotate identifier).Runs d (.ok next) d' failed) :
    ∃ current, VersionedId.parse identifier = .ok current := by
  cases Creation.effect_of_runs (c := .rotate identifier) hrun with
  | made hmakes _ _ =>
    cases hmakes with
    | rotated _ _ _ hparse _ _ => exact ⟨_, hparse⟩

/-- The key that `generate` makes for a purpose is its first version, and rotations `successively`
make the versions after it, as long as no version of the purpose was stored before, identifiers and
numbers stay in range and no request fails. The only purpose for which this is not so is the empty
one: it is accepted, but its key is no version, and cannot be rotated once. -/
theorem successively_iff (S : Surroundings) {s made : S.State} {purpose : String}
    {algorithm : Cipher.Algorithm} {attributes : Table String}
    (hmade : S.perform (Manager.generate purpose algorithm attributes) s = (.ok identifier, made))
    (hfirst : ∀ name id, (S.data s).contains (Material.location name) = true →
      VersionedId.parse name = .ok id → id.base ≠ purpose) :
    identifier = versionName purpose 1
      ∧ (VersionedId.parse identifier = .ok ⟨purpose, 1⟩ ↔ purpose ≠ "")
      ∧ ∀ k, 1 + k < UInt32.size →
        (∀ i < k, (versionName purpose (2 + i)).toList.length ≤ maxIdentifierLength) →
        S.failures (successively k identifier) made = [] →
        ((S.perform (successively k identifier) made).1
            = .ok ((List.range k).map fun i => versionName purpose (2 + i))
          ↔ purpose ≠ "" ∨ k = 0) := by
  have hrun := S.runs_perform (Manager.generate purpose algorithm attributes) s
  rw [hmade] at hrun
  obtain ⟨rfl, hlatest⟩ := isLatest_of_runs_generate hrun hfirst
  refine ⟨rfl, ⟨fun hparse hempty => ?_, fun hnonempty => ?_⟩, fun k hsize hshort hserved => ?_⟩
  · apply (VersionedId.isBase_of_parse hparse).nonempty
    rw [hempty]
    rfl
  · show VersionedId.parse (VersionedId.text ⟨purpose, 1⟩) = .ok ⟨purpose, 1⟩
    exact VersionedId.parse_text (hlatest hnonempty).isBase
  have hrotations := S.runs_perform (successively k (versionName purpose 1)) made
  rw [hserved] at hrotations
  constructor
  · intro hdone
    by_contra hneither
    obtain ⟨hempty, hsome⟩ := not_or.1 hneither
    obtain ⟨k, rfl⟩ := Nat.exists_eq_succ_of_ne_zero hsome
    obtain ⟨next, t, hrotate, -⟩ := Action.exists_of_perform_bind S.answer hdone
    have hfirstRun := S.runs_perform (rotate (versionName purpose 1)) made
    rw [show S.perform (rotate (versionName purpose 1)) made = (.ok next, t) from hrotate]
      at hfirstRun
    obtain ⟨current, hparse⟩ := exists_of_runs_rotate hfirstRun
    rw [not_not.1 hempty] at hparse
    cases hparse
  · rintro (hnonempty | rfl)
    · exact (hlatest hnonempty).runs_successively hsize hshort hrotations
    · rfl

/-- A key is generated for no purpose at all, in a storage without keys. -/
def purposeless : Outcome String × World.plainSurroundings.State :=
  World.plainSurroundings.perform (Manager.generate "" .aesGcm Table.empty) keylessWorld

/-- It is generated without complaint, and its rotation is refused. -/
theorem purposeless_refused :
    let refusal := Error.invalidKeyIdentifier "_v1" "expected the form \x7bbase\x7d_v\x7bnumber\x7d"
    purposeless.1 = .ok "_v1"
      ∧ World.plainSurroundings.data keylessWorld = Table.empty
      ∧ VersionedId.parse "_v1" = .error refusal
      ∧ (World.plainSurroundings.perform (rotate "_v1") purposeless.2).1
        = .error (.failed refusal) := by
  decide +kernel

/-- A key is generated for a purpose that looks like a version itself. -/
def doubleVersion : Outcome String × World.plainSurroundings.State :=
  World.plainSurroundings.perform (Manager.generate "mail_v7" .aesGcm Table.empty) keylessWorld

/-- It is the first version of that purpose, and its rotation makes the second. -/
theorem doubleVersion_rotated :
    doubleVersion.1 = .ok "mail_v7_v1"
      ∧ VersionedId.parse "mail_v7_v1" = .ok ⟨"mail_v7", 1⟩
      ∧ (World.plainSurroundings.perform (successively 1 "mail_v7_v1") doubleVersion.2).1
        = .ok ["mail_v7_v2"] := by
  have hmade : World.plainSurroundings.perform (Manager.generate "mail_v7" .aesGcm Table.empty)
      keylessWorld = (.ok "mail_v7_v1", doubleVersion.2) :=
    Prod.ext (by decide +kernel) rfl
  have hnone : ∀ name id, (World.plainSurroundings.data keylessWorld).contains
      (Material.location name) = true → VersionedId.parse name = .ok id → id.base ≠ "mail_v7" := by
    intro name id hstored
    cases hstored
  have hshort : ∀ i < 1, (versionName "mail_v7" (2 + i)).toList.length ≤ maxIdentifierLength := by
    decide +kernel
  obtain ⟨-, hparse, hrotations⟩ := successively_iff World.plainSurroundings hmade hnone
  exact ⟨congrArg Prod.fst hmade, hparse.2 (by decide),
    (hrotations 1 (by decide) hshort (by decide +kernel)).2 (.inl (by decide))⟩

end Strongbox.Rotation
