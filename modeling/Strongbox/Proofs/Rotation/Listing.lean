import Strongbox.Proofs.Key.Consistency
import Strongbox.Proofs.Rotation.Version
import Strongbox.Proofs.Text.Digits
/-!
# Listing the versions of a base

A listing of versions reads the identifiers of all keys as versions, keeps those of the base, sorts
them by their numbers and writes them out again. What is written is the identifier that was read as
long as its number has no needless zeros in front. A key whose number has some can be stored all the
same (`IsPadded`); in the listing it appears under the identifier without them, whether or not there
is such a key.

## Main results

* `text_eq_iff`: which identifiers are written as they were read.
* `mem_listing_iff`, `nodup_listing`: what is listed.
* `versions_exact_iff`: when a listing names exactly the stored versions.
-/

namespace Strongbox.Rotation

open Key
open Key.VersionedId (parse)
open Storage (Memory)

variable {d d' : Memory} {base name : String} {id : VersionedId}

/-! ## Identifiers that are written as they were read -/

/-- The number of the version has needless zeros in front. -/
def IsPadded (base name : String) : Prop :=
  ∃ digits, digits ≠ [] ∧ (∀ c ∈ digits, c.isDigit = true)
    ∧ name = base ++ "_v" ++ String.ofList ('0' :: digits)

/-- A version is written as it was read, unless it `IsPadded`. -/
theorem text_eq_iff (h : parse name = .ok id) : id.text = name ↔ ¬ IsPadded id.base name := by
  obtain ⟨digits, hform, hversion⟩ := VersionedId.parse_eq_ok_iff.1 h
  obtain ⟨-, hnonempty, hdigits, rfl⟩ := hform
  have hcancel : ∀ {a b : List Char},
      id.base ++ "_v" ++ String.ofList a = id.base ++ "_v" ++ String.ofList b ↔ a = b := by
    intro a b
    simp [← String.toList_inj]
  rw [VersionedId.text, Nat.toString_eq_ofList_toDigits, ← hversion, hcancel,
    Text.toDigits_ofDigitChars_eq_iff hnonempty hdigits]
  refine not_congr (exists_congr fun rest => and_congr_right fun _ => ?_)
  rw [hcancel]
  constructor
  · rintro rfl
    exact ⟨fun c hc => hdigits c (List.mem_cons_of_mem _ hc), rfl⟩
  · exact fun h => h.2

/-! ## What is listed -/

/-- The key is stored, and its identifier has the versioned form with this base. -/
structure IsStoredVersion (d : Memory) (base name : String) : Prop where
  stored : d.contains (Material.location name) = true
  versioned : ∃ version, parse name = .ok ⟨base, version⟩

/-- The versions of a base in the order in which they are listed. -/
def listing (base : String) (found : List String) : List VersionedId :=
  (versionsOf base (Material.identifiersUnder Material.locationStart found)).mergeSort
    fun a b => a.version ≤ b.version

theorem runs_versions {outcome : Outcome (List String)}
    (hrun : (versions base).Runs d outcome d' []) :
    ∃ found, found.Perm d.keys ∧ outcome = .ok ((listing base found).map (·.text)) := by
  rcases Key.Creation.runs_storedVersions_bind hrun with ⟨found, hperm, hend⟩ | ⟨-, -, hfailed⟩
  · obtain ⟨rfl, -, -⟩ := Action.runs_pure_iff.1 hend
    exact ⟨found, hperm, rfl⟩
  · cases hfailed

variable {found : List String}

theorem mem_listing_iff (hperm : found.Perm d.keys) :
    id ∈ listing base found
      ↔ id.base = base ∧ ∃ name, d.contains (Material.location name) = true
        ∧ parse name = .ok id := by
  rw [listing, List.mem_mergeSort, mem_versionsOf_iff]
  refine and_congr_right fun _ => exists_congr fun name => and_congr_left fun _ => ?_
  rw [Material.mem_identifiersUnder, hperm.mem_iff]
  exact Table.mem_keys_iff

/-- Lower versions come before higher ones in a `listing`. -/
private theorem pairwise_listing :
    (listing base found).Pairwise fun a b => a.version ≤ b.version := by
  have hsorted : (listing base found).Pairwise
      fun a b => decide (a.version ≤ b.version) = true := by
    refine List.pairwise_mergeSort (fun a b c hab hbc => ?_) (fun a b => ?_) _
    · exact decide_eq_true (UInt32.le_trans (of_decide_eq_true hab) (of_decide_eq_true hbc))
    · rw [Bool.or_eq_true, decide_eq_true_eq, decide_eq_true_eq]
      exact UInt32.le_total a.version b.version
  exact hsorted.imp of_decide_eq_true

/-- If all stored versions are written as they were read, none is listed twice. -/
theorem nodup_listing (hperm : found.Perm d.keys)
    (hplain : ∀ name, IsStoredVersion d base name → ¬ IsPadded base name) :
    ((listing base found).map (·.text)).Nodup := by
  have hkeys : found.Nodup := hperm.nodup_iff.2 (d.keys_ascending.imp Table.ne_of_lt)
  have hread : ∀ {name id}, name ∈ Material.identifiersUnder Material.locationStart found →
      VersionedId.parse? name = some id → (id.base == base) = true → id.text = name := by
    intro name id hname hparse hbase
    have hid := VersionedId.parse?_eq_some_iff.1 hparse
    obtain rfl := beq_iff_eq.1 hbase
    refine (text_eq_iff hid).2 (hplain name ⟨?_, id.version, hid⟩)
    exact Table.mem_keys_iff.1 (hperm.mem_iff.1 (Material.mem_identifiersUnder.1 hname))
  have hnames : (Material.identifiersUnder Material.locationStart found).Nodup :=
    Material.nodup_identifiersUnder hkeys
  rw [listing, (List.Perm.map _ (List.mergeSort_perm _ _)).nodup_iff, versionsOf, List.Nodup,
    List.pairwise_map, List.pairwise_filter, List.pairwise_filterMap]
  refine hnames.imp_of_mem fun hname hname' hne id hid id' hid' hbase hbase' hsame => hne ?_
  rw [← hread hname hid hbase, ← hread hname' hid' hbase', hsame]

/-! ## Listings in surroundings -/

/-- A stored key is found by `get?`, unless a request fails. -/
theorem runs_get?_of_contains {outcome : Outcome (Option Bytes)} (hname : IsIdentifier name)
    (hstored : d.contains (Material.location name) = true)
    (hrun : (Material.get? name).Runs d outcome d' []) : ∃ key, outcome = .ok (some key) := by
  have hread := (runs_checked_iff hname).1 hrun
  rw [← bind_pure (Action.retrieve? _)] at hread
  rcases Action.runs_retrieve?_bind hread with hend | ⟨-, -, hfailed⟩
  · obtain ⟨rfl, -, -⟩ := Action.runs_pure_iff.1 hend
    obtain ⟨key, hkey⟩ := Option.isSome_iff_exists.1 hstored
    exact ⟨key, congrArg Except.ok hkey⟩
  · cases hfailed

/-- What `versions` lists is the stored versions of the base, lowest first, each as its version is
written. These are exactly the identifiers of the stored versions, without repetition and with a key
each, as long as no stored version `IsPadded`. -/
theorem versions_exact_iff (S : Surroundings) (base : String) (s : S.State)
    (hnamed : ∀ name, (S.data s).contains (Material.location name) = true → IsIdentifier name)
    (hserved : S.failures (versions base) s = []) :
    ∃ names, (S.perform (versions base) s).1 = .ok names
      ∧ names.Pairwise (fun a b => ∃ i j, parse a = .ok ⟨base, i⟩ ∧ parse b = .ok ⟨base, j⟩ ∧ i ≤ j)
      ∧ (∀ name, name ∈ names ↔ ∃ stored version,
        (S.data s).contains (Material.location stored) = true
          ∧ parse stored = .ok ⟨base, version⟩ ∧ name = VersionedId.text ⟨base, version⟩)
      ∧ (((∀ name, name ∈ names ↔ IsStoredVersion (S.data s) base name)
          ∧ names.Nodup
          ∧ ∀ name ∈ names, ∀ t, S.data t = S.data s → S.failures (Material.get? name) t = [] →
            ∃ key, (S.perform (Material.get? name) t).1 = .ok (some key))
        ↔ ∀ name, IsStoredVersion (S.data s) base name → ¬ IsPadded base name) := by
  have hrun := S.runs_perform (versions base) s
  rw [hserved] at hrun
  obtain ⟨found, hperm, houtcome⟩ := runs_versions hrun
  have hparse : ∀ {id}, id ∈ listing base found → parse id.text = .ok ⟨base, id.version⟩ := by
    intro id hid
    obtain ⟨rfl, name, -, hname⟩ := (mem_listing_iff hperm).1 hid
    exact VersionedId.parse_text (VersionedId.isBase_of_parse hname)
  have hmem : ∀ name, name ∈ (listing base found).map (·.text) ↔ ∃ stored version,
      (S.data s).contains (Material.location stored) = true
        ∧ parse stored = .ok ⟨base, version⟩ ∧ name = VersionedId.text ⟨base, version⟩ := by
    intro name
    rw [List.mem_map]
    constructor
    · rintro ⟨id, hid, rfl⟩
      obtain ⟨rfl, stored, hstored, hread⟩ := (mem_listing_iff hperm).1 hid
      exact ⟨stored, id.version, hstored, hread, rfl⟩
    · rintro ⟨stored, version, hstored, hread, rfl⟩
      exact ⟨_, (mem_listing_iff hperm).2 ⟨rfl, stored, hstored, hread⟩, rfl⟩
  refine ⟨_, houtcome, ?_, hmem, ?_⟩
  · rw [List.pairwise_map]
    refine pairwise_listing.imp_of_mem fun {a b} ha hb hle => ?_
    exact ⟨a.version, b.version, hparse ha, hparse hb, hle⟩
  constructor
  · rintro ⟨hexact, -, -⟩ name hversion
    obtain ⟨id, hid, rfl⟩ := List.mem_map.1 ((hexact name).2 hversion)
    exact (text_eq_iff (hparse hid)).1 (by rw [← ((mem_listing_iff hperm).1 hid).1])
  · intro hplain
    have hexact : ∀ name, name ∈ (listing base found).map (·.text)
        ↔ IsStoredVersion (S.data s) base name := by
      intro name
      rw [hmem]
      constructor
      · rintro ⟨stored, version, hstored, hread, rfl⟩
        have hversion : IsStoredVersion (S.data s) base stored := ⟨hstored, version, hread⟩
        rw [(text_eq_iff hread).2 (hplain stored hversion)]
        exact hversion
      · intro hversion
        obtain ⟨version, hread⟩ := hversion.versioned
        exact ⟨name, version, hversion.stored, hread,
          ((text_eq_iff hread).2 (hplain name hversion)).symm⟩
    refine ⟨hexact, nodup_listing hperm hplain, fun name hname t hsame hfailures => ?_⟩
    have hstored := ((hexact name).1 hname).stored
    have hget := S.runs_perform (Material.get? name) t
    rw [hfailures, hsame] at hget
    exact runs_get?_of_contains (hnamed name hstored) hstored hget

/-- A storage that holds these keys and nothing else. -/
def keysStored (names : List String) : World.plainSurroundings.State :=
  ⟨{ keylessWorld.1 with
      storage := .memory (names.foldl (fun d name => d.insert (Material.location name) [1])
        Table.empty) }, _, rfl⟩

/-- The only version that is stored is listed under an identifier that has no key. -/
theorem padded_listedOtherwise :
    checkIdentifier "svc_v01" = .ok ()
      ∧ parse "svc_v01" = .ok ⟨"svc", 1⟩
      ∧ (World.plainSurroundings.data (keysStored ["svc_v01"])).keys = [Material.location "svc_v01"]
      ∧ (World.plainSurroundings.perform (versions "svc") (keysStored ["svc_v01"])).1
        = .ok ["svc_v1"]
      ∧ (World.plainSurroundings.perform (Material.get? "svc_v1") (keysStored ["svc_v01"])).1
        = .ok none := by
  decide +kernel

/-- Two versions of a base, the higher of which comes first in the order of texts. -/
def twoVersions : World.plainSurroundings.State := keysStored ["svc_v10", "svc_v2"]

/-- The two are listed once each, and nothing else is. -/
theorem twoVersions_listed :
    ∃ names, (World.plainSurroundings.perform (versions "svc") twoVersions).1 = .ok names
      ∧ names.Nodup ∧ ∀ name, name ∈ names ↔ name = "svc_v10" ∨ name = "svc_v2" := by
  have hkeys : ∀ {name}, (World.plainSurroundings.data twoVersions).contains
      (Material.location name) = true ↔ name = "svc_v10" ∨ name = "svc_v2" := by
    intro name
    rw [← Table.mem_keys_iff, show (World.plainSurroundings.data twoVersions).keys
      = [Material.location "svc_v10", Material.location "svc_v2"] by decide +kernel]
    simp
  have hnamed : ∀ name, (World.plainSurroundings.data twoVersions).contains
      (Material.location name) = true → IsIdentifier name := by
    intro name hname
    rcases hkeys.1 hname with rfl | rfl
    · exact checkIdentifier_eq_ok_iff.1 (by decide +kernel)
    · exact checkIdentifier_eq_ok_iff.1 (by decide +kernel)
  have hread : ∀ {name}, name = "svc_v10" ∨ name = "svc_v2" →
      ∃ version, parse name = .ok ⟨"svc", version⟩
        ∧ VersionedId.text ⟨"svc", version⟩ = name := by
    rintro name (rfl | rfl)
    · exact ⟨10, by decide +kernel, by decide +kernel⟩
    · exact ⟨2, by decide +kernel, by decide +kernel⟩
  obtain ⟨names, hnames, -, -, hiff⟩ := versions_exact_iff World.plainSurroundings "svc" twoVersions
    hnamed (by decide +kernel)
  have hplain : ∀ name, IsStoredVersion (World.plainSurroundings.data twoVersions) "svc" name →
      ¬ IsPadded "svc" name := by
    intro name hversion
    obtain ⟨version, hparse, htext⟩ := hread (hkeys.1 hversion.stored)
    exact (text_eq_iff hparse).1 htext
  obtain ⟨hexact, hnodup, -⟩ := hiff.2 hplain
  refine ⟨names, hnames, hnodup, fun name => (hexact name).trans ?_⟩
  constructor
  · exact fun hversion => hkeys.1 hversion.stored
  · intro hname
    obtain ⟨version, hparse, -⟩ := hread hname
    exact ⟨hkeys.2 hname, version, hparse⟩

end Strongbox.Rotation
