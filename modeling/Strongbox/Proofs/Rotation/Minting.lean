import Strongbox.Proofs.Key.Consistency
import Strongbox.Proofs.Program.Answers
import Strongbox.Proofs.Rotation.Version
import Strongbox.Proofs.Text.Digits
/-!
# What a rotation mints

A rotation by version names the new key after the highest version of the base that is stored, and is
refused if there is no next version or its name is too long. A rotation to a unique identifier
always finds a name: whatever the purpose is, what is left of it can stand in front of an
identifier. It cannot be taken for a version, since what follows its last underscore are hexadecimal
digits, and `v` is none.

What is minted is the same in both cases (`Minted`): a key of the old one's length, with the old
metadata but for name and time and for the attribute that names the old key. Nothing else changes.

## Main results

* `runsUnder_rotate`, `runsUnder_rotateUnique`: what a rotation does if no request fails.
* `minted_by_rotation`: what either rotation of a stored pair returns and leaves in the storage.
-/

namespace Strongbox

open Storage (Memory)

/-! ## Names of versions -/

namespace Key.VersionedId

/-- What stands in front of a version is a part of its identifier. -/
private theorem mem_of_parse {identifier : String} {id : VersionedId} {c : Char}
    (h : parse identifier = .ok id) (hc : c ∈ id.base.toList) : c ∈ identifier.toList := by
  obtain ⟨digits, hform, -⟩ := parse_eq_ok_iff.1 h
  simp [hform.eq_append, hc]

/-- If one version of a base names a key, so does any other that is not too long. -/
theorem isIdentifier_versionName {identifier : String} {id : VersionedId} {k : Nat}
    (hparse : parse identifier = .ok id) (h : IsIdentifier identifier)
    (hshort : (Rotation.versionName id.base k).toList.length ≤ maxIdentifierLength) :
    IsIdentifier (Rotation.versionName id.base k) := by
  have hchars : ∀ {c}, c ∈ (Rotation.versionName id.base k).toList →
      c ∈ identifier.toList ∨ c = '_' ∨ c = 'v' ∨ c.isDigit = true := by
    intro c hc
    rw [Rotation.toList_versionName, List.mem_append, List.mem_cons, List.mem_cons] at hc
    rcases hc with hbase | rfl | rfl | hdigit
    · exact .inl (mem_of_parse hparse hbase)
    · exact .inr (.inl rfl)
    · exact .inr (.inr (.inl rfl))
    · exact .inr (.inr (.inr (Text.isDigit_of_mem_toDigits hdigit)))
  refine ⟨?_, hshort, fun hcolon => ?_, fun c hc => ?_⟩
  · simp [Rotation.toList_versionName]
  · rcases hchars hcolon with hmem | hother | hother | hother
    · exact h.no_colon hmem
    all_goals cases hother
  · rcases hchars hc with hmem | rfl | rfl | hdigit
    · exact h.no_control c hmem
    · rfl
    · rfl
    · exact Text.isControl_of_isDigit hdigit

end Key.VersionedId

/-! ## Unique names -/

namespace Text

/-- A digit of a unique identifier is one of sixteen characters. -/
theorem mem_hexDigits_of_mem_unique {bytes : Bytes.Sized 16} {c : Char}
    (h : c ∈ (unique bytes).toList) : c ∈ "0123456789abcdef".toList := by
  have hdigit : ∀ n < 16, Hex.digit n ∈ "0123456789abcdef".toList := by decide
  rw [unique, Hex.encode, String.toList_ofList, Hex.digits, List.mem_flatMap] at h
  obtain ⟨b, -, hc⟩ := h
  have hb := b.toNat_lt
  rw [List.mem_cons, List.mem_singleton] at hc
  rcases hc with rfl | rfl
  · exact hdigit _ (by omega)
  · exact hdigit _ (by omega)

end Text

namespace Rotation

open Key

/-- The name that `rotateUnique` gives. -/
def uniqueName (purpose : String) (unique : Bytes.Sized 16) : String :=
  tagOf purpose ++ "_" ++ Text.unique unique

theorem toList_uniqueName (purpose : String) (unique : Bytes.Sized 16) :
    (uniqueName purpose unique).toList
      = (tagOf purpose).toList ++ '_' :: (Text.unique unique).toList := by
  simp [uniqueName]

/-- Neither a colon nor a control character is left of a purpose in `tagOf`. -/
private theorem isAllowed_of_mem_tagOf {purpose : String} {c : Char}
    (h : c ∈ (tagOf purpose).toList) : c ≠ ':' ∧ Text.isControl c = false := by
  rw [tagOf, String.toList_ofList] at h
  obtain ⟨c', -, rfl⟩ := List.mem_map.1 (List.mem_of_mem_take h)
  by_cases hreplaced : (c' = ':' || Text.isControl c') = true
  · rw [if_pos hreplaced]
    exact ⟨by decide, rfl⟩
  · rw [if_neg hreplaced]
    simpa using hreplaced

private theorem length_tagOf_le (purpose : String) :
    (tagOf purpose).toList.length ≤ maxTagLength := by
  rw [tagOf, String.toList_ofList, List.length_take]
  exact Nat.min_le_left _ _

/-- Whatever the purpose is, `tagOf` makes of it what can stand in front of a unique identifier. -/
theorem isIdentifier_uniqueName (purpose : String) (unique : Bytes.Sized 16) :
    IsIdentifier (uniqueName purpose unique) := by
  have hhex : ("0123456789abcdef".toList.all fun c => c != ':' && !Text.isControl c) = true := by
    decide
  have hchars : ∀ c ∈ (uniqueName purpose unique).toList, c ≠ ':' ∧ Text.isControl c = false := by
    intro c hc
    rw [toList_uniqueName, List.mem_append, List.mem_cons] at hc
    rcases hc with htag | rfl | hunique
    · exact isAllowed_of_mem_tagOf htag
    · decide
    · simpa using List.all_eq_true.1 hhex c (Text.mem_hexDigits_of_mem_unique hunique)
  refine ⟨?_, ?_, fun hcolon => (hchars _ hcolon).1 rfl, fun c hc => (hchars c hc).2⟩
  · simp [toList_uniqueName]
  · have htag := length_tagOf_le purpose
    rw [toList_uniqueName, List.length_append, List.length_cons, Text.length_unique]
    simp only [maxTagLength, maxIdentifierLength] at htag ⊢
    omega

/-- Two lists that are split at characters which do not occur behind the split are split at the same
one. -/
private theorem eq_of_append_cons_eq {xs ys front front' : List Char} {a b : Char}
    (h : front ++ a :: xs = front' ++ b :: ys) (ha : a ∉ ys) (hb : b ∉ xs) : a = b := by
  rcases List.append_eq_append_iff.1 h with ⟨middle, -, hmiddle⟩ | ⟨middle, -, hmiddle⟩
  · cases middle with
    | nil => exact (List.cons.inj hmiddle).1
    | cons c middle =>
      refine absurd ?_ hb
      rw [(List.cons.inj hmiddle).2]
      simp
  · cases middle with
    | nil => exact (List.cons.inj hmiddle).1.symm
    | cons c middle =>
      refine absurd ?_ ha
      rw [(List.cons.inj hmiddle).2]
      simp

/-- A name that `uniqueName` gives is no version of anything. -/
private theorem parse_uniqueName_ne (purpose : String) (unique : Bytes.Sized 16)
    (id : VersionedId) : VersionedId.parse (uniqueName purpose unique) ≠ .ok id := by
  intro hparse
  obtain ⟨digits, hform, -⟩ := VersionedId.parse_eq_ok_iff.1 hparse
  have hsplit : (tagOf purpose).toList ++ '_' :: (Text.unique unique).toList
      = (id.base.toList ++ ['_']) ++ 'v' :: digits := by
    rw [← toList_uniqueName, hform.eq_append]
    simp
  have hunderscore : '_' ∉ digits := fun hmem => by cases hform.isDigit _ hmem
  have hv : 'v' ∉ (Text.unique unique).toList := fun hmem =>
    absurd (Text.mem_hexDigits_of_mem_unique hmem) (by decide)
  cases eq_of_append_cons_eq hsplit hunderscore hv

/-! ## One rotation -/

variable {allowed : Allowance} {d d' : Memory} {identifier : String} {oldKey : Bytes}
  {old : Metadata} {outcome : Outcome String}

/-- A new key and its metadata are `added` in place of an old one, made at a time that was read from
the clock. -/
def Adds (allowed : Allowance) (d d' : Memory) (oldKey : Bytes) (old : Metadata) (name : String) :
    Prop :=
  ∃ key createdAt, key.length = oldKey.length ∧ allowed .now createdAt
    ∧ d' = Pair.added d key (successor old name createdAt)

private theorem exists_of_checkIdentifier_eq_error {name : String} {e : Error}
    (h : checkIdentifier name = .error e) : ∃ reason, e = .invalidKeyIdentifier name reason := by
  rw [checkIdentifier] at h
  split at h
  · cases h
    exact ⟨_, rfl⟩
  · cases h

/-- If no request fails, `mint` makes a key under an identifier, unless that has one. -/
theorem runsUnder_mint {name : String} (hname : IsIdentifier name) (hold : oldKey ≠ [])
    (hrun : (do mint oldKey old name; pure name : Action String).RunsUnder allowed d outcome d'
      []) :
    (d.get? (Material.location name) = none ∧ outcome = .ok name
        ∧ Adds allowed d d' oldKey old name)
      ∨ d.get? (Material.location name) ≠ none ∧ ∃ halt, outcome = .error halt := by
  rw [mint, bind_assoc] at hrun
  rcases Action.runsUnder_draw_bind hrun with ⟨key, -, hrest⟩ | ⟨-, hfailed⟩
  · rw [bind_assoc] at hrest
    obtain ⟨createdAt, hshown, hcreate⟩ := Action.runsUnder_now_bind hrest
    have hkey : key.1 ≠ [] := by
      rw [← List.length_pos_iff, key.2, List.length_pos_iff]
      exact hold
    rcases Action.runs_bind_iff.1 hcreate.runs with
      ⟨_, d₁, before, after, hpair, hend, hnone⟩ | ⟨halt, hpair, rfl⟩
    · obtain ⟨rfl, rfl⟩ := List.append_eq_nil_iff.1 hnone.symm
      obtain ⟨rfl, rfl, -⟩ := Action.runs_pure_iff.1 hend
      cases Pair.runs_create hpair with
      | made _ hnew => exact .inl ⟨hnew, rfl, key.1, createdAt, key.2, hshown, rfl⟩
    · refine .inr ⟨fun hnew => ?_, halt, rfl⟩
      cases (Pair.runs_create_of_unused hname hkey hnew hpair).1
  · cases hfailed

/-- If no request fails, an action after `Pair.load` runs on the pair that is stored. -/
theorem runsUnder_load_bind {α : Type} {next : Bytes × Metadata → Action α} {outcome : Outcome α}
    (hloaded : Pair.Loaded identifier d (.ok (oldKey, old)) [])
    (hrun : (Pair.load identifier >>= next).RunsUnder allowed d outcome d' []) :
    (next (oldKey, old)).RunsUnder allowed d outcome d' [] := by
  rcases Action.runsUnder_bind hrun with
    ⟨pair, d₁, before, after, hload, hnext, hnone⟩ | ⟨halt, hload, -⟩
  · obtain ⟨rfl, rfl⟩ := List.append_eq_nil_iff.1 hnone.symm
    obtain ⟨rfl, hpair⟩ := Pair.runs_load hload.runs
    cases hloaded.eq_ok rfl rfl hpair
    exact hnext
  · cases hloaded.eq_ok rfl rfl (Pair.runs_load hload.runs).2

/-- If no request fails, an action after `storedVersions` runs on all stored versions of a base. -/
private theorem runsUnder_storedVersions_bind {α : Type} {base : String}
    {next : List VersionedId → Action α} {outcome : Outcome α}
    (hrun : (storedVersions base >>= next).RunsUnder allowed d outcome d' []) :
    ∃ found, found.Perm d.keys
      ∧ (next (versionsOf base (Material.identifiersUnder Material.locationStart found))).RunsUnder
        allowed d outcome d' [] := by
  rw [storedVersions, Material.identifiers, Action.identifiers, bind_assoc, bind_assoc, bind_assoc]
    at hrun
  rcases Action.runsUnder_ask_bind hrun with
    ⟨x, d₁, -, hserves, hrest⟩ | ⟨x, rest, -, -, -, hfailed⟩
  · cases hserves with
    | listed hperm => exact ⟨_, hperm, hrest⟩
  · cases hfailed

/-- Above the `highest` version of a base there is no key. -/
private theorem unused_of_highest_lt {base : String} {n : Nat} (hbase : VersionedId.IsBase base)
    (hsize : n < UInt32.size) (h : highest d base < n) :
    d.get? (Material.location (versionName base n)) = none := by
  obtain ⟨id, hparse, rfl, rfl⟩ := parse_versionName hbase hsize
  by_contra hget
  have hle := le_highest (Option.isSome_iff_ne_none.2 hget) hparse
  omega

/-- If no request fails, `rotate` mints the version after the highest that is stored. It is refused
only if there is no such version or its name is too long. -/
theorem runsUnder_rotate {current : VersionedId}
    (hloaded : Pair.Loaded identifier d (.ok (oldKey, old)) []) (hold : oldKey ≠ [])
    (hparse : VersionedId.parse identifier = .ok current)
    (hrun : (rotate identifier).RunsUnder allowed d outcome d' []) :
    let next := highest d current.base + 1
    let name := versionName current.base next
    ((next < UInt32.size ∧ name.toList.length ≤ maxIdentifierLength)
        ∧ d.get? (Material.location name) = none ∧ outcome = .ok name
        ∧ Adds allowed d d' oldKey old name)
      ∨ ¬ (next < UInt32.size ∧ name.toList.length ≤ maxIdentifierLength)
        ∧ (∃ text reason, outcome = .error (.failed (.invalidKeyIdentifier text reason)))
        ∧ d' = d := by
  intro next name
  obtain ⟨hidentifier, hkey⟩ : IsIdentifier identifier
      ∧ d.contains (Material.location identifier) = true := by
    cases hloaded with
    | loaded hname hkey => exact ⟨hname, by rw [Table.contains, hkey]; rfl⟩
  rcases Action.runsUnder_ofExcept_bind (runsUnder_load_bind hloaded hrun) with
    ⟨_, hcurrent, hlocked⟩ | ⟨e, he, -⟩
  · cases hparse.symm.trans hcurrent
    obtain ⟨found, hperm, hversion⟩ :=
      runsUnder_storedVersions_bind (Action.runsUnder_withLock hlocked)
    have hlatest := latest_eq_highest hperm hkey hparse
    rcases Action.runsUnder_ofExcept_bind hversion with
      ⟨following, hnext, hchecked⟩ | ⟨e, he, rfl, rfl, -⟩
    · obtain ⟨htext, hsize⟩ := next_eq_ok hnext
      rw [hlatest] at htext hsize
      rw [htext] at hchecked
      rcases Action.runsUnder_ofExcept_bind hchecked with ⟨_, hname, hmint⟩ | ⟨e, he, rfl, rfl, -⟩
      · have hname : IsIdentifier name := checkIdentifier_eq_ok_iff.1 hname
        have hunused := unused_of_highest_lt (VersionedId.isBase_of_parse hparse) hsize
          (Nat.lt_succ_self _)
        rcases runsUnder_mint hname hold hmint with ⟨-, houtcome, hadds⟩ | ⟨hused, -⟩
        · exact .inl ⟨⟨hsize, hname.short⟩, hunused, houtcome, hadds⟩
        · exact absurd hunused hused
      · refine .inr ⟨fun hfits => ?_, ?_, rfl⟩
        · have hname : IsIdentifier name :=
            VersionedId.isIdentifier_versionName hparse hidentifier hfits.2
          exact not_isIdentifier_of_error he hname
        · obtain ⟨reason, rfl⟩ := exists_of_checkIdentifier_eq_error he
          exact ⟨_, reason, rfl⟩
    · rw [VersionedId.next, hlatest] at he
      split at he
      · cases he
      · rename_i hlast
        cases he
        exact .inr ⟨fun hfits => hlast hfits.1, ⟨_, _, rfl⟩, rfl⟩
  · cases hparse.symm.trans he

/-- If no request fails, `rotateUnique` mints a key under a unique identifier, unless that has one.
-/
theorem runsUnder_rotateUnique
    (hloaded : Pair.Loaded identifier d (.ok (oldKey, old)) []) (hold : oldKey ≠ [])
    (hrun : (rotateUnique identifier).RunsUnder allowed d outcome d' []) :
    ∃ unique, allowed (.draw .system 16) (.ok unique)
      ∧ let name := uniqueName old.purpose unique
        (d.get? (Material.location name) = none ∧ outcome = .ok name
            ∧ Adds allowed d d' oldKey old name)
          ∨ d.get? (Material.location name) ≠ none ∧ ∃ halt, outcome = .error halt := by
  rcases Action.runsUnder_draw_bind (runsUnder_load_bind hloaded hrun) with
    ⟨unique, hdrawn, hchecked⟩ | ⟨-, hfailed⟩
  · have hname := isIdentifier_uniqueName old.purpose unique
    rcases Action.runsUnder_ofExcept_bind hchecked with ⟨_, -, hmint⟩ | ⟨e, he, -⟩
    · exact ⟨unique, hdrawn, runsUnder_mint hname hold hmint⟩
    · exact absurd hname (not_isIdentifier_of_error he)
  · cases hfailed

/-! ## What is minted -/

/-- Metadata of a key that replaces another: the old ones, but for the attribute that names the old
key, and for the identifier and the time. -/
structure Replaces (m : Metadata) (identifier : String) (old : Metadata)
    (createdAt : Time.Instant) : Prop where
  algorithm_eq : m.algorithm = old.algorithm
  sizeBits_eq : m.sizeBits = old.sizeBits
  purpose_eq : m.purpose = old.purpose
  createdAt_eq : m.createdAt = createdAt
  rotatedFrom_eq : m.attributes.get? Metadata.rotatedFromAttribute = some identifier
  attribute_eq : ∀ label, label ≠ Metadata.rotatedFromAttribute →
    m.attributes.get? label = old.attributes.get? label

private theorem replaces_successor (old : Metadata) (name : String) (createdAt : Time.Instant) :
    Replaces (successor old name createdAt) old.id old createdAt where
  algorithm_eq := rfl
  sizeBits_eq := rfl
  purpose_eq := rfl
  createdAt_eq := rfl
  rotatedFrom_eq := by rw [successor, Table.get?_insert, if_pos rfl]
  attribute_eq label hother := by rw [successor, Table.get?_insert, if_neg hother]

/-- A key was made in place of another one, which is still there with its metadata. -/
structure Minted (d d' : Memory) (identifier name : String) (oldKey : Bytes) (old : Metadata)
    (createdAt : Time.Instant) : Prop where
  vacant : IsVacant d name
  made : ∃ key m, HasPair d' name key m ∧ key.length = oldKey.length
    ∧ Replaces m identifier old createdAt
  kept : HasPair d' identifier oldKey old
  untouched : ∀ location, location ≠ Material.location name → location ≠ Catalogue.location name →
    d'.get? location = d.get? location

theorem minted_of_adds {name : String} (hname : IsIdentifier name) (hpaired : Paired d name)
    (hpair : HasPair d identifier oldKey old)
    (hunused : d.get? (Material.location name) = none) (h : Adds allowed d d' oldKey old name) :
    ∃ createdAt, allowed .now createdAt ∧ Minted d d' identifier name oldKey old createdAt := by
  obtain ⟨key, createdAt, hlength, hshown, rfl⟩ := h
  have hvacant : IsVacant d name := by
    rcases hpaired with hvacant | ⟨key, m, hused⟩
    · exact hvacant
    · cases hunused.symm.trans hused.key_eq
  have hother : identifier ≠ name := by
    rintro rfl
    cases hvacant.no_key.symm.trans hpair.key_eq
  have hreplaces := replaces_successor old name createdAt
  rw [hpair.id_eq] at hreplaces
  refine ⟨createdAt, hshown, hvacant, ?_, ?_, fun location hkey hmetadata => ?_⟩
  · exact ⟨key, successor old name createdAt,
      hasPair_added hname (hpair.fits.successor hlength name createdAt), hlength, hreplaces⟩
  · exact hpair.congr (by simp [Pair.added, successor, hother])
      (by simp [Pair.added, successor, hother])
  · simp [Pair.added, successor, hkey, hmetadata]

/-! ## Rotations of stored pairs -/

/-- The `latest` of a version and some others is one of them. -/
private theorem latest_mem (current : UInt32) (others : List VersionedId) :
    latest current others = current ∨ ∃ id ∈ others, id.version = latest current others := by
  induction others generalizing current with
  | nil => exact .inl rfl
  | cons id rest ih =>
    have hstep : latest current (id :: rest) = latest (max current id.version) rest := rfl
    rw [hstep]
    rcases ih (max current id.version) with hmax | ⟨other, hmem, hother⟩
    · have hchoice :
          max current id.version = if current ≤ id.version then id.version else current := rfl
      rw [hmax, hchoice]
      split
      · exact .inr ⟨id, List.mem_cons_self, rfl⟩
      · exact .inl rfl
    · exact .inr ⟨other, List.mem_cons_of_mem _ hmem, hother⟩

/-- The version is stored, and no higher one of its base is. -/
structure IsHighest (d : Memory) (top : VersionedId) : Prop where
  stored : ∃ name, d.contains (Material.location name) = true ∧ VersionedId.parse name = .ok top
  le : ∀ name id, d.contains (Material.location name) = true → VersionedId.parse name = .ok id →
    id.base = top.base → id.version ≤ top.version

/-- Where a version of a base is stored, there is one that `IsHighest`. -/
private theorem exists_isHighest {current : VersionedId}
    (hcontains : d.contains (Material.location identifier) = true)
    (hparse : VersionedId.parse identifier = .ok current) :
    ∃ top, IsHighest d top ∧ top.base = current.base
      ∧ top.version.toNat = highest d current.base := by
  have hlatest := latest_eq_highest (.refl d.keys) hcontains hparse
  have hle : ∀ top : VersionedId, top.base = current.base →
      top.version.toNat = highest d current.base → ∀ name id,
      d.contains (Material.location name) = true → VersionedId.parse name = .ok id →
      id.base = top.base → id.version ≤ top.version := by
    intro top hbase htop name id hstored hid hsame
    rw [UInt32.le_iff_toNat_le, htop]
    exact highest_le_iff.1 (Nat.le_refl _) name id hstored hid (hsame.trans hbase)
  rcases latest_mem current.version (versionsOf current.base
    (Material.identifiersUnder Material.locationStart d.keys)) with hcurrent | ⟨top, hmem, htop⟩
  · rw [hcurrent] at hlatest
    exact ⟨current, ⟨⟨identifier, hcontains, hparse⟩, hle current rfl hlatest⟩, rfl, hlatest⟩
  · rw [← htop] at hlatest
    obtain ⟨hbase, name, hname, hid⟩ := mem_versionsOf_iff.1 hmem
    have hstored : d.contains (Material.location name) = true :=
      Table.mem_keys_iff.1 (Material.mem_identifiersUnder.1 hname)
    exact ⟨top, ⟨⟨name, hstored, hid⟩, hle top hbase hlatest⟩, hbase, hlatest⟩

/-- A rotation of a stored pair, if no request fails. By version, `rotate` returns the name of the
version after the highest one of the base, and is refused exactly if that is the last version or the
name is too long. To a unique identifier, `rotateUnique` takes a name that is no version whatever
the purpose is, and succeeds unless that name is in use. Either way the key is `Minted`: it is as
long as the old one, the new metadata differ from the old in name, time and the attribute that names
the old key, and nothing else is changed. -/
theorem minted_by_rotation (S : Surroundings) {s : S.State} {identifier : String}
    {oldKey : Bytes} {old : Metadata} (hpaired : ∀ name, Paired (S.data s) name)
    (hpair : HasPair (S.data s) identifier oldKey old) :
    (∀ current, VersionedId.parse identifier = .ok current →
        S.failures (rotate identifier) s = [] →
        let rotation := S.perform (rotate identifier) s
        ∃ top, IsHighest (S.data s) top ∧ top.base = current.base ∧
          let name := versionName current.base (top.version.toNat + 1)
          if top.version.toNat + 1 = UInt32.size ∨ maxIdentifierLength < name.toList.length then
            (∃ text reason, rotation.1 = .error (.failed (.invalidKeyIdentifier text reason)))
              ∧ S.data rotation.2 = S.data s
          else
            rotation.1 = .ok name ∧ ∃ createdAt, S.ReadsClock (rotate identifier) s createdAt
              ∧ Minted (S.data s) (S.data rotation.2) identifier name oldKey old createdAt)
      ∧ (S.failures (rotateUnique identifier) s = [] →
        let rotation := S.perform (rotateUnique identifier) s
        ∃ unique : Bytes.Sized 16, S.Draws (rotateUnique identifier) s .system unique ∧
          let name := uniqueName old.purpose unique
          (∀ id, VersionedId.parse name ≠ .ok id)
            ∧ ((S.data s).get? (Material.location name) = none →
              rotation.1 = .ok name
                ∧ ∃ createdAt, S.ReadsClock (rotateUnique identifier) s createdAt
                  ∧ Minted (S.data s) (S.data rotation.2) identifier name oldKey old
                    createdAt)) := by
  have hloaded := hpair.loaded
  have hold := hpair.key_ne_nil
  refine ⟨fun current hparse hserved => ?_, fun hserved => ?_⟩
  · have hrun := S.runsUnder_perform (rotate identifier) s
    rw [hserved] at hrun
    have hcontains : (S.data s).contains (Material.location identifier) = true := by
      rw [Table.contains, hpair.key_eq]
      rfl
    obtain ⟨top, htop, hbase, hhighest⟩ := exists_isHighest hcontains hparse
    have hlast : top.version.toNat < UInt32.size := top.version.toNat_lt
    refine ⟨top, htop, hbase, ?_⟩
    rw [hhighest] at hlast ⊢
    rcases runsUnder_rotate hloaded hold hparse hrun with
      ⟨⟨hsize, hshort⟩, hunused, houtcome, hadds⟩ | ⟨hneither, hrefused⟩
    · rw [if_neg (by omega)]
      have hname := VersionedId.isIdentifier_versionName hparse hpair.named hshort
      exact ⟨houtcome, minted_of_adds hname (hpaired _) hpair hunused hadds⟩
    · rw [if_pos (by omega)]
      exact hrefused
  · have hrun := S.runsUnder_perform (rotateUnique identifier) s
    rw [hserved] at hrun
    obtain ⟨unique, hdrawn, hmint⟩ := runsUnder_rotateUnique hloaded hold hrun
    refine ⟨unique, hdrawn, parse_uniqueName_ne old.purpose unique, fun hunused => ?_⟩
    rcases hmint with ⟨-, houtcome, hadds⟩ | ⟨hused, -⟩
    · have hname := isIdentifier_uniqueName old.purpose unique
      exact ⟨houtcome, minted_of_adds hname (hpaired _) hpair hunused hadds⟩
    · exact absurd hunused hused

/-- A world with a key for mail and nothing else. -/
def mailOnly : World.plainSurroundings.State :=
  after World.plainSurroundings [.create mailKey] keylessWorld

theorem paired_mailOnly (name : String) :
    Paired (World.plainSurroundings.data mailOnly) name :=
  paired_after World.plainSurroundings
    (undisturbed_of_isReliable World.isReliable_plainSurroundings _ keylessWorld)
    (fun other => paired_empty other) name

/-- The key for mail is rotated to its second version, or to a name that is none. -/
theorem mail_minted :
    ∃ oldKey old, HasPair (World.plainSurroundings.data mailOnly) "mail_v1" oldKey old
      ∧ (World.plainSurroundings.perform (rotate "mail_v1") mailOnly).1 = .ok "mail_v2"
      ∧ (∃ createdAt, Minted (World.plainSurroundings.data mailOnly)
        (World.plainSurroundings.data
          (World.plainSurroundings.perform (rotate "mail_v1") mailOnly).2)
        "mail_v1" "mail_v2" oldKey old createdAt)
      ∧ ∃ name, (∀ id, VersionedId.parse name ≠ .ok id)
        ∧ (World.plainSurroundings.perform (rotateUnique "mail_v1") mailOnly).1 = .ok name := by
  have hversion : (World.plainSurroundings.perform (rotate "mail_v1") mailOnly).1
      = .ok "mail_v2" := by decide +kernel
  have hserved : World.plainSurroundings.failures (rotate "mail_v1") mailOnly = [] := by
    decide +kernel
  have hservedUnique : World.plainSurroundings.failures (rotateUnique "mail_v1") mailOnly
      = [] := by decide +kernel
  have hkeys : (World.plainSurroundings.data mailOnly).keys
      = [Material.location "mail_v1", Catalogue.location "mail_v1"] := by decide +kernel
  rcases paired_mailOnly "mail_v1" with hvacant | ⟨oldKey, old, hpair⟩
  · have hkey : (World.plainSurroundings.data mailOnly).get? (Material.location "mail_v1")
        ≠ none := by decide +kernel
    exact absurd hvacant.no_key hkey
  obtain ⟨hrotated, hunique⟩ :=
    minted_by_rotation World.plainSurroundings paired_mailOnly hpair
  refine ⟨oldKey, old, hpair, hversion, ?_, ?_⟩
  · obtain ⟨top, -, -, hrotation⟩ := hrotated ⟨"mail", 1⟩ (by decide) hserved
    dsimp only at hrotation
    split at hrotation
    · obtain ⟨⟨text, reason, hrefused⟩, -⟩ := hrotation
      cases hversion.symm.trans hrefused
    · obtain ⟨hname, createdAt, -, hminted⟩ := hrotation
      rw [← Except.ok.inj (hversion.symm.trans hname)] at hminted
      exact ⟨createdAt, hminted⟩
  · obtain ⟨unique, -, hnone, hmade⟩ := hunique hservedUnique
    refine ⟨_, hnone, (hmade ?_).1⟩
    -- what is stored has a version, which the name has not
    by_contra hused
    have hstored := Table.mem_keys_iff.2 (Option.isSome_iff_ne_none.2 hused)
    rw [hkeys, List.mem_cons, List.mem_singleton, Material.location_inj] at hstored
    rcases hstored with hmail | hmetadata
    · rw [hmail] at hnone
      exact hnone ⟨"mail", 1⟩ (by decide)
    · exact Material.location_ne_location _ _ hmetadata

end Rotation

end Strongbox
