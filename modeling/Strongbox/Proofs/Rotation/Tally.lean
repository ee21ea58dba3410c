import Strongbox.Proofs.Key.Creations
import Strongbox.Proofs.Rotation.Version
/-!
# Counting the versions that rotations make

Where there are only rotations, it can be counted how many versions of each base were made since
the start, and the keys that are stored are told by these counts: those of the start, and after the
highest version of each base as many more as were counted (`Tally`). This is kept because whoever
has the turn of a base has listed all its keys, so that the version it makes is the next one; and if
the key is taken back, the turn is still the same, so that it was the last one.

## Main results

* `Tally.latest_eq`: the highest version that a rotation finds in its turn.
* `tally_of_passes`: in every run of rotations, the versions can be counted.
-/

namespace Strongbox.Rotation

open Key
open Storage (Memory)

variable {reliable : Prop} {op : Nat → Operation} {l : Nat → Standing} {held : List Lock}
  {d₀ d d' : Memory} {i : Nat} {l' : Standing} {count : String → Nat} {identifier base old : String}
  {olds : Nat → String}

/-- The identifier is one of the versions that were counted. -/
def IsNew (d₀ : Memory) (count : String → Nat) (identifier : String) : Prop :=
  ∃ base j, j < count base ∧ identifier = versionName base (highest d₀ base + 1 + j)

/-- One version more of a base. -/
def countMore (count : String → Nat) (base : String) : String → Nat :=
  Function.update count base (count base + 1)

theorem countMore_self (count : String → Nat) (base : String) :
    countMore count base base = count base + 1 := Function.update_self _ _ _

theorem countMore_of_ne {other : String} (h : other ≠ base) (count : String → Nat) :
    countMore count base other = count other := Function.update_of_ne h _ _

theorem le_countMore (count : String → Nat) (base other : String) :
    count other ≤ countMore count base other := by
  by_cases hother : other = base
  · rw [hother, countMore_self]
    omega
  · exact Nat.le_of_eq (countMore_of_ne hother count).symm

/-- A version that was counted is one more than the others: the count is a `countMore`. -/
private theorem exists_countMore (h : 0 < count base) :
    ∃ count', count = countMore count' base := by
  refine ⟨Function.update count base (count base - 1), ?_⟩
  rw [countMore, Function.update_self, Function.update_idem, Nat.sub_add_cancel h,
    Function.update_eq_self]

theorem isNew_countMore_iff :
    IsNew d₀ (countMore count base) identifier
      ↔ IsNew d₀ count identifier
        ∨ identifier = versionName base (highest d₀ base + count base + 1) := by
  constructor
  · rintro ⟨other, j, hj, rfl⟩
    by_cases hother : other = base
    · subst hother
      rw [countMore_self] at hj
      by_cases hlast : j = count other
      · right
        rw [hlast]
        congr 1
        omega
      · exact .inl ⟨other, j, by omega, rfl⟩
    · rw [countMore_of_ne hother] at hj
      exact .inl ⟨other, j, hj, rfl⟩
  · rintro (⟨other, j, hj, rfl⟩ | rfl)
    · exact ⟨other, j, Nat.lt_of_lt_of_le hj (le_countMore _ _ _), rfl⟩
    · refine ⟨base, count base, ?_, ?_⟩
      · rw [countMore_self]
        omega
      · congr 1
        omega

/-- What was counted are versions of texts that stand in front of versions, and their number is one
that a version can have. -/
def InRange (d₀ : Memory) (count : String → Nat) : Prop :=
  ∀ base, 0 < count base →
    VersionedId.IsBase base ∧ highest d₀ base + count base < UInt32.size

/-- A version that `IsNew` comes after those of the start. -/
theorem InRange.exists_parse (h : InRange d₀ count) (hnew : IsNew d₀ count identifier) :
    ∃ id, VersionedId.parse identifier = .ok id ∧ highest d₀ id.base < id.version.toNat
      ∧ id.version.toNat ≤ highest d₀ id.base + count id.base := by
  obtain ⟨base, j, hj, rfl⟩ := hnew
  obtain ⟨hbase, hbound⟩ := h base (by omega)
  obtain ⟨id, hparse, rfl, hversion⟩ :=
    parse_versionName (n := highest d₀ base + 1 + j) hbase (by omega)
  exact ⟨id, hparse, by omega, by omega⟩

theorem InRange.countMore (h : InRange d₀ count) (hbase : VersionedId.IsBase base)
    (hsize : highest d₀ base + count base + 1 < UInt32.size) :
    InRange d₀ (countMore count base) := by
  intro other hother
  by_cases hsame : other = base
  · subst hsame
    rw [countMore_self]
    exact ⟨hbase, by omega⟩
  · rw [countMore_of_ne hsame] at hother ⊢
    exact h other hother

theorem InRange.of_countMore (h : InRange d₀ (Rotation.countMore count base)) :
    InRange d₀ count := by
  intro other hother
  have hle := le_countMore count base other
  obtain ⟨hbase, hbound⟩ := h other (by omega)
  exact ⟨hbase, by omega⟩

/-- The version that `countMore` counts last is neither one of the start nor one that was counted
before. -/
theorem InRange.not_old_and_not_isNew (h : InRange d₀ (Rotation.countMore count base))
    (hname : identifier = versionName base (highest d₀ base + count base + 1)) :
    ¬ d₀.contains (Material.location identifier) = true ∧ ¬ IsNew d₀ count identifier := by
  obtain ⟨hbase, hsize⟩ := h base (by rw [countMore_self]; omega)
  rw [countMore_self] at hsize
  obtain ⟨id, hid, hidBase, hversion⟩ :=
    parse_versionName (n := highest d₀ base + count base + 1) hbase (by omega)
  rw [← hname] at hid
  constructor
  · intro hold
    have hle := le_highest hold hid
    rw [hidBase] at hle
    omega
  · intro hbefore
    obtain ⟨id', hid', -, hle⟩ := h.of_countMore.exists_parse hbefore
    rw [hid] at hid'
    cases hid'
    rw [hidBase] at hle
    omega

/-! ## The invariant -/

/-- The identifier is one of the versions that were counted, of the base of another one. -/
def IsVersionOf (old : String) (d₀ : Memory) (count : String → Nat) (identifier : String) : Prop :=
  ∃ current j, VersionedId.parse old = .ok current ∧ j < count current.base
    ∧ identifier = versionName current.base (highest d₀ current.base + 1 + j)

theorem IsVersionOf.countMore (h : IsVersionOf old d₀ count identifier) (base : String) :
    IsVersionOf old d₀ (countMore count base) identifier := by
  obtain ⟨current, j, hparse, hj, hname⟩ := h
  exact ⟨current, j, hparse, Nat.lt_of_lt_of_le hj (le_countMore _ _ _), hname⟩

/-- A version that `countMore` counts, and is not the last one, was counted before. -/
theorem IsVersionOf.of_countMore (h : IsVersionOf old d₀ (Rotation.countMore count base) identifier)
    (hother : identifier ≠ versionName base (highest d₀ base + count base + 1)) :
    IsVersionOf old d₀ count identifier := by
  obtain ⟨current, j, hparse, hj, hname⟩ := h
  refine ⟨current, j, hparse, ?_, hname⟩
  by_cases hsame : current.base = base
  · have hnotLast : j ≠ count base := by
      rintro rfl
      apply hother
      rw [hname, hsame]
      congr 1
      omega
    rw [hsame, countMore_self] at hj
    rw [hsame]
    omega
  · rwa [countMore_of_ne hsame] at hj

/-- What a rotation remembers, in view of the versions that were counted. -/
structure Counts (old : String) (d₀ d : Memory) (count : String → Nat) (l : Standing) : Prop where
  /-- A listing has all keys of the base. -/
  listed : ∀ {base found}, l.turn = some ⟨base, some found⟩ → ∀ {identifier id},
    VersionedId.parse identifier = .ok id → id.base = base →
    (Material.location identifier ∈ found ↔ d.contains (Material.location identifier) = true)
  /-- A key without a record is that of the last version. -/
  pending : ∀ {c}, l.custody = some c → c.made = true → c.now.key.isSome = true →
    c.now.record = none → ∃ current, VersionedId.parse old = .ok current
      ∧ l.turn = some ⟨current.base, none⟩ ∧ 0 < count current.base
      ∧ c.identifier = versionName current.base (highest d₀ current.base + count current.base)
  recorded : ∀ {c}, l.custody = some c → c.made = true → c.now.record.isSome = true →
    c.identifier ∈ l.made
  seen : ∀ {identifier view}, (identifier, view) ∈ l.seen → view.IsWhole →
    (View.of d identifier).IsWhole
  made : ∀ {identifier}, identifier ∈ l.made → IsVersionOf old d₀ count identifier

/-- The keys that are stored are those of the start and the versions that were counted. -/
structure Tally (reliable : Prop) (olds : Nat → String) (d₀ d : Memory) (count : String → Nat)
    (l : Nat → Standing) : Prop where
  keys : ∀ identifier, d.contains (Material.location identifier) = true
    ↔ d₀.contains (Material.location identifier) = true ∨ IsNew d₀ count identifier
  inRange : InRange d₀ count
  rotated : ∀ base, 0 < count base →
    ∃ i current, VersionedId.parse (olds i) = .ok current ∧ current.base = base
  each : ∀ i, Counts (olds i) d₀ d count (l i)
  /-- If nothing fails, a version that was counted has been made, or is being made. -/
  complete : reliable → ∀ identifier, IsNew d₀ count identifier → ∃ i, (l i).HasWritten identifier

namespace Tally

/-- No version is stored beyond those that were counted. -/
theorem version_le (h : Tally reliable olds d₀ d count l) {id : VersionedId}
    (hcontains : d.contains (Material.location identifier) = true)
    (hparse : VersionedId.parse identifier = .ok id) :
    id.version.toNat ≤ highest d₀ id.base + count id.base := by
  rcases (h.keys identifier).1 hcontains with hold | hnew
  · have hle := le_highest hold hparse
    omega
  · obtain ⟨id', hparse', -, hle⟩ := h.inRange.exists_parse hnew
    rw [hparse'] at hparse
    cases hparse
    exact hle

/-- The `latest` version that a rotation finds in its turn is the last one that was counted. -/
theorem latest_eq (h : Tally reliable olds d₀ d count l) {found : List String}
    {current : VersionedId}
    (hturn : (l i).turn = some ⟨current.base, some found⟩)
    (hparse : VersionedId.parse identifier = .ok current)
    (hcontains : d.contains (Material.location identifier) = true) :
    (latest current.version (versionsOf current.base
        (Material.identifiersUnder Material.locationStart found))).toNat
      = highest d₀ current.base + count current.base := by
  have hmem : ∀ id, id ∈ versionsOf current.base
        (Material.identifiersUnder Material.locationStart found)
      ↔ id.base = current.base ∧ ∃ identifier, VersionedId.parse identifier = .ok id
        ∧ d.contains (Material.location identifier) = true := by
    intro id
    rw [mem_versionsOf_iff]
    refine and_congr_right fun hbase => exists_congr fun identifier => ?_
    rw [Material.mem_identifiersUnder, and_comm]
    refine and_congr_right fun hid => ?_
    exact (h.each i).listed hturn hid hbase
  apply Nat.le_antisymm
  · refine latest_le_iff.2 ⟨h.version_le hcontains hparse, fun id hid => ?_⟩
    obtain ⟨hbase, identifier, hid, hstored⟩ := (hmem id).1 hid
    have hle := h.version_le hstored hid
    rwa [hbase] at hle
  · have hbound := latest_le_iff.1 (Nat.le_refl (latest current.version (versionsOf current.base
      (Material.identifiersUnder Material.locationStart found))).toNat)
    by_cases hnone : count current.base = 0
    · rw [hnone, Nat.add_zero, highest_le_iff]
      intro identifier id hstored hid hbase
      exact hbound.2 id ((hmem id).2 ⟨hbase, identifier, hid, (h.keys _).2 (.inl hstored)⟩)
    · obtain ⟨hbase, hsize⟩ := h.inRange current.base (by omega)
      obtain ⟨id, hid, hidBase, hversion⟩ := parse_versionName hbase hsize
      rw [← hversion]
      refine hbound.2 id ((hmem id).2 ⟨hidBase, _, hid, (h.keys _).2 (.inr ?_)⟩)
      refine ⟨current.base, count current.base - 1, by omega, ?_⟩
      congr 1
      omega

end Tally

/-! ## Steps -/

theorem exists_hasWritten_update (h : ∃ j, (l j).HasWritten identifier)
    (hself : (l i).HasWritten identifier → l'.HasWritten identifier) :
    ∃ j, (Function.update l i l' j).HasWritten identifier := by
  obtain ⟨j, hj⟩ := h
  refine ⟨j, ?_⟩
  by_cases hji : j = i
  · subst hji
    rw [Function.update_self]
    exact hself hj
  · rw [Function.update_of_ne hji]
    exact hj

/-- A step of another rotation, which has the turn of another base if it makes a key. -/
theorem Counts.keep {l : Standing} {count' : String → Nat} (h : Counts old d₀ d count l)
    (hkeys : ∀ {identifier id turn}, VersionedId.parse identifier = .ok id → l.turn = some turn →
      id.base = turn.base →
      d'.contains (Material.location identifier) = d.contains (Material.location identifier))
    (hcount : ∀ {turn}, l.turn = some turn → count' turn.base = count turn.base)
    (hwhole : ∀ identifier, (View.of d identifier).IsWhole → (View.of d' identifier).IsWhole)
    (hnew : ∀ identifier ∈ l.made, IsVersionOf old d₀ count' identifier) :
    Counts old d₀ d' count' l where
  listed hturn _ id hid hbase := by
    rw [hkeys hid hturn hbase]
    exact h.listed hturn hid hbase
  pending hc hmade hkey hnone := by
    obtain ⟨current, hparse, hturn, hpositive, hname⟩ := h.pending hc hmade hkey hnone
    have hsame : count' current.base = count current.base := hcount hturn
    exact ⟨current, hparse, hturn, by omega, by rw [hsame, hname]⟩
  recorded := h.recorded
  seen hmem hview := hwhole _ (h.seen hmem hview)
  made hmem := hnew _ hmem

/-- A step of a rotation whose listing is used up: it writes a key or a record, or takes the key
back. -/
theorem Counts.write {l : Standing} {count' : String → Nat} {current : VersionedId} {c : Custody}
    (h : Counts old d₀ d count l) (hparse : VersionedId.parse old = .ok current)
    (hturn : l'.turn = some ⟨current.base, none⟩) (hc : l'.custody = some c)
    (hpending : c.now.key.isSome = true → c.now.record = none → 0 < count' current.base
      ∧ c.identifier = versionName current.base (highest d₀ current.base + count' current.base))
    (hrecorded : c.now.record.isSome = true → c.identifier ∈ l'.made) (hseen : l'.seen = l.seen)
    (hwhole : ∀ identifier, (View.of d identifier).IsWhole → (View.of d' identifier).IsWhole)
    (hmade : ∀ identifier ∈ l'.made, IsVersionOf old d₀ count' identifier) :
    Counts old d₀ d' count' l' where
  listed hlisted := by
    rw [hturn] at hlisted
    cases hlisted
  pending hc' _ hkey hnone := by
    rw [hc] at hc'
    cases hc'
    exact ⟨current, hparse, hturn, hpending hkey hnone⟩
  recorded hc' _ hrecord := by
    rw [hc] at hc'
    cases hc'
    exact hrecorded hrecord
  seen hmem hview := by
    rw [hseen] at hmem
    exact hwhole _ (h.seen hmem hview)
  made hmem := hmade _ hmem

namespace Tally

/-- A step that neither makes a key nor takes one back. -/
theorem step_same (h : Tally reliable olds d₀ d count l)
    (hkeys : ∀ identifier,
      d'.contains (Material.location identifier) = d.contains (Material.location identifier))
    (hwhole : ∀ identifier, (View.of d identifier).IsWhole → (View.of d' identifier).IsWhole)
    (hself : Counts (olds i) d₀ d' count l')
    (hwritten : reliable → ∀ identifier, (l i).HasWritten identifier → l'.HasWritten identifier) :
    Tally reliable olds d₀ d' count (Function.update l i l') := by
  refine ⟨fun identifier => ?_, h.inRange, h.rotated, fun j => ?_,
    fun hreliable identifier hnew => ?_⟩
  · rw [hkeys]
    exact h.keys identifier
  · by_cases hji : j = i
    · subst hji
      rw [Function.update_self]
      exact hself
    · rw [Function.update_of_ne hji]
      exact (h.each j).keep (fun _ _ _ => hkeys _) (fun _ => rfl) hwhole fun _ => (h.each j).made
  · exact exists_hasWritten_update (h.complete hreliable identifier hnew)
      (hwritten hreliable identifier)

/-- The rotations that do not have the turn keep what `Counts` says of them, as the one that has it
changes a key of its base. -/
theorem each_other (h : Tally reliable olds d₀ d count l)
    (hexclusive : Exclusive reliable op l held d) {count' : String → Nat} {turn : Turn}
    {id : VersionedId} (hturn : (l i).turn = some turn)
    (hid : VersionedId.parse identifier = .ok id) (hbase : id.base = turn.base)
    (hdata : ∀ other, other ≠ identifier →
      d'.contains (Material.location other) = d.contains (Material.location other))
    (hcount : ∀ other, other ≠ turn.base → count' other = count other)
    (hwhole : ∀ identifier, (View.of d identifier).IsWhole → (View.of d' identifier).IsWhole)
    {j : Nat} (hji : j ≠ i)
    (hmade : ∀ identifier ∈ (l j).made, IsVersionOf (olds j) d₀ count' identifier) :
    Counts (olds j) d₀ d' count' (l j) := by
  refine (h.each j).keep (fun {other id' turn'} hid' hturn' hbase' => ?_) (fun hturn' => ?_)
    hwhole hmade
  · apply hdata
    rintro rfl
    rw [hid] at hid'
    cases hid'
    exact hexclusive.base_ne hji hturn' hturn (hbase'.symm.trans hbase)
  · exact hcount _ (hexclusive.base_ne hji hturn' hturn)

/-- The key that a rotation `MayMake` is the next version of its base. -/
private theorem exists_of_mayMake (h : Tally reliable olds d₀ d count l)
    (hmay : (Creation.rotate (olds i)).MayMake (l i) identifier) :
    ∃ current found, VersionedId.parse (olds i) = .ok current
      ∧ (l i).turn = some ⟨current.base, some found⟩
      ∧ highest d₀ current.base + count current.base + 1 < UInt32.size
      ∧ identifier
        = versionName current.base (highest d₀ current.base + count current.base + 1) := by
  obtain ⟨current, found, next, view, hparse, hturn, hnext, hname, hseen, hview⟩ := hmay
  have hlatest := h.latest_eq hturn hparse ((h.each i).seen hseen hview).1
  obtain ⟨htext, hsize⟩ := next_eq_ok hnext
  rw [hlatest] at hsize
  rw [htext, hlatest] at hname
  exact ⟨current, found, hparse, hturn, hsize, hname⟩

/-- A rotation makes the version of its base that comes next. -/
theorem step_store (h : Tally reliable olds d₀ d count l)
    (hexclusive : Exclusive reliable op l held d) {c : Custody} (hc : (l i).custody = some c)
    (hmay : (Creation.rotate (olds i)).MayMake (l i) c.identifier) (hrecord : c.now.record = none)
    {key : Bytes} (hd' : d' = d.insert (Material.location c.identifier) key)
    (hwhole : ∀ identifier, (View.of d identifier).IsWhole → (View.of d' identifier).IsWhole)
    (hwritten : reliable → ∀ identifier, (l i).HasWritten identifier →
      ((l i).keyStored c d').HasWritten identifier) :
    ∃ count', Tally reliable olds d₀ d' count' (Function.update l i ((l i).keyStored c d')) := by
  obtain ⟨current, found, hparse, hturn, hsize, hname⟩ := h.exists_of_mayMake hmay
  have hbase := VersionedId.isBase_of_parse hparse
  obtain ⟨id, hid, hidBase, -⟩ := parse_versionName hbase hsize
  rw [← hname] at hid
  have hcontains : ∀ identifier, d'.contains (Material.location identifier) = true
      ↔ d.contains (Material.location identifier) = true ∨ identifier = c.identifier := by
    intro identifier
    rw [hd', ← Table.mem_keys_iff, Table.mem_keys_insert_iff, Material.location_inj,
      Table.mem_keys_iff, or_comm]
  have hmades : ∀ j, ∀ identifier ∈ (l j).made,
      IsVersionOf (olds j) d₀ (countMore count current.base) identifier :=
    fun j _ hmem => ((h.each j).made hmem).countMore _
  refine ⟨countMore count current.base, fun identifier => ?_, h.inRange.countMore hbase hsize,
    fun base hpositive => ?_, fun j => ?_, fun hreliable identifier hnew => ?_⟩
  · rw [hcontains, h.keys, isNew_countMore_iff, ← hname, or_assoc]
  · by_cases hsame : base = current.base
    · exact ⟨i, current, hparse, hsame.symm⟩
    · rw [countMore_of_ne hsame] at hpositive
      exact h.rotated base hpositive
  · by_cases hji : j = i
    · subst hji
      rw [Function.update_self]
      refine (h.each j).write hparse ?_ rfl (fun _ _ => ?_) (fun hpresent => ?_) rfl hwhole
        (hmades j)
      · rw [Standing.keyStored, hturn]
        rfl
      · rw [countMore_self]
        exact ⟨Nat.succ_pos _, hname⟩
      · rw [show (c.update d').now = View.of d' c.identifier from rfl, hd', View.of_insert_key,
          (hexclusive.fits hc).agrees, hrecord] at hpresent
        cases hpresent
    · rw [Function.update_of_ne hji]
      refine h.each_other hexclusive hturn hid hidBase (fun other hother => ?_)
        (fun other hother => countMore_of_ne hother count) hwhole hji (hmades j)
      rw [Bool.eq_iff_iff, hcontains, or_iff_left hother]
  · rcases isNew_countMore_iff.1 hnew with hnew | hlast
    · exact exists_hasWritten_update (h.complete hreliable identifier hnew)
        (hwritten hreliable identifier)
    · refine ⟨i, ?_⟩
      rw [Function.update_self, hlast, ← hname]
      exact .inr ⟨_, rfl, rfl, rfl⟩

/-- A rotation takes back the version that it has made last. -/
theorem step_undo (h : Tally reliable olds d₀ d count l)
    (hexclusive : Exclusive reliable op l held d) (hmade : Made l d) (hunreliable : ¬ reliable)
    {c : Custody} (hc : (l i).custody = some c) (hcmade : c.made = true)
    (hkey : c.now.key.isSome = true) (hnone : c.now.record = none)
    (hd' : d' = d.erase (Material.location c.identifier))
    (hwhole : ∀ identifier, (View.of d identifier).IsWhole → (View.of d' identifier).IsWhole) :
    ∃ count', Tally reliable olds d₀ d' count'
      (Function.update l i { l i with custody := some (c.update d') }) := by
  obtain ⟨current, hparse, hturn, hpositive, hname⟩ := (h.each i).pending hc hcmade hkey hnone
  obtain ⟨hbase, hsize⟩ := h.inRange current.base hpositive
  obtain ⟨id, hid, hidBase, -⟩ := parse_versionName hbase hsize
  rw [← hname] at hid
  obtain ⟨count', rfl⟩ := exists_countMore hpositive
  rw [countMore_self, ← Nat.add_assoc] at hname
  obtain ⟨hnotOld, hnotBefore⟩ := h.inRange.not_old_and_not_isNew hname
  have hmades : ∀ j, ∀ identifier ∈ (l j).made, IsVersionOf (olds j) d₀ count' identifier := by
    intro j identifier hmem
    refine ((h.each j).made hmem).of_countMore ?_
    -- The last version is not complete, so nobody has made it.
    rw [← hname]
    rintro rfl
    have hview := hmade.whole hmem
    rw [View.IsWhole, (hexclusive.fits hc).agrees, hnone] at hview
    cases hview.2
  have hview : (c.update d').now = ⟨none, none⟩ := by
    show View.of d' c.identifier = _
    rw [hd', View.of_erase_key, (hexclusive.fits hc).agrees, hnone]
  refine ⟨count', fun identifier => ?_, h.inRange.of_countMore, fun other hother => ?_, fun j => ?_,
    fun hreliable => absurd hreliable hunreliable⟩
  · rw [hd', ← Table.mem_keys_iff, Table.mem_keys_erase_iff, ne_eq, Material.location_inj,
      Table.mem_keys_iff, h.keys, isNew_countMore_iff, ← hname]
    by_cases hsame : identifier = c.identifier
    · subst hsame
      exact ⟨fun hnot => absurd rfl hnot.1, fun hstored => hstored.elim (absurd · hnotOld)
        (absurd · hnotBefore)⟩
    · rw [or_iff_left hsame, and_iff_right hsame]
  · exact h.rotated other (Nat.lt_of_lt_of_le hother (le_countMore _ _ _))
  · by_cases hji : j = i
    · subst hji
      rw [Function.update_self]
      refine (h.each j).write hparse hturn rfl (fun hkey => ?_) (fun hpresent => ?_) rfl hwhole
        (hmades j)
      · rw [hview] at hkey
        cases hkey
      · rw [hview] at hpresent
        cases hpresent
    · rw [Function.update_of_ne hji]
      refine h.each_other hexclusive hturn hid hidBase (fun other hother => ?_)
        (fun other hother => (countMore_of_ne hother count').symm) hwhole hji (hmades j)
      rw [hd', Bool.eq_iff_iff, ← Table.mem_keys_iff, Table.mem_keys_erase_iff, ne_eq,
        Material.location_inj, Table.mem_keys_iff, and_iff_right hother]

/-- A rotation completes a pair. -/
theorem step_record (h : Tally reliable olds d₀ d count l) {c : Custody}
    (hc : (l i).custody = some c) (hcmade : c.made = true) (hkey : c.now.key.isSome = true)
    (hnone : c.now.record = none)
    (hkeys : ∀ identifier,
      d'.contains (Material.location identifier) = d.contains (Material.location identifier))
    (hrecord : (View.of d' c.identifier).record.isSome = true)
    (hwhole : ∀ identifier, (View.of d identifier).IsWhole → (View.of d' identifier).IsWhole)
    (hwritten : reliable → ∀ identifier, (l i).HasWritten identifier →
      ((l i).recordStored c d').HasWritten identifier) :
    Tally reliable olds d₀ d' count (Function.update l i ((l i).recordStored c d')) := by
  obtain ⟨current, hparse, hturn, hpositive, hname⟩ := (h.each i).pending hc hcmade hkey hnone
  refine h.step_same hkeys hwhole ((h.each i).write hparse hturn rfl (fun _ hnone => ?_)
    (fun _ => List.mem_cons_self) rfl hwhole fun identifier hmem => ?_) hwritten
  · rw [show (c.update d').now = View.of d' c.identifier from rfl] at hnone
    rw [hnone] at hrecord
    cases hrecord
  · rcases List.mem_cons.1 hmem with rfl | hmem
    · refine ⟨current, count current.base - 1, hparse, by omega, ?_⟩
      rw [hname]
      congr 1
      omega
    · exact (h.each i).made hmem

/-- The `Tally` can go on through every step of a rotation. -/
theorem step (h : Tally reliable olds d₀ d count l) (hexclusive : Exclusive reliable op l held d)
    (hmade : Made l d) (ho : op i = .create (.rotate (olds i))) {r : Request}
    {stored : Option String}
    (hstep : Step reliable (op i) (l i) d r stored l' d') :
    ∃ count', Tally reliable olds d₀ d' count' (Function.update l i l') := by
  have hwhole : ∀ identifier, (View.of d identifier).IsWhole →
      (View.of d' identifier).IsWhole := by
    intro identifier hview
    rw [hexclusive.view_eq_of_step ho hstep hview]
    exact hview
  have hwritten : reliable → ∀ identifier, (l i).HasWritten identifier →
      l'.HasWritten identifier :=
    fun hreliable _ => hstep.hasWritten hreliable fun _ => (h.each i).recorded
  have hself := h.each i
  cases hstep with
  | still =>
    rw [Function.update_eq_self]
    exact ⟨count, h⟩
  | @listed found hnone hperm =>
    refine ⟨count, h.step_same (fun _ => rfl) hwhole ⟨fun hturn identifier _ _ _ => ?_,
      fun hc => ?_, fun hc => ?_, hself.seen, hself.made⟩ hwritten⟩
    · obtain ⟨turn, -, hlisting⟩ := Option.map_eq_some_iff.1 hturn
      cases hlisting
      rw [hperm.mem_iff, Table.mem_keys_iff]
    · rw [hnone] at hc
      cases hc
    · rw [hnone] at hc
      cases hc
  | tookPair identifier hnone =>
    refine ⟨count, h.step_same (fun _ => rfl) hwhole ⟨hself.listed, fun hc hcmade => ?_,
      fun hc hcmade => ?_, fun hmem hview => ?_, hself.made⟩ hwritten⟩
    · cases hc
      cases hcmade
    · cases hc
      cases hcmade
    · rcases List.mem_cons.1 hmem with hfirst | hmem
      · cases hfirst
        exact hview
      · exact hself.seen hmem hview
  | gavePair =>
    exact ⟨count, h.step_same (fun _ => rfl) hwhole
      ⟨hself.listed, fun hc => (by cases hc), fun hc => (by cases hc), hself.seen, hself.made⟩
      hwritten⟩
  | tookTurn base hnone =>
    refine ⟨count, h.step_same (fun _ => rfl) hwhole ⟨fun hturn => (by cases hturn),
      fun hc hcmade hkey hrecord => ?_, hself.recorded, hself.seen, hself.made⟩ hwritten⟩
    obtain ⟨_, -, hturn, -⟩ := hself.pending hc hcmade hkey hrecord
    rw [hnone] at hturn
    cases hturn
  | gaveTurn hnone =>
    refine ⟨count, h.step_same (fun _ => rfl) hwhole ⟨fun hturn => (by cases hturn),
      fun hc => ?_, fun hc => ?_, hself.seen, hself.made⟩ hwritten⟩
    · rw [hnone] at hc
      cases hc
    · rw [hnone] at hc
      cases hc
  | storedKey key ho' hc hnone hmay hd' =>
    rw [ho] at ho'
    cases ho'
    have hview : View.of d _ = ⟨none, none⟩ :=
      (hexclusive.unused_of_store (.storeKey key ho hc hnone hmay)).2 _ rfl
    rw [(hexclusive.fits hc).agrees] at hview
    exact h.step_store hexclusive hc hmay (congrArg View.record hview) hd' hwhole hwritten
  | storedRecord record _ hc hcmade hkey hnone hd' =>
    refine ⟨count, h.step_record hc hcmade hkey hnone (fun identifier => ?_) ?_ hwhole hwritten⟩
    · rw [hd', Table.contains, Table.get?_insert, if_neg (Material.location_ne_location _ _)]
      rfl
    · rw [hd', View.of_insert_record]
      rfl
  | undidKey _ hunreliable hc hcmade hkey hnone hd' =>
    exact h.step_undo hexclusive hmade hunreliable hc hcmade hkey hnone hd' hwhole
  | deletedHalf hdelete =>
    rw [ho] at hdelete
    cases hdelete

end Tally

/-! ## Runs -/

variable {α : Type} {S : Surroundings} {Q : Nat → Standing → α → Prop}
  {s t : Together S.State α} {events : List Event}

/-- In every run of rotations there is a `Tally` of the versions that were made. -/
theorem tally_of_passes (h : Start S (fun i => .create (.rotate (olds i))) Q s)
    (hpasses : Passes S s events t) :
    ∃ count, Tally S.IsReliable olds (S.data s.world) (S.data t.world) count
      (fun i => standingOf i events) := by
  induction hpasses with
  | start =>
    have hnone : ∀ identifier, ¬ IsNew (S.data s.world) (fun _ => 0) identifier := by
      rintro identifier ⟨base, j, hj, -⟩
      exact absurd hj (Nat.not_lt_zero j)
    refine ⟨fun _ => 0, fun identifier => ?_, fun base hpositive => absurd hpositive (by decide),
      fun base hpositive => absurd hpositive (by decide), fun i => ?_,
      fun _ identifier hnew => absurd hnew (hnone identifier)⟩
    · exact ⟨.inl, fun h => h.resolve_right (hnone identifier)⟩
    · exact ⟨fun h => (by cases h), fun h => (by cases h), fun h => (by cases h),
        fun h => (by cases h), fun h => (by cases h)⟩
  | @step events t u i r next hpasses htask hstep ih =>
    obtain ⟨count, htally⟩ := ih
    rw [standingOf_cons]
    exact htally.step (exclusive_of_passes h hpasses).1 (made_of_passes h hpasses) rfl
      (step_of_passes h hpasses htask hstep).1

end Strongbox.Rotation
