import Strongbox.Proofs.Key.Catalogue
/-!
# Keys and their metadata agree

Where the storage serves what it is asked, every key has metadata that fit it, and there are no
metadata without a key. The invariant is that each identifier is `Paired`: it has neither, or both
and they fit. Creations keep it because they write metadata of the right size beside the key, and
deletions because they take both away; nothing else writes.

So a key that is listed can be used. Encrypting under it fails only if no vector is drawn or the
storage fails just then.

## Main results

* `Change.paired`: what an operation does keeps the invariant.
* `paired_after`: so it holds after any operations.
* `pairs_whole_after`: pairs agree, listings are complete and what they list can be used.
-/

namespace Strongbox.Key

open Storage (Memory)

variable {d d' : Memory} {failed : List Request} {identifier : String}

/-! ## Pairs that fit -/

/-- The key has the length that the metadata give, which is that of their algorithm. -/
structure Metadata.Fits (m : Metadata) (key : Bytes) : Prop where
  sizeBits_eq : 8 * key.length = m.sizeBits.toNat
  keyBits_eq : 8 * key.length = m.algorithm.keyBits

/-- There are this key and these metadata under the identifier, and they fit. -/
structure HasPair (d : Memory) (identifier : String) (key : Bytes) (m : Metadata) : Prop where
  named : IsIdentifier identifier
  key_eq : d.get? (Material.location identifier) = some key
  stored : Catalogue.stored? d identifier = .ok (some m)
  id_eq : m.id = identifier
  fits : m.Fits key

/-- There are neither a key nor metadata under the identifier. -/
structure IsVacant (d : Memory) (identifier : String) : Prop where
  no_key : d.get? (Material.location identifier) = none
  no_metadata : d.get? (Catalogue.location identifier) = none

/-- The identifier has a key with metadata that fit, by `HasPair`, or neither. -/
def Paired (d : Memory) (identifier : String) : Prop :=
  IsVacant d identifier ∨ ∃ key m, HasPair d identifier key m

/-- For `HasPair` only the two entries of the identifier matter. -/
theorem HasPair.congr {key : Bytes} {m : Metadata} (h : HasPair d identifier key m)
    (hkey : d'.get? (Material.location identifier) = d.get? (Material.location identifier))
    (hmetadata : d'.get? (Catalogue.location identifier)
      = d.get? (Catalogue.location identifier)) : HasPair d' identifier key m := by
  have hstored : Catalogue.stored? d' identifier = .ok (some m) := by
    rw [Catalogue.stored?, hmetadata]
    exact h.stored
  exact ⟨h.named, hkey.trans h.key_eq, hstored, h.id_eq, h.fits⟩

theorem Paired.congr (h : Paired d identifier)
    (hkey : d'.get? (Material.location identifier) = d.get? (Material.location identifier))
    (hmetadata : d'.get? (Catalogue.location identifier)
      = d.get? (Catalogue.location identifier)) : Paired d' identifier := by
  rcases h with hvacant | ⟨key, m, hpair⟩
  · exact .inl ⟨hkey.trans hvacant.no_key, hmetadata.trans hvacant.no_metadata⟩
  · exact .inr ⟨key, m, hpair.congr hkey hmetadata⟩

theorem HasPair.loaded {key : Bytes} {m : Metadata} (h : HasPair d identifier key m) :
    Pair.Loaded identifier d (.ok (key, m)) [] := by
  obtain ⟨record, hrecord, hread⟩ := Catalogue.stored?_eq_some_iff.1 h.stored
  exact .loaded h.named h.key_eq hrecord hread

/-- A key that fits its metadata is not empty. -/
theorem HasPair.key_ne_nil {key : Bytes} {m : Metadata} (h : HasPair d identifier key m) :
    key ≠ [] := by
  rintro rfl
  have hbits := h.fits.keyBits_eq
  cases halgorithm : m.algorithm <;> rw [halgorithm] at hbits <;> cases hbits

/-- A pair that can be `Loaded` is the one that fits. -/
theorem Paired.hasPair_of_loaded {key : Bytes} {m : Metadata} (h : Paired d identifier)
    (hloaded : Pair.Loaded identifier d (.ok (key, m)) []) : HasPair d identifier key m := by
  cases hloaded with
  | loaded hname hkey hrecord hread =>
    rcases h with hvacant | ⟨key', m', hpair⟩
    · cases hkey.symm.trans hvacant.no_key
    · have hstored := Catalogue.stored?_eq_some_iff.2 ⟨_, hrecord, hread⟩
      cases hpair.key_eq.symm.trans hkey
      cases hpair.stored.symm.trans hstored
      exact hpair

private theorem Paired.exists_read {key record : Bytes} (h : Paired d identifier)
    (hkey : d.get? (Material.location identifier) = some key)
    (hrecord : d.get? (Catalogue.location identifier) = some record) :
    ∃ m, Metadata.read record = .ok m ∧ m.id = identifier ∧ m.Fits key := by
  rcases h with hvacant | ⟨key', m, hpair⟩
  · cases hvacant.no_key.symm.trans hkey
  · obtain ⟨record', hrecord', hread⟩ := Catalogue.stored?_eq_some_iff.1 hpair.stored
    cases hpair.key_eq.symm.trans hkey
    cases hrecord'.symm.trans hrecord
    exact ⟨m, hread, hpair.id_eq, hpair.fits⟩

theorem Paired.contains_eq (h : Paired d identifier) :
    d.contains (Material.location identifier) = d.contains (Catalogue.location identifier) := by
  rcases h with hvacant | ⟨key, m, hpair⟩
  · rw [Table.contains, Table.contains, hvacant.no_key, hvacant.no_metadata]
  · obtain ⟨record, hrecord, -⟩ := Catalogue.stored?_eq_some_iff.1 hpair.stored
    rw [Table.contains, Table.contains, hpair.key_eq, hrecord]
    rfl

/-- Under an identifier that is `Paired`, the record is one of metadata. -/
theorem Paired.exists_stored? (h : Paired d identifier) :
    ∃ found, Catalogue.stored? d identifier = .ok found := by
  rcases h with hvacant | ⟨key, m, hpair⟩
  · exact ⟨none, by rw [Catalogue.stored?, hvacant.no_metadata]⟩
  · exact ⟨some m, hpair.stored⟩

/-! ## What is written fits -/

/-- Metadata that `ofKey` makes for a key of the right length fit it. -/
theorem Metadata.fits_ofKey {algorithm : Cipher.Algorithm} {purpose : String}
    {createdAt : Time.Instant} {attributes : Table String} {key : Bytes}
    (hlength : key.length = algorithm.keySize) :
    (ofKey identifier algorithm purpose createdAt attributes).Fits key := by
  have hbits : 8 * key.length = algorithm.keyBits := by
    rw [hlength, Cipher.Algorithm.keyBits]
  have hword : (UInt32.ofNat algorithm.keyBits).toNat = algorithm.keyBits := by
    cases algorithm <;> rfl
  exact ⟨hbits.trans hword.symm, hbits⟩

private theorem Metadata.fits_of_checkImport {key : Bytes} {m : Metadata}
    (h : Manager.checkImport key m = .ok ()) : m.Fits key := by
  rw [Manager.checkImport] at h
  by_cases hlength : key.length = m.algorithm.keySize
  · rw [if_neg (not_not.2 hlength)] at h
    by_cases hsize : m.sizeBits.toNat = 8 * key.length
    · exact ⟨hsize.symm, by rw [hlength, Cipher.Algorithm.keyBits]⟩
    · rw [if_pos hsize] at h
      cases h
  · rw [if_pos hlength] at h
    cases h

/-- A key of the same length can take the place of another, with metadata of the same size. -/
theorem Metadata.Fits.successor {key oldKey : Bytes} {old : Metadata} (h : old.Fits oldKey)
    (hlength : key.length = oldKey.length) (id : String) (createdAt : Time.Instant) :
    (Rotation.successor old id createdAt).Fits key := by
  have hsize := h.sizeBits_eq
  have hbits := h.keyBits_eq
  rw [← hlength] at hsize hbits
  exact ⟨hsize, hbits⟩

/-- The metadata that a creation `Makes` fit the key. -/
theorem Creation.Makes.fits {c : Creation} {key : Bytes} {m : Metadata} (h : c.Makes d key m)
    (hpaired : ∀ identifier, Paired d identifier) : m.Fits key := by
  cases h with
  | generated createdAt hlength => exact Metadata.fits_ofKey hlength
  | generatedUnique unique createdAt hlength => exact Metadata.fits_ofKey hlength
  | imported hchecked => exact Metadata.fits_of_checkImport hchecked
  | rotated createdAt hloaded hlength =>
    exact ((hpaired _).hasPair_of_loaded hloaded).fits.successor hlength _ createdAt
  | rotatedUnique unique createdAt hloaded hlength =>
    exact ((hpaired _).hasPair_of_loaded hloaded).fits.successor hlength _ createdAt

/-! ## What operations do -/

/-- Nothing failed but drawing random bytes. -/
def Served (failed : List Request) : Prop := ∀ r ∈ failed, ∃ source size, r = .draw source size

theorem Served.of_cons {r : Request} (h : Served (r :: failed)) :
    ∃ source size, r = .draw source size :=
  h r List.mem_cons_self

/-- A pair is there once it was added. -/
theorem hasPair_added {key : Bytes} {m : Metadata} (hname : IsIdentifier m.id)
    (hfits : m.Fits key) : HasPair (Pair.added d key m) m.id key m := by
  have hkey : (Pair.added d key m).get? (Material.location m.id) = some key := by
    simp [Pair.added]
  have hrecord : (Pair.added d key m).get? (Catalogue.location m.id) = some m.write := by
    simp [Pair.added]
  exact ⟨hname, hkey, Catalogue.stored?_eq_some_iff.2 ⟨m.write, hrecord, m.read_write⟩, rfl, hfits⟩

private theorem paired_added {key : Bytes} {m : Metadata} (hname : IsIdentifier m.id)
    (hfits : m.Fits key) (hpaired : Paired d identifier) :
    Paired (Pair.added d key m) identifier := by
  by_cases hid : identifier = m.id
  · subst hid
    exact .inr ⟨key, m, hasPair_added hname hfits⟩
  · exact hpaired.congr (by simp [Pair.added, hid]) (by simp [Pair.added, hid])

theorem paired_removed {other : String} (hpaired : Paired d identifier) :
    Paired (Pair.removed d other) identifier := by
  by_cases hid : identifier = other
  · subst hid
    exact .inl ⟨by simp [Pair.removed], by simp [Pair.removed]⟩
  · exact hpaired.congr (by simp [Pair.removed, hid]) (by simp [Pair.removed, hid])

/-- An operation that the storage served keeps every identifier `Paired`. -/
theorem Change.paired {o : Operation} (h : Change d o d' failed) (hserved : Served failed)
    (hpaired : ∀ identifier, Paired d identifier) (identifier : String) :
    Paired d' identifier := by
  cases h with
  | nothing => exact hpaired identifier
  | creation heffect =>
    cases heffect with
    | made hmakes hname hnew => exact paired_added hname (hmakes.fits hpaired) (hpaired identifier)
    | refused => exact hpaired identifier
    | stranded hmakes hnew =>
      obtain ⟨source, size, hdraw⟩ := hserved.of_cons
      cases hdraw
  | deletion hdeleted =>
    cases hdeleted with
    | deleted hname => exact paired_removed (hpaired identifier)
    | unnamed => exact hpaired identifier
    | absent => exact hpaired identifier
    | keyFailed => exact hpaired identifier
    | metadataFailed =>
      obtain ⟨source, size, hdraw⟩ := hserved.of_cons
      cases hdraw

/-- The storage serves every request of some operations, one after another. -/
def Undisturbed (S : Surroundings) : List Operation → S.State → Prop
  | [], _ => True
  | o :: rest, s => Served (S.failures o.action s) ∧ Undisturbed S rest (S.perform o.action s).2

theorem undisturbed_of_isReliable {S : Surroundings} (h : S.IsReliable) (ops : List Operation)
    (s : S.State) : Undisturbed S ops s := by
  induction ops generalizing s with
  | nil => trivial
  | cons o rest ih => exact ⟨fun _ hr => h.draw_of_mem_failures hr, ih _⟩

theorem paired_empty (identifier : String) : Paired Table.empty identifier :=
  .inl ⟨Table.get?_empty _, Table.get?_empty _⟩

/-- Every identifier is `Paired` after any operations that are `Undisturbed`. -/
theorem paired_after (S : Surroundings) {ops : List Operation} {s : S.State}
    (hcalm : Undisturbed S ops s) (hpaired : ∀ identifier, Paired (S.data s) identifier)
    (identifier : String) : Paired (S.data (after S ops s)) identifier := by
  induction ops generalizing s with
  | nil => exact hpaired identifier
  | cons o rest ih =>
    obtain ⟨hserved, hrest⟩ := hcalm
    exact ih hrest ((change_of_runs (S.runs_perform o.action s)).paired hserved hpaired)

/-! ## Using what is listed -/

theorem Metadata.Fits.checkRequest_eq {key : Bytes} {m : Metadata} (h : m.Fits key) :
    Cipher.checkRequest m.algorithm key none none = .ok () := by
  have hlength : key.length = m.algorithm.keySize := by
    have hbits := h.keyBits_eq
    rw [Cipher.Algorithm.keyBits] at hbits
    omega
  rw [Cipher.checkRequest, if_neg (not_not.2 hlength)]
  rfl

/-- A pair is read, unless the storage fails. -/
private theorem HasPair.failed_of_loaded {key : Bytes} {m : Metadata} {halt : Halt}
    (h : HasPair d identifier key m) (hloaded : Pair.Loaded identifier d (.error halt) failed) :
    ∃ e location, halt = .failed (.storage e) ∧ failed = [.retrieve location] := by
  obtain ⟨record, hrecord, hread⟩ := Catalogue.stored?_eq_some_iff.1 h.stored
  cases hloaded with
  | unnamed hunnamed => exact absurd h.named hunnamed
  | missing hmissing =>
    rcases hmissing with hkey | hmetadata
    · cases h.key_eq.symm.trans hkey
    · cases hrecord.symm.trans hmetadata
  | unreadable hrecord' hread' =>
    cases hrecord.symm.trans hrecord'
    cases hread.symm.trans hread'
  | failed => exact ⟨_, _, rfl, rfl⟩

/-- Encrypting under the key of a pair gives a blob, unless no vector is drawn or the storage
fails. -/
theorem HasPair.encrypted {key plaintext : Bytes} {m : Metadata} {outcome : Outcome Bytes}
    (h : HasPair d identifier key m)
    (hencrypted : Manager.Encrypted identifier plaintext none d outcome failed) :
    (∃ blob, outcome = .ok blob)
      ∨ (∃ cause, outcome = .error (.failed (.randomGenerationFailed cause)))
      ∨ ∃ e location, outcome = .error (.failed (.storage e)) ∧ failed = [.retrieve location] := by
  cases hencrypted with
  | encrypted vector hloaded hsealed => exact .inl ⟨_, rfl⟩
  | notLoaded hloaded =>
    obtain ⟨e, location, rfl, rfl⟩ := h.failed_of_loaded hloaded
    exact .inr (.inr ⟨e, location, rfl, rfl⟩)
  | refused hloaded hrefused =>
    have hpair := Paired.hasPair_of_loaded (.inr ⟨key, m, h⟩) hloaded
    cases hpair.fits.checkRequest_eq.symm.trans hrefused
  | notDrawn => exact .inr (.inl ⟨_, rfl⟩)

theorem mem_identifiersUnder_iff {found : List String} (hfound : found.Perm d.keys) :
    identifier ∈ Material.identifiersUnder Catalogue.locationStart found
      ↔ d.contains (Catalogue.location identifier) = true := by
  rw [Material.mem_identifiersUnder, hfound.mem_iff, Table.mem_keys_iff, Catalogue.location]

/-- What is `listed` is what there is a pair of. -/
theorem hasPair_of_mem_listed {found : List String} {ms : List Metadata} {m : Metadata}
    (hpaired : ∀ identifier, Paired d identifier)
    (hlisted : Catalogue.listed d found = .ok ms) (hm : m ∈ ms) :
    ∃ key, HasPair d m.id key m := by
  obtain ⟨identifier, -, hstored⟩ := (Catalogue.mem_listed_iff hlisted).1 hm
  rcases hpaired identifier with hvacant | ⟨key, m', hpair⟩
  · obtain ⟨record, hrecord, -⟩ := Catalogue.stored?_eq_some_iff.1 hstored
    cases hvacant.no_metadata.symm.trans hrecord
  · cases hpair.stored.symm.trans hstored
    refine ⟨key, ?_⟩
    rw [hpair.id_eq]
    exact hpair

/-- What is `listed` has the identifiers of all keys. -/
private theorem mem_listed_ids_iff {found : List String} {ms : List Metadata}
    (hpaired : ∀ identifier, Paired d identifier) (hfound : found.Perm d.keys)
    (hlisted : Catalogue.listed d
      (Material.identifiersUnder Catalogue.locationStart found) = .ok ms) :
    identifier ∈ ms.map (·.id) ↔ d.contains (Material.location identifier) = true := by
  rw [List.mem_map]
  constructor
  · rintro ⟨m, hm, rfl⟩
    obtain ⟨key, hpair⟩ := hasPair_of_mem_listed hpaired hlisted hm
    rw [Table.contains, hpair.key_eq]
    rfl
  · intro hcontains
    rcases hpaired identifier with hvacant | ⟨key, m, hpair⟩
    · rw [Table.contains, hvacant.no_key] at hcontains
      cases hcontains
    · refine ⟨m, (Catalogue.mem_listed_iff hlisted).2 ⟨identifier, ?_, hpair.stored⟩, hpair.id_eq⟩
      rw [mem_identifiersUnder_iff hfound, ← (hpaired identifier).contains_eq]
      exact hcontains

/-- After any operations that are `Undisturbed` on an empty storage, there is a key exactly where
there are metadata, and these can be read, carry the identifier and give the length of the key,
which is that of the algorithm. A listing by `Catalogue.all` has exactly the identifiers of keys,
and under each of them data can be encrypted, unless no vector is drawn or the storage fails just
then. -/
theorem pairs_whole_after (S : Surroundings) {ops : List Operation} {s : S.State}
    (hempty : S.data s = Table.empty) (hcalm : Undisturbed S ops s) :
    let t := after S ops s
    let listing := S.perform Catalogue.all t
    (∀ identifier, (S.data t).contains (Material.location identifier)
        = (S.data t).contains (Catalogue.location identifier))
      ∧ (∀ identifier key record, (S.data t).get? (Material.location identifier) = some key →
        (S.data t).get? (Catalogue.location identifier) = some record →
        ∃ m, Metadata.read record = .ok m ∧ m.id = identifier
          ∧ 8 * key.length = m.sizeBits.toNat ∧ 8 * key.length = m.algorithm.keyBits)
      ∧ (S.failures Catalogue.all t = [] → ∃ ms, listing.1 = .ok ms)
      ∧ ∀ ms, listing.1 = .ok ms →
        (∀ identifier, identifier ∈ ms.map (·.id)
            ↔ (S.data t).contains (Material.location identifier) = true)
          ∧ ∀ identifier ∈ ms.map (·.id), ∀ plaintext,
            let encryption := S.perform (Manager.encrypt identifier plaintext none) listing.2
            (∃ blob, encryption.1 = .ok blob)
              ∨ (∃ cause, encryption.1 = .error (.failed (.randomGenerationFailed cause)))
              ∨ ∃ e location, encryption.1 = .error (.failed (.storage e))
                ∧ S.failures (Manager.encrypt identifier plaintext none) listing.2
                  = [.retrieve location] := by
  intro t listing
  have hpaired : ∀ identifier, Paired (S.data t) identifier := by
    refine paired_after S hcalm fun identifier => ?_
    rw [hempty]
    exact paired_empty identifier
  obtain ⟨hdata, hlisting⟩ := Catalogue.runs_all (S.runs_perform Catalogue.all t)
  refine ⟨fun identifier => (hpaired identifier).contains_eq, ?_, ?_, ?_⟩
  · intro identifier key record hkey hrecord
    obtain ⟨m, hread, hid, hfits⟩ := (hpaired identifier).exists_read hkey hrecord
    exact ⟨m, hread, hid, hfits.sizeBits_eq, hfits.keyBits_eq⟩
  · intro hnone
    rcases hlisting with ⟨⟨found, -, ho⟩, -⟩ | ⟨-, hfailed⟩
    · obtain ⟨ms, hms⟩ := Catalogue.exists_listed fun identifier
        (_ : identifier ∈ Material.identifiersUnder Catalogue.locationStart found) =>
          (hpaired identifier).exists_stored?
      rw [hms] at ho
      exact ⟨ms, ho⟩
    · exact absurd hnone hfailed
  · intro ms hms
    rcases hlisting with ⟨⟨found, hfound, ho⟩, -⟩ | ⟨⟨e, ho⟩, -⟩
    · have hlisted : Catalogue.listed (S.data t)
          (Material.identifiersUnder Catalogue.locationStart found) = .ok ms :=
        Outcome.ofExcept_eq_ok_iff.1 (ho.symm.trans hms)
      refine ⟨fun identifier => mem_listed_ids_iff hpaired hfound hlisted, ?_⟩
      intro identifier hidentifier plaintext encryption
      obtain ⟨m, hm, rfl⟩ := List.mem_map.1 hidentifier
      obtain ⟨key, hpair⟩ := hasPair_of_mem_listed hpaired hlisted hm
      rw [← hdata] at hpair
      exact hpair.encrypted (Manager.runs_encrypt (S.runs_perform _ listing.2)).2
    · cases ho.symm.trans hms

/-- A world without keys whose storage serves everything. -/
def keylessWorld : World.plainSurroundings.State :=
  ⟨{ storage := .memory Table.empty
     clock := noon
     entropy := ⟨fun _ => 0, 0⟩
     failingDraws := 0 }, Table.empty, rfl⟩

/-- A key is made, rotated and deleted; a rotation of the deleted one is refused. -/
def turnover : List Operation :=
  [.create mailKey, .create (.rotate "mail_v1"), .delete "mail_v1", .create (.rotate "mail_v1")]

/-- The second version is there with its metadata, and is listed. -/
theorem mail_listed_after_turnover :
    World.plainSurroundings.data keylessWorld = Table.empty
      ∧ Undisturbed World.plainSurroundings turnover keylessWorld
      ∧ (World.plainSurroundings.data (after World.plainSurroundings turnover
          keylessWorld)).contains (Catalogue.location "mail_v2") = true
      ∧ ∃ ms, (World.plainSurroundings.perform Catalogue.all
            (after World.plainSurroundings turnover keylessWorld)).1 = .ok ms
          ∧ "mail_v2" ∈ ms.map (·.id) := by
  have hempty : World.plainSurroundings.data keylessWorld = Table.empty := rfl
  have hcalm : Undisturbed World.plainSurroundings turnover keylessWorld :=
    undisturbed_of_isReliable World.isReliable_plainSurroundings turnover keylessWorld
  have hkey : (World.plainSurroundings.data (after World.plainSurroundings turnover
      keylessWorld)).contains (Material.location "mail_v2") = true := by decide +kernel
  have hserved : World.plainSurroundings.failures Catalogue.all
      (after World.plainSurroundings turnover keylessWorld) = [] := by decide +kernel
  obtain ⟨hcontains, -, hlists, hlisted⟩ :=
    pairs_whole_after World.plainSurroundings hempty hcalm
  obtain ⟨ms, hms⟩ := hlists hserved
  exact ⟨hempty, hcalm, (hcontains "mail_v2").symm.trans hkey, ms, hms,
    ((hlisted ms hms).1 "mail_v2").2 hkey⟩

end Strongbox.Key
