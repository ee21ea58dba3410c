import Strongbox.Proofs.Bytes
import Strongbox.Proofs.Cipher.Blob
import Strongbox.Storage.Vault
/-!
# The files of a vault

What a vault writes it finds and reads again. A file's name is 64 hexadecimal digits and the ending,
so the listing takes it for a sealed file and finds the digest in it; the content is opened under
that digest; and the payload is cut where its announced length says, as long as the field of four
bytes can hold the length.

Two identifiers have one file name only if their digests collide.

## Main results

* `stem?_fileName`: the digest is read off the name.
* `digest_eq_of_fileName_eq`: file names are as good as digests.
* `openEntry?_sealEntry`: a sealed entry is opened to its identifier and data.
-/

namespace Strongbox

/-! ## Hexadecimal digits -/

namespace Text.Hex

private theorem mem_digits {bytes : Bytes} {c : Char} (h : c ∈ digits bytes) :
    ∃ n < 16, c = digit n := by
  rw [digits, List.mem_flatMap] at h
  obtain ⟨b, -, hc⟩ := h
  have hb := b.toNat_lt
  rcases List.mem_cons.1 hc with rfl | hc
  · exact ⟨b.toNat / 16, by omega, rfl⟩
  · exact ⟨b.toNat % 16, by omega, List.mem_singleton.1 hc⟩

theorem digit_inj {m n : Nat} (hm : m < 16) (hn : n < 16) (h : digit m = digit n) : m = n := by
  have hall : ∀ i j : Fin 16, digit i = digit j → i = j := by decide
  exact congrArg Fin.val (hall ⟨m, hm⟩ ⟨n, hn⟩ h)

/-- Bytes are determined by their `digits`. -/
private theorem digits_inj {a b : Bytes} (h : digits a = digits b) : a = b := by
  induction a generalizing b with
  | nil =>
    cases b with
    | nil => rfl
    | cons y b => cases h
  | cons x a ih =>
    cases b with
    | nil => cases h
    | cons y b =>
      have hx := x.toNat_lt
      have hy := y.toNat_lt
      obtain ⟨hhigh, hrest⟩ := List.cons.inj h
      obtain ⟨hlow, hrest⟩ := List.cons.inj hrest
      have hxy : x = y := by
        apply UInt8.toNat_inj.1
        have := digit_inj (by omega) (by omega) hhigh
        have := digit_inj (by omega) (by omega) hlow
        omega
      rw [hxy, ih hrest]

private theorem encode_inj {a b : Bytes} (h : encode a = encode b) : a = b :=
  digits_inj (String.ofList_injective h)

end Text.Hex

namespace Storage.Vault

/-! ## Names -/

theorem toList_stem (identifier : String) :
    (stem identifier).toList = Text.Hex.digits (Hash.Sha256.digest (Bytes.ofText identifier)) := by
  rw [stem, Hash.hexDigest, Text.Hex.encode, String.toList_ofList]

/-- The digest is read off the name of a file: `stem?` finds the `stem` of its identifier. -/
theorem stem?_fileName (identifier : String) :
    stem? (fileName identifier) = some (stem identifier) := by
  have hchars : (fileName identifier).toList = (stem identifier).toList ++ ending.toList := by
    rw [fileName, String.toList_append]
  have hcut : ((stem identifier).toList ++ ending.toList).length - ending.length
      = (stem identifier).toList.length := by
    rw [List.length_append, String.length_toList (s := ending), Nat.add_sub_cancel]
  have hlength : (stem identifier).toList.length = 64 := by
    rw [toList_stem, Text.Hex.length_digits, Hash.Sha256.length_digest]
  have hdigits : (stem identifier).toList.all
      (fun c => c.isDigit || ('a' ≤ c && c ≤ 'f') || ('A' ≤ c && c ≤ 'F')) = true := by
    have hall : ∀ i : Fin 16, ((Text.Hex.digit i).isDigit
        || ('a' ≤ Text.Hex.digit i && Text.Hex.digit i ≤ 'f')
        || ('A' ≤ Text.Hex.digit i && Text.Hex.digit i ≤ 'F')) = true := by decide
    rw [toList_stem, List.all_eq_true]
    intro c hc
    obtain ⟨n, hn, rfl⟩ := Text.Hex.mem_digits hc
    exact hall ⟨n, hn⟩
  simp only [stem?, hchars, hcut, List.take_left, List.drop_left]
  rw [if_pos ⟨trivial, hlength, hdigits⟩, String.ofList_toList]

/-- The name of a sealed file is its digest and the `ending`. -/
theorem eq_of_stem? {name digest : String} (h : stem? name = some digest) :
    name = digest ++ ending := by
  unfold stem? at h
  dsimp only at h
  split at h
  · rename_i hshape
    apply String.toList_injective
    rw [← Option.some.inj h, String.toList_append, String.toList_ofList, ← hshape.1,
      List.take_append_drop]
  · cases h

private theorem stem_eq_of_fileName_eq {a b : String} (h : fileName a = fileName b) :
    stem a = stem b := by
  have hstem := congrArg stem? h
  rw [stem?_fileName, stem?_fileName] at hstem
  exact Option.some.inj hstem

/-- Identifiers with one `fileName` have one digest. -/
theorem digest_eq_of_fileName_eq {a b : String} (h : fileName a = fileName b) :
    Hash.Sha256.digest (Bytes.ofText a) = Hash.Sha256.digest (Bytes.ofText b) :=
  Text.Hex.encode_inj (stem_eq_of_fileName_eq h)

/-! ## Contents -/

private theorem readPayload?_payload {identifier : String}
    (hlength : (Bytes.ofText identifier).length < UInt32.size) (data : Bytes) :
    readPayload? (payload identifier data) = some (identifier, data) := by
  have hfield := Bytes.length_bigEndian 4 (Bytes.ofText identifier).length
  have hsize : Bytes.natOfBigEndian (Bytes.bigEndian 4 (Bytes.ofText identifier).length)
      = (Bytes.ofText identifier).length := by
    rw [Bytes.natOfBigEndian_bigEndian]
    exact Nat.mod_eq_of_lt hlength
  have htake : (payload identifier data).take 4
      = Bytes.bigEndian 4 (Bytes.ofText identifier).length := by
    rw [payload, List.append_assoc]
    exact List.take_left' hfield
  have hdrop : (payload identifier data).drop 4 = Bytes.ofText identifier ++ data := by
    rw [payload, List.append_assoc]
    exact List.drop_left' hfield
  have htotal : (payload identifier data).length
      = 4 + ((Bytes.ofText identifier).length + data.length) := by
    rw [payload, List.append_assoc, List.length_append, hfield, List.length_append]
  simp only [readPayload?, htake, hdrop, hsize, htotal, List.length_append, List.take_left,
    List.drop_left, Bytes.toText?_ofText, Option.map_some]
  rw [if_neg (by omega)]

/-- What `readPayload?` finds in a payload are two pieces of it, which stand behind a field of four
bytes that says where the second begins. -/
theorem exists_field_of_readPayload? {plain data : Bytes} {identifier : String}
    (h : readPayload? plain = some (identifier, data)) :
    ∃ field : Bytes, field.length = 4
      ∧ Bytes.natOfBigEndian field = (Bytes.ofText identifier).length
      ∧ plain = field ++ Bytes.ofText identifier ++ data := by
  unfold readPayload? at h
  dsimp only at h
  split at h
  · cases h
  · rename_i hlong
    obtain ⟨text, htext, hpair⟩ := Option.map_eq_some_iff.1 h
    obtain ⟨rfl, rfl⟩ := Prod.mk.inj hpair
    have hname := Bytes.ofText_of_toText? htext
    refine ⟨plain.take 4, by rw [List.length_take]; omega, ?_, ?_⟩
    · rw [hname, List.length_take]
      omega
    · rw [hname, List.append_assoc, List.take_append_drop, List.take_append_drop]

/-- What `sealEntry` has sealed is opened, under the digest of its identifier, to the identifier and
the data. -/
theorem openEntry?_sealEntry (v : Vault) {identifier : String}
    (hlength : (Bytes.ofText identifier).length < UInt32.size) (data : Bytes)
    (vector : Bytes.Sized vectorSize) :
    v.openEntry? (stem identifier) (v.sealEntry identifier data vector.1)
      = some (identifier, data) := by
  have hshape : Cipher.checkRequest .aesGcm v.masterKey none
      (some (Bytes.ofText (stem identifier))) = .ok () := by
    unfold Cipher.checkRequest
    rw [if_neg (not_not_intro v.length_masterKey)]
    rfl
  have hopen : Cipher.decrypt .aesGcm v.masterKey none (v.sealEntry identifier data vector.1)
      (some (Bytes.ofText (stem identifier))) = .ok (payload identifier data) :=
    Cipher.decrypt_encryptFresh vector.2 (Cipher.encryptFresh_eq hshape _ _)
  rw [ openEntry?, hopen]
  simp only [Except.toOption, Option.bind_eq_bind, Option.bind_some,
    readPayload?_payload hlength, ↓reduceIte]

end Storage.Vault

end Strongbox
