import Strongbox.Cipher.Request
import Strongbox.Proofs.Cipher.Blob
import Strongbox.Proofs.Program.Runs
/-!
# Decryption accepts what encryption produces, and nothing else

That a blob comes back is one half. The other half is that every byte string has at most one
reading, and that this reading is sealed to the same byte string again. For the chaining mode it
takes three things: the block cipher is inverted from both sides, so the chaining is; the filling is
read strictly, so it is the one that writing would have chosen; and what is deciphered has whole
blocks, so the length that is read off its last byte cannot reach past its beginning. For the
authenticated algorithms the tag is computed again, which is the law of the cipher.

## Main results

* `Cbc.unpad?_eq_some_iff`: whole blocks are read as a message exactly if they are its filling.
* `Cbc.decrypt?_eq_some_iff`: so are ciphertexts.
* `openBlob?_given_iff`, `openBlob?_carried_iff`: blobs, with the vector known and with the vector
  in front.
* `decrypt_iff_encrypt`: decryption and encryption are exact inverses.
-/

namespace Strongbox.Cipher

open Aes (Block)

namespace Cbc

/-! ## Filling and chaining, from the other side -/

/-- Whole blocks are read by `unpad?` as a message exactly if they are what `pad` fills it up to. -/
theorem unpad?_eq_some_iff {padded message : Bytes} (hwhole : padded.length % 16 = 0) :
    unpad? padded = some message ↔ padded = pad message := by
  constructor
  · intro h
    simp only [unpad?] at h
    generalize hn : (padded.getLastD 0).toNat = n at h
    split at h
    · rename_i hfilling
      obtain ⟨hpos, hle, hdrop⟩ := hfilling
      obtain rfl : padded.take (padded.length - n) = message := Option.some.inj h
      have hnonempty : padded ≠ [] := by
        rintro rfl
        simp at hn
        omega
      have hlength : 16 ≤ padded.length := by
        have := List.length_pos_iff.2 hnonempty
        omega
      have hcount : 16 - (padded.take (padded.length - n)).length % 16 = n := by
        rw [List.length_take]
        omega
      rw [pad, hcount, ← hdrop, List.take_append_drop]
    · cases h
  · rintro rfl
    exact unpad?_pad message

private theorem chain_unchain {keys : List Block}
    (h : ∀ x, Aes.encipher keys (Aes.decipher keys x) = x) (previous : Block) (ys : List Block) :
    chain keys previous (unchain keys previous ys) = ys := by
  induction ys generalizing previous with
  | nil => rfl
  | cons y rest ih => rw [unchain, chain, xorBlock_cancel, h, ih]

/-- Whole blocks are read by `decrypt?` as a message exactly if they are its ciphertext. -/
theorem decrypt?_eq_some_iff {ciphertext : Bytes} (hwhole : ciphertext.length % 16 = 0)
    (key iv message : Bytes) :
    decrypt? key iv ciphertext = some message ↔ ciphertext = encrypt key iv message := by
  constructor
  · intro h
    rw [decrypt?, unpad?_eq_some_iff (by rw [length_flatMap_bytes]; omega)] at h
    rw [encrypt, ← h, blocks_flatMap, chain_unchain (Aes.encipher_decipher _),
      flatMap_blocks hwhole]
  · rintro rfl
    exact decrypt?_encrypt key iv message

end Cbc

/-! ## Blobs -/

section Blobs

variable {key iv message blob : Bytes}

/-- A given vector is compared with the one in front, and that is all it is used for. -/
private theorem openChained?_eq (given : Option Bytes) :
    openChained? key given blob
      = if given.any (· != blob.take 16) then none else openChained? key none blob := by
  rw [openChained?, openChained?, Option.any_none, if_neg Bool.false_ne_true]
  split <;> split <;> rfl

/-- A blob of the chaining mode is read under the vector in front of it. -/
theorem openChained?_none_eq_some_iff :
    openChained? key none blob = some message
      ↔ ∃ iv, iv.length = 16 ∧ blob = iv ++ Cbc.encrypt key iv message := by
  constructor
  · intro h
    rw [openChained?, Option.any_none, if_neg Bool.false_ne_true] at h
    split at h
    · cases h
    · rename_i hshape
      have hbody : (blob.drop 16).length % 16 = 0 := by
        rw [List.length_drop]
        omega
      refine ⟨blob.take 16, by rw [List.length_take]; omega, ?_⟩
      rw [← (Cbc.decrypt?_eq_some_iff hbody key (blob.take 16) message).1 h,
        List.take_append_drop]
  · rintro ⟨iv, hiv, rfl⟩
    exact openChained?_append hiv key message

/-- A blob of an authenticated algorithm that carries its vector is read by `openSealed?` under that
vector. -/
theorem openSealed?_none_eq_some_iff (cipher : Aead) (size : Nat) (aad : Bytes) :
    openSealed? cipher size key none aad blob = some message
      ↔ ∃ iv, iv.length = size ∧ blob = iv ++ cipher.sealed key iv aad message := by
  constructor
  · intro h
    rw [openSealed?] at h
    split at h
    · cases h
    · refine ⟨blob.take size, by rw [List.length_take]; omega, ?_⟩
      rw [← (cipher.open?_eq_some_iff key (blob.take size) aad).1 h, List.take_append_drop]
  · rintro ⟨iv, hiv, rfl⟩
    exact openSealed?_append hiv key aad message

/-- Under a given vector a blob is read as a message exactly if it is sealed from it (`sealUnder`).
-/
theorem openBlob?_given_iff {a : Algorithm} (hiv : iv.length = a.ivSize) (aad : Option Bytes) :
    openBlob? a key (some iv) blob aad = some message ↔ blob = sealUnder a key iv message aad := by
  cases a with
  | aesCbc =>
    show openChained? key (some iv) blob = some message ↔ blob = iv ++ Cbc.encrypt key iv message
    rw [openChained?_eq]
    constructor
    · intro h
      split at h
      · cases h
      · rename_i hmatches
        obtain ⟨front, hfront, rfl⟩ := openChained?_none_eq_some_iff.1 h
        have hiv : iv = front := by
          rw [← hfront, List.take_left] at hmatches
          simpa using hmatches
        rw [hiv]
    · rintro rfl
      have hmatches : ¬ (some iv).any
          (· != (iv ++ Cbc.encrypt key iv message).take 16) = true := by
        rw [← show iv.length = 16 from hiv, List.take_left]
        simp
      rw [if_neg hmatches]
      exact openChained?_append hiv key message
  | aesGcm => exact Gcm.cipher.open?_eq_some_iff key iv (aad.getD [])
  | chaChaPoly => exact ChaChaPoly.cipher.open?_eq_some_iff key iv (aad.getD [])

/-- Without a given vector a blob is read as a message exactly if it is sealed from it under some
vector and carries that (`sealCarrying`). -/
theorem openBlob?_carried_iff (a : Algorithm) (aad : Option Bytes) :
    openBlob? a key none blob aad = some message
      ↔ ∃ iv, iv.length = a.ivSize ∧ blob = sealCarrying a key iv message aad := by
  cases a with
  | aesCbc => exact openChained?_none_eq_some_iff
  | aesGcm => exact openSealed?_none_eq_some_iff Gcm.cipher 12 (aad.getD [])
  | chaChaPoly => exact openSealed?_none_eq_some_iff ChaChaPoly.cipher 12 (aad.getD [])

/-- What follows the vector is the blob of one who keeps the vector, unless that has it as well. -/
private theorem eq_sealCarrying_iff (a : Algorithm) (aad : Option Bytes) :
    blob = sealCarrying a key iv message aad
      ↔ ∃ rest, blob = iv ++ rest
          ∧ sealUnder a key iv message aad = if a.isAuthenticated then rest else blob := by
  cases a with
  | aesCbc =>
    constructor
    · rintro rfl
      exact ⟨Cbc.encrypt key iv message, rfl, rfl⟩
    · rintro ⟨rest, -, hblob⟩
      exact hblob.symm
  | aesGcm | chaChaPoly =>
    constructor
    · rintro rfl
      exact ⟨_, rfl, rfl⟩
    · rintro ⟨rest, rfl, hrest⟩
      exact congrArg (iv ++ ·) hrest.symm

end Blobs

/-! ## Requests -/

section Requests

variable {a : Algorithm} {key : Bytes} {iv aad : Option Bytes}

/-- A request of the right shape is not refused. -/
theorem checkRequest_eq_ok (hkey : key.length = a.keySize)
    (hiv : ∀ v, iv = some v → v.length = a.ivSize) (haad : a.isAuthenticated = false → aad = none) :
    checkRequest a key iv aad = .ok () := by
  have hassociated : checkRequest.checkAssociated a aad = .ok () := by
    cases aad with
    | none => rfl
    | some data =>
      have hauthenticated : a.isAuthenticated = true := by
        cases hplain : a.isAuthenticated with
        | true => rfl
        | false => cases haad hplain
      rw [checkRequest.checkAssociated, if_pos hauthenticated]
  unfold checkRequest
  rw [if_neg (not_not_intro hkey)]
  cases iv with
  | none => exact hassociated
  | some v =>
    show (if v.length ≠ a.ivSize then _ else checkRequest.checkAssociated a aad) = _
    rw [if_neg (not_not_intro (hiv v rfl)), hassociated]

/-- A request that `checkRequest` does not refuse is answered by reading the blob. -/
theorem decrypt_eq_ok_iff (h : checkRequest a key iv aad = .ok ()) {message blob : Bytes} :
    decrypt a key iv blob aad = .ok message ↔ openBlob? a key iv blob aad = some message := by
  rw [decrypt, h]
  cases openBlob? a key iv blob aad <;> simp

/-- What a request without a vector can give: the blob of some vector of the right length. -/
theorem runs_encryptRequest_none_iff (h : checkRequest a key none aad = .ok ())
    {message blob : Bytes} {d : Storage.Memory} :
    (encryptRequest a key none message aad).Runs d (.ok blob) d []
      ↔ ∃ vector, vector.length = a.ivSize ∧ blob = sealCarrying a key vector message aad := by
  rw [encryptRequest, Action.runs_ofExcept_bind_iff]
  constructor
  · rintro (⟨-, -, hruns⟩ | ⟨error, -, houtcome, -⟩)
    · rcases Action.runs_draw_bind hruns with ⟨vector, hencrypt⟩ | ⟨⟨cause, houtcome⟩, -⟩
      · rw [encryptFresh_eq h] at hencrypt
        have hblob := (Action.runs_ofExcept_iff.1 hencrypt).1
        exact ⟨vector.1, vector.2, Except.ok.inj hblob⟩
      · cases houtcome
    · cases houtcome
  · rintro ⟨vector, hvector, rfl⟩
    refine .inl ⟨(), h, ?_⟩
    rw [Action.draw, bind_assoc, Action.runs_ask_bind_iff]
    refine .inl ⟨.ok ⟨vector, hvector⟩, d, .drawn .system ⟨vector, hvector⟩ d, ?_⟩
    show (Action.ofExcept (encryptFresh a key vector message aad)).Runs d _ d []
    rw [encryptFresh_eq h]
    exact .done _ _

end Requests

/-- Decryption (`decrypt`) and encryption (`encryptRequest`) are exact inverses. Under a vector that
both are given, a blob is decrypted to a message exactly if the message is encrypted to the blob.
Without one, exactly if the blob starts with a vector under which the chaining mode encrypts the
message to the whole blob, or an authenticated algorithm to what follows the vector. No request of
the right shape is refused, so whatever is sealed is opened, wherever its vector is kept, and a blob
that no encryption produces is not accepted. -/
theorem decrypt_iff_encrypt (a : Algorithm) {key : Bytes} {aad : Option Bytes}
    (hkey : key.length = a.keySize) (haad : a.isAuthenticated = false → aad = none) :
    (∀ iv message blob : Bytes, iv.length = a.ivSize →
        (decrypt a key (some iv) blob aad = .ok message ↔ encrypt a key iv message aad = .ok blob))
      ∧ (∀ message blob : Bytes,
          decrypt a key none blob aad = .ok message
            ↔ ∃ iv rest, iv.length = a.ivSize ∧ blob = iv ++ rest
                ∧ encrypt a key iv message aad = .ok (if a.isAuthenticated then rest else blob))
      ∧ (∀ iv message : Bytes, iv.length = a.ivSize →
          (∃ blob, encrypt a key iv message aad = .ok blob
              ∧ decrypt a key (some iv) blob aad = .ok message
              ∧ (a.isAuthenticated = false → decrypt a key none blob aad = .ok message))
            ∧ ∃ blob, encryptFresh a key iv message aad = .ok blob
                ∧ decrypt a key none blob aad = .ok message)
      ∧ ∀ (iv : Option Bytes) (message blob : Bytes) (d : Storage.Memory),
          (∀ v, iv = some v → v.length = a.ivSize) →
          (decrypt a key iv blob aad = .ok message
            ↔ (encryptRequest a key iv message aad).Runs d (.ok blob) d []) := by
  have hnone : checkRequest a key none aad = .ok () :=
    checkRequest_eq_ok hkey (fun _ h => absurd h (by simp)) haad
  have hsome : ∀ iv : Bytes, iv.length = a.ivSize → checkRequest a key (some iv) aad = .ok () := by
    intro iv hiv
    apply checkRequest_eq_ok hkey _ haad
    intro v hv
    rwa [← Option.some.inj hv]
  have hgiven : ∀ iv message blob : Bytes, iv.length = a.ivSize →
      (decrypt a key (some iv) blob aad = .ok message
        ↔ encrypt a key iv message aad = .ok blob) := by
    intro iv message blob hiv
    rw [decrypt_eq_ok_iff (hsome iv hiv), openBlob?_given_iff hiv, encrypt_eq (hsome iv hiv),
      Except.ok.injEq, eq_comm]
  have hcarried : ∀ message blob : Bytes,
      decrypt a key none blob aad = .ok message
        ↔ ∃ iv, iv.length = a.ivSize ∧ blob = sealCarrying a key iv message aad := by
    intro message blob
    rw [decrypt_eq_ok_iff hnone, openBlob?_carried_iff]
  refine ⟨hgiven, fun message blob => ?_, fun iv message hiv => ⟨?_, ?_⟩,
    fun iv message blob d hiv => ?_⟩
  · rw [hcarried]
    apply exists_congr
    intro iv
    rw [eq_sealCarrying_iff, exists_and_left]
    refine and_congr_right fun hiv => exists_congr fun rest => ?_
    rw [encrypt_eq (hsome iv hiv), Except.ok.injEq]
  · refine ⟨sealUnder a key iv message aad, encrypt_eq (hsome iv hiv) message,
      (hgiven iv message _ hiv).2 (encrypt_eq (hsome iv hiv) message), fun hplain => ?_⟩
    refine (hcarried message _).2 ⟨iv, hiv, ?_⟩
    cases a with
    | aesCbc => rfl
    | aesGcm => cases hplain
    | chaChaPoly => cases hplain
  · exact ⟨sealCarrying a key iv message aad, encryptFresh_eq hnone iv message,
      (hcarried message _).2 ⟨iv, hiv, rfl⟩⟩
  · cases iv with
    | none => rw [hcarried, runs_encryptRequest_none_iff hnone]
    | some v =>
      rw [hgiven v message blob (hiv v rfl), encryptRequest, Action.runs_ofExcept_iff,
        eq_comm (a := Except.ok blob), Outcome.ofExcept_eq_ok_iff]
      simp

/-- Two letters under a key of zeros and a vector of ones. The blob is opened with the vector at
hand and without it. -/
theorem decrypt_iff_encrypt_two_letters :
    (List.replicate 16 0 : Bytes).length = Algorithm.aesCbc.keySize
      ∧ ∀ given ∈ [some (List.replicate 16 1), none],
          decrypt .aesCbc (List.replicate 16 0) given
            (List.replicate 16 1
              ++ [61, 4, 232, 168, 202, 123, 251, 132, 121, 23, 194, 127, 133, 111, 81, 48]) none
            = .ok [104, 105] := by
  have hbody : Cbc.encrypt (List.replicate 16 0) (List.replicate 16 1) [104, 105]
      = [61, 4, 232, 168, 202, 123, 251, 132, 121, 23, 194, 127, 133, 111, 81, 48] := by
    decide +kernel
  obtain ⟨hgiven, hcarried, -, -⟩ :=
    @decrypt_iff_encrypt .aesCbc (List.replicate 16 0) none rfl fun _ => rfl
  have hencrypt : encrypt .aesCbc (List.replicate 16 0) (List.replicate 16 1) [104, 105] none
      = .ok (List.replicate 16 1
        ++ [61, 4, 232, 168, 202, 123, 251, 132, 121, 23, 194, 127, 133, 111, 81, 48]) := by
    rw [encrypt_eq rfl, ← hbody]
    rfl
  refine ⟨rfl, ?_⟩
  simp only [List.forall_mem_cons]
  exact ⟨(hgiven _ _ _ rfl).2 hencrypt, (hcarried _ _).2 ⟨_, _, rfl, rfl, hencrypt⟩,
    List.forall_mem_nil _⟩

end Strongbox.Cipher
