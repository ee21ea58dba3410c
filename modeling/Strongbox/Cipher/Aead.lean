import Strongbox.Bytes
/-!
# Authenticated encryption

An authenticated cipher is given by two functions of key and nonce: a key stream, which is
combined with the plaintext byte by byte, and a tag over the associated data and the ciphertext.
Sealing appends the tag to the ciphertext; opening recomputes it first and gives no plaintext
unless it agrees.

Nothing more is used of the cipher, so the laws below hold for every such pair of functions.

## Main results

* `open?_eq_some_iff`: opening gives a plaintext exactly for what sealing makes of it.
-/

namespace Strongbox.Cipher

/-- The length of every tag. -/
def tagSize : Nat := 16

/-- An authenticated cipher. -/
structure Aead where
  /-- The first bytes of the key stream, from key, nonce and length. -/
  keyStream : Bytes → Bytes → Nat → Bytes
  /-- The tag, from key, nonce, associated data and ciphertext. -/
  tag : Bytes → Bytes → Bytes → Bytes → Bytes
  length_keyStream : ∀ key nonce n, (keyStream key nonce n).length = n
  length_tag : ∀ key nonce aad body, (tag key nonce aad body).length = tagSize

namespace Aead

/-- Combines a message with the key stream. This both encrypts and decrypts. -/
def mask (cipher : Aead) (key nonce message : Bytes) : Bytes :=
  Bytes.xor message (cipher.keyStream key nonce message.length)

/-- Ciphertext and tag of a plaintext. -/
def sealed (cipher : Aead) (key nonce aad plaintext : Bytes) : Bytes :=
  let body := cipher.mask key nonce plaintext
  body ++ cipher.tag key nonce aad body

/-- The plaintext of a ciphertext with its tag, if the tag is right. -/
def open? (cipher : Aead) (key nonce aad blob : Bytes) : Option Bytes :=
  if blob.length < tagSize then none
  else
    let body := blob.take (blob.length - tagSize)
    if blob.drop (blob.length - tagSize) = cipher.tag key nonce aad body then
      some (cipher.mask key nonce body)
    else none

/-! ## Laws -/

variable (cipher : Aead) (key nonce aad : Bytes)

theorem length_mask (message : Bytes) :
    (cipher.mask key nonce message).length = message.length := by
  simp [mask, Bytes.xor, cipher.length_keyStream]

private theorem xor_xor_cancel {a b : Bytes} (h : a.length = b.length) :
    Bytes.xor (Bytes.xor a b) b = a := by
  induction a generalizing b with
  | nil => simp [Bytes.xor]
  | cons x a ih =>
    cases b with
    | nil => simp at h
    | cons y b =>
      have := ih (b := b) (by simpa using h)
      simp only [Bytes.xor, List.zipWith_cons_cons] at this ⊢
      rw [this, UInt8.xor_assoc, UInt8.xor_self, UInt8.xor_zero]

/-- Masking twice gives the message back. -/
theorem mask_mask (message : Bytes) :
    cipher.mask key nonce (cipher.mask key nonce message) = message := by
  rw [mask, length_mask, mask]
  exact xor_xor_cancel (cipher.length_keyStream _ _ _).symm

private theorem length_sealed (plaintext : Bytes) :
    (cipher.sealed key nonce aad plaintext).length = plaintext.length + tagSize := by
  simp [sealed, length_mask, cipher.length_tag]

/-- Opening gives a plaintext exactly for what sealing makes of it. -/
theorem open?_eq_some_iff {blob plaintext : Bytes} :
    cipher.open? key nonce aad blob = some plaintext
      ↔ blob = cipher.sealed key nonce aad plaintext := by
  constructor
  · intro h
    simp only [open?] at h
    split at h
    · simp at h
    · split at h
      · rename_i hlen htag
        have hp : cipher.mask key nonce (blob.take (blob.length - tagSize)) = plaintext := by
          simpa using h
        simp only [sealed]
        rw [← hp, mask_mask, ← htag, List.take_append_drop]
      · simp at h
  · rintro rfl
    have hlen := length_sealed cipher key nonce aad plaintext
    have hcut : (cipher.sealed key nonce aad plaintext).length - tagSize = plaintext.length := by
      omega
    have htake : (cipher.sealed key nonce aad plaintext).take plaintext.length
        = cipher.mask key nonce plaintext := by
      simp only [sealed]
      rw [List.take_append_of_le_length (by simp [length_mask]),
        List.take_of_length_le (by simp [length_mask])]
    have hdrop : (cipher.sealed key nonce aad plaintext).drop plaintext.length
        = cipher.tag key nonce aad (cipher.mask key nonce plaintext) := by
      simp only [sealed]
      rw [List.drop_append_of_le_length (by simp [length_mask]),
        List.drop_eq_nil_of_le (by simp [length_mask]), List.nil_append]
    simp only [open?]
    rw [if_neg (by omega), hcut, htake, hdrop]
    simp [mask_mask]

end Aead

/-- The first `n` bytes of a key stream that is given block by block, `size` bytes each. -/
def streamOfBlocks (size : Nat) (block : Nat → Bytes) (n : Nat) : Bytes :=
  ((List.range (Bytes.pieceCount size n)).flatMap block).take n

theorem length_streamOfBlocks {size : Nat} {block : Nat → Bytes} (hsize : 0 < size)
    (hblock : ∀ i, (block i).length = size) (n : Nat) :
    (streamOfBlocks size block n).length = n := by
  have hsum : ∀ k : Nat, ((List.range k).flatMap block).length = size * k := by
    intro k
    induction k with
    | zero => rfl
    | succ k ih =>
      rw [List.range_succ, List.flatMap_append, List.length_append, ih]
      simp [hblock, Nat.mul_succ]
  rw [streamOfBlocks, List.length_take, hsum, Bytes.pieceCount]
  have := Nat.div_add_mod (n + size - 1) size
  have := Nat.mod_lt (n + size - 1) hsize
  omega

/-- A byte string, filled up with zeros to a multiple of sixteen bytes. -/
def padded16 (bytes : Bytes) : Bytes :=
  bytes ++ List.replicate ((16 - bytes.length % 16) % 16) 0

end Strongbox.Cipher
