import Strongbox.Cipher.Request
import Strongbox.Proofs.Cipher.Aes
/-!
# Blobs are opened to what was sealed

A message in the chaining mode comes back because its bytes are cut into blocks and put together
again without loss, the block cipher is undone, and so are the chaining and the filling. For the
authenticated algorithms the law of the cipher says it at once; what remains is to find the vector
at the front of the blob.

## Main results

* `Cbc.decrypt?_encrypt`: a chained message is read back.
* `decrypt_encryptFresh`: a blob with its vector in front is decrypted to what was encrypted.
-/

namespace Strongbox.Cipher

open Aes (Block)

/-! ## Bytes and blocks -/

private theorem Aes.length_words (bytes : Bytes) : (Aes.words bytes).length = bytes.length / 4 := by
  induction bytes using Aes.words.induct with
  | case1 a b c d rest ih =>
    simp only [Aes.words, List.length_cons, ih]
    omega
  | case2 bytes hshort =>
    match bytes, hshort with
    | [], _ | [_], _ | [_, _], _ | [_, _, _], _ => simp [Aes.words]
    | a :: b :: c :: d :: rest, hshort => exact absurd rfl (hshort a b c d rest)

/-- A byte string of whole words is the `wordBytes` of its `words`. -/
private theorem Aes.flatMap_words {bytes : Bytes} (h : bytes.length % 4 = 0) :
    (Aes.words bytes).flatMap Aes.wordBytes = bytes := by
  induction bytes using Aes.words.induct with
  | case1 a b c d rest ih =>
    simp only [List.length_cons] at h
    rw [Aes.words, List.flatMap_cons, ih (by omega)]
    rfl
  | case2 bytes hshort =>
    match bytes, hshort with
    | [], _ => rfl
    | [_], _ | [_, _], _ | [_, _, _], _ => exact absurd h (by simp)
    | a :: b :: c :: d :: rest, hshort => exact absurd rfl (hshort a b c d rest)

/-- A list of words in fours is the words of its blocks. -/
theorem Aes.flatMap_blocks {words : List Aes.Word} (h : words.length % 4 = 0) :
    (Aes.blocks words).flatMap Block.bytes = words.flatMap Aes.wordBytes := by
  induction words using Aes.blocks.induct with
  | case1 w0 w1 w2 w3 rest ih =>
    simp only [List.length_cons] at h
    simp only [Aes.blocks, List.flatMap_cons, ih (by omega), Block.bytes, List.append_assoc]
  | case2 words hshort =>
    match words, hshort with
    | [], _ => rfl
    | [_], _ | [_, _], _ | [_, _, _], _ => exact absurd h (by simp)
    | w0 :: w1 :: w2 :: w3 :: rest, hshort => exact absurd rfl (hshort w0 w1 w2 w3 rest)

namespace Cbc

theorem flatMap_blocks {bytes : Bytes} (h : bytes.length % 16 = 0) :
    (blocks bytes).flatMap Block.bytes = bytes := by
  rw [blocks, Aes.flatMap_blocks (by rw [Aes.length_words]; omega), Aes.flatMap_words (by omega)]

/-- The `blocks` of the bytes of blocks are these blocks. -/
theorem blocks_flatMap (xs : List Block) : blocks (xs.flatMap Block.bytes) = xs := by
  induction xs with
  | nil => rfl
  | cons x xs ih =>
    rw [blocks] at ih
    rw [List.flatMap_cons, blocks]
    show x :: Aes.blocks (Aes.words (xs.flatMap Block.bytes)) = x :: xs
    rw [ih]

theorem length_flatMap_bytes (xs : List Block) :
    (xs.flatMap Block.bytes).length = 16 * xs.length := by
  induction xs with
  | nil => rfl
  | cons x xs ih =>
    rw [List.flatMap_cons, List.length_append, Aes.length_bytes, ih, List.length_cons]
    omega

theorem length_chain (keys : List Block) (previous : Block) (xs : List Block) :
    (chain keys previous xs).length = xs.length := by
  induction xs generalizing previous with
  | nil => rfl
  | cons x xs ih => rw [chain, List.length_cons, List.length_cons, ih]

theorem length_pad (message : Bytes) :
    (pad message).length = 16 * (message.length / 16 + 1) := by
  simp only [pad, List.length_append, List.length_replicate]
  omega

/-- Ciphertexts are of whole blocks, at least one. -/
private theorem length_encrypt (key iv message : Bytes) :
    (encrypt key iv message).length = 16 * (message.length / 16 + 1) := by
  have hwhole : (pad message).length % 16 = 0 := by
    rw [length_pad]
    omega
  have hblocks := congrArg List.length (flatMap_blocks hwhole)
  rw [length_flatMap_bytes, length_pad] at hblocks
  rw [encrypt, length_flatMap_bytes, length_chain, hblocks]

theorem decrypt?_encrypt (key iv message : Bytes) :
    decrypt? key iv (encrypt key iv message) = some message := by
  rw [decrypt?, encrypt, blocks_flatMap, unchain_chain (Aes.decipher_encipher _),
    flatMap_blocks (by rw [length_pad]; omega), unpad?_pad]

end Cbc

/-! ## Blobs -/

theorem openChained?_append {iv : Bytes} (hiv : iv.length = 16) (key message : Bytes) :
    openChained? key none (iv ++ Cbc.encrypt key iv message) = some message := by
  have hlength : (iv ++ Cbc.encrypt key iv message).length = 32 + 16 * (message.length / 16) := by
    rw [List.length_append, hiv, Cbc.length_encrypt]
    omega
  rw [openChained?, if_neg (by omega), Option.any_none, if_neg Bool.false_ne_true,
    ← hiv, List.take_left, List.drop_left, Cbc.decrypt?_encrypt]

theorem openSealed?_append {cipher : Aead} {size : Nat} {iv : Bytes} (hiv : iv.length = size)
    (key aad message : Bytes) :
    openSealed? cipher size key none aad (iv ++ cipher.sealed key iv aad message)
      = some message := by
  rw [openSealed?, if_neg (by rw [List.length_append]; omega), ← hiv, List.take_left,
    List.drop_left]
  exact (cipher.open?_eq_some_iff key iv aad).2 rfl

private theorem openBlob?_sealCarrying {a : Algorithm} {iv : Bytes} (hiv : iv.length = a.ivSize)
    (key message : Bytes) (aad : Option Bytes) :
    openBlob? a key none (sealCarrying a key iv message aad) aad = some message := by
  cases a with
  | aesCbc => exact openChained?_append hiv key message
  | aesGcm => exact openSealed?_append hiv key (aad.getD []) message
  | chaChaPoly => exact openSealed?_append hiv key (aad.getD []) message

/-- A blob from `encryptFresh`, with its vector in front, is decrypted to what was encrypted. -/
theorem decrypt_encryptFresh {a : Algorithm} {key iv message blob : Bytes} {aad : Option Bytes}
    (hiv : iv.length = a.ivSize) (h : encryptFresh a key iv message aad = .ok blob) :
    decrypt a key none blob aad = .ok message := by
  rcases hcheck : checkRequest a key none aad with e | _
  · rw [encryptFresh, hcheck] at h
    cases h
  · rw [encryptFresh_eq hcheck] at h
    cases h
    rw [decrypt, hcheck]
    simp only [openBlob?_sealCarrying hiv]

end Strongbox.Cipher
