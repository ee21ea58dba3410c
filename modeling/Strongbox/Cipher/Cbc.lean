import Strongbox.Cipher.Aes
/-!
# AES in cipher block chaining

Messages are filled up to whole blocks after PKCS#7: `n` bytes of value `n`, with `n` from 1 to 16,
so there is always at least one. Each block is combined with the enciphered block before it, the
first with the initialization vector.

Reading is strict: the filling must be exactly what writing produces.

## Main results

* `unpad?_pad`: the filling is taken off again.
* `unchain_chain`: the chaining is undone, provided the block cipher is.
-/

namespace Strongbox.Cipher.Cbc

open Aes (Block)

/-! ## Filling -/

/-- The message, filled up to whole blocks. -/
def pad (message : Bytes) : Bytes :=
  let n := 16 - message.length % 16
  message ++ List.replicate n (UInt8.ofNat n)

/-- The message of a filled-up one. -/
def unpad? (padded : Bytes) : Option Bytes :=
  let n := (padded.getLastD 0).toNat
  let kept := padded.length - n
  if 1 ≤ n ∧ n ≤ 16 ∧ padded.drop kept = List.replicate n (UInt8.ofNat n) then
    some (padded.take kept)
  else none

theorem unpad?_pad (message : Bytes) : unpad? (pad message) = some message := by
  have hn : 1 ≤ 16 - message.length % 16 ∧ 16 - message.length % 16 ≤ 16 := by omega
  generalize hk : 16 - message.length % 16 = n at hn
  have hlast : (pad message).getLastD 0 = UInt8.ofNat n := by
    obtain ⟨m, rfl⟩ : ∃ m, n = m + 1 := ⟨n - 1, by omega⟩
    simp [pad, hk, List.getLastD_eq_getLast?, List.getLast?_append, List.replicate_succ']
  have hnat : (UInt8.ofNat n).toNat = n := by
    simp only [UInt8.toNat_ofNat']
    omega
  have hlen : (pad message).length = message.length + n := by simp [pad, hk]
  simp only [unpad?, hlast, hnat, hlen, Nat.add_sub_cancel]
  have hdrop : (pad message).drop message.length = List.replicate n (UInt8.ofNat n) := by
    simp [pad, hk]
  have htake : (pad message).take message.length = message := by simp [pad]
  simp [hn, hdrop, htake]

/-! ## Chaining -/

/-- Enciphers blocks, each combined with the result before it. -/
def chain (keys : List Block) : Block → List Block → List Block
  | _, [] => []
  | previous, x :: rest =>
    let y := Aes.encipher keys (Aes.xorBlock x previous)
    y :: chain keys y rest

/-- Undoes `chain`. -/
def unchain (keys : List Block) : Block → List Block → List Block
  | _, [] => []
  | previous, y :: rest => Aes.xorBlock (Aes.decipher keys y) previous :: unchain keys y rest

theorem xorBlock_cancel (x y : Block) : Aes.xorBlock (Aes.xorBlock x y) y = x := by
  simp only [Aes.xorBlock, Aes.xorWord, UInt8.xor_assoc, UInt8.xor_self, UInt8.xor_zero]

theorem unchain_chain {keys : List Block}
    (h : ∀ x, Aes.decipher keys (Aes.encipher keys x) = x) (previous : Block) (xs : List Block) :
    unchain keys previous (chain keys previous xs) = xs := by
  induction xs generalizing previous with
  | nil => rfl
  | cons x rest ih => simp [chain, unchain, h, xorBlock_cancel, ih]

/-! ## Messages -/

/-- The blocks of a byte string, as far as it has whole ones. -/
def blocks (bytes : Bytes) : List Block := Aes.blocks (Aes.words bytes)

/-- The ciphertext of a message under a key and an initialization vector. -/
def encrypt (key iv message : Bytes) : Bytes :=
  (chain (Aes.roundKeys key) (Block.ofBytes iv) (blocks (pad message))).flatMap Block.bytes

/-- The message of a ciphertext of whole blocks, unless its filling is wrong. -/
def decrypt? (key iv ciphertext : Bytes) : Option Bytes :=
  unpad? ((unchain (Aes.roundKeys key) (Block.ofBytes iv) (blocks ciphertext)).flatMap
    Block.bytes)

end Strongbox.Cipher.Cbc
