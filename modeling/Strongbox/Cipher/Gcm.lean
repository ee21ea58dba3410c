import Strongbox.Cipher.Aead
import Strongbox.Cipher.Aes
/-!
# AES-GCM

Galois/Counter mode of NIST SP 800-38D with nonces of twelve bytes. The key stream is the
encipherment of a counter that starts at 2; the tag is a polynomial hash over the field of 2^128
elements, masked with the encipherment of the counter 1.

A field element is a number below 2^128 whose *highest* bit is the constant coefficient.
-/

namespace Strongbox.Cipher.Gcm

/-! ## The polynomial hash -/

/-- The element times the indeterminate. -/
def shift (v : Nat) : Nat :=
  if v % 2 = 0 then v / 2 else (v / 2) ^^^ 0xE1000000000000000000000000000000

/-- Adds to `sum` the multiples of `v` that the lowest `count` bits of `x` select, the highest of
them first. -/
def mulBits (x : Nat) : Nat → Nat → Nat → Nat
  | 0, _, sum => sum
  | count + 1, v, sum =>
    mulBits x count (shift v) (if x.testBit count then sum ^^^ v else sum)

/-- The product of two elements. -/
def mul (x y : Nat) : Nat := mulBits x 128 y 0

/-- The hash of blocks of sixteen bytes under the element `h`. -/
def hash (h : Nat) (blocks : List Bytes) : Nat :=
  blocks.foldl (fun sum block => mul (sum ^^^ Bytes.natOfBigEndian block) h) 0

/-! ## The mode -/

/-- The encipherment of a nonce and a counter. -/
def counterBlock (keys : List Aes.Block) (nonce : Bytes) (counter : Nat) : Bytes :=
  (Aes.encipher keys (Aes.Block.ofBytes (nonce ++ Bytes.bigEndian 4 counter))).bytes

/-- The key stream. -/
def keyStream (key nonce : Bytes) (n : Nat) : Bytes :=
  let keys := Aes.roundKeys key
  streamOfBlocks 16 (fun i => counterBlock keys nonce (i + 2)) n

/-- The tag. -/
def tag (key nonce aad body : Bytes) : Bytes :=
  let keys := Aes.roundKeys key
  let zero := Aes.Block.ofBytes []
  let text := padded16 aad ++ padded16 body
    ++ Bytes.bigEndian 8 (8 * aad.length) ++ Bytes.bigEndian 8 (8 * body.length)
  let h := Bytes.natOfBigEndian (Aes.encipher keys zero).bytes
  let mask := Bytes.natOfBigEndian (counterBlock keys nonce 1)
  Bytes.bigEndian 16 (hash h (Bytes.pieces 16 (text.length / 16) text) ^^^ mask)

/-- AES in Galois/Counter mode. -/
def cipher : Aead where
  keyStream := keyStream
  tag := tag
  length_keyStream _ _ n := length_streamOfBlocks (by decide) (fun _ => Aes.length_bytes _) n
  length_tag _ _ _ _ := Bytes.length_bigEndian _ _

end Strongbox.Cipher.Gcm
