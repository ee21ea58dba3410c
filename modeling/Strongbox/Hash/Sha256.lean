import Strongbox.Bytes
/-!
# SHA-256

The hash function SHA-256 of FIPS 180-4. The message is padded to whole blocks of 64 bytes, each
block is expanded to 64 words, and the rounds mix them into the eight words of the state.

`finishFrom` hashes a message whose beginning has been absorbed already; keyed constructions use
it to keep the state after the key block.

## Main results

* `length_digest`: a digest has 32 bytes.
-/

namespace Strongbox.Hash.Sha256

/-- The eight words that the rounds work on. -/
structure State where
  a : UInt32
  b : UInt32
  c : UInt32
  d : UInt32
  e : UInt32
  f : UInt32
  g : UInt32
  h : UInt32
  deriving DecidableEq, Repr

/-- The state before the first block. -/
def State.initial : State :=
  ⟨0x6a09e667, 0xbb67ae85, 0x3c6ef372, 0xa54ff53a,
   0x510e527f, 0x9b05688c, 0x1f83d9ab, 0x5be0cd19⟩

/-- The constant of each round. -/
def roundConstants : List UInt32 := [
  0x428a2f98, 0x71374491, 0xb5c0fbcf, 0xe9b5dba5, 0x3956c25b, 0x59f111f1,
   0x923f82a4, 0xab1c5ed5, 0xd807aa98, 0x12835b01, 0x243185be, 0x550c7dc3,
   0x72be5d74, 0x80deb1fe, 0x9bdc06a7, 0xc19bf174, 0xe49b69c1, 0xefbe4786,
   0x0fc19dc6, 0x240ca1cc, 0x2de92c6f, 0x4a7484aa, 0x5cb0a9dc, 0x76f988da,
   0x983e5152, 0xa831c66d, 0xb00327c8, 0xbf597fc7, 0xc6e00bf3, 0xd5a79147,
   0x06ca6351, 0x14292967, 0x27b70a85, 0x2e1b2138, 0x4d2c6dfc, 0x53380d13,
   0x650a7354, 0x766a0abb, 0x81c2c92e, 0x92722c85, 0xa2bfe8a1, 0xa81a664b,
   0xc24b8b70, 0xc76c51a3, 0xd192e819, 0xd6990624, 0xf40e3585, 0x106aa070,
   0x19a4c116, 0x1e376c08, 0x2748774c, 0x34b0bcb5, 0x391c0cb3, 0x4ed8aa4a,
   0x5b9cca4f, 0x682e6ff3, 0x748f82ee, 0x78a5636f, 0x84c87814, 0x8cc70208,
   0x90befffa, 0xa4506ceb, 0xbef9a3f7, 0xc67178f2]

/-- Rotation of a word to the right. -/
@[inline] def rotr (x : UInt32) (n : UInt32) : UInt32 := (x >>> n) ||| (x <<< (32 - n))

/-- The words of a block, most significant byte first. -/
def words : Bytes → List UInt32
  | b0 :: b1 :: b2 :: b3 :: rest =>
    (b0.toUInt32 <<< 24 ||| b1.toUInt32 <<< 16 ||| b2.toUInt32 <<< 8 ||| b3.toUInt32)
      :: words rest
  | _ => []

/-- The bytes of a word, most significant first. -/
def wordBytes (x : UInt32) : Bytes :=
  [(x >>> 24).toUInt8, (x >>> 16).toUInt8, (x >>> 8).toUInt8, x.toUInt8]

/-- The word of the message schedule that follows earlier ones, latest first. -/
def nextWord (earlier : List UInt32) : UInt32 :=
  let small0 (x : UInt32) := rotr x 7 ^^^ rotr x 18 ^^^ (x >>> 3)
  let small1 (x : UInt32) := rotr x 17 ^^^ rotr x 19 ^^^ (x >>> 10)
  small1 (earlier.getD 1 0) + earlier.getD 6 0 + small0 (earlier.getD 14 0) + earlier.getD 15 0

/-- The message schedule: earlier words, latest first, and `count` more. -/
def schedule : Nat → List UInt32 → List UInt32
  | 0, earlier => earlier.reverse
  | count + 1, earlier => schedule count (nextWord earlier :: earlier)

/-- One round, with its constant and its word of the schedule. -/
def round (s : State) (k w : UInt32) : State :=
  let big0 (x : UInt32) := rotr x 2 ^^^ rotr x 13 ^^^ rotr x 22
  let big1 (x : UInt32) := rotr x 6 ^^^ rotr x 11 ^^^ rotr x 25
  let choice := (s.e &&& s.f) ^^^ (~~~s.e &&& s.g)
  let majority := (s.a &&& s.b) ^^^ (s.a &&& s.c) ^^^ (s.b &&& s.c)
  let t1 := s.h + big1 s.e + choice + k + w
  let t2 := big0 s.a + majority
  ⟨t1 + t2, s.a, s.b, s.c, s.d + t1, s.e, s.f, s.g⟩

/-- All rounds, one for each constant. -/
def rounds : State → List UInt32 → List UInt32 → State
  | s, k :: ks, w :: ws => rounds (round s k w) ks ws
  | s, _, _ => s

/-- The state after one more block of 64 bytes. -/
def compress (s : State) (block : Bytes) : State :=
  let r := rounds s roundConstants (schedule 48 (words block).reverse)
  ⟨s.a + r.a, s.b + r.b, s.c + r.c, s.d + r.d, s.e + r.e, s.f + r.f, s.g + r.g, s.h + r.h⟩

/-- What follows a message of `n` bytes up to the end of its last block: the byte 0x80, zeros, and
the length in bits. -/
def padding (n : Nat) : Bytes :=
  let zeros := (64 - (n + 1 + 8) % 64) % 64
  0x80 :: List.replicate zeros 0 ++ Bytes.bigEndian 8 (8 * n)

/-- The bytes of a state. -/
def State.bytes (s : State) : Bytes :=
  wordBytes s.a ++ wordBytes s.b ++ wordBytes s.c ++ wordBytes s.d
    ++ wordBytes s.e ++ wordBytes s.f ++ wordBytes s.g ++ wordBytes s.h

/-- The state after the whole blocks of `bytes`. -/
def absorb (s : State) (bytes : Bytes) : State :=
  (Bytes.pieces 64 (bytes.length / 64) bytes).foldl compress s

/-- The digest of a message whose first `absorbed` bytes, whole blocks, gave the state `s`. -/
def finishFrom (s : State) (absorbed : Nat) (rest : Bytes) : Bytes :=
  (absorb s (rest ++ padding (absorbed + rest.length))).bytes

/-- The digest of a message. -/
def digest (message : Bytes) : Bytes := finishFrom .initial 0 message

theorem length_bytes (s : State) : s.bytes.length = 32 := by
  simp [State.bytes, wordBytes]

theorem length_finishFrom (s : State) (absorbed : Nat) (rest : Bytes) :
    (finishFrom s absorbed rest).length = 32 := length_bytes _

theorem length_digest (message : Bytes) : (digest message).length = 32 := length_bytes _

end Strongbox.Hash.Sha256
