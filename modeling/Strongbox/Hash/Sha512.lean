import Strongbox.Bytes
/-!
# SHA-512

The hash function SHA-512 of FIPS 180-4. The message is padded to whole blocks of 128 bytes, each
block is expanded to 80 words, and the rounds mix them into the eight words of the state.

`finishFrom` hashes a message whose beginning has been absorbed already; keyed constructions use
it to keep the state after the key block.

## Main results

* `length_digest`: a digest has 64 bytes.
-/

namespace Strongbox.Hash.Sha512

/-- The eight words that the rounds work on. -/
structure State where
  a : UInt64
  b : UInt64
  c : UInt64
  d : UInt64
  e : UInt64
  f : UInt64
  g : UInt64
  h : UInt64
  deriving DecidableEq, Repr

/-- The state before the first block. -/
def State.initial : State :=
  ⟨0x6a09e667f3bcc908, 0xbb67ae8584caa73b, 0x3c6ef372fe94f82b, 0xa54ff53a5f1d36f1,
   0x510e527fade682d1, 0x9b05688c2b3e6c1f, 0x1f83d9abfb41bd6b, 0x5be0cd19137e2179⟩

/-- The constant of each round. -/
def roundConstants : List UInt64 := [
  0x428a2f98d728ae22, 0x7137449123ef65cd, 0xb5c0fbcfec4d3b2f, 0xe9b5dba58189dbbc,
   0x3956c25bf348b538, 0x59f111f1b605d019, 0x923f82a4af194f9b, 0xab1c5ed5da6d8118,
   0xd807aa98a3030242, 0x12835b0145706fbe, 0x243185be4ee4b28c, 0x550c7dc3d5ffb4e2,
   0x72be5d74f27b896f, 0x80deb1fe3b1696b1, 0x9bdc06a725c71235, 0xc19bf174cf692694,
   0xe49b69c19ef14ad2, 0xefbe4786384f25e3, 0x0fc19dc68b8cd5b5, 0x240ca1cc77ac9c65,
   0x2de92c6f592b0275, 0x4a7484aa6ea6e483, 0x5cb0a9dcbd41fbd4, 0x76f988da831153b5,
   0x983e5152ee66dfab, 0xa831c66d2db43210, 0xb00327c898fb213f, 0xbf597fc7beef0ee4,
   0xc6e00bf33da88fc2, 0xd5a79147930aa725, 0x06ca6351e003826f, 0x142929670a0e6e70,
   0x27b70a8546d22ffc, 0x2e1b21385c26c926, 0x4d2c6dfc5ac42aed, 0x53380d139d95b3df,
   0x650a73548baf63de, 0x766a0abb3c77b2a8, 0x81c2c92e47edaee6, 0x92722c851482353b,
   0xa2bfe8a14cf10364, 0xa81a664bbc423001, 0xc24b8b70d0f89791, 0xc76c51a30654be30,
   0xd192e819d6ef5218, 0xd69906245565a910, 0xf40e35855771202a, 0x106aa07032bbd1b8,
   0x19a4c116b8d2d0c8, 0x1e376c085141ab53, 0x2748774cdf8eeb99, 0x34b0bcb5e19b48a8,
   0x391c0cb3c5c95a63, 0x4ed8aa4ae3418acb, 0x5b9cca4f7763e373, 0x682e6ff3d6b2b8a3,
   0x748f82ee5defb2fc, 0x78a5636f43172f60, 0x84c87814a1f0ab72, 0x8cc702081a6439ec,
   0x90befffa23631e28, 0xa4506cebde82bde9, 0xbef9a3f7b2c67915, 0xc67178f2e372532b,
   0xca273eceea26619c, 0xd186b8c721c0c207, 0xeada7dd6cde0eb1e, 0xf57d4f7fee6ed178,
   0x06f067aa72176fba, 0x0a637dc5a2c898a6, 0x113f9804bef90dae, 0x1b710b35131c471b,
   0x28db77f523047d84, 0x32caab7b40c72493, 0x3c9ebe0a15c9bebc, 0x431d67c49c100d4c,
   0x4cc5d4becb3e42b6, 0x597f299cfc657e2a, 0x5fcb6fab3ad6faec, 0x6c44198c4a475817]

/-- Rotation of a word to the right. -/
@[inline] def rotr (x : UInt64) (n : UInt64) : UInt64 := (x >>> n) ||| (x <<< (64 - n))

/-- The words of a block, most significant byte first. -/
def words : Bytes → List UInt64
  | b0 :: b1 :: b2 :: b3 :: b4 :: b5 :: b6 :: b7 :: rest =>
    (b0.toUInt64 <<< 56 ||| b1.toUInt64 <<< 48 ||| b2.toUInt64 <<< 40 ||| b3.toUInt64 <<< 32
        ||| b4.toUInt64 <<< 24 ||| b5.toUInt64 <<< 16 ||| b6.toUInt64 <<< 8 ||| b7.toUInt64)
      :: words rest
  | _ => []

/-- The bytes of a word, most significant first. -/
def wordBytes (x : UInt64) : Bytes :=
  [(x >>> 56).toUInt8, (x >>> 48).toUInt8, (x >>> 40).toUInt8, (x >>> 32).toUInt8,
    (x >>> 24).toUInt8, (x >>> 16).toUInt8, (x >>> 8).toUInt8, x.toUInt8]

/-- The word of the message schedule that follows earlier ones, latest first. -/
def nextWord (earlier : List UInt64) : UInt64 :=
  let small0 (x : UInt64) := rotr x 1 ^^^ rotr x 8 ^^^ (x >>> 7)
  let small1 (x : UInt64) := rotr x 19 ^^^ rotr x 61 ^^^ (x >>> 6)
  small1 (earlier.getD 1 0) + earlier.getD 6 0 + small0 (earlier.getD 14 0) + earlier.getD 15 0

/-- The message schedule: earlier words, latest first, and `count` more. -/
def schedule : Nat → List UInt64 → List UInt64
  | 0, earlier => earlier.reverse
  | count + 1, earlier => schedule count (nextWord earlier :: earlier)

/-- One round, with its constant and its word of the schedule. -/
def round (s : State) (k w : UInt64) : State :=
  let big0 (x : UInt64) := rotr x 28 ^^^ rotr x 34 ^^^ rotr x 39
  let big1 (x : UInt64) := rotr x 14 ^^^ rotr x 18 ^^^ rotr x 41
  let choice := (s.e &&& s.f) ^^^ (~~~s.e &&& s.g)
  let majority := (s.a &&& s.b) ^^^ (s.a &&& s.c) ^^^ (s.b &&& s.c)
  let t1 := s.h + big1 s.e + choice + k + w
  let t2 := big0 s.a + majority
  ⟨t1 + t2, s.a, s.b, s.c, s.d + t1, s.e, s.f, s.g⟩

/-- All rounds, one for each constant. -/
def rounds : State → List UInt64 → List UInt64 → State
  | s, k :: ks, w :: ws => rounds (round s k w) ks ws
  | s, _, _ => s

/-- The state after one more block of 128 bytes. -/
def compress (s : State) (block : Bytes) : State :=
  let r := rounds s roundConstants (schedule 64 (words block).reverse)
  ⟨s.a + r.a, s.b + r.b, s.c + r.c, s.d + r.d, s.e + r.e, s.f + r.f, s.g + r.g, s.h + r.h⟩

/-- What follows a message of `n` bytes up to the end of its last block: the byte 0x80, zeros, and
the length in bits. -/
def padding (n : Nat) : Bytes :=
  let zeros := (128 - (n + 1 + 16) % 128) % 128
  0x80 :: List.replicate zeros 0 ++ Bytes.bigEndian 16 (8 * n)

/-- The bytes of a state. -/
def State.bytes (s : State) : Bytes :=
  wordBytes s.a ++ wordBytes s.b ++ wordBytes s.c ++ wordBytes s.d
    ++ wordBytes s.e ++ wordBytes s.f ++ wordBytes s.g ++ wordBytes s.h

/-- The state after the whole blocks of `bytes`. -/
def absorb (s : State) (bytes : Bytes) : State :=
  (Bytes.pieces 128 (bytes.length / 128) bytes).foldl compress s

/-- The digest of a message whose first `absorbed` bytes, whole blocks, gave the state `s`. -/
def finishFrom (s : State) (absorbed : Nat) (rest : Bytes) : Bytes :=
  (absorb s (rest ++ padding (absorbed + rest.length))).bytes

/-- The digest of a message. -/
def digest (message : Bytes) : Bytes := finishFrom .initial 0 message

theorem length_bytes (s : State) : s.bytes.length = 64 := by
  simp [State.bytes, wordBytes]

theorem length_digest (message : Bytes) : (digest message).length = 64 := length_bytes _

end Strongbox.Hash.Sha512
