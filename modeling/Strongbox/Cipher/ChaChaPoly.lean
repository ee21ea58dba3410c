import Strongbox.Cipher.Aead
import Strongbox.Grid
/-!
# ChaCha20-Poly1305

The authenticated cipher of RFC 8439. ChaCha20 stirs a grid of constants, key, counter and nonce
in ten double rounds and adds the grid it started from. The block of counter 0 gives the one-time
key of the Poly1305 tag, the blocks from counter 1 on the key stream.
-/

namespace Strongbox.Cipher.ChaChaPoly

/-! ## ChaCha20 -/

/-- Rotation of a word to the left. -/
@[inline] def rotl (x : UInt32) (n : UInt32) : UInt32 := (x <<< n) ||| (x >>> (32 - n))

/-- The quarter round. -/
def mix (v : Column UInt32) : Column UInt32 :=
  let a := v.a + v.b
  let d := rotl (v.d ^^^ a) 16
  let c := v.c + d
  let b := rotl (v.b ^^^ c) 12
  let a := a + b
  let d := rotl (d ^^^ a) 8
  let c := c + d
  ⟨a, rotl (b ^^^ c) 7, c, d⟩

/-- The words of a byte string, least significant byte first. -/
def words : Bytes → List UInt32
  | b0 :: b1 :: b2 :: b3 :: rest =>
    (b0.toUInt32 ||| b1.toUInt32 <<< 8 ||| b2.toUInt32 <<< 16 ||| b3.toUInt32 <<< 24)
      :: words rest
  | _ => []

/-- The bytes of a word, least significant first. -/
def wordBytes (x : UInt32) : Bytes :=
  [x.toUInt8, (x >>> 8).toUInt8, (x >>> 16).toUInt8, (x >>> 24).toUInt8]

/-- Ten double rounds, by count. -/
def doubleRounds : Nat → Grid UInt32 → Grid UInt32
  | 0, g => g
  | n + 1, g => doubleRounds n (g.round fun _ => mix)

/-- The block of 64 bytes for a counter. -/
def block (key nonce : Bytes) (counter : Nat) : Bytes :=
  let start : List UInt32 :=
    [0x61707865, 0x3320646e, 0x79622d32, 0x6b206574] ++ words key
      ++ [UInt32.ofNat counter] ++ words nonce
  let grid := Grid.ofFn fun i => start.getD i 0
  (List.zipWith (· + ·) grid.toList (doubleRounds 10 grid).toList).flatMap wordBytes

theorem length_block (key nonce : Bytes) (counter : Nat) :
    (block key nonce counter).length = 64 := by
  simp [block, Grid.toList, wordBytes]

/-- The key stream, from counter 1 on. -/
def keyStream (key nonce : Bytes) (n : Nat) : Bytes :=
  streamOfBlocks 64 (fun i => block key nonce (i + 1)) n

/-! ## Poly1305 -/

/-- The prime 2^130 - 5. -/
def prime : Nat := 0x3fffffffffffffffffffffffffffffffb

/-- The bits that the first half of a one-time key may have. -/
def clamp : Nat := 0x0ffffffc0ffffffc0ffffffc0fffffff

/-- The tag of a message under a one-time key of 32 bytes. -/
def poly1305 (key message : Bytes) : Bytes :=
  let r := Bytes.natOfLittleEndian (key.take 16) &&& clamp
  let s := Bytes.natOfLittleEndian (key.drop 16)
  let blocks := Bytes.pieces 16 (Bytes.pieceCount 16 message.length) message
  let sum := blocks.foldl
    (fun sum block => (sum + Bytes.natOfLittleEndian (block ++ [1])) * r % prime) 0
  Bytes.littleEndian 16 (sum + s)

/-! ## The cipher -/

/-- The tag over associated data and ciphertext. -/
def tag (key nonce aad body : Bytes) : Bytes :=
  poly1305 ((block key nonce 0).take 32)
    (padded16 aad ++ padded16 body ++ Bytes.littleEndian 8 aad.length
      ++ Bytes.littleEndian 8 body.length)

/-- ChaCha20-Poly1305. -/
def cipher : Aead where
  keyStream := keyStream
  tag := tag
  length_keyStream _ _ n := length_streamOfBlocks (by decide) (fun _ => length_block _ _ _) n
  length_tag _ _ _ _ := Bytes.length_littleEndian _ _

end Strongbox.Cipher.ChaChaPoly
