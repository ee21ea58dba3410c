import Strongbox.Bytes
import Strongbox.Grid
/-!
# BLAKE2b

The unkeyed hash function BLAKE2b of RFC 7693 with digests of one to 64 bytes. A message is
compressed in blocks of 128 bytes; the last block, filled up with zeros, is marked as such, and
every block is counted by the number of message bytes up to its end.

## Main results

* `length_digest`: a digest has the length that was asked for, up to 64 bytes.
-/

namespace Strongbox.Hash.Blake2b

/-- The initial words, those of SHA-512. -/
def initial : List UInt64 := [
  0x6a09e667f3bcc908, 0xbb67ae8584caa73b, 0x3c6ef372fe94f82b, 0xa54ff53a5f1d36f1,
  0x510e527fade682d1, 0x9b05688c2b3e6c1f, 0x1f83d9abfb41bd6b, 0x5be0cd19137e2179]

/-- The order in which each round takes the words of the block. -/
def orders : List (List Nat) := [
  [0, 1, 2, 3, 4, 5, 6, 7, 8, 9, 10, 11, 12, 13, 14, 15],
  [14, 10, 4, 8, 9, 15, 13, 6, 1, 12, 0, 2, 11, 7, 5, 3],
  [11, 8, 12, 0, 5, 2, 15, 13, 10, 14, 3, 6, 7, 1, 9, 4],
  [7, 9, 3, 1, 13, 12, 11, 14, 2, 6, 5, 10, 4, 0, 15, 8],
  [9, 0, 5, 7, 2, 4, 10, 15, 14, 1, 11, 12, 6, 8, 3, 13],
  [2, 12, 6, 10, 0, 11, 8, 3, 4, 13, 7, 5, 15, 14, 1, 9],
  [12, 5, 1, 15, 14, 13, 4, 10, 0, 7, 6, 3, 9, 2, 8, 11],
  [13, 11, 7, 14, 12, 1, 3, 9, 5, 0, 15, 4, 8, 6, 2, 10],
  [6, 15, 14, 9, 11, 3, 0, 8, 12, 2, 13, 7, 1, 4, 10, 5],
  [10, 2, 8, 4, 7, 6, 1, 5, 15, 11, 9, 14, 3, 12, 13, 0],
  [0, 1, 2, 3, 4, 5, 6, 7, 8, 9, 10, 11, 12, 13, 14, 15],
  [14, 10, 4, 8, 9, 15, 13, 6, 1, 12, 0, 2, 11, 7, 5, 3]]

/-- Rotation of a word to the right. -/
@[inline] def rotr (x : UInt64) (n : UInt64) : UInt64 := (x >>> n) ||| (x <<< (64 - n))

/-- The words of a block, least significant byte first. -/
def words : Bytes → List UInt64
  | b0 :: b1 :: b2 :: b3 :: b4 :: b5 :: b6 :: b7 :: rest =>
    (b0.toUInt64 ||| b1.toUInt64 <<< 8 ||| b2.toUInt64 <<< 16 ||| b3.toUInt64 <<< 24
      ||| b4.toUInt64 <<< 32 ||| b5.toUInt64 <<< 40 ||| b6.toUInt64 <<< 48
      ||| b7.toUInt64 <<< 56) :: words rest
  | _ => []

/-- The bytes of a word, least significant first. -/
def wordBytes (x : UInt64) : Bytes :=
  [x.toUInt8, (x >>> 8).toUInt8, (x >>> 16).toUInt8, (x >>> 24).toUInt8,
    (x >>> 32).toUInt8, (x >>> 40).toUInt8, (x >>> 48).toUInt8, (x >>> 56).toUInt8]

/-- Mixes a column with two words of the block. -/
def mix (x y : UInt64) (v : Column UInt64) : Column UInt64 :=
  let a := v.a + v.b + x
  let d := rotr (v.d ^^^ a) 32
  let c := v.c + d
  let b := rotr (v.b ^^^ c) 24
  let a := a + b + y
  let d := rotr (d ^^^ a) 16
  let c := c + d
  ⟨a, rotr (b ^^^ c) 63, c, d⟩

/-- One round over the words of the block in the given order. -/
def round (block : List UInt64) (g : Grid UInt64) (order : List Nat) : Grid UInt64 :=
  let taken := order.map fun i => block.getD i 0
  g.round fun i => mix (taken.getD (2 * i) 0) (taken.getD (2 * i + 1) 0)

/-- The eight state words after one more block, `count` bytes into the message. -/
def compress (h : List UInt64) (block : Bytes) (count : Nat) (last : Bool) : List UInt64 :=
  let marks : List UInt64 :=
    [0, 0, 0, 0, UInt64.ofNat count, UInt64.ofNat (count >>> 64), if last then ~~~0 else 0, 0]
  let v := h ++ List.zipWith (· ^^^ ·) initial marks
  let r := (orders.foldl (round (words block)) (Grid.ofFn fun i => v.getD i 0)).toList
  List.zipWith (· ^^^ ·) h (List.zipWith (· ^^^ ·) (r.take 8) (r.drop 8))

/-- Absorbs the blocks of a message; `count` bytes of it were absorbed before. -/
def absorb (h : List UInt64) (count : Nat) : List Bytes → List UInt64
  | [] => h
  | [block] =>
    compress h (block ++ List.replicate (128 - block.length) 0) (count + block.length) true
  | block :: rest => absorb (compress h block (count + 128) false) (count + 128) rest

/-- The digest of `size` bytes. The empty message counts as one empty block. -/
def digest (size : Nat) (message : Bytes) : Bytes :=
  let start := List.zipWith (· ^^^ ·) initial [UInt64.ofNat (0x01010000 + size)]
    ++ initial.drop 1
  let blocks := Bytes.pieces 128 (max 1 (Bytes.pieceCount 128 message.length)) message
  ((absorb start 0 blocks).flatMap wordBytes).take size

theorem length_compress (h : List UInt64) (block : Bytes) (count : Nat) (last : Bool)
    (hh : h.length = 8) : (compress h block count last).length = 8 := by
  simp [compress, Grid.toList, hh]

private theorem length_absorb (h : List UInt64) (count : Nat) (blocks : List Bytes)
    (hh : h.length = 8) : (absorb h count blocks).length = 8 := by
  fun_induction absorb h count blocks with
  | case1 => exact hh
  | case2 => exact length_compress _ _ _ _ hh
  | case3 h count block rest _ ih => exact ih (length_compress _ _ _ _ hh)

private theorem length_flatMap_wordBytes (ws : List UInt64) :
    (ws.flatMap wordBytes).length = 8 * ws.length := by
  induction ws with
  | nil => rfl
  | cons w ws ih =>
    rw [List.flatMap_cons, List.length_append, ih]
    simp [wordBytes]
    omega

theorem length_digest {size : Nat} (message : Bytes) (hsize : size ≤ 64) :
    (digest size message).length = size := by
  have hstart : (List.zipWith (· ^^^ ·) initial [UInt64.ofNat (0x01010000 + size)]
      ++ initial.drop 1).length = 8 := by simp [initial]
  rw [digest, List.length_take, length_flatMap_wordBytes, length_absorb _ _ _ hstart]
  omega

end Strongbox.Hash.Blake2b
