import Strongbox.Bytes
import Strongbox.Grid
/-!
# AES

The block cipher of FIPS 197 with keys of 16 or 32 bytes. A block is a grid of bytes whose columns
are its four words. A round substitutes every byte, reads the diagonals as columns (the shifting
of rows), mixes each column and adds a round key; the last round leaves out the mixing.

Deciphering undoes the rounds one by one, from the last round key to the first, and within a round
each step in the opposite order.

## Main results

* `unsubstitute_substitute`, `substitute_unsubstitute`: the substitution is a permutation.
-/

namespace Strongbox.Cipher.Aes

/-- A block of sixteen bytes, column after column. -/
abbrev Block := Grid UInt8

/-- A word of four bytes. -/
abbrev Word := Column UInt8

/-! ## Words and blocks -/

/-- Bytewise exclusive or of words. -/
def xorWord (x y : Word) : Word := ⟨x.a ^^^ y.a, x.b ^^^ y.b, x.c ^^^ y.c, x.d ^^^ y.d⟩

/-- Bytewise exclusive or of blocks. -/
def xorBlock (x y : Block) : Block :=
  ⟨xorWord x.c0 y.c0, xorWord x.c1 y.c1, xorWord x.c2 y.c2, xorWord x.c3 y.c3⟩

/-- Applies a function to every byte of a word. -/
def mapWord (f : UInt8 → UInt8) (x : Word) : Word := ⟨f x.a, f x.b, f x.c, f x.d⟩

/-- Applies a function to every word of a block. -/
def mapWords (f : Word → Word) (x : Block) : Block := ⟨f x.c0, f x.c1, f x.c2, f x.c3⟩

/-- The words of a byte string, as far as it has whole ones. -/
def words : Bytes → List Word
  | a :: b :: c :: d :: rest => ⟨a, b, c, d⟩ :: words rest
  | _ => []

/-- The block of the first sixteen bytes; missing ones count as zero. -/
def Block.ofBytes (bytes : Bytes) : Block :=
  let word (i : Nat) : Word :=
    ⟨bytes.getD i 0, bytes.getD (i + 1) 0, bytes.getD (i + 2) 0, bytes.getD (i + 3) 0⟩
  ⟨word 0, word 4, word 8, word 12⟩

/-- The four bytes of a word. -/
def wordBytes (x : Word) : Bytes := [x.a, x.b, x.c, x.d]

/-- The sixteen bytes of a block. -/
def Block.bytes (x : Block) : Bytes :=
  wordBytes x.c0 ++ wordBytes x.c1 ++ wordBytes x.c2 ++ wordBytes x.c3

theorem length_bytes (x : Block) : (Block.bytes x).length = 16 := rfl

/-! ## Substitution -/

/-- The substituted byte for each byte, in rows of sixteen. -/
def substitutes : Array (Array UInt8) := #[
  #[0x63, 0x7c, 0x77, 0x7b, 0xf2, 0x6b, 0x6f, 0xc5, 0x30, 0x01, 0x67, 0x2b, 0xfe, 0xd7, 0xab, 0x76],
  #[0xca, 0x82, 0xc9, 0x7d, 0xfa, 0x59, 0x47, 0xf0, 0xad, 0xd4, 0xa2, 0xaf, 0x9c, 0xa4, 0x72, 0xc0],
  #[0xb7, 0xfd, 0x93, 0x26, 0x36, 0x3f, 0xf7, 0xcc, 0x34, 0xa5, 0xe5, 0xf1, 0x71, 0xd8, 0x31, 0x15],
  #[0x04, 0xc7, 0x23, 0xc3, 0x18, 0x96, 0x05, 0x9a, 0x07, 0x12, 0x80, 0xe2, 0xeb, 0x27, 0xb2, 0x75],
  #[0x09, 0x83, 0x2c, 0x1a, 0x1b, 0x6e, 0x5a, 0xa0, 0x52, 0x3b, 0xd6, 0xb3, 0x29, 0xe3, 0x2f, 0x84],
  #[0x53, 0xd1, 0x00, 0xed, 0x20, 0xfc, 0xb1, 0x5b, 0x6a, 0xcb, 0xbe, 0x39, 0x4a, 0x4c, 0x58, 0xcf],
  #[0xd0, 0xef, 0xaa, 0xfb, 0x43, 0x4d, 0x33, 0x85, 0x45, 0xf9, 0x02, 0x7f, 0x50, 0x3c, 0x9f, 0xa8],
  #[0x51, 0xa3, 0x40, 0x8f, 0x92, 0x9d, 0x38, 0xf5, 0xbc, 0xb6, 0xda, 0x21, 0x10, 0xff, 0xf3, 0xd2],
  #[0xcd, 0x0c, 0x13, 0xec, 0x5f, 0x97, 0x44, 0x17, 0xc4, 0xa7, 0x7e, 0x3d, 0x64, 0x5d, 0x19, 0x73],
  #[0x60, 0x81, 0x4f, 0xdc, 0x22, 0x2a, 0x90, 0x88, 0x46, 0xee, 0xb8, 0x14, 0xde, 0x5e, 0x0b, 0xdb],
  #[0xe0, 0x32, 0x3a, 0x0a, 0x49, 0x06, 0x24, 0x5c, 0xc2, 0xd3, 0xac, 0x62, 0x91, 0x95, 0xe4, 0x79],
  #[0xe7, 0xc8, 0x37, 0x6d, 0x8d, 0xd5, 0x4e, 0xa9, 0x6c, 0x56, 0xf4, 0xea, 0x65, 0x7a, 0xae, 0x08],
  #[0xba, 0x78, 0x25, 0x2e, 0x1c, 0xa6, 0xb4, 0xc6, 0xe8, 0xdd, 0x74, 0x1f, 0x4b, 0xbd, 0x8b, 0x8a],
  #[0x70, 0x3e, 0xb5, 0x66, 0x48, 0x03, 0xf6, 0x0e, 0x61, 0x35, 0x57, 0xb9, 0x86, 0xc1, 0x1d, 0x9e],
  #[0xe1, 0xf8, 0x98, 0x11, 0x69, 0xd9, 0x8e, 0x94, 0x9b, 0x1e, 0x87, 0xe9, 0xce, 0x55, 0x28, 0xdf],
  #[0x8c, 0xa1, 0x89, 0x0d, 0xbf, 0xe6, 0x42, 0x68, 0x41, 0x99, 0x2d, 0x0f, 0xb0, 0x54, 0xbb, 0x16]]

/-- The byte that each byte is the substitute of, in rows of sixteen. -/
def originals : Array (Array UInt8) := #[
  #[0x52, 0x09, 0x6a, 0xd5, 0x30, 0x36, 0xa5, 0x38, 0xbf, 0x40, 0xa3, 0x9e, 0x81, 0xf3, 0xd7, 0xfb],
  #[0x7c, 0xe3, 0x39, 0x82, 0x9b, 0x2f, 0xff, 0x87, 0x34, 0x8e, 0x43, 0x44, 0xc4, 0xde, 0xe9, 0xcb],
  #[0x54, 0x7b, 0x94, 0x32, 0xa6, 0xc2, 0x23, 0x3d, 0xee, 0x4c, 0x95, 0x0b, 0x42, 0xfa, 0xc3, 0x4e],
  #[0x08, 0x2e, 0xa1, 0x66, 0x28, 0xd9, 0x24, 0xb2, 0x76, 0x5b, 0xa2, 0x49, 0x6d, 0x8b, 0xd1, 0x25],
  #[0x72, 0xf8, 0xf6, 0x64, 0x86, 0x68, 0x98, 0x16, 0xd4, 0xa4, 0x5c, 0xcc, 0x5d, 0x65, 0xb6, 0x92],
  #[0x6c, 0x70, 0x48, 0x50, 0xfd, 0xed, 0xb9, 0xda, 0x5e, 0x15, 0x46, 0x57, 0xa7, 0x8d, 0x9d, 0x84],
  #[0x90, 0xd8, 0xab, 0x00, 0x8c, 0xbc, 0xd3, 0x0a, 0xf7, 0xe4, 0x58, 0x05, 0xb8, 0xb3, 0x45, 0x06],
  #[0xd0, 0x2c, 0x1e, 0x8f, 0xca, 0x3f, 0x0f, 0x02, 0xc1, 0xaf, 0xbd, 0x03, 0x01, 0x13, 0x8a, 0x6b],
  #[0x3a, 0x91, 0x11, 0x41, 0x4f, 0x67, 0xdc, 0xea, 0x97, 0xf2, 0xcf, 0xce, 0xf0, 0xb4, 0xe6, 0x73],
  #[0x96, 0xac, 0x74, 0x22, 0xe7, 0xad, 0x35, 0x85, 0xe2, 0xf9, 0x37, 0xe8, 0x1c, 0x75, 0xdf, 0x6e],
  #[0x47, 0xf1, 0x1a, 0x71, 0x1d, 0x29, 0xc5, 0x89, 0x6f, 0xb7, 0x62, 0x0e, 0xaa, 0x18, 0xbe, 0x1b],
  #[0xfc, 0x56, 0x3e, 0x4b, 0xc6, 0xd2, 0x79, 0x20, 0x9a, 0xdb, 0xc0, 0xfe, 0x78, 0xcd, 0x5a, 0xf4],
  #[0x1f, 0xdd, 0xa8, 0x33, 0x88, 0x07, 0xc7, 0x31, 0xb1, 0x12, 0x10, 0x59, 0x27, 0x80, 0xec, 0x5f],
  #[0x60, 0x51, 0x7f, 0xa9, 0x19, 0xb5, 0x4a, 0x0d, 0x2d, 0xe5, 0x7a, 0x9f, 0x93, 0xc9, 0x9c, 0xef],
  #[0xa0, 0xe0, 0x3b, 0x4d, 0xae, 0x2a, 0xf5, 0xb0, 0xc8, 0xeb, 0xbb, 0x3c, 0x83, 0x53, 0x99, 0x61],
  #[0x17, 0x2b, 0x04, 0x7e, 0xba, 0x77, 0xd6, 0x26, 0xe1, 0x69, 0x14, 0x63, 0x55, 0x21, 0x0c, 0x7d]]

/-- The entry of a byte in a table with rows of sixteen. -/
def entry (table : Array (Array UInt8)) (x : UInt8) : UInt8 :=
  (table.getD (x.toNat / 16) #[]).getD (x.toNat % 16) 0

/-- The substitute of a byte. -/
def substitute (x : UInt8) : UInt8 := entry substitutes x

/-- The byte with this substitute. -/
def unsubstitute (x : UInt8) : UInt8 := entry originals x

private theorem forall_byte {P : UInt8 → Prop} (h : ∀ n < 256, P (UInt8.ofNat n)) (x : UInt8) :
    P x := by
  simpa using h x.toNat x.toNat_lt

set_option maxRecDepth 4000 in
theorem unsubstitute_substitute (x : UInt8) : unsubstitute (substitute x) = x :=
  forall_byte (P := fun x => unsubstitute (substitute x) = x) (by decide +kernel) x

set_option maxRecDepth 4000 in
theorem substitute_unsubstitute (x : UInt8) : substitute (unsubstitute x) = x :=
  forall_byte (P := fun x => substitute (unsubstitute x) = x) (by decide +kernel) x

/-! ## Column mixing -/

/-- Doubling in the field of 256 elements. -/
def double (x : UInt8) : UInt8 := (x <<< 1) ^^^ (if x < 0x80 then 0 else 0x1b)

/-- A column, multiplied by the matrix with first row 2 3 1 1. -/
def mixWord (x : Word) : Word where
  a := double x.a ^^^ (double x.b ^^^ x.b) ^^^ x.c ^^^ x.d
  b := x.a ^^^ double x.b ^^^ (double x.c ^^^ x.c) ^^^ x.d
  c := x.a ^^^ x.b ^^^ double x.c ^^^ (double x.d ^^^ x.d)
  d := (double x.a ^^^ x.a) ^^^ x.b ^^^ x.c ^^^ double x.d

/-- The multiples of a byte by 9, 11, 13 and 14. -/
def multiples (x : UInt8) : Word :=
  let x2 := double x
  let x4 := double x2
  let x8 := double x4
  ⟨x8 ^^^ x, x8 ^^^ x2 ^^^ x, x8 ^^^ x4 ^^^ x, x8 ^^^ x4 ^^^ x2⟩

/-- A column, multiplied by the matrix with first row 14 11 13 9. -/
def unmixWord (x : Word) : Word :=
  let p := multiples x.a
  let q := multiples x.b
  let r := multiples x.c
  let s := multiples x.d
  ⟨p.d ^^^ q.b ^^^ r.c ^^^ s.a, p.a ^^^ q.d ^^^ r.b ^^^ s.c,
    p.c ^^^ q.a ^^^ r.d ^^^ s.b, p.b ^^^ q.c ^^^ r.a ^^^ s.d⟩

/-! ## Round keys -/

/-- The bytes that are added to every word number `0, n, 2 n, …` of the key schedule. -/
def roundMarks : List UInt8 := [0x01, 0x02, 0x04, 0x08, 0x10, 0x20, 0x40, 0x80, 0x1b, 0x36]

/-- What is added to word number `i - size` to give word number `i`. -/
def scheduleStep (size i : Nat) (last : Word) : Word :=
  if i % size = 0 then
    let turned : Word := ⟨last.b, last.c, last.d, last.a⟩
    xorWord (mapWord substitute turned) ⟨roundMarks.getD (i / size - 1) 0, 0, 0, 0⟩
  else if 6 < size ∧ i % size = 4 then mapWord substitute last
  else last

/-- The next `count` words of the schedule after a window of `size`, from word number `i` on. -/
def expand (size : Nat) : Nat → Nat → List Word → List Word
  | 0, _, _ => []
  | count + 1, i, window =>
    let zero : Word := ⟨0, 0, 0, 0⟩
    let next := xorWord (window.headD zero) (scheduleStep size i (window.getLastD zero))
    next :: expand size count (i + 1) (window.drop 1 ++ [next])

/-- The blocks of a list of words. -/
def blocks : List Word → List Block
  | w0 :: w1 :: w2 :: w3 :: rest => ⟨w0, w1, w2, w3⟩ :: blocks rest
  | _ => []

/-- The round keys of a key of 16 or 32 bytes: eleven or fifteen. -/
def roundKeys (key : Bytes) : List Block :=
  let window := words key
  let size := window.length
  blocks (window ++ expand size (4 * (size + 7) - size) size window)

/-! ## The cipher -/

/-- The rounds after the first round key was added. -/
def rounds : List Block → Block → Block
  | [], x => x
  | [k], x => xorBlock (mapWords (mapWord substitute) x).slant k
  | k :: ks, x =>
    rounds ks (xorBlock (mapWords mixWord (mapWords (mapWord substitute) x).slant) k)

/-- Undoes `rounds`. -/
def unrounds : List Block → Block → Block
  | [], x => x
  | [k], x => mapWords (mapWord unsubstitute) (xorBlock x k).unslant
  | k :: ks, x =>
    mapWords (mapWord unsubstitute) (mapWords unmixWord (xorBlock (unrounds ks x) k)).unslant

/-- Enciphers a block under the round keys. -/
def encipher : List Block → Block → Block
  | [], x => x
  | k :: ks, x => rounds ks (xorBlock x k)

/-- Deciphers a block under the round keys. -/
def decipher : List Block → Block → Block
  | [], x => x
  | k :: ks, x => xorBlock (unrounds ks x) k

end Strongbox.Cipher.Aes
