/-!
# Byte strings

Everything the library encrypts, hashes, signs or stores is a list of bytes. Lists keep the
statements about formats short: concatenation is `++`, and a field of fixed width is a `take`.

The module also fixes the three conversions that formats are built from:

* text to its UTF-8 bytes and back (`ofText`, `toText?`);
* numbers to fixed-width big-endian and little-endian fields (`bigEndian`, `littleEndian`) and back;
* the bytewise exclusive or of two strings (`xor`).

## Main results

* `toText?_ofText`: a text is read back from its bytes.
* `length_bigEndian`, `length_littleEndian`: a field has the width it was asked for.
-/

namespace Strongbox

/-- A byte string. -/
abbrev Bytes := List UInt8

namespace Bytes

/-- A byte string of a fixed length. -/
abbrev Sized (n : Nat) := { bytes : Bytes // bytes.length = n }

/-- How many bytes there can be in one piece: offsets into it are signed words of 64 bits. -/
def maxLength : Nat := 0x7FFFFFFFFFFFFFFF

/-! ## Text -/

/-- The UTF-8 bytes of a text. -/
def ofText (text : String) : Bytes := text.toByteArray.data.toList

/-- The text whose UTF-8 bytes these are, if there is one. -/
def toText? (bytes : Bytes) : Option String := String.fromUTF8? (ByteArray.mk bytes.toArray)

/-- Reading the bytes of a text gives the text. -/
theorem toText?_ofText (text : String) : toText? (ofText text) = some text := by
  have h : ByteArray.mk (ofText text).toArray = text.toByteArray := by simp [ofText]
  rw [toText?, h, String.fromUTF8?]
  simp [text.isValidUTF8, String.fromUTF8]

/-- Two texts with the same bytes are the same text. -/
theorem ofText_injective {s t : String} (h : ofText s = ofText t) : s = t := by
  have := congrArg toText? h
  simpa [toText?_ofText] using this

/-! ## Numbers -/

/-- The lowest `width` bytes of `n`, most significant first. -/
def bigEndian : Nat → Nat → Bytes
  | 0, _ => []
  | width + 1, n => UInt8.ofNat (n >>> (8 * width)) :: bigEndian width n

/-- The lowest `width` bytes of `n`, least significant first. -/
def littleEndian : Nat → Nat → Bytes
  | 0, _ => []
  | width + 1, n => UInt8.ofNat n :: littleEndian width (n / 256)

/-- The number that `bytes` denote, most significant first. -/
def natOfBigEndian (bytes : Bytes) : Nat :=
  bytes.foldl (fun n b => n * 256 + b.toNat) 0

/-- The number that `bytes` denote, least significant first. -/
def natOfLittleEndian : Bytes → Nat
  | [] => 0
  | b :: rest => b.toNat + 256 * natOfLittleEndian rest

/-- Eight big-endian bytes of a signed number, in two's complement. -/
def signed64 (z : Int) : Bytes := bigEndian 8 (z % 18446744073709551616).toNat

theorem length_bigEndian (width n : Nat) : (bigEndian width n).length = width := by
  induction width with
  | zero => rfl
  | succ width ih => simp [bigEndian, ih]

theorem length_littleEndian (width n : Nat) : (littleEndian width n).length = width := by
  induction width generalizing n with
  | zero => rfl
  | succ width ih => simp [littleEndian, ih]

/-! ## Combination -/

/-- Bytewise exclusive or, as long as the shorter of the two. -/
def xor (a b : Bytes) : Bytes := List.zipWith (· ^^^ ·) a b

/-- `count` consecutive pieces of `size` bytes each, cut from the front. -/
def pieces (size : Nat) : Nat → Bytes → List Bytes
  | 0, _ => []
  | count + 1, bytes => bytes.take size :: pieces size count (bytes.drop size)

/-- The number of pieces of `size` bytes that cover `n` bytes. -/
def pieceCount (size n : Nat) : Nat := (n + size - 1) / size

end Bytes

end Strongbox
