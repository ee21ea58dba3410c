import Mathlib.Algebra.Group.Nat.Defs
import Strongbox.Bytes
/-!
# Fields of fixed and of announced width

A format that puts fields one after another can be read back when each field either has a fixed
width or announces its width. Both rest on one fact: a number below `256 ^ width` is determined by
its `width` big-endian bytes.

## Main results

* `natOfBigEndian_bigEndian`: a big-endian field holds its number up to its width.
* `bigEndian_inj`, `signed64_inj`: numbers in range are determined by their fields.
* `length_ofText_le`: no character takes more than four bytes.
-/

namespace Strongbox.Bytes

/-- How many lengths a field of eight bytes can tell apart. -/
def lengthLimit : Nat := 18446744073709551616

private theorem foldl_bigEndian (width n start : Nat) :
    (bigEndian width n).foldl (fun n b => n * 256 + b.toNat) start
      = start * 256 ^ width + n % 256 ^ width := by
  induction width generalizing start with
  | zero => simp [bigEndian, Nat.mod_one]
  | succ width ih =>
    have hbyte : (UInt8.ofNat (n >>> (8 * width))).toNat = n / 256 ^ width % 256 := by
      rw [UInt8.toNat_ofNat', Nat.shiftRight_eq_div_pow, Nat.pow_mul]
    rw [bigEndian, List.foldl_cons, ih, hbyte, Nat.pow_succ, Nat.mod_mul]
    generalize 256 ^ width = scale
    grind

/-- A big-endian field of `width` bytes holds its number modulo `256 ^ width`. -/
theorem natOfBigEndian_bigEndian (width n : Nat) :
    natOfBigEndian (bigEndian width n) = n % 256 ^ width := by
  simpa [natOfBigEndian] using foldl_bigEndian width n 0

/-- Numbers that fit a field of `bigEndian` are determined by it. -/
theorem bigEndian_inj {width a b : Nat} (ha : a < 256 ^ width) (hb : b < 256 ^ width)
    (h : bigEndian width a = bigEndian width b) : a = b := by
  have hval := congrArg natOfBigEndian h
  rwa [natOfBigEndian_bigEndian, natOfBigEndian_bigEndian, Nat.mod_eq_of_lt ha,
    Nat.mod_eq_of_lt hb] at hval

@[simp] theorem length_signed64 (z : Int) : (signed64 z).length = 8 := length_bigEndian _ _

/-- Signed numbers of 64 bits are determined by their two's complement, `signed64`. -/
theorem signed64_inj {a b : Int} (ha : -9223372036854775808 ≤ a ∧ a < 9223372036854775808)
    (hb : -9223372036854775808 ≤ b ∧ b < 9223372036854775808)
    (h : signed64 a = signed64 b) : a = b := by
  have hmod := bigEndian_inj (by omega) (by omega) h
  omega

/-! ## Texts -/

/-- Bytes that `toText?` reads as a text are the bytes of that text. -/
theorem ofText_of_toText? {bytes : Bytes} {text : String} (h : toText? bytes = some text) :
    ofText text = bytes := by
  unfold toText? String.fromUTF8? at h
  split at h
  · obtain rfl := Option.some.inj h
    simp [ofText, String.fromUTF8]
  · cases h

theorem length_ofText (text : String) : (ofText text).length = text.utf8ByteSize := rfl

/-- A text has at most four bytes for each character. -/
theorem length_ofText_le (text : String) : (ofText text).length ≤ 4 * text.toList.length := by
  rw [length_ofText]
  induction text using String.push_induction with
  | empty => simp
  | push text c ih =>
    have hchar := c.utf8Size_le_four
    simp only [String.utf8ByteSize_push, String.toList_push, List.length_append,
      List.length_singleton]
    omega

/-- A character that is repeated takes at least one byte each time. -/
theorem le_length_ofText_replicate (n : Nat) (c : Char) :
    n ≤ (ofText (String.ofList (List.replicate n c))).length := by
  rw [length_ofText]
  induction n with
  | zero => exact Nat.zero_le _
  | succ n ih =>
    have hchar := c.utf8Size_pos
    rw [List.replicate_succ', String.ofList_append, String.utf8ByteSize_append]
    have hlast : (String.ofList [c]).utf8ByteSize = c.utf8Size := by simp
    omega

end Strongbox.Bytes
