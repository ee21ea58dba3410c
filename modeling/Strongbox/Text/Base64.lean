import Strongbox.Bytes
/-!
# Base64

Two alphabets of 64 letters are in use: the standard one for stored password hashes and the
URL-safe one for tokens. Both are written without padding.

Reading is strict about letters and about the bits that the last letter leaves over, which must be
zero. It is lenient in one point: the last group of four may still carry its `=` padding. A text
and its padded form therefore denote the same bytes; whoever needs a one-to-one spelling compares
with what `encode` writes.

## Main results

* `decodeChars_encodeChars`: what is written is read back.
-/

namespace Strongbox.Text.Base64

/-- An alphabet, as its letters in order of value. -/
structure Alphabet where
  letters : List Char

/-- Letters, digits, `+` and `/`. -/
def standard : Alphabet :=
  ⟨"ABCDEFGHIJKLMNOPQRSTUVWXYZabcdefghijklmnopqrstuvwxyz0123456789+/".toList⟩

/-- Letters, digits, `-` and `_`. -/
def urlSafe : Alphabet :=
  ⟨"ABCDEFGHIJKLMNOPQRSTUVWXYZabcdefghijklmnopqrstuvwxyz0123456789-_".toList⟩

namespace Alphabet

/-- The letter of a value below 64. -/
def letter (α : Alphabet) (n : Nat) : Char := α.letters.getD n '?'

/-- The value of a letter. -/
def value? (α : Alphabet) (c : Char) : Option Nat := α.letters.idxOf? c

end Alphabet

/-! ## Writing -/

/-- The letters of `bytes`: four for every three bytes, two or three for a rest of one or two. -/
def encodeChars (α : Alphabet) : Bytes → List Char
  | a :: b :: c :: rest =>
    α.letter (a.toNat / 4) :: α.letter (a.toNat % 4 * 16 + b.toNat / 16)
      :: α.letter (b.toNat % 16 * 4 + c.toNat / 64) :: α.letter (c.toNat % 64)
      :: encodeChars α rest
  | [a, b] =>
    [α.letter (a.toNat / 4), α.letter (a.toNat % 4 * 16 + b.toNat / 16),
      α.letter (b.toNat % 16 * 4)]
  | [a] => [α.letter (a.toNat / 4), α.letter (a.toNat % 4 * 16)]
  | [] => []

/-- The written form of `bytes`, without padding. -/
def encode (α : Alphabet) (bytes : Bytes) : String := String.ofList (encodeChars α bytes)

/-! ## Reading -/

/-- One byte from two letters; the four bits left over must be zero. -/
def decodeTwo (α : Alphabet) (a b : Char) : Option Bytes := do
  let x ← α.value? a
  let y ← α.value? b
  if y % 16 = 0 then some [UInt8.ofNat (x * 4 + y / 16)] else none

/-- Two bytes from three letters; the two bits left over must be zero. -/
def decodeThree (α : Alphabet) (a b c : Char) : Option Bytes := do
  let x ← α.value? a
  let y ← α.value? b
  let z ← α.value? c
  if z % 4 = 0 then
    some [UInt8.ofNat (x * 4 + y / 16), UInt8.ofNat (y % 16 * 16 + z / 4)]
  else none

/-- Three bytes from four letters. -/
def decodeFour (α : Alphabet) (a b c d : Char) : Option Bytes := do
  let x ← α.value? a
  let y ← α.value? b
  let z ← α.value? c
  let w ← α.value? d
  some [UInt8.ofNat (x * 4 + y / 16), UInt8.ofNat (y % 16 * 16 + z / 4),
    UInt8.ofNat (z % 4 * 64 + w)]

/-- The last group, which may end in `=` from its third place on. -/
def decodeLast (α : Alphabet) : List Char → Option Bytes
  | [] => some []
  | [a, b] => decodeTwo α a b
  | [a, b, c] => if c = '=' then decodeTwo α a b else decodeThree α a b c
  | [a, b, c, d] =>
    if d = '=' then
      if c = '=' then decodeTwo α a b else decodeThree α a b c
    else decodeFour α a b c d
  | _ => none

/-- The bytes that the letters denote. Every group but the last has four letters. -/
def decodeChars (α : Alphabet) : List Char → Option Bytes
  | a :: b :: c :: d :: e :: rest => do
    let front ← decodeFour α a b c d
    let back ← decodeChars α (e :: rest)
    some (front ++ back)
  | chars => decodeLast α chars

/-- The bytes that a text denotes. -/
def decode (α : Alphabet) (text : String) : Option Bytes := decodeChars α text.toList

/-! ## Round trip -/

/-- An alphabet whose 64 letters are distinct and do not include the padding. -/
def Alphabet.Proper (α : Alphabet) : Prop :=
  ∀ n < 64, α.value? (α.letter n) = some n ∧ α.letter n ≠ '='

theorem standard_proper : standard.Proper := by unfold Alphabet.Proper; decide

theorem urlSafe_proper : urlSafe.Proper := by unfold Alphabet.Proper; decide

private theorem byte_lt (b : UInt8) : b.toNat < 256 := b.toNat_lt

private theorem ofNat_eq {b : UInt8} {n : Nat} (h : n = b.toNat) : UInt8.ofNat n = b := by
  rw [h, UInt8.ofNat_toNat]

variable {α : Alphabet}

private theorem decodeTwo_letters (h : α.Proper) (a : UInt8) :
    decodeTwo α (α.letter (a.toNat / 4)) (α.letter (a.toNat % 4 * 16)) = some [a] := by
  have ha := byte_lt a
  have hz : a.toNat % 4 * 16 % 16 = 0 := by omega
  simp only [decodeTwo, (h (a.toNat / 4) (by omega)).1, (h (a.toNat % 4 * 16) (by omega)).1,
    Option.bind_eq_bind, Option.bind_some, hz, if_true]
  rw [ofNat_eq (b := a) (by omega)]

private theorem decodeThree_letters (h : α.Proper) (a b : UInt8) :
    decodeThree α (α.letter (a.toNat / 4)) (α.letter (a.toNat % 4 * 16 + b.toNat / 16))
      (α.letter (b.toNat % 16 * 4)) = some [a, b] := by
  have ha := byte_lt a
  have hb := byte_lt b
  have hz : b.toNat % 16 * 4 % 4 = 0 := by omega
  simp only [decodeThree, (h (a.toNat / 4) (by omega)).1,
    (h (a.toNat % 4 * 16 + b.toNat / 16) (by omega)).1, (h (b.toNat % 16 * 4) (by omega)).1,
    Option.bind_eq_bind, Option.bind_some, hz, if_true]
  rw [ofNat_eq (b := a) (by omega), ofNat_eq (b := b) (by omega)]

private theorem decodeFour_letters (h : α.Proper) (a b c : UInt8) :
    decodeFour α (α.letter (a.toNat / 4)) (α.letter (a.toNat % 4 * 16 + b.toNat / 16))
      (α.letter (b.toNat % 16 * 4 + c.toNat / 64)) (α.letter (c.toNat % 64))
      = some [a, b, c] := by
  have ha := byte_lt a
  have hb := byte_lt b
  have hc := byte_lt c
  simp only [decodeFour, (h (a.toNat / 4) (by omega)).1,
    (h (a.toNat % 4 * 16 + b.toNat / 16) (by omega)).1,
    (h (b.toNat % 16 * 4 + c.toNat / 64) (by omega)).1, (h (c.toNat % 64) (by omega)).1,
    Option.bind_eq_bind, Option.bind_some]
  rw [ofNat_eq (b := a) (by omega), ofNat_eq (b := b) (by omega), ofNat_eq (b := c) (by omega)]

theorem encodeChars_eq_nil {bytes : Bytes} (h : encodeChars α bytes = []) : bytes = [] := by
  match bytes with
  | [] => rfl
  | [_] => simp [encodeChars] at h
  | [_, _] => simp [encodeChars] at h
  | _ :: _ :: _ :: _ => simp [encodeChars] at h

theorem decodeChars_encodeChars (h : α.Proper) (bytes : Bytes) :
    decodeChars α (encodeChars α bytes) = some bytes := by
  match bytes with
  | [] => rfl
  | [a] =>
    simp only [encodeChars, decodeChars, decodeLast]
    exact decodeTwo_letters h a
  | [a, b] =>
    have hne := (h (b.toNat % 16 * 4) (by have := byte_lt b; omega)).2
    simp only [encodeChars, decodeChars, decodeLast, hne, if_false]
    exact decodeThree_letters h a b
  | a :: b :: c :: rest =>
    have ih := decodeChars_encodeChars h rest
    simp only [encodeChars]
    cases hrest : encodeChars α rest with
    | nil =>
      have hne := (h (c.toNat % 64) (by omega)).2
      simp only [decodeChars, decodeLast, hne, if_false]
      rw [encodeChars_eq_nil hrest]
      exact decodeFour_letters h a b c
    | cons e tail =>
      simp only [decodeChars]
      rw [← hrest, ih, decodeFour_letters h]
      rfl

end Strongbox.Text.Base64
