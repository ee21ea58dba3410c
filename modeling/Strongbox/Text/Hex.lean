import Strongbox.Bytes
import Strongbox.Text.Quoted
/-!
# Hexadecimal text

Bytes are written as two lower-case digits each and read from digits of either case. Reading
works on the UTF-8 bytes of the text, so a refused character is reported by the position of its
first byte and as that single byte.

A unique identifier (`unique`) is 128 random bits in the layout of RFC 9562, version 4, written as
32 hexadecimal digits: six of the bits say the version and the variant.

## Main results

* `length_unique`: a unique identifier has 32 digits.
-/

namespace Strongbox.Text

namespace Hex

/-- The digit of a number below sixteen. -/
def digit (n : Nat) : Char :=
  if n < 10 then Char.ofNat (48 + n) else Char.ofNat (87 + n)

/-- The value of a digit of either case. -/
def value? (b : UInt8) : Option Nat :=
  let n := b.toNat
  if 48 ≤ n ∧ n ≤ 57 then some (n - 48)
  else if 97 ≤ n ∧ n ≤ 102 then some (n - 87)
  else if 65 ≤ n ∧ n ≤ 70 then some (n - 55)
  else none

/-- The two digits of each byte. -/
def digits (bytes : Bytes) : List Char :=
  bytes.flatMap fun b => [digit (b.toNat / 16), digit (b.toNat % 16)]

theorem length_digits (bytes : Bytes) : (digits bytes).length = 2 * bytes.length := by
  induction bytes with
  | nil => rfl
  | cons b bytes ih =>
    have h : digits (b :: bytes)
        = digit (b.toNat / 16) :: digit (b.toNat % 16) :: digits bytes := rfl
    rw [h, List.length_cons, List.length_cons, ih, List.length_cons]
    omega

/-- Bytes as lower-case hexadecimal text. -/
def encode (bytes : Bytes) : String := String.ofList (digits bytes)

/-- Why a text is not hexadecimal. -/
inductive Refusal where
  | oddLength
  | badDigit (byte : UInt8) (position : Nat)
  deriving DecidableEq, Repr

/-- The wording of a refusal. -/
def Refusal.message : Refusal → String
  | .oddLength => "Odd number of digits"
  | .badDigit byte position =>
    "Invalid character " ++ quotedChar (Char.ofNat byte.toNat) ++ " at position "
      ++ toString position

/-- Reads pairs of digits from `position` on. A single digit at the end is left out. -/
def decodePairs (position : Nat) : Bytes → Except Refusal Bytes
  | high :: low :: rest =>
    match value? high, value? low with
    | some h, some l => (decodePairs (position + 2) rest).map (UInt8.ofNat (16 * h + l) :: ·)
    | none, _ => .error (.badDigit high position)
    | some _, none => .error (.badDigit low (position + 1))
  | _ => .ok []

/-- The bytes that a hexadecimal text denotes. -/
def decode (text : String) : Except Refusal Bytes :=
  let bytes := Bytes.ofText text
  if bytes.length % 2 = 1 then .error .oddLength else decodePairs 0 bytes

/-- The bytes that a hexadecimal text denotes, if it is one. -/
def decode? (text : String) : Option Bytes := (decode text).toOption

end Hex

/-! ## Unique identifiers -/

/-- The byte at a place of a unique identifier, from a random byte. -/
def uniqueByte (place : Nat) (random : UInt8) : UInt8 :=
  if place = 6 then random &&& 0x0F ||| 0x40
  else if place = 8 then random &&& 0x3F ||| 0x80
  else random

/-- The unique identifier of sixteen random bytes. -/
def unique (random : Bytes.Sized 16) : String := Hex.encode (random.val.mapIdx uniqueByte)

theorem length_unique (random : Bytes.Sized 16) : (unique random).toList.length = 32 := by
  rw [unique, Hex.encode, String.toList_ofList, Hex.length_digits, List.length_mapIdx, random.2]

end Strongbox.Text
