import Strongbox.Bytes
import Strongbox.Text.Hex
/-!
# Escapes in JSON strings

Between the quotes of a JSON string stand the UTF-8 bytes of its text, some of them escaped. What
is written escapes no more than it must: quote and backslash, the five controls with a letter of
their own, and the other bytes below 0x20 as `\u00xx`. What is read may escape any character.

## Main results

* `text?_escape`: a text is read back from its escaped form.
-/

namespace Strongbox.Json

/-- The byte of an ASCII character. -/
abbrev ascii (c : Char) : UInt8 := c.toUInt8

/-! ## Writing -/

/-- The two hexadecimal digits of a byte. -/
def hexPair (b : UInt8) : Bytes :=
  [ascii (Text.Hex.digit (b.toNat / 16)), ascii (Text.Hex.digit (b.toNat % 16))]

/-- The escaped form of one byte. -/
def escapeByte (b : UInt8) : Bytes :=
  if b = ascii '"' then [ascii '\\', ascii '"']
  else if b = ascii '\\' then [ascii '\\', ascii '\\']
  else if b = 8 then [ascii '\\', ascii 'b']
  else if b = 9 then [ascii '\\', ascii 't']
  else if b = 10 then [ascii '\\', ascii 'n']
  else if b = 12 then [ascii '\\', ascii 'f']
  else if b = 13 then [ascii '\\', ascii 'r']
  else if b < 0x20 then [ascii '\\', ascii 'u', ascii '0', ascii '0'] ++ hexPair b
  else [b]

/-- The escaped form of a text, by `escapeByte`. -/
def escape (text : String) : Bytes := (Bytes.ofText text).flatMap escapeByte

/-! ## Reading -/

/-- The byte that a single letter after a backslash stands for. -/
def letterEscape? (b : UInt8) : Option UInt8 :=
  if b = ascii '"' ∨ b = ascii '\\' ∨ b = ascii '/' then some b
  else if b = ascii 'b' then some 8
  else if b = ascii 'f' then some 12
  else if b = ascii 'n' then some 10
  else if b = ascii 'r' then some 13
  else if b = ascii 't' then some 9
  else none

/-- The first half of a pair of UTF-16 code units. -/
def isLeading (unit : Nat) : Bool := 0xD800 ≤ unit && unit ≤ 0xDBFF

/-- The second half of a pair of UTF-16 code units. -/
def isTrailing (unit : Nat) : Bool := 0xDC00 ≤ unit && unit ≤ 0xDFFF

/-- The code point of a pair of UTF-16 code units. -/
def joined (high low : Nat) : Nat := 0x10000 + (high - 0xD800) * 0x400 + (low - 0xDC00)

/-- The UTF-8 bytes of a code point. -/
def codePoint (n : Nat) : Bytes := Bytes.ofText (String.singleton (Char.ofNat n))

/-- Where the reading of an escaped form stands. -/
inductive Unescape.Place where
  | plain
  | letter
  /-- Before the last `missing` digits of a code unit whose first digits denote `value`. -/
  | digits (missing value : Nat)
  deriving DecidableEq, Repr

/-- A reading of an escaped form. -/
structure Unescape where
  /-- The bytes read so far, last first. -/
  done : Bytes
  /-- The first half of a pair whose second half must follow. -/
  high : Option Nat
  place : Unescape.Place
  deriving DecidableEq, Repr

namespace Unescape

/-- The start of a reading. -/
def start : Unescape := ⟨[], none, .plain⟩

/-- The reading after one more code unit. Half of a pair (`isLeading`, `isTrailing`) stands for
nothing. -/
def codeUnit? (s : Unescape) (unit : Nat) : Option Unescape :=
  match s.high with
  | some high =>
    if isTrailing unit then
      some ⟨(codePoint (joined high unit)).reverse ++ s.done, none, .plain⟩
    else none
  | none =>
    if isTrailing unit then none
    else if isLeading unit then some ⟨s.done, some unit, .plain⟩
    else some ⟨(codePoint unit).reverse ++ s.done, none, .plain⟩

/-- The reading after one more byte. -/
def next? (s : Unescape) (b : UInt8) : Option Unescape :=
  match s.place with
  | .plain =>
    if b = ascii '\\' then some ⟨s.done, s.high, .letter⟩
    else if s.high.isSome then none
    else some ⟨b :: s.done, none, .plain⟩
  | .letter =>
    if b = ascii 'u' then some ⟨s.done, s.high, .digits 4 0⟩
    else if s.high.isSome then none
    else (letterEscape? b).map fun c => ⟨c :: s.done, none, .plain⟩
  | .digits missing value =>
    (Text.Hex.value? b).bind fun d =>
      if 1 < missing then some ⟨s.done, s.high, .digits (missing - 1) (16 * value + d)⟩
      else s.codeUnit? (16 * value + d)

/-- The bytes of a reading that has come to its end. -/
def finish? (s : Unescape) : Option Bytes :=
  if s.high = none ∧ s.place = .plain then some s.done.reverse else none

end Unescape

/-- The bytes that the escaped form `raw` stands for. -/
def unescape (raw : Bytes) : Option Bytes :=
  (raw.foldlM Unescape.next? .start).bind Unescape.finish?

/-- The text of an escaped form, if it stands for one. -/
def text? (raw : Bytes) : Option String := (unescape raw).bind Bytes.toText?

/-! ## Round trip -/

private theorem value?_digit {n : Nat} (h : n < 16) :
    Text.Hex.value? (ascii (Text.Hex.digit n)) = some n := by
  have key : ∀ i : Fin 16, Text.Hex.value? (ascii (Text.Hex.digit i)) = some i.val := by decide
  exact key ⟨n, h⟩

private theorem codePoint_control {n : Nat} (h : n < 32) : codePoint n = [UInt8.ofNat n] := by
  have key : ∀ i : Fin 32, codePoint i = [UInt8.ofNat i] := by decide +kernel
  exact key ⟨n, h⟩

private theorem foldlM_hexPair {b : UInt8} (h : b.toNat < 32) (done : Bytes) :
    ([ascii '\\', ascii 'u', ascii '0', ascii '0'] ++ hexPair b).foldlM Unescape.next?
      ⟨done, none, .plain⟩ = some ⟨b :: done, none, .plain⟩ := by
  have hzero : Text.Hex.value? (ascii '0') = some 0 := by decide
  have hunit : 16 * (b.toNat / 16) + b.toNat % 16 = b.toNat := Nat.div_add_mod _ _
  have hte : isTrailing b.toNat = false := by simp [isTrailing]; omega
  have hle : isLeading b.toNat = false := by simp [isLeading]; omega
  have h1 := value?_digit (n := b.toNat / 16) (by omega)
  have h2 := value?_digit (n := b.toNat % 16) (by omega)
  simp [hexPair, Unescape.next?, hzero, h1, h2, Unescape.codeUnit?, hunit, hte, hle,
    codePoint_control h, show ¬ ascii 'u' = ascii '\\' by decide]

/-- The escaped form of a byte is read as that byte. -/
private theorem foldlM_escapeByte (b : UInt8) (done : Bytes) :
    (escapeByte b).foldlM Unescape.next? ⟨done, none, .plain⟩
      = some ⟨b :: done, none, .plain⟩ := by
  unfold escapeByte
  iterate 7
    split
    · rename_i h; subst h; rfl
  split
  · rename_i h
    exact foldlM_hexPair (by simpa [UInt8.lt_iff_toNat_lt] using h) done
  · rename_i hb _ _ _ _ _ _
    simp [Unescape.next?, hb]

/-- Escaped bytes are read back by `unescape`. -/
private theorem unescape_flatMap_escapeByte (bytes : Bytes) :
    unescape (bytes.flatMap escapeByte) = some bytes := by
  have key : ∀ done : Bytes, (bytes.flatMap escapeByte).foldlM Unescape.next?
      ⟨done, none, .plain⟩ = some ⟨bytes.reverse ++ done, none, .plain⟩ := by
    induction bytes with
    | nil => intro done; rfl
    | cons b bytes ih =>
      intro done
      rw [List.flatMap_cons, List.foldlM_append, foldlM_escapeByte]
      simpa using ih (b :: done)
  simp [unescape, Unescape.start, key, Unescape.finish?]

/-- A text is read back by `text?` from its escaped form. -/
theorem text?_escape (text : String) : text? (escape text) = some text := by
  rw [text?, escape, unescape_flatMap_escapeByte]
  exact Bytes.toText?_ofText text

end Strongbox.Json
