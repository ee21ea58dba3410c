import Strongbox.Json.Escape
/-!
# Lexemes of JSON

A JSON text is a sequence of lexemes with blanks between them: brackets, comma, colon, the three
words, numbers and strings. A number and a string are kept as they are written; what they denote
matters only to those who read them, and no one may ask.

The scanner takes one byte at a time and remembers what it is in the middle of. It accepts exactly
the lexemes of RFC 8259, in particular no leading zeros, no bare control bytes in strings and only
the four blanks space, tab, line feed and carriage return.
-/

namespace Strongbox.Json

/-- A lexeme. -/
inductive Token where
  | openArray
  | closeArray
  | openObject
  | closeObject
  | comma
  | colon
  | null
  | bool (value : Bool)
  /-- A number, as written. -/
  | number (lexeme : Bytes)
  /-- A string, as written between its quotes. -/
  | string (raw : Bytes)
  deriving DecidableEq, Repr

/-! ## Numbers -/

/-- How far the reading of a number has come. -/
inductive NumberPart where
  | sign
  | zero
  | whole
  | point
  | fraction
  | exponentMark
  | exponentSign
  | exponent
  deriving DecidableEq, Repr

/-- A decimal digit. -/
def isDigit (b : UInt8) : Bool := ascii '0' ≤ b && b ≤ ascii '9'

namespace NumberPart

/-- Whether a number may end at this `NumberPart`. -/
def isComplete : NumberPart → Bool
  | zero | whole | fraction | exponent => true
  | sign | point | exponentMark | exponentSign => false

/-- How a number begins. -/
def first? (b : UInt8) : Option NumberPart :=
  if b = ascii '-' then some sign
  else if b = ascii '0' then some zero
  else if isDigit b then some whole
  else none

/-- What may follow the whole part or the fraction: a mark of an exponent. -/
def mark? (b : UInt8) : Option NumberPart :=
  if b = ascii 'e' ∨ b = ascii 'E' then some exponentMark else none

/-- Where the byte `b` takes the number, if it belongs to it. -/
def next? (part : NumberPart) (b : UInt8) : Option NumberPart :=
  match part with
  | sign => if b = ascii '0' then some zero else if isDigit b then some whole else none
  | zero => if b = ascii '.' then some point else mark? b
  | whole => if isDigit b then some whole else if b = ascii '.' then some point else mark? b
  | point => if isDigit b then some fraction else none
  | fraction => if isDigit b then some fraction else mark? b
  | exponentMark =>
    if b = ascii '+' ∨ b = ascii '-' then some exponentSign
    else if isDigit b then some exponent else none
  | exponentSign | exponent => if isDigit b then some exponent else none

end NumberPart

/-! ## The scanner -/

/-- What the scanner is in the middle of. Bytes of the lexeme so far are kept last first. -/
inductive Scan where
  | gap
  /-- In a word, of which `rest` is still to come. -/
  | word (rest : Bytes) (token : Token)
  | number (part : NumberPart) (soFar : Bytes)
  | text (soFar : Bytes)
  | escaped (soFar : Bytes)
  /-- Before the last `missing` hexadecimal digits of an escape. -/
  | digits (missing : Nat) (soFar : Bytes)
  deriving DecidableEq, Repr

/-- A blank. -/
def isGap (b : UInt8) : Bool := b == 0x20 || b == 0x09 || b == 0x0A || b == 0x0D

/-- The lexeme of a single byte. -/
def mark? (b : UInt8) : Option Token :=
  if b = ascii '[' then some .openArray
  else if b = ascii ']' then some .closeArray
  else if b = ascii '\x7b' then some .openObject
  else if b = ascii '\x7d' then some .closeObject
  else if b = ascii ',' then some .comma
  else if b = ascii ':' then some .colon
  else none

/-- The rest of the word that begins with `b`, and the word's lexeme. -/
def word? (b : UInt8) : Option (Bytes × Token) :=
  if b = ascii 'n' then some ([ascii 'u', ascii 'l', ascii 'l'], .null)
  else if b = ascii 't' then some ([ascii 'r', ascii 'u', ascii 'e'], .bool true)
  else if b = ascii 'f' then some ([ascii 'a', ascii 'l', ascii 's', ascii 'e'], .bool false)
  else none

namespace Scan

/-- What a byte between lexemes does: it is a blank, is a lexeme or begins one. The lexeme that it
completes is given beside the new state. -/
def begin? (b : UInt8) : Option (Scan × List Token) :=
  if isGap b then some (gap, [])
  else if b = ascii '"' then some (text [], [])
  else
    match mark? b with
    | some token => some (gap, [token])
    | none =>
      match word? b with
      | some (rest, token) => some (word rest token, [])
      | none => (NumberPart.first? b).map fun part => (number part [b], [])

/-- What the next byte does, see `begin?`. The lexemes that it completes are given beside the new
state; a byte after a number can complete two. -/
def next? (s : Scan) (b : UInt8) : Option (Scan × List Token) :=
  match s with
  | gap => begin? b
  | word [] _ => none
  | word (c :: rest) token =>
    if b = c then some (if rest = [] then (gap, [token]) else (word rest token, [])) else none
  | number part soFar =>
    match part.next? b with
    | some part => some (number part (b :: soFar), [])
    | none =>
      if part.isComplete then
        (begin? b).map fun (s, tokens) => (s, .number soFar.reverse :: tokens)
      else none
  | text soFar =>
    if b = ascii '"' then some (gap, [.string soFar.reverse])
    else if b = ascii '\\' then some (escaped (b :: soFar), [])
    else if b < 0x20 then none
    else some (text (b :: soFar), [])
  | escaped soFar =>
    if b = ascii 'u' then some (digits 4 (b :: soFar), [])
    else if (letterEscape? b).isSome then some (text (b :: soFar), [])
    else none
  | digits missing soFar =>
    if (Text.Hex.value? b).isSome then
      some (if missing ≤ 1 then text (b :: soFar) else digits (missing - 1) (b :: soFar), [])
    else none

/-- The lexeme that the end of the text completes. -/
def finish? : Scan → Option (List Token)
  | gap => some []
  | number part soFar => if part.isComplete then some [.number soFar.reverse] else none
  | word _ _ | text _ | escaped _ | digits _ _ => none

end Scan

/-- A run of the scanner over `bytes`, with the lexemes found last first. -/
def scan : Scan → List Token → Bytes → Option (Scan × List Token)
  | s, found, [] => some (s, found)
  | s, found, b :: rest =>
    match s.next? b with
    | none => none
    | some (s, tokens) => scan s (tokens.reverse ++ found) rest

/-- The lexemes of a text that the scanner finds, from `Scan.gap` on. -/
def tokens? (bytes : Bytes) : Option (List Token) := do
  let (s, found) ← scan .gap [] bytes
  let last ← s.finish?
  some (found.reverse ++ last)

end Strongbox.Json
