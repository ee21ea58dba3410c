import Strongbox.Json.Token
import Strongbox.Table
/-!
# JSON values

A JSON value as it is read and written. Numbers and strings keep their written form: a number's
size and a string's escapes are judged by whoever asks for them (`asNat?`, `asText?`), so a part
that nobody asks for may hold any number and any well-formed escape.

Members of an object stay in their written order, and a key may occur twice.

The module gives the values that the library writes (`ofText`, `ofNat`, `ofTable`) and the readings
it makes of values.

## Main results

* `asText?_ofText`, `asNat?_ofNat`: what is written is read back.
-/

namespace Strongbox

/-- A JSON value. -/
inductive Json where
  | null
  | bool (value : Bool)
  /-- A number, as written. -/
  | number (lexeme : Bytes)
  /-- A string, as written between its quotes. -/
  | string (raw : Bytes)
  | array (items : List Json)
  /-- An object; keys are as written between their quotes. -/
  | object (members : List (Bytes × Json))
  deriving Repr

namespace Json

/-! ## Values that are written -/

/-- The value of a text. -/
def ofText (text : String) : Json := .string (escape text)

/-- The decimal digits of `n`. -/
def decimal (n : Nat) : Bytes := (Nat.toDigits 10 n).map ascii

/-- The value of a number. -/
def ofNat (n : Nat) : Json := .number (decimal n)

/-- The value of a whole number. -/
def ofInt (n : Int) : Json :=
  .number (if n < 0 then ascii '-' :: decimal n.natAbs else decimal n.natAbs)

/-- The object with the members given, their keys escaped by `escape`. -/
def record (members : List (String × Json)) : Json :=
  .object (members.map fun m => (escape m.1, m.2))

/-- The object of a table of texts, in key order. -/
def ofTable (table : Table String) : Json :=
  record (table.entries.map fun e => (e.1, ofText e.2))

/-! ## Readings -/

/-- The text of a `string`. -/
def asText? : Json → Option String
  | .string raw => text? raw
  | _ => none

/-- The number that decimal digits denote. -/
def natOfDigits (digits : Bytes) : Nat :=
  digits.foldl (fun n b => 10 * n + (b.toNat - 48)) 0

/-- The natural number up to `limit` that a number denotes. Only digits may be written: no sign,
fraction or exponent. -/
def asNat? (limit : Nat) : Json → Option Nat
  | .number lexeme =>
    if lexeme.all isDigit ∧ natOfDigits lexeme ≤ limit then some (natOfDigits lexeme) else none
  | _ => none

/-- The whole number that a number denotes; a minus sign may stand in front of the digits. -/
def asInt? : Json → Option Int
  | .number [] => none
  | .number (b :: digits) =>
    let (isNegative, digits) := if b = ascii '-' then (true, digits) else (false, b :: digits)
    if digits.all isDigit then
      some (if isNegative then -(natOfDigits digits : Int) else natOfDigits digits)
    else none
  | _ => none

/-- A word of 32 bits, as `asNat?` reads it. -/
def asWord32? (value : Json) : Option UInt32 := (value.asNat? 0xFFFFFFFF).map UInt32.ofNat

/-- A word of 64 bits. -/
def asWord64? (value : Json) : Option UInt64 :=
  (value.asNat? 0xFFFFFFFFFFFFFFFF).map UInt64.ofNat

/-- A truth value. -/
def asBool? : Json → Option Bool
  | .bool value => some value
  | _ => none

/-- A name: a `string`, or an object whose one member has the name as its key and no value. -/
def asName? : Json → Option String
  | .string raw => text? raw
  | .object [(key, .null)] => text? key
  | _ => none

/-- The key and the value of a member that are both texts. -/
def textMember? (member : Bytes × Json) : Option (String × String) := do
  let key ← text? member.1
  let value ← member.2.asText?
  some (key, value)

/-- A map of texts, read member by member with `textMember?`. Of two members with one key the later
counts. -/
def asTable? : Json → Option (Table String)
  | .object members =>
    (members.mapM textMember?).map Table.ofList
  | _ => none

/-- The first member of an object under `key`. -/
def member? (value : Json) (key : String) : Option Json :=
  match value with
  | .object members => (members.find? fun m => m.1 == escape key).map (·.2)
  | _ => none

/-- An object with `member` in place of any others under its key. -/
def withMember (value : Json) (key : String) (member : Json) : Json :=
  match value with
  | .object members =>
    .object (members.filter (fun m => m.1 != escape key) ++ [(escape key, member)])
  | value => value

/-! ## Laws -/

private theorem toNat_ascii {c : Char} (h : c.isDigit = true) :
    (ascii c).toNat = c.toNat ∧ isDigit (ascii c) = true := by
  obtain ⟨h0, h9⟩ : 48 ≤ c.toNat ∧ c.toNat ≤ 57 := by
    simpa [Char.isDigit, UInt32.le_iff_toNat_le] using h
  have hnat : (ascii c).toNat = c.toNat := by
    simp only [ascii, Char.toUInt8, UInt32.toNat_toUInt8]
    exact Nat.mod_eq_of_lt (Nat.lt_of_le_of_lt h9 (by decide))
  refine ⟨hnat, ?_⟩
  simp only [isDigit, UInt8.le_iff_toNat_le, hnat, Bool.and_eq_true, decide_eq_true_eq]
  exact ⟨h0, h9⟩

private theorem natOfDigits_map_ascii {chars : List Char} (h : ∀ c ∈ chars, c.isDigit = true)
    (n : Nat) : (chars.map ascii).foldl (fun n b => 10 * n + (b.toNat - 48)) n
      = Nat.ofDigitChars 10 chars n := by
  induction chars generalizing n with
  | nil => rfl
  | cons c chars ih =>
    have hc := toNat_ascii (h c (by simp))
    simp only [List.map_cons, List.foldl_cons, hc.1]
    exact ih (fun c hc => h c (by simp [hc])) _

/-- A number is read back by `natOfDigits` from its decimal digits. -/
private theorem natOfDigits_decimal (n : Nat) : natOfDigits (decimal n) = n := by
  rw [natOfDigits, decimal, natOfDigits_map_ascii]
  · exact Nat.ofDigitChars_ten_toDigits
  · exact fun c hc => Nat.isDigit_of_mem_toDigits (by decide) (by decide) hc

theorem isDigit_of_mem_decimal {n : Nat} {b : UInt8} (h : b ∈ decimal n) : isDigit b = true := by
  obtain ⟨c, hc, rfl⟩ := List.mem_map.1 h
  exact (toNat_ascii (Nat.isDigit_of_mem_toDigits (by decide) (by decide) hc)).2

theorem asNat?_ofNat {n limit : Nat} (h : n ≤ limit) : (ofNat n).asNat? limit = some n := by
  have hall : (decimal n).all isDigit = true :=
    List.all_eq_true.2 fun _ hb => isDigit_of_mem_decimal hb
  simp [ofNat, asNat?, natOfDigits_decimal, hall, h]

theorem asText?_ofText (text : String) : (ofText text).asText? = some text :=
  text?_escape text

end Json

end Strongbox
