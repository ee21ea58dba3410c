import Strongbox.Json.Basic
/-!
# Writing JSON

Values are written in two forms: compact, without any blanks, and indented, with every item and
member on a line of its own, two spaces deeper than its container, and a space after each colon.
-/

namespace Strongbox.Json

/-- A text in quotes, from its escaped form. -/
def inQuotes (raw : Bytes) : Bytes := [ascii '"'] ++ raw ++ [ascii '"']

/-- The bytes of a truth value. -/
def boolWord (value : Bool) : Bytes := Bytes.ofText (if value then "true" else "false")

/-! ## The compact form -/

mutual

/-- The compact form of a value. -/
def compact : Json → Bytes
  | .null => Bytes.ofText "null"
  | .bool value => boolWord value
  | .number lexeme => lexeme
  | .string raw => inQuotes raw
  | .array items => [ascii '['] ++ compactItems items ++ [ascii ']']
  | .object members => [ascii '\x7b'] ++ compactMembers members ++ [ascii '\x7d']

/-- The items of an array in `compact` form, with commas between them. -/
def compactItems : List Json → Bytes
  | [] => []
  | [item] => item.compact
  | item :: items => item.compact ++ [ascii ','] ++ compactItems items

/-- The members of an object, with commas between them. -/
def compactMembers : List (Bytes × Json) → Bytes
  | [] => []
  | [member] => compactMember member
  | member :: members => compactMember member ++ [ascii ','] ++ compactMembers members

/-- One member of an object. -/
def compactMember : Bytes × Json → Bytes
  | (key, value) => inQuotes key ++ [ascii ':'] ++ value.compact

end

/-! ## The indented form -/

/-- A new line, indented to `depth`. -/
def newLine (depth : Nat) : Bytes := 0x0A :: List.replicate (2 * depth) 0x20

mutual

/-- The indented form of a value that stands at `depth`. -/
def indented (depth : Nat) : Json → Bytes
  | .null => Bytes.ofText "null"
  | .bool value => boolWord value
  | .number lexeme => lexeme
  | .string raw => inQuotes raw
  | .array [] => Bytes.ofText "[]"
  | .array (item :: items) =>
    [ascii '['] ++ newLine (depth + 1) ++ indented (depth + 1) item
      ++ indentedItems (depth + 1) items ++ newLine depth ++ [ascii ']']
  | .object [] => [ascii '\x7b', ascii '\x7d']
  | .object (member :: members) =>
    [ascii '\x7b'] ++ newLine (depth + 1) ++ indentedMember (depth + 1) member
      ++ indentedMembers (depth + 1) members ++ newLine depth ++ [ascii '\x7d']

/-- The further items of an array. -/
def indentedItems (depth : Nat) : List Json → Bytes
  | [] => []
  | item :: items =>
    [ascii ','] ++ newLine depth ++ indented depth item ++ indentedItems depth items

/-- The further members of an object. -/
def indentedMembers (depth : Nat) : List (Bytes × Json) → Bytes
  | [] => []
  | member :: members =>
    [ascii ','] ++ newLine depth ++ indentedMember depth member ++ indentedMembers depth members

/-- One member of an object. -/
def indentedMember (depth : Nat) : Bytes × Json → Bytes
  | (key, value) => inQuotes key ++ [ascii ':', 0x20] ++ indented depth value

end

/-- The indented form of a value. -/
def pretty (value : Json) : Bytes := indented 0 value

end Strongbox.Json
