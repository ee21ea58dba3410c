import Strongbox.Json.Basic
/-!
# Reading JSON

A text is cut into lexemes, and the lexemes drive a machine that holds the unfinished containers
in a stack. Nesting may be of any depth.
-/

namespace Strongbox.Json

/-- A container that waits for the value inside it. What it holds so far is kept last first. -/
inductive Frame where
  | array (items : List Json)
  /-- An object, and the key of the value it waits for. -/
  | object (members : List (Bytes × Json)) (key : Bytes)

/-- What may come next. The innermost container's contents are kept last first. -/
inductive Phase where
  | value
  /-- The first item of an array, or its end. -/
  | firstItem
  | afterItem (items : List Json)
  /-- The first key of an object, or its end. -/
  | firstKey
  | key (members : List (Bytes × Json))
  | colon (members : List (Bytes × Json)) (key : Bytes)
  | afterMember (members : List (Bytes × Json))
  | finished (value : Json)

/-- A state of the machine: its `Phase` and the containers around. -/
structure Building where
  phase : Phase
  /-- The unfinished containers around it, innermost first. -/
  around : List Frame

namespace Building

/-- The start of a text. -/
def start : Building := ⟨.value, []⟩

/-- Hands a complete value to the container that waits for it. -/
def complete (value : Json) : List Frame → Building
  | [] => ⟨.finished value, []⟩
  | .array items :: around => ⟨.afterItem (value :: items), around⟩
  | .object members key :: around => ⟨.afterMember ((key, value) :: members), around⟩

/-- The state after the first lexeme of a value. -/
def openValue? (token : Token) (around : List Frame) : Option Building :=
  match token with
  | .null => some (complete .null around)
  | .bool value => some (complete (.bool value) around)
  | .number lexeme => some (complete (.number lexeme) around)
  | .string raw => some (complete (.string raw) around)
  | .openArray => some ⟨.firstItem, around⟩
  | .openObject => some ⟨.firstKey, around⟩
  | _ => none

/-- The state after one more `token`. -/
def next? (s : Building) (token : Token) : Option Building :=
  match s.phase, token with
  | .value, token => openValue? token s.around
  | .firstItem, .closeArray => some (complete (.array []) s.around)
  | .firstItem, token => openValue? token (.array [] :: s.around)
  | .afterItem items, .comma => some ⟨.value, .array items :: s.around⟩
  | .afterItem items, .closeArray => some (complete (.array items.reverse) s.around)
  | .firstKey, .closeObject => some (complete (.object []) s.around)
  | .firstKey, .string key => some ⟨.colon [] key, s.around⟩
  | .key members, .string key => some ⟨.colon members key, s.around⟩
  | .colon members key, .colon => some ⟨.value, .object members key :: s.around⟩
  | .afterMember members, .comma => some ⟨.key members, s.around⟩
  | .afterMember members, .closeObject => some (complete (.object members.reverse) s.around)
  | _, _ => none

/-- The value that has been read, once it is complete. -/
def value? (s : Building) : Option Json :=
  match s.phase with
  | .finished value => some value
  | _ => none

end Building

/-- The value of a sequence of lexemes. -/
def ofTokens? (tokens : List Token) : Option Json :=
  (tokens.foldlM Building.next? .start).bind Building.value?

/-- The value of a JSON text, from its `tokens?`. -/
def read? (bytes : Bytes) : Option Json := (tokens? bytes).bind ofTokens?

end Strongbox.Json
