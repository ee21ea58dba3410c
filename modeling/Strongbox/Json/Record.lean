import Strongbox.Json.Basic
/-!
# Records in JSON

A record with named fields is read from an object or, equally, from an array of its fields in
order. In an object members that are not fields are ignored, whatever they hold, and no field may
occur twice; every key must be a text. An array may stop early but not be too long.

`fields?` gives what was found for each field. Whether a field may be missing is for the reader of
the record to say: `required` or `orDefault`.
-/

namespace Strongbox.Json

/-- The value under `name`, if exactly one member has that key; an error if several have it. -/
def field? (members : List (String × Json)) (name : String) : Option (Option Json) :=
  match members.filter (fun m => m.1 == name) with
  | [] => some none
  | [m] => some (some m.2)
  | _ => none

/-- A member whose key is a text. -/
def namedMember? (member : Bytes × Json) : Option (String × Json) :=
  (text? member.1).map fun key => (key, member.2)

/-- What a value holds for each of the named fields. -/
def fields? (names : List String) : Json → Option (List (Option Json))
  | .object members => do
    let members ← members.mapM namedMember?
    names.mapM (field? members)
  | .array items =>
    if items.length ≤ names.length then
      some (items.map some ++ List.replicate (names.length - items.length) none)
    else none
  | _ => none

/-- The reading of a `field` that must be there. -/
def required {α : Type} (read : Json → Option α) (field : Option Json) : Option α :=
  field.bind read

/-- The reading of a field that has a `default`. -/
def orDefault {α : Type} (default : α) (read : Json → Option α) : Option Json → Option α
  | none => some default
  | some value => read value

end Strongbox.Json
