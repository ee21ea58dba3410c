import Strongbox.Bytes
import Strongbox.Error
import Strongbox.Table
/-!
# Storage in memory

The reference storage: a table from identifiers to data.

It can be made to fail on request (`Failing`), by a queue of rules, each of which makes a number of
calls fail. A call is met by the oldest rule for its kind whose prefix its identifier has and that
has failures left; it then fails with the rule's error and changes nothing. Listing has the empty
identifier. Whether there is data under an identifier is found out by retrieving it.
-/

namespace Strongbox.Storage

/-- Data by identifier. -/
abbrev Memory := Table Bytes

namespace Memory

/-- The data under an identifier. -/
def retrieve (m : Memory) (identifier : String) : Except StorageError Bytes :=
  match m.get? identifier with
  | some data => .ok data
  | none => .error (.notFound identifier)

/-- The storage `m` without the data under an identifier. -/
def delete (m : Memory) (identifier : String) : Except StorageError Memory :=
  if m.contains identifier then .ok (m.erase identifier) else .error (.notFound identifier)

end Memory

/-! ## Failures on request -/

/-- The kinds of calls that can be made to fail. -/
inductive Call where
  | store
  | retrieve
  | delete
  | list
  deriving DecidableEq, Repr

/-- The call of that name. -/
def Call.ofName? : String → Option Call
  | "store" => some .store
  | "retrieve" => some .retrieve
  | "delete" => some .delete
  | "list" => some .list
  | _ => none

/-- A rule that makes calls fail. -/
structure Rule where
  call : Call
  start : String
  error : StorageError
  times : Nat

/-- Whether a rule meets a call. -/
def Rule.meets (r : Rule) (call : Call) (identifier : String) : Bool :=
  r.call == call && r.start.toList.isPrefixOf identifier.toList && 0 < r.times

/-- The error of the first rule that meets `call`, and the rules after it was used. -/
def useRule (call : Call) (identifier : String) : List Rule → Option StorageError × List Rule
  | [] => (none, [])
  | r :: rules =>
    if r.meets call identifier then (some r.error, { r with times := r.times - 1 } :: rules)
    else
      let (error, rules) := useRule call identifier rules
      (error, r :: rules)

/-- A storage that fails on request. -/
structure Failing where
  memory : Memory
  /-- The rules, oldest first. -/
  rules : List Rule

namespace Failing

/-- Makes a call, unless a rule makes it fail. The call `serve` gives an answer and the data after
it. -/
def guarded {α : Type} (s : Failing) (call : Call) (identifier : String)
    (serve : Memory → Except StorageError α × Memory) : Except StorageError α × Failing :=
  match useRule call identifier s.rules with
  | (some e, rules) => (.error e, { s with rules })
  | (none, rules) =>
    let (answer, memory) := serve s.memory
    (answer, ⟨memory, rules⟩)

end Failing

end Strongbox.Storage
