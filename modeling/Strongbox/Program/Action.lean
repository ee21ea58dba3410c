import Strongbox.Outcome
import Strongbox.Program.Basic
/-!
# Actions

An action is a program that may halt. The errors of the outside become errors of the action; where
an operation treats one of them otherwise, it uses the forms that hand the answer over (`ask`).

A lock that an action takes is given back however the action ends.
-/

namespace Strongbox

/-- A program that may halt. -/
abbrev Action (α : Type) := ExceptT Halt Program α

namespace Action

variable {α : Type}

/-- The action of a program that cannot halt. -/
def ofProgram (p : Program α) : Action α := ExceptT.lift p

/-- Makes a request and hands over the answer. -/
def ask (r : Request) : Action r.Response := ofProgram (Program.request r)

/-- Ends with the outcome `o`. -/
def ofOutcome (o : Outcome α) : Action α := ExceptT.mk (Program.done o)

/-- Ends with the result of a check or computation. -/
def ofExcept (e : Except Error α) : Action α := ofOutcome (Outcome.ofExcept e)

/-- Fails. -/
def fail (e : Error) : Action α := ofOutcome (Outcome.failure e)

/-- Ends with a storage answer: its error is `Error.storage`. -/
def ofStorage (answer : Except StorageError α) : Action α :=
  match answer with
  | .ok a => pure a
  | .error e => fail (.storage e)

/-- Stores data. -/
def store (identifier : String) (data : Bytes) : Action Unit := do
  ofStorage (← ask (.store identifier data))

/-- The data under an identifier, or `none` if there is none. -/
def retrieve? (identifier : String) : Action (Option Bytes) := do
  match ← ask (.retrieve identifier) with
  | .ok data => pure (some data)
  | .error (.notFound _) => pure none
  | .error e => fail (.storage e)

/-- Deletes the data under an identifier; an error if there is none. -/
def delete (identifier : String) : Action Unit := do
  ofStorage (← ask (.delete identifier))

/-- Deletes the data under an identifier. Tells whether there was any. -/
def deleteIfPresent (identifier : String) : Action Bool := do
  match ← ask (.delete identifier) with
  | .ok _ => pure true
  | .error (.notFound _) => pure false
  | .error e => fail (.storage e)

/-- Whether there is data under an identifier. -/
def contains (identifier : String) : Action Bool := do
  ofStorage (← ask (.contains identifier))

/-- Every identifier that there is data under. -/
def identifiers : Action (List String) := do
  ofStorage (← ask .list)

/-- The time. -/
def now : Action Time.Instant := ask .now

/-- Random bytes. -/
def draw (source : RandomSource) (size : Nat) : Action (Bytes.Sized size) := do
  match ← ask (.draw source size) with
  | .ok bytes => pure bytes
  | .error e => fail e

/-- Random bytes in a number that someone else has chosen: there may be no room for so many, which
is `Halt.outOfMemory`. -/
def drawChosen (source : RandomSource) (size : Nat) : Action (Bytes.Sized size) :=
  if Bytes.maxLength < size then ofOutcome (.error .outOfMemory) else draw source size

/-- The outcome of `action`, whatever it is. -/
def attempt (action : Action α) : Action (Outcome α) := ofProgram action.run

/-- Runs `action` while it holds `lock`. -/
def withLock (lock : Lock) (action : Action α) : Action α :=
  ExceptT.mk do
    Program.request (.acquire lock)
    let outcome ← action.run
    Program.request (.release lock)
    pure outcome

end Action

end Strongbox
