import Strongbox.Error
import Strongbox.Time.Instant
/-!
# Outcomes

An action either has a result or halts: with an error, because a date it needs is not in the
calendar, or because it asks for more bytes than there can be in one piece.
-/

namespace Strongbox

/-- Why an action has no result. -/
inductive Halt where
  | failed (error : Error)
  /-- It needs a date that is not in the calendar. -/
  | outOfCalendar
  | outOfMemory
  deriving DecidableEq, Repr

/-- What comes of an action. -/
abbrev Outcome (α : Type) := Except Halt α

namespace Outcome

/-- The outcome that fails with an error. -/
def failure {α : Type} (error : Error) : Outcome α := .error (.failed error)

/-- The outcome of a check or computation. -/
def ofExcept {α : Type} : Except Error α → Outcome α
  | .ok a => .ok a
  | .error e => failure e

theorem ofExcept_eq_ok_iff {α : Type} {e : Except Error α} {a : α} :
    ofExcept e = .ok a ↔ e = .ok a := by
  cases e <;> simp [ofExcept, failure]

theorem exists_of_ofExcept_eq_error {α : Type} {e : Except Error α} {halt : Halt}
    (h : ofExcept e = .error halt) : ∃ error, halt = .failed error ∧ e = .error error := by
  cases e with
  | ok a => cases h
  | error error =>
    cases h
    exact ⟨error, rfl, rfl⟩

/-- The outcome of date arithmetic. -/
def dated {α : Type} : Option α → Outcome α
  | some a => .ok a
  | none => .error .outOfCalendar

end Outcome

end Strongbox
