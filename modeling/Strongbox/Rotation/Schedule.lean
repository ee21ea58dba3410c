import Strongbox.Key.Metadata
import Strongbox.Outcome
import Strongbox.Rotation.Policy
/-!
# When keys are due

A key is due for rotation once it is as old as its period, which is its own or else the policy's.
Two questions are answered from the same metadata: whether the key is due, from its age, and how
many days remain, from the date on which it will be due. A date beyond the calendar has no answer.
-/

namespace Strongbox.Rotation

open Time (Instant Span)
open Key (Metadata)

/-- The period of a key in days: its own, or `periodDays` of the policy. -/
def periodOf (policy : Policy) (m : Metadata) : UInt32 := m.periodDays?.getD policy.periodDays

/-- The period of a key. -/
def spanOf (policy : Policy) (m : Metadata) : Span := Span.ofDays (periodOf policy m).toNat

/-- Whether a key is as old as its period, see `spanOf`. -/
def isDue (policy : Policy) (m : Metadata) (now : Instant) : Bool :=
  spanOf policy m ≤ now.since m.createdAt

/-- When a key will be as old as its period. -/
def dueAt? (policy : Policy) (m : Metadata) : Option Instant :=
  m.createdAt.plus? (spanOf policy m)

/-- The milliseconds of a day. -/
def millisPerDay : Int := 86400000

/-- The days that a `remaining` span counts as, rounded up; none if nothing remains. -/
def daysOfSpan? (remaining : Span) : Option Nat :=
  if remaining ≤ 0 then none
  else
    let days := Int.tdiv (remaining.wholeMillis + millisPerDay - 1) millisPerDay
    some (max days 1).toNat

/-- The days until a key is due, rounded up; none once it is. They count to `dueAt?`. -/
def daysRemaining (policy : Policy) (m : Metadata) (now : Instant) : Outcome (Option Nat) := do
  let due ← Outcome.dated (dueAt? policy m)
  .ok (daysOfSpan? (due.since now))

/-- The age and the rotation of a key. -/
structure Summary where
  metadata : Metadata
  ageDays : Int
  periodDays : UInt32
  isDue : Bool
  daysRemaining : Option Nat

/-- The age and the rotation of a key at an instant. -/
def summarize (policy : Policy) (m : Metadata) (now : Instant) : Outcome Summary := do
  let remaining ← daysRemaining policy m now
  .ok ⟨m, (now.since m.createdAt).wholeDays, periodOf policy m, isDue policy m now, remaining⟩

/-- The keys that are due, of `all` the keys in a list. A key that another one replaced is not due
any more. -/
def dueKeys (policy : Policy) (all : List Metadata) (now : Instant) : List String :=
  let replaced := all.filterMap (·.rotatedFrom?)
  (all.filter fun m => !replaced.contains m.id && isDue policy m now).map (·.id)

end Strongbox.Rotation
