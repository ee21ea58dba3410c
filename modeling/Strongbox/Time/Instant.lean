/-!
# Instants

An instant is a whole number of seconds since 1 January 1970, 00:00:00 UTC, and nanoseconds within
that second. A leap second is part of the second it follows: the nanoseconds then run on to two
thousand million, which only the last second of a minute may do.

The calendar ends: instants lie in the years -262143 to 262142, and arithmetic that leaves them
has no result. These bounds and the shape of a leap second are part of the type.

A `Span` is a signed number of nanoseconds. Two rules say how leap seconds enter arithmetic.

* The span between two instants compares their times of day: the extra second counts if the leap
  second has the earlier time of day and counts negatively if it has the later one.
* A span added to an instant in a leap second stays in it if it is shorter than a second and fits;
  otherwise a forward span starts from the ordinary second and a backward span from the end of it.
-/

namespace Strongbox.Time

/-- A signed length of time in nanoseconds. -/
abbrev Span := Int

/-- The nanoseconds of a second. -/
def nanosPerSecond : Nat := 1000000000

namespace Span

/-- A number of seconds. -/
def ofSeconds (n : Int) : Span := n * 1000000000

/-- A number of days of 86400 seconds. -/
def ofDays (n : Int) : Span := n * 86400000000000

/-- The whole days of a span, toward zero. -/
def wholeDays (s : Span) : Int := Int.tdiv s 86400000000000

/-- The whole milliseconds of a span, toward zero. -/
def wholeMillis (s : Span) : Int := Int.tdiv s 1000000

end Span

/-- The first second of the calendar, in the year -262143. -/
def firstSecond : Int := -8334601228800

/-- The last second of the calendar, in the year 262142. -/
def lastSecond : Int := 8210266876799

/-- An instant of the calendar. -/
structure Instant where
  seconds : Int
  /-- The nanoseconds within the second; from one thousand million on, in a leap second. -/
  nanos : Nat
  inCalendar : firstSecond ≤ seconds ∧ seconds ≤ lastSecond
  /-- A second and its leap second are two thousand million nanoseconds long. -/
  nanos_lt : nanos < 2000000000
  /-- A leap second follows the last second of a minute. -/
  leap_at_end : 1000000000 ≤ nanos → seconds % 60 = 59
  deriving DecidableEq, Repr

namespace Instant

/-- The instant with these seconds and nanoseconds, if there is one. -/
def ofParts? (seconds : Int) (nanos : Nat) : Option Instant :=
  if h : (firstSecond ≤ seconds ∧ seconds ≤ lastSecond) ∧ nanos < 2000000000
      ∧ (1000000000 ≤ nanos → seconds % 60 = 59) then
    some ⟨seconds, nanos, h.1, h.2.1, h.2.2⟩
  else none

/-- The start of the count. -/
def epoch : Instant := ⟨0, 0, by decide, by decide, by decide⟩

instance : Inhabited Instant := ⟨epoch⟩

/-- Whether the instant is in a leap second. -/
def isLeap (t : Instant) : Bool := 1000000000 ≤ t.nanos

/-- Whether one instant precedes another. -/
def before (a b : Instant) : Bool :=
  a.seconds < b.seconds || (a.seconds == b.seconds && a.nanos < b.nanos)

/-- The second within its day. -/
def secondOfDay (t : Instant) : Int := t.seconds % 86400

/-- The start of the instant's second. -/
def truncated (t : Instant) : Instant :=
  ⟨t.seconds, 0, t.inCalendar, by decide, by intro h; simp at h⟩

/-- The span from `b` to `a`. -/
def since (a b : Instant) : Span :=
  let extra : Int :=
    if b.secondOfDay < a.secondOfDay ∧ b.isLeap then 1
    else if a.secondOfDay < b.secondOfDay ∧ a.isLeap then -1
    else 0
  Span.ofSeconds (a.seconds - b.seconds + extra) + ((a.nanos : Int) - (b.nanos : Int))

/-- The instant a span later, if it is in the calendar. -/
def plus? (t : Instant) (s : Span) : Option Instant :=
  if t.isLeap ∧ -1000000000 < s ∧ s < 1000000000 ∧ t.nanos + s < 2000000000 then
    ofParts? t.seconds (t.nanos + s).toNat
  else
    let skipped : Int := if t.isLeap ∧ 0 < s then 1000000000 else 0
    let total := Span.ofSeconds t.seconds + t.nanos - skipped + s
    ofParts? (total / 1000000000) (total % 1000000000).toNat

theorem ofParts?_self (t : Instant) : ofParts? t.seconds t.nanos = some t := by
  rw [ofParts?, dif_pos ⟨t.inCalendar, t.nanos_lt, t.leap_at_end⟩]

end Instant

end Strongbox.Time
