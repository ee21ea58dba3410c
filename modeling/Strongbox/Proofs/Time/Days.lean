import Strongbox.Proofs.Time.Instant
/-!
# Whole days and leap seconds

A number of days can be counted off from an instant (`plus?`), or found as the span between two
instants (`since`). For ordinary instants the two agree. Days that are counted off from a leap
second start from the second that it follows, while a span takes account of the leap second only
where its other end has a later time of day; so the span from a leap second may fall short by a
second of the days that were counted off (`shortfall`).

## Main results

* `since_eq_neg`: spans in the two directions are opposite.
* `since_add_shortfall`: how a span changes with the days that are counted off from its start.
* `exists_plus?_ofDays`: days that end before an ordinary instant are in the calendar.
-/

namespace Strongbox.Time.Instant

variable {a b p : Instant} {n : Nat}

/-! ## Counting off days -/

theorem plus?_ofDays_eq_some_iff (hn : 0 < n) :
    a.plus? (Span.ofDays n) = some b
      ↔ b.seconds = a.seconds + 86400 * n ∧ b.nanos = a.nanos % 1000000000 := by
  rw [plus?_ofDays hn, ofParts?_eq_some_iff]

/-- Days that are counted off from any instant do not lead to a leap second. -/
theorem isLeap_of_plus?_ofDays (hn : 0 < n) (h : a.plus? (Span.ofDays n) = some b) :
    b.isLeap = false := by
  have hnanos := ((plus?_ofDays_eq_some_iff hn).1 h).2
  rw [isLeap, decide_eq_false_iff_not]
  omega

private theorem secondOfDay_of_plus?_ofDays (h : a.plus? (Span.ofDays n) = some b) :
    b.secondOfDay = a.secondOfDay := by
  rcases Nat.eq_zero_or_pos n with rfl | hn
  · cases plus?_zero.symm.trans h
    rfl
  · have hseconds := ((plus?_ofDays_eq_some_iff hn).1 h).1
    rw [secondOfDay, secondOfDay]
    omega

/-! ## Spans -/

/-- Spans in the two directions are opposite. -/
theorem since_eq_neg (a b : Instant) : a.since b = -b.since a := by
  unfold since
  by_cases hb : b.secondOfDay < a.secondOfDay ∧ b.isLeap = true
  · rw [if_pos hb, if_neg (by omega), if_pos hb]
    show (_ : Int) * 1000000000 + _ = -(_ * 1000000000 + _)
    omega
  · rw [if_neg hb]
    by_cases ha : a.secondOfDay < b.secondOfDay ∧ a.isLeap = true
    · rw [if_pos ha, if_pos ha]
      show (_ : Int) * 1000000000 + _ = -(_ * 1000000000 + _)
      omega
    · rw [if_neg ha, if_neg ha, if_neg hb]
      show (_ : Int) * 1000000000 + _ = -(_ * 1000000000 + _)
      omega

/-- By how much the span from an instant to `p` falls short of the days counted off from it and
what comes after them. -/
def shortfall (a p : Instant) : Span :=
  if a.isLeap = true ∧ p.secondOfDay ≤ a.secondOfDay then Span.ofSeconds 1 else 0

theorem shortfall_of_ordinary (ha : a.isLeap = false) (p : Instant) : shortfall a p = 0 := by
  rw [shortfall, ha, if_neg fun h => Bool.false_ne_true h.1]

theorem shortfall_nonneg (a p : Instant) : 0 ≤ shortfall a p := by
  rw [shortfall]
  split
  · decide
  · decide

/-- A span from `a` is that from the end `b` of some days counted off from it, and these days, less
the `shortfall`. -/
theorem since_add_shortfall (hn : 0 < n) (h : a.plus? (Span.ofDays n) = some b) (p : Instant) :
    p.since a + shortfall a p = p.since b + Span.ofDays n := by
  obtain ⟨hseconds, hnanos⟩ := (plus?_ofDays_eq_some_iff hn).1 h
  have hb := isLeap_of_plus?_ofDays hn h
  have hday := secondOfDay_of_plus?_ofDays h
  have hleap : a.isLeap = true ↔ 1000000000 ≤ a.nanos := by simp [isLeap]
  have hlong := a.nanos_lt
  unfold since shortfall
  rw [hb, hday, hseconds, hnanos]
  simp only [Bool.false_eq_true, and_false, if_false, hleap]
  show (p.seconds - a.seconds + _) * 1000000000 + ((p.nanos : Int) - a.nanos) + _
    = (p.seconds - (a.seconds + 86400 * n) + _) * 1000000000
      + ((p.nanos : Int) - (a.nanos % 1000000000 : Nat)) + n * 86400000000000
  have hsecond : Span.ofSeconds 1 = (1000000000 : Int) := rfl
  rw [hsecond]
  split <;> split <;> split <;> omega

/-- Days that end before an ordinary instant are in the calendar, so `plus?` has a result. -/
theorem exists_plus?_ofDays (hb : b.isLeap = false) (h : Span.ofDays n < b.since a) :
    ∃ earlier, a.plus? (Span.ofDays n) = some earlier := by
  refine Option.ne_none_iff_exists'.1 fun hnone => ?_
  have hbeyond := plus?_ofDays_eq_none_iff.1 hnone
  have hlast := b.inCalendar.2
  have hnanos : b.nanos < 1000000000 := by simpa [isLeap] using hb
  have hleap : a.isLeap = true ↔ 1000000000 ≤ a.nanos := by simp [isLeap]
  unfold since at h
  simp only [hb, Bool.false_eq_true, and_false, if_false, hleap] at h
  change (n : Int) * 86400000000000
    < (b.seconds - a.seconds + _) * 1000000000 + ((b.nanos : Int) - a.nanos) at h
  split at h <;> omega

end Strongbox.Time.Instant
