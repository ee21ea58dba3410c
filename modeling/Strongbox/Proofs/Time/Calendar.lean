import Strongbox.Time.Calendar
/-!
# Days and dates

The date of a day exists and has that day as its number. Within a cycle of 400 years, which begins
on 1 March, a day is counted by centuries, spans of four years and years; a year that has a day
number 365 ends on a 29 February.

## Main results

* `toDays_ofDays`: a day is found again from its date.
* `exists_ofDays`: every day has a date of the calendar.
-/

namespace Strongbox.Time.Date

/-- The year of a cycle that a day of it is in. -/
def yearOfCycle (n : Nat) : Nat := (n - n / 1460 + n / 36524 - n / 146096) / 365

/-- The days of a cycle before its year `y`. -/
def daysBeforeYear (y : Nat) : Nat := 365 * y + y / 4 - y / 100

/-- A day of a cycle by centuries, spans of four years and years. Only its last day has none. -/
private theorem exists_parts {n : Nat} (h : n < 146096) :
    ∃ c q k r, c ≤ 3 ∧ q ≤ 24 ∧ k ≤ 3 ∧ r ≤ 365 ∧ n = 36524 * c + 1461 * q + 365 * k + r
      ∧ (r = 365 → k = 3 ∧ q < 24) := by
  refine ⟨n / 36524, n % 36524 / 1461, min (n % 36524 % 1461 / 365) 3,
    n % 36524 % 1461 - 365 * min (n % 36524 % 1461 / 365) 3, ?_, ?_, ?_, ?_, ?_, ?_⟩ <;> omega

private theorem yearOfCycle_parts {c q k r : Nat} (hc : c ≤ 3) (hq : q ≤ 24) (hk : k ≤ 3)
    (hr : r ≤ 365) (hlast : r = 365 → k = 3 ∧ q < 24) :
    yearOfCycle (36524 * c + 1461 * q + 365 * k + r) = 100 * c + 4 * q + k := by
  generalize hn : 36524 * c + 1461 * q + 365 * k + r = n
  have hcenturies : n / 36524 = c := by omega
  have hcycles : n / 146096 = 0 := by omega
  have hspans : n / 1460 = 25 * c + q + (if 1460 ≤ 24 * c + q + 365 * k + r then 1 else 0) := by
    split <;> omega
  rw [yearOfCycle, hcenturies, hcycles, hspans]
  split <;> omega

/-- A day of a cycle is in its `yearOfCycle`, and day number 365 is a leap day. -/
private theorem yearOfCycle_spec {n : Nat} (h : n < 146097) :
    yearOfCycle n ≤ 399 ∧ daysBeforeYear (yearOfCycle n) ≤ n
      ∧ n - daysBeforeYear (yearOfCycle n) ≤ 365
      ∧ (n - daysBeforeYear (yearOfCycle n) = 365 →
        (yearOfCycle n + 1) % 4 = 0
          ∧ ((yearOfCycle n + 1) % 100 ≠ 0 ∨ (yearOfCycle n + 1) % 400 = 0)) := by
  by_cases hlastDay : n = 146096
  · subst hlastDay
    decide
  · obtain ⟨c, q, k, r, hc, hq, hk, hr, rfl, hlast⟩ := exists_parts (by omega : n < 146096)
    have hstart : daysBeforeYear (100 * c + 4 * q + k) = 36524 * c + 1461 * q + 365 * k := by
      have hspans : (100 * c + 4 * q + k) / 4 = 25 * c + q := by omega
      have hcenturies : (100 * c + 4 * q + k) / 100 = c := by omega
      rw [daysBeforeYear, hspans, hcenturies]
      omega
    rw [yearOfCycle_parts hc hq hk hr hlast, hstart, Nat.add_sub_cancel_left]
    refine ⟨by omega, by omega, hr, fun hleap => ?_⟩
    obtain ⟨rfl, hq⟩ := hlast hleap
    exact ⟨by omega, .inl (by omega)⟩

/-- A day of a year, counted from 1 March, by month and day of the month. -/
theorem monthOfYear_spec {n : Nat} (h : n ≤ 365) :
    (5 * n + 2) / 153 ≤ 11 ∧ daysBeforeMonth ((5 * n + 2) / 153) ≤ n
      ∧ n < daysBeforeMonth ((5 * n + 2) / 153 + 1) := by
  simp only [daysBeforeMonth]
  omega

private theorem isLeapYear_of_mod {cycle : Int} {y : Nat}
    (h : (y + 1) % 4 = 0 ∧ ((y + 1) % 100 ≠ 0 ∨ (y + 1) % 400 = 0)) :
    isLeapYear (400 * cycle + y + 1) = true := by
  obtain ⟨hspan, hcentury⟩ := h
  have hspan : (400 * cycle + y + 1) % 4 = 0 := by omega
  simp only [isLeapYear, hspan, beq_self_eq_true, Bool.true_and, Bool.or_eq_true, bne_iff_ne,
    beq_iff_eq]
  omega

/-- The date of day `r` of year `y` of a cycle, which is in the month `m` months after March. -/
def ofParts (cycle : Int) (y m r : Nat) : Date :=
  let month := if m < 10 then m + 3 else m - 9
  ⟨if month ≤ 2 then 400 * cycle + y + 1 else 400 * cycle + y, month, r - daysBeforeMonth m + 1⟩

theorem exists_ofDays_eq (days : Int) :
    ∃ y r, y ≤ 399 ∧ r ≤ 365
      ∧ days = 146097 * ((days + 719468) / 146097) + (daysBeforeYear y + r : Nat) - 719468
      ∧ (r = 365 → isLeapYear (400 * ((days + 719468) / 146097) + y + 1) = true)
      ∧ ofDays days = ofParts ((days + 719468) / 146097) y ((5 * r + 2) / 153) r := by
  have hlt : ((days + 719468) % 146097).toNat < 146097 := by omega
  obtain ⟨hyear, hstart, hday, hleap⟩ := yearOfCycle_spec hlt
  refine ⟨_, _, hyear, hday, by omega, fun h => isLeapYear_of_mod (hleap h), rfl⟩

/-- A day is found again from its date: `toDays` undoes `ofDays`. -/
theorem toDays_ofDays (days : Int) : (ofDays days).toDays = days := by
  obtain ⟨y, r, hy, hr, hdays, -, hof⟩ := exists_ofDays_eq days
  obtain ⟨hm, hstart, -⟩ := monthOfYear_spec hr
  rw [hof]
  generalize (days + 719468) / 146097 = cycle at hdays ⊢
  generalize (5 * r + 2) / 153 = m at hm hstart ⊢
  have hcycle : (400 * cycle + (y : Int)) / 400 = cycle := by omega
  have hyearOfCycle : (400 * cycle + (y : Int)) % 400 = y := by omega
  rw [daysBeforeYear] at hdays
  by_cases hmonth : m < 10
  · have hlate : ¬ m + 3 ≤ 2 := by omega
    have hback : (m + 3 + 9) % 12 = m := by omega
    simp only [ofParts, toDays, if_pos hmonth, if_neg hlate, hback, hcycle, hyearOfCycle]
    omega
  · have hearly : m - 9 ≤ 2 := by omega
    have hback : (m - 9 + 9) % 12 = m := by omega
    simp only [ofParts, toDays, if_neg hmonth, if_pos hearly, hback, Int.add_sub_cancel, hcycle,
      hyearOfCycle]
    omega

/-- The months from March on are as long as the days before them say; what is left of the year is
February. -/
private theorem daysInMonth_eq (year : Int) {m : Nat} (h : m ≤ 10) :
    daysInMonth year (if m < 10 then m + 3 else m - 9)
      = daysBeforeMonth (m + 1) - daysBeforeMonth m := by
  match m, h with
  | 0, _ | 1, _ | 2, _ | 3, _ | 4, _ | 5, _ | 6, _ | 7, _ | 8, _ | 9, _ | 10, _ => rfl
  | n + 11, h => omega

theorem daysInMonth_le (year : Int) (month : Nat) : daysInMonth year month ≤ 31 := by
  rw [daysInMonth.eq_def]
  split
  all_goals try split
  all_goals decide

/-- Every day has a date of the calendar. -/
theorem exists_ofDays (days : Int) : (ofDays days).Exists := by
  obtain ⟨y, r, -, hr, -, hleap, hof⟩ := exists_ofDays_eq days
  obtain ⟨hm, hstart, hend⟩ := monthOfYear_spec hr
  rw [hof]
  generalize (days + 719468) / 146097 = cycle at hleap ⊢
  generalize (5 * r + 2) / 153 = m at hm hstart hend ⊢
  by_cases hfebruary : m = 11
  · subst hfebruary
    simp only [daysBeforeMonth] at hstart
    refine ⟨Nat.le_succ 1, Nat.le_add_right 2 10, Nat.le_add_left 1 _, ?_⟩
    show r - 337 + 1 ≤ if isLeapYear (400 * cycle + y + 1) = true then 29 else 28
    split
    · omega
    · rename_i hcommon
      have hne : r ≠ 365 := fun h => hcommon (hleap h)
      omega
  · refine ⟨?_, ?_, Nat.le_add_left 1 _, ?_⟩
    · simp only [ofParts]
      split <;> omega
    · simp only [ofParts]
      split <;> omega
    · simp only [ofParts]
      rw [daysInMonth_eq _ (by omega)]
      omega

end Strongbox.Time.Date
