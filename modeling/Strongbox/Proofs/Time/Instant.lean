import Strongbox.Time.Instant
/-!
# Order and spans of instants

A clock that is not set back shows instants in the order of `before`. The span since a fixed instant
grows along with them, except around leap seconds: a leap second counts with the time of day of the
second it follows, so a span can shrink once the leap second is over.

`GraceStaysOver` says of a list of readings that this does no harm to a deadline: once it is past at
one reading it is past at every later one. Ordinary readings satisfy it.

## Main results

* `plus?_truncated_ofSeconds`: whole seconds from the start of a second.
* `plus?_ofDays_eq_none_iff`: whole days that lead out of the calendar.
* `since_le_since_of_seconds_eq`: an end that is put off within its second is not passed earlier.
* `graceStaysOver_of_ordinary`: without leap seconds a deadline that is past stays past.
-/

namespace Strongbox.Time

/-- Once the `grace` after an end is over at a reading, it is over at every later one, and the end
itself has come. -/
def GraceStaysOver (grace : Span) (expiresAt : Instant) (readings : List Instant) : Prop :=
  ∀ p ∈ readings, ∀ q ∈ readings, q.before p = false → grace < p.since expiresAt →
    grace < q.since expiresAt ∧ q.before expiresAt = false

namespace Instant

/-- The start of a second of the calendar. -/
def ofSecond (seconds : Int) (h : firstSecond ≤ seconds ∧ seconds ≤ lastSecond) : Instant :=
  ⟨seconds, 0, h, epoch.nanos_lt, fun hleap => absurd hleap (by decide)⟩

variable {a b p q : Instant} {grace : Span}

theorem before_eq_true_iff :
    a.before b = true ↔ a.seconds < b.seconds ∨ a.seconds = b.seconds ∧ a.nanos < b.nanos := by
  simp [before]

theorem before_eq_false_iff :
    a.before b = false ↔ b.seconds < a.seconds ∨ b.seconds = a.seconds ∧ b.nanos ≤ a.nanos := by
  rw [← Bool.not_eq_true, before_eq_true_iff]
  omega

theorem not_isLeap_of_nanos_eq_zero (h : a.nanos = 0) : a.isLeap = false := by
  simp [isLeap, h]

/-! ## Sums -/

theorem ofParts?_eq_some_iff {seconds : Int} {nanos : Nat} :
    ofParts? seconds nanos = some a ↔ a.seconds = seconds ∧ a.nanos = nanos := by
  constructor
  · intro h
    unfold ofParts? at h
    split at h
    · cases h
      exact ⟨rfl, rfl⟩
    · cases h
  · rintro ⟨rfl, rfl⟩
    exact ofParts?_self a

/-- Whole seconds from the start of a second, by `plus?`, end at the start of a second. -/
theorem plus?_truncated_ofSeconds {n : Int} :
    a.truncated.plus? (Span.ofSeconds n) = some b ↔ b.seconds = a.seconds + n ∧ b.nanos = 0 := by
  have hordinary : a.truncated.isLeap = false := not_isLeap_of_nanos_eq_zero rfl
  have htotal : Span.ofSeconds a.truncated.seconds + (a.truncated.nanos : Int) - 0
      + Span.ofSeconds n = (a.seconds + n) * 1000000000 := by
    show a.seconds * 1000000000 + ((0 : Nat) : Int) - 0 + n * 1000000000 = _
    omega
  rw [plus?, if_neg (by simp [hordinary]), if_neg (by simp [hordinary])]
  simp only [htotal]
  rw [Int.mul_ediv_cancel _ (by decide), Int.mul_emod_left, ofParts?_eq_some_iff]
  rfl

private theorem ofParts?_eq_none_iff {seconds : Int} {nanos : Nat} (hnanos : nanos < 1000000000) :
    ofParts? seconds nanos = none ↔ ¬ (firstSecond ≤ seconds ∧ seconds ≤ lastSecond) := by
  rw [ofParts?]
  by_cases hcalendar : firstSecond ≤ seconds ∧ seconds ≤ lastSecond
  · rw [dif_pos ⟨hcalendar, by omega, fun hleap => by omega⟩]
    simpa using hcalendar
  · rw [dif_neg fun h => hcalendar h.1]
    simpa using hcalendar

theorem plus?_zero : a.plus? 0 = some a := by
  rw [plus?]
  by_cases hleap : a.isLeap = true
  · have hfits : (a.nanos : Int) + 0 < 2000000000 := by
      have hlong := a.nanos_lt
      omega
    rw [if_pos ⟨hleap, by decide, by decide, hfits⟩]
    exact ofParts?_self a
  · have hnanos : a.nanos < 1000000000 := by simpa [isLeap] using hleap
    rw [if_neg fun h => hleap h.1, if_neg fun h => hleap h.1]
    rw [ofParts?_eq_some_iff]
    show a.seconds = (a.seconds * 1000000000 + a.nanos - 0 + 0) / 1000000000
      ∧ a.nanos = ((a.seconds * 1000000000 + a.nanos - 0 + 0) % 1000000000).toNat
    omega

/-- Whole days lead to the same time of day, with the fraction of the second that the instant is in:
from a leap second they are counted as from the second that it follows. -/
theorem plus?_ofDays {n : Nat} (hn : 0 < n) :
    a.plus? (Span.ofDays n) = ofParts? (a.seconds + 86400 * n) (a.nanos % 1000000000) := by
  -- a day is longer than a leap second, so the sum starts from the ordinary second
  have hlong : ¬ Span.ofDays n < 1000000000 := by
    show ¬ (n : Int) * 86400000000000 < 1000000000
    omega
  have hpos : 0 < Span.ofDays n := by
    show 0 < (n : Int) * 86400000000000
    omega
  have hnanos := a.nanos_lt
  rw [plus?, if_neg fun h => hlong h.2.2.1]
  simp only [hpos, and_true]
  have hrest : (a.nanos : Int) - (if a.isLeap = true then 1000000000 else 0)
      = (a.nanos % 1000000000 : Nat) := by
    by_cases hleap : a.isLeap = true
    · rw [if_pos hleap]
      rw [isLeap, decide_eq_true_eq] at hleap
      omega
    · rw [if_neg hleap]
      rw [isLeap, decide_eq_true_eq] at hleap
      omega
  have htotal : Span.ofSeconds a.seconds + a.nanos - (if a.isLeap = true then 1000000000 else 0)
      + Span.ofDays n = (a.seconds + 86400 * n) * 1000000000 + (a.nanos % 1000000000 : Nat) := by
    rw [← hrest]
    show a.seconds * 1000000000 + _ - _ + n * 86400000000000 = _
    omega
  have hfraction : a.nanos % 1000000000 < 1000000000 := Nat.mod_lt _ (by decide)
  have hseconds : ((a.seconds + 86400 * n) * 1000000000 + (a.nanos % 1000000000 : Nat))
      / 1000000000 = a.seconds + 86400 * n := by omega
  have hremainder : (((a.seconds + 86400 * n) * 1000000000 + (a.nanos % 1000000000 : Nat))
      % 1000000000).toNat = a.nanos % 1000000000 := by omega
  rw [htotal]
  show ofParts? (((a.seconds + 86400 * n) * 1000000000 + (a.nanos % 1000000000 : Nat) : Int)
      / 1000000000) _ = _
  rw [hseconds]
  exact congrArg _ hremainder

/-- Whole days after an instant there is no `plus?` if they lead past the `lastSecond` of the
calendar. That the instant is in a leap second does not matter. -/
theorem plus?_ofDays_eq_none_iff {n : Nat} :
    a.plus? (Span.ofDays n) = none ↔ lastSecond < a.seconds + 86400 * (n : Int) := by
  obtain ⟨hfirst, hlast⟩ := a.inCalendar
  rcases Nat.eq_zero_or_pos n with rfl | hn
  · have hzero : Span.ofDays (0 : Nat) = 0 := rfl
    rw [hzero, plus?_zero]
    exact iff_of_false (Option.some_ne_none a) (by omega)
  · rw [plus?_ofDays hn, ofParts?_eq_none_iff (by omega)]
    omega

/-! ## Spans -/

/-- Between ordinary instants `since` is a difference. -/
theorem since_of_ordinary (ha : a.isLeap = false) (hb : b.isLeap = false) :
    a.since b = (a.seconds - b.seconds) * 1000000000 + ((a.nanos : Int) - (b.nanos : Int)) := by
  simp [since, ha, hb, Span.ofSeconds]

/-- An end at the start of its second is passed no later than any other in that second. -/
theorem since_le_since_of_seconds_eq (p : Instant) (hseconds : b.seconds = a.seconds)
    (hnanos : a.nanos = 0) : p.since b ≤ p.since a := by
  have ha : a.isLeap = false := not_isLeap_of_nanos_eq_zero hnanos
  have hday : b.secondOfDay = a.secondOfDay := by rw [secondOfDay, secondOfDay, hseconds]
  unfold since
  rw [hday, hseconds, hnanos, ha]
  simp only [Bool.false_eq_true, and_false, if_false]
  by_cases hextra : a.secondOfDay < p.secondOfDay ∧ b.isLeap = true
  · -- the nanoseconds of a leap second outweigh the second that it adds
    have hlong : 1000000000 ≤ b.nanos := by simpa [isLeap] using hextra.2
    rw [if_pos hextra, if_neg (by omega)]
    show (p.seconds - a.seconds + 1) * 1000000000 + ((p.nanos : Int) - b.nanos)
      ≤ (p.seconds - a.seconds + 0) * 1000000000 + ((p.nanos : Int) - (0 : Nat))
    omega
  · rw [if_neg hextra]
    apply Int.add_le_add_left
    omega

private theorem since_le_since_of_ordinary (hp : p.isLeap = false) (hq : q.isLeap = false)
    (ha : a.isLeap = false) (h : q.before p = false) : p.since a ≤ q.since a := by
  rw [since_of_ordinary hp ha, since_of_ordinary hq ha]
  have hnanos : p.nanos < 1000000000 := by simpa [isLeap] using hp
  rw [before_eq_false_iff] at h
  show (_ : Int) ≤ _
  omega

private theorem before_eq_false_of_since_pos (hq : q.isLeap = false) (ha : a.isLeap = false)
    (h : 0 < q.since a) : q.before a = false := by
  have hnanos : q.nanos < 1000000000 := by simpa [isLeap] using hq
  rw [since_of_ordinary hq ha] at h
  change (0 : Int) < _ at h
  rw [before_eq_false_iff]
  omega

/-- Of a life of whole seconds more is left than any shorter number of seconds, unless it begins in
a leap second: if it is longer by one second only, it must then end at a later time of day. -/
theorem ofSeconds_lt_since_iff {n k : Int} (hseconds : b.seconds = a.seconds + n)
    (hnanos : b.nanos = 0) (hk : k < n) :
    Span.ofSeconds k < b.since a
      ↔ (a.isLeap = true → k + 1 = n → a.secondOfDay < b.secondOfDay) := by
  have hb : b.isLeap = false := not_isLeap_of_nanos_eq_zero hnanos
  have hlong := a.nanos_lt
  have hleap : a.isLeap = true ↔ 1000000000 ≤ a.nanos := by simp [isLeap]
  unfold since
  rw [hb, hnanos, hseconds]
  simp only [Bool.false_eq_true, and_false, if_false]
  by_cases hextra : a.secondOfDay < b.secondOfDay ∧ a.isLeap = true
  · rw [if_pos hextra]
    show k * 1000000000
      < (a.seconds + n - a.seconds + 1) * 1000000000 + (((0 : Nat) : Int) - a.nanos) ↔ _
    exact iff_of_true (by omega) fun _ _ => hextra.1
  · rw [if_neg hextra]
    rw [hleap] at hextra ⊢
    show k * 1000000000
      < (a.seconds + n - a.seconds + 0) * 1000000000 + (((0 : Nat) : Int) - a.nanos) ↔ _
    omega

/-- Readings without leap seconds do no harm to a deadline: `GraceStaysOver` holds of them. -/
theorem graceStaysOver_of_ordinary {readings : List Instant} (hgrace : 0 ≤ grace)
    (ha : a.isLeap = false) (hordinary : ∀ p ∈ readings, p.isLeap = false) :
    GraceStaysOver grace a readings := by
  intro p hp q hq hafter hover
  have hlater := since_le_since_of_ordinary (hordinary p hp) (hordinary q hq) ha hafter
  have hover' : grace < q.since a := Int.lt_of_lt_of_le hover hlater
  have hpos : 0 < q.since a := Int.lt_of_le_of_lt hgrace hover'
  exact ⟨hover', before_eq_false_of_since_pos (hordinary q hq) ha hpos⟩

end Instant

end Strongbox.Time
