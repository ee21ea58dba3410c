import Mathlib.Algebra.Group.Nat.Defs
import Strongbox.Proofs.Text.Digits
import Strongbox.Proofs.Time.Calendar
import Strongbox.Time.Rfc3339
/-!
# Timestamps are read back

Every part of a timestamp is a number with no digit after it, or a mark, so each reading ends where
the writing of its part has ended. What is read is put together to the instant again, a leap second
to a leap second.

## Main results

* `number?_digits`: a number is read up to the next character.
* `read?_write`: a timestamp is read back.
-/

namespace Strongbox.Time.Rfc3339

/-! ## Numbers -/

theorem isDigit_of_mem_digits {width n : Nat} {c : Char} (h : c ∈ digits width n) :
    c.isDigit = true := by
  rcases List.mem_append.1 h with h | h
  · rw [List.eq_of_mem_replicate h]
    rfl
  · exact Text.isDigit_of_mem_toDigits h

theorem length_digits {width n : Nat} (hwidth : 0 < width) (h : n < 10 ^ width) :
    (digits width n).length = width := by
  have hle := (Nat.length_toDigits_le_iff (by decide) hwidth).2 h
  simp only [digits, List.length_append, List.length_replicate]
  omega

theorem digits_ne_nil (width n : Nat) : digits width n ≠ [] := by
  intro h
  exact Nat.toDigits_ne_nil (List.append_eq_nil_iff.1 h).2

private theorem foldl_digits (width n : Nat) :
    (digits width n).foldl (fun n c => 10 * n + (c.toNat - 48)) 0 = n := by
  have hfold : (digits width n).foldl (fun n c => 10 * n + (c.toNat - 48)) 0
      = Nat.ofDigitChars 10 (digits width n) 0 := rfl
  rw [hfold, digits, Nat.ofDigitChars_append, Nat.ofDigitChars_replicate_zero, Nat.mul_zero,
    Nat.ofDigitChars_ten_toDigits]

/-- A number is read by `number?` up to the next character. -/
theorem number?_digits {limit width n : Nat} {c : Char}
    (hlimit : (digits width n).length ≤ limit) (hc : c.isDigit = false) (rest : List Char) :
    number? limit (digits width n ++ c :: rest) = some (n, c :: rest) := by
  have htake : ((digits width n ++ c :: rest).take limit).takeWhile Char.isDigit
      = digits width n := by
    rw [List.take_append, List.take_of_length_le hlimit,
      List.takeWhile_append_of_pos fun _ => isDigit_of_mem_digits]
    cases limit - (digits width n).length with
    | zero => simp
    | succ k => simp [hc]
  rw [number?, htake]
  have hsome : (digits width n).isEmpty = false := by
    simpa using digits_ne_nil width n
  rw [hsome, if_neg Bool.false_ne_true, foldl_digits, List.drop_left]

private theorem not_isBlank_of_isDigit {c : Char} (h : c.isDigit = true) :
    Text.isBlank c = false := by
  obtain ⟨hlow, hhigh⟩ := Text.toNat_of_isDigit h
  simp only [Text.isBlank, Bool.or_eq_false_iff, Bool.and_eq_false_iff, decide_eq_false_iff_not,
    beq_eq_false_iff_ne]
  omega

/-- No blanks stand before a number. -/
theorem dropBlanks_digits (width n : Nat) (rest : List Char) :
    Text.dropBlanks (digits width n ++ rest) = digits width n ++ rest := by
  cases hdigits : digits width n with
  | nil => exact absurd hdigits (digits_ne_nil width n)
  | cons c cs =>
    have hc := isDigit_of_mem_digits (hdigits ▸ List.mem_cons_self : c ∈ digits width n)
    simp [Text.dropBlanks, not_isBlank_of_isDigit hc]

theorem field?_digits {n : Nat} {c : Char} (hn : n < 100) (hc : c.isDigit = false)
    (rest : List Char) : field? 2 (digits 2 n ++ c :: rest) = some (n, c :: rest) := by
  rw [field?, dropBlanks_digits]
  exact number?_digits (Nat.le_of_eq (length_digits (by decide) hn)) hc rest

/-! ## The parts of a timestamp -/

/-- A mark is found where it stands. -/
theorem mark?_cons {mark : Char} (hmark : Text.isBlank mark = false) (rest : List Char) :
    mark? mark (mark :: rest) = some rest := by
  simp [mark?, Text.dropBlanks, hmark]

private theorem year?_yearText (year : Int) (rest : List Char) :
    year? (yearText year ++ '-' :: rest) = some (year, '-' :: rest) := by
  rw [yearText]
  split
  · rename_i hyear
    have hlength : (digits 4 year.toNat).length ≤ 4 :=
      Nat.le_of_eq (length_digits (by decide) (by omega))
    have hnumber := number?_digits hlength (by decide : '-'.isDigit = false) rest
    rw [year?, dropBlanks_digits]
    cases hdigits : digits 4 year.toNat with
    | nil => exact absurd hdigits (digits_ne_nil _ _)
    | cons c cs =>
      have hc := isDigit_of_mem_digits (hdigits ▸ List.mem_cons_self : c ∈ digits 4 year.toNat)
      rw [hdigits] at hnumber
      simp only [List.cons_append] at hnumber ⊢
      split
      · rename_i heq
        cases heq
        cases hc
      · rename_i heq
        cases heq
        cases hc
      · rw [hnumber, Option.map_some, Int.toNat_of_nonneg hyear.1]
  · have hlength : (digits 4 year.natAbs).length
        ≤ (digits 4 year.natAbs ++ '-' :: rest).length := by
      rw [List.length_append]
      exact Nat.le_add_right _ _
    have hnumber := number?_digits hlength (by decide : '-'.isDigit = false) rest
    split
    · show (number? (digits 4 year.natAbs ++ '-' :: rest).length
        (digits 4 year.natAbs ++ '-' :: rest)).map _ = _
      rw [hnumber, Option.map_some]
      show some (-(year.natAbs : Int), '-' :: rest) = some (year, '-' :: rest)
      have hyear : -(year.natAbs : Int) = year := by omega
      rw [hyear]
    · show (number? (digits 4 year.natAbs ++ '-' :: rest).length
        (digits 4 year.natAbs ++ '-' :: rest)).map _ = _
      rw [hnumber, Option.map_some]
      show some ((year.natAbs : Int), '-' :: rest) = some (year, '-' :: rest)
      have hyear : (year.natAbs : Int) = year := by omega
      rw [hyear]

theorem fraction?_digits {width n : Nat} (hwidth : 0 < width) (hle : width ≤ 9)
    (hn : n < 10 ^ width) {c : Char} (hc : c.isDigit = false) (rest : List Char) :
    fraction? ('.' :: (digits width n ++ c :: rest))
      = some (n * 10 ^ (9 - width), c :: rest) := by
  have hlength := length_digits hwidth hn
  have hnumber := number?_digits (by omega : (digits width n).length ≤ 9) hc rest
  have hcount : (digits width n ++ c :: rest).length - (c :: rest).length = width := by
    rw [List.length_append, hlength, Nat.add_sub_cancel]
  have hstop : (c :: rest).dropWhile Char.isDigit = c :: rest := by
    rw [List.dropWhile_cons, hc, if_neg Bool.false_ne_true]
  rw [fraction?, hnumber]
  show some (n * Nat.pow 10 (9 - ((digits width n ++ c :: rest).length - (c :: rest).length)),
    (c :: rest).dropWhile Char.isDigit) = _
  rw [hcount, hstop]
  rfl

private theorem fraction?_fractionText {nanos : Nat} (h : nanos < 1000000000) (rest : List Char) :
    fraction? (fractionText nanos ++ 'Z' :: rest) = some (nanos, 'Z' :: rest) := by
  rw [fractionText]
  split
  · rename_i hzero
    rw [hzero]
    rfl
  split
  · rename_i hmillis
    rw [List.cons_append, fraction?_digits (by decide) (by decide) (by omega) (by decide)]
    congr 2
    omega
  split
  · rename_i hmicros
    rw [List.cons_append, fraction?_digits (by decide) (by decide) (by omega) (by decide)]
    congr 2
    omega
  · rw [List.cons_append, fraction?_digits (by decide) (by decide) (by omega) (by decide)]
    congr 2
    omega

private theorem exists_fractionText (nanos : Nat) (rest : List Char) :
    ∃ c tail, fractionText nanos ++ 'Z' :: rest = c :: tail ∧ c.isDigit = false := by
  have hpoint : '.'.isDigit = false := by decide
  rw [fractionText]
  split
  · exact ⟨'Z', rest, rfl, by decide⟩
  split
  · exact ⟨'.', _, rfl, hpoint⟩
  split
  · exact ⟨'.', _, rfl, hpoint⟩
  · exact ⟨'.', _, rfl, hpoint⟩

/-! ## Timestamps -/

/-- The parts of a timestamp are put together to the instant. -/
private theorem ofParts?_parts (t : Instant) :
    (if t.secondOfDay.toNat % 60 + (if t.isLeap = true then 1 else 0) = 60 then
        Instant.ofParts? (86400 * (t.seconds / 86400) + 3600 * (t.secondOfDay.toNat / 3600 : Nat)
            + 60 * (t.secondOfDay.toNat / 60 % 60 : Nat) + 59 - 60 * 0)
          (t.nanos % 1000000000 + 1000000000)
      else
        Instant.ofParts? (86400 * (t.seconds / 86400) + 3600 * (t.secondOfDay.toNat / 3600 : Nat)
            + 60 * (t.secondOfDay.toNat / 60 % 60 : Nat)
            + (t.secondOfDay.toNat % 60 + (if t.isLeap = true then 1 else 0) : Nat) - 60 * 0)
          (t.nanos % 1000000000))
      = some t := by
  have hnanos := t.nanos_lt
  simp only [Instant.secondOfDay, Instant.isLeap, decide_eq_true_eq]
  by_cases hleap : 1000000000 ≤ t.nanos
  · have hend := t.leap_at_end hleap
    have hseconds : 86400 * (t.seconds / 86400) + 3600 * ((t.seconds % 86400).toNat / 3600 : Nat)
        + 60 * ((t.seconds % 86400).toNat / 60 % 60 : Nat) + 59 - 60 * 0 = t.seconds := by omega
    have hnanos : t.nanos % 1000000000 + 1000000000 = t.nanos := by omega
    rw [if_pos hleap, if_pos (by omega), hseconds, hnanos, Instant.ofParts?_self]
  · have hseconds : 86400 * (t.seconds / 86400) + 3600 * ((t.seconds % 86400).toNat / 3600 : Nat)
        + 60 * ((t.seconds % 86400).toNat / 60 % 60 : Nat)
        + ((t.seconds % 86400).toNat % 60 + 0 : Nat) - 60 * 0 = t.seconds := by omega
    have hnanos : t.nanos % 1000000000 = t.nanos := by omega
    rw [if_neg hleap, if_neg (by omega), hseconds, hnanos, Instant.ofParts?_self]

/-- The text of an instant, part by part. -/
private theorem localText_append (t : Instant) (rest : List Char) :
    localText t ++ rest
      = yearText (Date.ofDays (t.seconds / 86400)).year
        ++ '-' :: (digits 2 (Date.ofDays (t.seconds / 86400)).month
        ++ '-' :: (digits 2 (Date.ofDays (t.seconds / 86400)).day
        ++ 'T' :: (digits 2 (t.secondOfDay.toNat / 3600)
        ++ ':' :: (digits 2 (t.secondOfDay.toNat / 60 % 60)
        ++ ':' :: (digits 2 (t.secondOfDay.toNat % 60 + if t.isLeap then 1 else 0)
        ++ (fractionText (t.nanos % 1000000000) ++ rest)))))) := by
  simp only [localText, List.append_assoc, List.cons_append, List.nil_append]

private theorem secondOfDay_lt (t : Instant) : t.secondOfDay.toNat < 86400 := by
  rw [Instant.secondOfDay]
  omega

private theorem day_inCalendar (t : Instant) :
    firstSecond ≤ 86400 * (t.seconds / 86400) ∧ 86400 * (t.seconds / 86400) ≤ lastSecond := by
  have hseconds := t.inCalendar
  rw [firstSecond, lastSecond] at hseconds ⊢
  omega

/-- A timestamp is read back: `read?` undoes `write`. -/
theorem read?_write (t : Instant) : read? (write t) = some t := by
  have hsecond := secondOfDay_lt t
  have hexists := Date.exists_ofDays (t.seconds / 86400)
  have hday : (Date.ofDays (t.seconds / 86400)).day < 100 := by
    have hmonth := Date.daysInMonth_le (Date.ofDays (t.seconds / 86400)).year
      (Date.ofDays (t.seconds / 86400)).month
    have hday := hexists.2.2.2
    omega
  have hmonth : (Date.ofDays (t.seconds / 86400)).month < 100 := by
    have hmonth := hexists.2.1
    omega
  have hextra : (if t.isLeap then 1 else 0) ≤ 1 := by split <;> omega
  have hhyphen : Text.isBlank '-' = false := by decide
  have hcolon : Text.isBlank ':' = false := by decide
  have hzone : zone? (Text.dropBlanks ['Z']) = some (0, []) := rfl
  obtain ⟨c, tail, hfraction, hc⟩ := exists_fractionText (t.nanos % 1000000000) []
  rw [read?, write, String.toList_ofList, localText_append, readChars?]
  -- the date
  refine Option.bind_eq_some_iff.2 ⟨_, year?_yearText _ _, ?_⟩
  refine Option.bind_eq_some_iff.2 ⟨_, mark?_cons hhyphen _, ?_⟩
  refine Option.bind_eq_some_iff.2 ⟨_, field?_digits hmonth (by decide) _, ?_⟩
  refine Option.bind_eq_some_iff.2 ⟨_, mark?_cons hhyphen _, ?_⟩
  refine Option.bind_eq_some_iff.2 ⟨_, field?_digits hday (by decide) _, ?_⟩
  -- the time of day, with a number before whatever fraction there is
  refine Option.bind_eq_some_iff.2 ⟨_, field?_digits (by omega) (by decide) _, ?_⟩
  refine Option.bind_eq_some_iff.2 ⟨_, mark?_cons hcolon _, ?_⟩
  refine Option.bind_eq_some_iff.2 ⟨_, field?_digits (by omega) (by decide) _, ?_⟩
  refine Option.bind_eq_some_iff.2 ⟨_, mark?_cons hcolon _, ?_⟩
  rw [hfraction]
  refine Option.bind_eq_some_iff.2 ⟨_, field?_digits (by omega) hc _, ?_⟩
  rw [← hfraction]
  refine Option.bind_eq_some_iff.2 ⟨_, fraction?_fractionText (by omega) [], ?_⟩
  refine Option.bind_eq_some_iff.2 ⟨_, hzone, ?_⟩
  show (if _ then _ else _) = _
  rw [Date.toDays_ofDays,
    if_pos ⟨hexists, by omega, by omega, by omega, rfl, day_inCalendar t⟩]
  exact ofParts?_parts t

end Strongbox.Time.Rfc3339
