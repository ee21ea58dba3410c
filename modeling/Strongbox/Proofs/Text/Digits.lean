import Mathlib.Tactic.ByContra
import Strongbox.Text.Blank
/-!
# Decimal digits

Which runs of digits are the decimal form of the number that they denote: those without a zero in
front, and the single zero.

## Main results

* `toDigits_ofDigitChars_eq_iff`: which runs of digits are decimal forms.
-/

namespace Strongbox.Text

theorem isDigit_of_mem_toDigits {n : Nat} {c : Char} (h : c ∈ Nat.toDigits 10 n) :
    c.isDigit = true :=
  Nat.isDigit_of_mem_toDigits (by decide) (by decide) h

theorem toNat_of_isDigit {c : Char} (h : c.isDigit = true) : 48 ≤ c.toNat ∧ c.toNat ≤ 57 := by
  simpa [Char.isDigit, UInt32.le_iff_toNat_le] using h

theorem isControl_of_isDigit {c : Char} (h : c.isDigit = true) : isControl c = false := by
  obtain ⟨hlow, hhigh⟩ := toNat_of_isDigit h
  simp only [isControl, Bool.or_eq_false_iff, Bool.and_eq_false_iff, decide_eq_false_iff_not]
  omega

theorem digitChar_of_isDigit {c : Char} (h : c.isDigit = true) :
    Nat.digitChar (c.toNat - 48) = c := by
  have hdigits : ∀ d < 10, Nat.digitChar d = Char.ofNat (d + 48) := by decide
  obtain ⟨hlow, hhigh⟩ := toNat_of_isDigit h
  rw [hdigits _ (by omega), Nat.sub_add_cancel hlow, Char.ofNat_toNat]

/-- A positive number is written without zeros in front. -/
theorem head?_toDigits_ne {n : Nat} (h : 0 < n) : (Nat.toDigits 10 n).head? ≠ some '0' := by
  induction n using Nat.strongRecOn with
  | ind n ih =>
    rw [Nat.toDigits_eq_if (by decide)]
    by_cases hsmall : n < 10
    · rw [if_pos hsmall]
      have hdigits : ∀ d < 10, 0 < d → [Nat.digitChar d].head? ≠ some '0' := by decide
      exact hdigits n hsmall h
    · rw [if_neg hsmall]
      have hnonempty : Nat.toDigits 10 (n / 10) ≠ [] := Nat.toDigits_ne_nil
      obtain ⟨c, rest, hfront⟩ := List.exists_cons_of_ne_nil hnonempty
      have hfirst := ih (n / 10) (by omega) (by omega)
      rw [hfront] at hfirst ⊢
      exact hfirst

/-- Digits that are read on from a positive `n` stand after its decimal form. -/
private theorem toDigits_ofDigitChars {digits : List Char}
    (hdigits : ∀ c ∈ digits, c.isDigit = true) {n : Nat} (hpositive : 0 < n) :
    Nat.toDigits 10 (Nat.ofDigitChars 10 digits n) = Nat.toDigits 10 n ++ digits := by
  induction digits generalizing n with
  | nil => rw [Nat.ofDigitChars_nil, List.append_nil]
  | cons c rest ih =>
    obtain ⟨hc, hrest⟩ := List.forall_mem_cons.1 hdigits
    obtain ⟨hlow, hhigh⟩ := toNat_of_isDigit hc
    have hdiv : (10 * n + (c.toNat - 48)) / 10 = n := by omega
    have hmod : (10 * n + (c.toNat - 48)) % 10 = c.toNat - 48 := by omega
    have hlast : Nat.toDigits 10 (10 * n + (c.toNat - 48)) = Nat.toDigits 10 n ++ [c] := by
      rw [Nat.toDigits_eq_if (by decide), if_neg (by omega), hdiv, hmod, digitChar_of_isDigit hc]
    calc Nat.toDigits 10 (Nat.ofDigitChars 10 (c :: rest) n)
        = Nat.toDigits 10 (Nat.ofDigitChars 10 rest (10 * n + (c.toNat - 48))) := by
          rw [Nat.ofDigitChars_cons]
          rfl
      _ = Nat.toDigits 10 (10 * n + (c.toNat - 48)) ++ rest := ih hrest (by omega)
      _ = Nat.toDigits 10 n ++ c :: rest := by
          rw [hlast, List.append_assoc, List.singleton_append]

/-- Digits are the decimal form of what they denote, unless a zero is followed by others. -/
theorem toDigits_ofDigitChars_eq_iff {digits : List Char} (hnonempty : digits ≠ [])
    (hdigits : ∀ c ∈ digits, c.isDigit = true) :
    Nat.toDigits 10 (Nat.ofDigitChars 10 digits 0) = digits
      ↔ ¬ ∃ rest, rest ≠ [] ∧ digits = '0' :: rest := by
  constructor
  · rintro hsame ⟨rest, hrest, rfl⟩
    rcases Nat.eq_zero_or_pos (Nat.ofDigitChars 10 ('0' :: rest) 0) with hzero | hpositive
    · rw [hzero] at hsame
      exact hrest (List.cons.inj hsame).2.symm
    · apply head?_toDigits_ne hpositive
      rw [hsame]
      rfl
  · intro hplain
    obtain ⟨c, rest, rfl⟩ := List.exists_cons_of_ne_nil hnonempty
    obtain ⟨hc, hrest⟩ := List.forall_mem_cons.1 hdigits
    obtain ⟨-, hhigh⟩ := toNat_of_isDigit hc
    have hdigit := digitChar_of_isDigit hc
    have hstart : Nat.ofDigitChars 10 (c :: rest) 0 = Nat.ofDigitChars 10 rest (c.toNat - 48) := by
      rw [Nat.ofDigitChars_cons, Nat.mul_zero, Nat.zero_add]
      rfl
    have hfirst : Nat.toDigits 10 (c.toNat - 48) = [c] := by
      rw [Nat.toDigits_of_lt_base (by omega), hdigit]
    by_cases hzero : c.toNat - 48 = 0
    · -- a zero in front is the only digit
      have halone : rest = [] := by
        by_contra hmore
        rw [hzero] at hdigit
        exact hplain ⟨rest, hmore, congrArg (· :: rest) hdigit.symm⟩
      rw [hstart, halone, Nat.ofDigitChars_nil, hfirst]
    · rw [hstart, toDigits_ofDigitChars hrest (Nat.pos_of_ne_zero hzero), hfirst,
        List.singleton_append]

end Strongbox.Text
