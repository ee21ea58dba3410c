import Strongbox.Key.Identifier
import Strongbox.Proofs.Text.Digits
/-!
# The form of versioned identifiers

A versioned identifier is a base, the mark `_v` and a run of digits. The base may hold marks and
digits of its own, and the digits may begin with zeros; still a text has the form in one way only.
Its digits are all those that it ends with, since the mark in front of them ends with a letter, and
what stands before the mark is the base (`HasForm.takeWhile_eq`, `HasForm.dropWhile_eq`).

## Main results

* `HasForm.unique`: a text has the form in one way only.
* `parse_of_hasForm`, `parse_of_not_hasForm`: what every text is read as.
* `parse_text`: versioned identifiers are read back.
* `reads_by_form`: reading, writing and counting up of versioned identifiers together.
-/

namespace Strongbox.Key.VersionedId

/-- The texts that stand in front of a version: not empty, and on one line. -/
structure IsBase (base : String) : Prop where
  nonempty : base.toList ≠ []
  oneLine : '\n' ∉ base.toList

/-- The text is a base, the mark of versions and some digits. -/
structure HasForm (identifier base : String) (digits : List Char) : Prop where
  isBase : IsBase base
  nonempty : digits ≠ []
  isDigit : ∀ c ∈ digits, c.isDigit = true
  eq_append : identifier = base ++ "_v" ++ String.ofList digits

variable {identifier base base' : String} {digits digits' : List Char} {id later : VersionedId}

/-! ## One form for each text -/

namespace HasForm

theorem reverse_eq (h : HasForm identifier base digits) :
    identifier.toList.reverse = digits.reverse ++ 'v' :: '_' :: base.toList.reverse := by
  simp [h.eq_append]

theorem isDigit_reverse (h : HasForm identifier base digits) :
    ∀ c ∈ digits.reverse, c.isDigit = true :=
  fun c hc => h.isDigit c (List.mem_reverse.1 hc)

/-- The digits of the version are all those that the text ends with, read backwards by `takeWhile`.
-/
theorem takeWhile_eq (h : HasForm identifier base digits) :
    identifier.toList.reverse.takeWhile Char.isDigit = digits.reverse := by
  rw [h.reverse_eq, List.takeWhile_append_of_pos h.isDigit_reverse,
    List.takeWhile_cons_of_neg (by decide), List.append_nil]

/-- What is left without these digits is the base and the mark. -/
theorem dropWhile_eq (h : HasForm identifier base digits) :
    identifier.toList.reverse.dropWhile Char.isDigit = 'v' :: '_' :: base.toList.reverse := by
  rw [h.reverse_eq, List.dropWhile_append_of_pos h.isDigit_reverse,
    List.dropWhile_cons_of_neg (by decide)]

/-- A text `HasForm` in one way only. -/
theorem unique (h : HasForm identifier base digits) (h' : HasForm identifier base' digits') :
    base = base' ∧ digits = digits' := by
  have hdigits := h.takeWhile_eq
  have hbase := h.dropWhile_eq
  rw [h'.takeWhile_eq, List.reverse_inj] at hdigits
  rw [h'.dropWhile_eq] at hbase
  simp only [List.cons.injEq, true_and, List.reverse_inj, String.toList_inj] at hbase
  exact ⟨hbase.symm, hdigits.symm⟩

end HasForm

/-! ## What texts are read as -/

/-- A text that `HasForm` is read, unless its number is too large. -/
theorem parse_of_hasForm (h : HasForm identifier base digits) :
    parse identifier
      = if Nat.ofDigitChars 10 digits 0 < UInt32.size then
          .ok ⟨base, UInt32.ofNat (Nat.ofDigitChars 10 digits 0)⟩
        else .error (.invalidKeyIdentifier identifier "version number out of range") := by
  have hform : ¬ (digits = [] ∨ base.toList.reverse = [] ∨ '\n' ∈ base.toList.reverse) := by
    simpa using ⟨h.nonempty, by simpa using h.isBase.nonempty, h.isBase.oneLine⟩
  simp only [parse, h.takeWhile_eq, h.dropWhile_eq, List.reverse_reverse]
  rw [if_neg hform, String.ofList_toList]

/-- A text that has the form of `HasForm` in no way is refused. -/
theorem parse_of_not_hasForm (h : ∀ base digits, ¬ HasForm identifier base digits) :
    parse identifier = .error (.invalidKeyIdentifier identifier
      "expected the form \x7bbase\x7d_v\x7bnumber\x7d") := by
  rw [parse]
  split
  · rename_i base hrest
    split
    · rfl
    · -- the two ends of the text make up the form
      rename_i hform
      simp only [not_or, List.reverse_eq_nil_iff] at hform
      obtain ⟨hdigits, hnonempty, hline⟩ := hform
      refine absurd ⟨⟨?_, ?_⟩, ?_, ?_, ?_⟩ (h (String.ofList base.reverse)
        (identifier.toList.reverse.takeWhile Char.isDigit).reverse)
      · simpa using hnonempty
      · simpa using hline
      · simpa using hdigits
      · intro c hc
        exact List.all_eq_true.1 List.all_takeWhile c (List.mem_reverse.1 hc)
      · have hparts := List.takeWhile_append_dropWhile
          (p := Char.isDigit) (l := identifier.toList.reverse)
        rw [hrest] at hparts
        rw [← String.toList_inj, ← List.reverse_inj]
        refine hparts.symm.trans ?_
        simp
  · rfl

/-- Reading a version finds a base and digits that denote the version. -/
theorem parse_eq_ok_iff :
    parse identifier = .ok id
      ↔ ∃ digits, HasForm identifier id.base digits
          ∧ Nat.ofDigitChars 10 digits 0 = id.version.toNat := by
  constructor
  · intro h
    by_cases hform : ∃ base digits, HasForm identifier base digits
    · obtain ⟨base, digits, hform⟩ := hform
      rw [parse_of_hasForm hform] at h
      split at h
      · rename_i hsize
        cases h
        exact ⟨digits, hform, (UInt32.toNat_ofNat_of_lt' hsize).symm⟩
      · cases h
    · simp only [not_exists] at hform
      rw [parse_of_not_hasForm hform] at h
      cases h
  · rintro ⟨digits, hform, hversion⟩
    rw [parse_of_hasForm hform, hversion, if_pos id.version.toNat_lt, UInt32.ofNat_toNat]

theorem isBase_of_parse (h : parse identifier = .ok id) : IsBase id.base := by
  obtain ⟨digits, hform, -⟩ := parse_eq_ok_iff.1 h
  exact hform.isBase

theorem parse?_eq_some_iff : parse? identifier = some id ↔ parse identifier = .ok id := by
  rw [parse?]
  cases parse identifier <;> simp [Except.toOption]

/-- Whatever `parse` does not read as a version it refuses as an identifier. -/
private theorem exists_refusal (h : ∀ id, parse identifier ≠ .ok id) :
    ∃ reason, parse identifier = .error (.invalidKeyIdentifier identifier reason) := by
  by_cases hform : ∃ base digits, HasForm identifier base digits
  · obtain ⟨base, digits, hform⟩ := hform
    have hread := parse_of_hasForm hform
    split at hread
    · exact absurd hread (h _)
    · exact ⟨_, hread⟩
  · simp only [not_exists] at hform
    exact ⟨_, parse_of_not_hasForm hform⟩

/-! ## Versions as texts -/

private theorem hasForm_text (h : IsBase id.base) :
    HasForm id.text id.base (Nat.toDigits 10 id.version.toNat) where
  isBase := h
  nonempty := Nat.toDigits_ne_nil
  isDigit _ hc := Text.isDigit_of_mem_toDigits hc
  eq_append := by rw [text, Nat.toString_eq_ofList_toDigits]

/-- A versioned identifier is read back from its `text`. -/
theorem parse_text (h : IsBase id.base) : parse id.text = .ok id :=
  parse_eq_ok_iff.2 ⟨_, hasForm_text h, Nat.ofDigitChars_ten_toDigits⟩

/-- The `next` version has the same base and the next number. -/
theorem next_eq_ok_iff :
    id.next = .ok later ↔ later.base = id.base ∧ later.version.toNat = id.version.toNat + 1 := by
  have hlater := later.version.toNat_lt
  rw [next]
  split
  · rename_i hlt
    have hversion : (id.version + 1).toNat = id.version.toNat + 1 := by
      rw [UInt32.toNat_add]
      exact Nat.mod_eq_of_lt hlt
    constructor
    · intro h
      cases h
      exact ⟨rfl, hversion⟩
    · rintro ⟨hbase, hnumber⟩
      obtain ⟨base, version⟩ := later
      obtain rfl : base = id.base := hbase
      obtain rfl : id.version + 1 = version := UInt32.toNat_inj.1 (hversion.trans hnumber.symm)
      rfl
  · constructor
    · intro h
      cases h
    · rintro ⟨-, hnumber⟩
      simp only [UInt32.size] at *
      omega

/-- Reading and writing versioned identifiers. What `parse` reads are exactly the texts with
`HasForm` and a number below 2^32; a text has the form in one way, and the base and the number are
what is read; any other text is refused as an identifier. So the `text` of a version is read as that
version, and the text of the `next` version as the same base with the next number. -/
theorem reads_by_form :
    (∀ identifier : String,
      ((∃ id, parse identifier = .ok id)
        ↔ ∃ base digits, HasForm identifier base digits
          ∧ Nat.ofDigitChars 10 digits 0 ≤ 4294967295)
      ∧ (∀ base digits base' digits', HasForm identifier base digits →
          HasForm identifier base' digits' → base = base' ∧ digits = digits')
      ∧ (∀ base digits id, HasForm identifier base digits → parse identifier = .ok id →
          id.base = base ∧ id.version.toNat = Nat.ofDigitChars 10 digits 0)
      ∧ ((∀ id, parse identifier ≠ .ok id) →
          ∃ reason, parse identifier = .error (.invalidKeyIdentifier identifier reason)))
    ∧ ∀ id : VersionedId, IsBase id.base →
      parse id.text = .ok id
      ∧ (id.version.toNat < 4294967295 → ∃ later, id.next = .ok later)
      ∧ ∀ later, id.next = .ok later →
        parse later.text = .ok later
        ∧ later.base = id.base ∧ later.version.toNat = id.version.toNat + 1 := by
  refine ⟨fun identifier => ⟨?_, ?_, ?_, exists_refusal⟩,
    fun id hbase => ⟨parse_text hbase, ?_, ?_⟩⟩
  · constructor
    · rintro ⟨id, hparse⟩
      obtain ⟨digits, hform, hversion⟩ := parse_eq_ok_iff.1 hparse
      have hlt := id.version.toNat_lt
      exact ⟨id.base, digits, hform, by omega⟩
    · rintro ⟨base, digits, hform, hsize⟩
      have hlt : Nat.ofDigitChars 10 digits 0 < UInt32.size := Nat.lt_succ_of_le hsize
      rw [parse_of_hasForm hform, if_pos hlt]
      exact ⟨_, rfl⟩
  · intro base digits base' digits' hform hform'
    exact hform.unique hform'
  · intro base digits id hform hparse
    obtain ⟨digits', hform', hversion⟩ := parse_eq_ok_iff.1 hparse
    obtain ⟨rfl, rfl⟩ := hform.unique hform'
    exact ⟨rfl, hversion.symm⟩
  · intro hsize
    have hversion : (UInt32.ofNat (id.version.toNat + 1)).toNat = id.version.toNat + 1 :=
      UInt32.toNat_ofNat_of_lt' (Nat.succ_lt_succ hsize)
    exact ⟨⟨id.base, UInt32.ofNat (id.version.toNat + 1)⟩, next_eq_ok_iff.2 ⟨rfl, hversion⟩⟩
  · intro later hnext
    obtain ⟨hsame, hnumber⟩ := next_eq_ok_iff.1 hnext
    exact ⟨parse_text (hsame ▸ hbase), hsame, hnumber⟩

/-- The base keeps marks and digits of its own, and zeros in front count for nothing. -/
example : parse "backup_v2_v0010" = .ok ⟨"backup_v2", 10⟩ := by rfl

end Strongbox.Key.VersionedId
