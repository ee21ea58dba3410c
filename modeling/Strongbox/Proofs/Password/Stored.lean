import Strongbox.Password.Stored
import Strongbox.Proofs.Text.Base64
import Strongbox.Proofs.Text.Digits
/-!
# Stored hashes are read back

The fields of a stored hash hold no `$`, so splitting its written form gives them back one by one.
Numbers are written without needless zeros and base64 in its one written form, so the strict reader
accepts them. A hash is read back if its costs and lengths lie within the limits of the reader.

## Main results

* `parse_render`: a hash within the limits is read back from its written form.
-/

namespace Strongbox.Password

/-- The costs are positive and within the limits of `maxMemory`, `maxPasses` and the like. -/
def Kdf.InRange : Kdf → Prop
  | .argon2id costs =>
    (0 < costs.memory.toNat ∧ costs.memory.toNat ≤ maxMemory)
      ∧ (0 < costs.passes.toNat ∧ costs.passes.toNat ≤ maxPasses)
      ∧ (0 < costs.lanes.toNat ∧ costs.lanes.toNat ≤ maxLanes)
  | .pbkdf2 iterations => 0 < iterations.toNat ∧ iterations.toNat ≤ maxIterations

instance : (kdf : Kdf) → Decidable kdf.InRange
  | .argon2id _ => inferInstanceAs (Decidable (_ ∧ _ ∧ _))
  | .pbkdf2 _ => inferInstanceAs (Decidable (_ ∧ _))

namespace Stored

/-- The hash is within the limits of the reader. -/
structure Readable (h : Stored) : Prop where
  costs : h.kdf.InRange
  salt : minStoredSaltLength ≤ h.salt.length
  digest : minDigestLength ≤ h.digest.length ∧ h.digest.length ≤ maxDigestLength

/-! ## Numbers -/

private theorem isCanonical_toDigits {n : Nat} (h : 0 < n) : isCanonical
    (Nat.toDigits 10 n) = true := by
  have hnonempty : (Nat.toDigits 10 n).isEmpty = false := by
    rw [List.isEmpty_eq_false_iff]
    exact Nat.toDigits_ne_nil
  have hdigits : (Nat.toDigits 10 n).all Char.isDigit = true := by
    rw [List.all_eq_true]
    exact fun c hc => Text.isDigit_of_mem_toDigits hc
  have hfront : ((Nat.toDigits 10 n).head? == some '0') = false := by
    rw [beq_eq_false_iff_ne]
    exact Text.head?_toDigits_ne h
  rw [isCanonical, hnonempty, hdigits, hfront]
  simp

/-- A number in range is read back by `readNumber` from its field. -/
theorem readNumber_numberField (name : Char) {n limit : Nat} (hpositive : 0 < n)
    (hlimit : n ≤ limit) : readNumber name limit (numberField name n) = .ok n := by
  unfold readNumber numberField
  simp only [ne_eq, not_true_eq_false, if_false, isCanonical_toDigits hpositive, Bool.not_true,
    Bool.false_eq_true, Nat.ofDigitChars_ten_toDigits]
  rw [if_neg (by omega), if_neg (by omega)]

/-! ## Bytes -/

/-- Bytes are read back by `readBytes` from their field. -/
theorem readBytes_bytesField (name : String) (bytes : Bytes) :
    readBytes name (bytesField bytes) = .ok bytes := by
  have hdecode : Text.Base64.decodeChars Text.Base64.standard (bytesField bytes) = some bytes :=
    Text.Base64.decodeChars_encodeChars Text.Base64.standard_proper bytes
  rw [readBytes, hdecode]
  simp

private theorem readSecret_bytesField {h : Stored} (hreadable : h.Readable) :
    readSecret h.kdf (bytesField h.salt) (bytesField h.digest) = .ok h := by
  obtain ⟨-, hsalt, hdigest⟩ := hreadable
  rw [readSecret, readBytes_bytesField, readBytes_bytesField]
  show (if h.salt.length < minStoredSaltLength then _ else _) = _
  rw [if_neg (by omega), if_neg (by omega)]

/-! ## Fields -/

theorem dollar_not_mem_numberField {name : Char} (hname : name ≠ '$') (n : Nat) :
    '$' ∉ numberField name n := by
  intro h
  simp only [numberField, List.mem_cons] at h
  rcases h with h | h | h
  · exact hname h.symm
  · cases h
  · have hdigit := Text.isDigit_of_mem_toDigits h
    revert hdigit
    decide

theorem dollar_not_mem_bytesField (bytes : Bytes) : '$' ∉ bytesField bytes := by
  have hdollar : Text.Base64.standard.value? '$' = none := by decide
  have hletters : ∀ n < 64, Text.Base64.standard.letter n ≠ '$' := by
    intro n hn hletter
    have hvalue := (Text.Base64.standard_proper n hn).1
    rw [hletter, hdollar] at hvalue
    cases hvalue
  intro h
  exact Text.Base64.encodeChars_all (P := (· ≠ '$')) hletters bytes '$' h rfl

private theorem dollar_not_mem_fields (h : Stored) : ∀ field ∈ h.fields, '$' ∉ field := by
  obtain ⟨kdf, salt, digest⟩ := h
  have hsalt := dollar_not_mem_bytesField salt
  have hdigest := dollar_not_mem_bytesField digest
  cases kdf with
  | argon2id costs =>
    intro field hfield
    simp only [fields, costFields, List.cons_append, List.nil_append, List.mem_cons,
      List.not_mem_nil, or_false] at hfield
    rcases hfield with rfl | rfl | rfl | rfl | rfl | rfl | rfl | rfl
    · simp
    · show '$' ∉ Method.argon2id.name.toList
      decide
    · exact dollar_not_mem_numberField (by decide) _
    · exact dollar_not_mem_numberField (by decide) _
    · exact dollar_not_mem_numberField (by decide) _
    · exact dollar_not_mem_numberField (by decide) _
    · exact hsalt
    · exact hdigest
  | pbkdf2 iterations =>
    intro field hfield
    simp only [fields, costFields, List.cons_append, List.nil_append, List.mem_cons,
      List.not_mem_nil, or_false] at hfield
    rcases hfield with rfl | rfl | rfl | rfl | rfl
    · simp
    · show '$' ∉ Method.pbkdf2.name.toList
      decide
    · exact dollar_not_mem_numberField (by decide) _
    · exact hsalt
    · exact hdigest

/-- Splitting the written form at `$` gives the fields back. -/
private theorem splitOn_render (h : Stored) : h.render.toList.splitOn '$' = h.fields := by
  rw [render, String.toList_ofList]
  exact List.splitOn_intercalate '$' h.dollar_not_mem_fields (by simp [fields, costFields])

/-- A hash within the limits is read back by `parse` from its written form. -/
theorem parse_render {h : Stored} (hreadable : h.Readable) : parse h.render = .ok h := by
  have hsecret := readSecret_bytesField hreadable
  have hcosts := hreadable.costs
  obtain ⟨kdf, salt, digest⟩ := h
  rw [parse, splitOn_render]
  cases kdf with
  | argon2id costs =>
    obtain ⟨hmemory, hpasses, hlanes⟩ := hcosts
    have hversion : readNumber 'v' 0xFFFFFFFF (numberField 'v' argon2Version)
        = .ok argon2Version := readNumber_numberField 'v' (by decide) (by decide)
    have hm := readNumber_numberField 'm' hmemory.1 hmemory.2
    have ht := readNumber_numberField 't' hpasses.1 hpasses.2
    have hp := readNumber_numberField 'p' hlanes.1 hlanes.2
    simp only [fields, costFields, List.cons_append, List.nil_append, String.ofList_toList,
      Method.ofName?_name, Kdf.method, readFields, hversion, hm, ht, hp, bind, Except.bind]
    simpa using hsecret
  | pbkdf2 iterations =>
    have hi := readNumber_numberField 'i' hcosts.1 hcosts.2
    simp only [fields, costFields, List.cons_append, List.nil_append, String.ofList_toList,
      Method.ofName?_name, Kdf.method, readFields, hi, bind, Except.bind]
    simpa using hsecret

end Stored

end Strongbox.Password
