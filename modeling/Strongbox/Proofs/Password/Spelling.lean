import Strongbox.Proofs.Password.Stored
/-!
# A stored hash has one spelling

What is written is read back. This module adds the other half: what is read was written. A number
without needless zeros is the decimal form of what it denotes, a field of base64 is compared with
its written form before it counts, and no text can stand between the fields. So a text that is read
is the written form of the hash that comes out, and that hash is within the limits. Every other text
is refused for its format, whatever is wrong with it.

## Main results

* `readNumber_eq_ok_iff`, `readBytes_eq_ok_iff`, `readSecret_eq_ok_iff`: what the fields are read
  as.
* `eq_fields_of_readFields`: fields that are read are those of the hash.
* `onlyMalformed_parse`: a text is refused for nothing but its format.
* `parse_iff_render`: a text is read as a hash exactly if it is the written form of that hash.
-/

namespace Strongbox.Password

/-- A name that `Method.ofName?` knows is the name of the method that it stands for. -/
private theorem Method.name_of_ofName? {text : String} {m : Method}
    (h : Method.ofName? text = some m) : m.name = text := by
  simpa using List.find?_some h

namespace Stored

/-! ## Numbers -/

/-- Digits for which `isCanonical` holds are the decimal form of what they denote. -/
private theorem toDigits_of_isCanonical {digits : List Char} (h : isCanonical digits = true) :
    Nat.toDigits 10 (Nat.ofDigitChars 10 digits 0) = digits := by
  simp only [isCanonical, Bool.and_eq_true, Bool.not_eq_true', List.isEmpty_eq_false_iff,
    List.all_eq_true, Bool.and_eq_false_iff, decide_eq_false_iff_not, beq_eq_false_iff_ne] at h
  obtain ⟨⟨hnonempty, hdigits⟩, hfront⟩ := h
  refine (Text.toDigits_ofDigitChars_eq_iff hnonempty hdigits).2 ?_
  rintro ⟨rest, hrest, rfl⟩
  rcases hfront with hshort | hfirst
  · exact hrest (List.eq_nil_of_length_eq_zero (by simpa using hshort))
  · exact hfirst rfl

/-- A field is read as a number exactly if it is the `numberField` of that number, which is in
range. -/
theorem readNumber_eq_ok_iff {name : Char} {limit n : Nat} {field : List Char} :
    readNumber name limit field = .ok n ↔ field = numberField name n ∧ 0 < n ∧ n ≤ limit := by
  constructor
  · intro h
    unfold readNumber at h
    split at h
    · rename_i a digits
      split at h
      · cases h
      · rename_i hname
        split at h
        · cases h
        · rename_i hcanonical
          dsimp only at h
          split at h
          · cases h
          · rename_i hpositive
            split at h
            · cases h
            · rename_i hlimit
              obtain rfl := Except.ok.inj h
              have hdigits := toDigits_of_isCanonical (by simpa using hcanonical)
              refine ⟨?_, Nat.pos_of_ne_zero hpositive, Nat.not_lt.1 hlimit⟩
              rw [numberField, hdigits, Decidable.of_not_not hname]
    · cases h
  · rintro ⟨rfl, hpositive, hlimit⟩
    exact readNumber_numberField name hpositive hlimit

/-! ## Bytes -/

/-- A field is read as bytes exactly if it is the `bytesField` of those bytes. -/
theorem readBytes_eq_ok_iff {name : String} {field : List Char} {bytes : Bytes} :
    readBytes name field = .ok bytes ↔ field = bytesField bytes := by
  constructor
  · intro h
    unfold readBytes at h
    split at h
    · cases h
    · split at h
      · cases h
      · rename_i hspelling
        obtain rfl := Except.ok.inj h
        exact (Decidable.of_not_not hspelling).symm
  · rintro rfl
    exact readBytes_bytesField name bytes

/-- Two fields are read as salt and digest exactly if they are the fields of a salt and a digest
whose lengths are allowed. -/
theorem readSecret_eq_ok_iff {kdf : Kdf} {salt digest : List Char} {h : Stored} :
    readSecret kdf salt digest = .ok h
      ↔ h.kdf = kdf ∧ salt = bytesField h.salt ∧ digest = bytesField h.digest
        ∧ minStoredSaltLength ≤ h.salt.length
        ∧ minDigestLength ≤ h.digest.length ∧ h.digest.length ≤ maxDigestLength := by
  unfold readSecret
  constructor
  · intro hread
    obtain ⟨salt', hsalt, hread⟩ := exists_of_bind_eq_ok hread
    obtain ⟨digest', hdigest, hread⟩ := exists_of_bind_eq_ok hread
    rw [readBytes_eq_ok_iff] at hsalt hdigest
    split at hread
    · cases hread
    · split at hread
      · cases hread
      · rename_i hshort hrange
        have hlengths : minStoredSaltLength ≤ salt'.length
            ∧ minDigestLength ≤ digest'.length ∧ digest'.length ≤ maxDigestLength := by omega
        obtain rfl := Except.ok.inj hread
        exact ⟨rfl, hsalt, hdigest, hlengths⟩
  · rintro ⟨rfl, rfl, rfl, hsalt, hdigest⟩
    rw [readBytes_bytesField, readBytes_bytesField]
    show (if h.salt.length < minStoredSaltLength then _ else _) = _
    rw [if_neg (by omega), if_neg (by omega)]

/-! ## Whole texts -/

/-- A number within a limit of the policy is kept as a word. -/
theorem toNat_ofNat_of_le {n limit : Nat} (h : n ≤ limit) (hlimit : limit < UInt32.size) :
    (UInt32.ofNat n).toNat = n :=
  UInt32.toNat_ofNat_of_lt' (Nat.lt_of_le_of_lt h hlimit)

/-- Fields that `readFields` takes are those of the hash that comes out, and it is within the
limits. -/
theorem eq_fields_of_readFields {method : Method} {fields : List (List Char)} {h : Stored}
    (hread : readFields method fields = .ok h) :
    [] :: method.name.toList :: fields = h.fields ∧ h.Readable := by
  obtain ⟨kdf, salt, digest⟩ := h
  cases method with
  | argon2id =>
    unfold readFields at hread
    dsimp only at hread
    split at hread
    · obtain ⟨version, hversion, hread⟩ := exists_of_bind_eq_ok hread
      split at hread
      · cases hread
      · rename_i hknown
        obtain ⟨memory, hmemory, hread⟩ := exists_of_bind_eq_ok hread
        obtain ⟨passes, hpasses, hread⟩ := exists_of_bind_eq_ok hread
        obtain ⟨lanes, hlanes, hread⟩ := exists_of_bind_eq_ok hread
        obtain ⟨rfl, rfl, rfl, hsalt, hdigest⟩ := readSecret_eq_ok_iff.1 hread
        obtain ⟨rfl, hm, hmlimit⟩ := readNumber_eq_ok_iff.1 hmemory
        obtain ⟨rfl, ht, htlimit⟩ := readNumber_eq_ok_iff.1 hpasses
        obtain ⟨rfl, hp, hplimit⟩ := readNumber_eq_ok_iff.1 hlanes
        obtain ⟨rfl, -, -⟩ := readNumber_eq_ok_iff.1 hversion
        have hmword := toNat_ofNat_of_le hmlimit (by decide)
        have htword := toNat_ofNat_of_le htlimit (by decide)
        have hpword := toNat_ofNat_of_le hplimit (by decide)
        refine ⟨?_, ?_, hsalt, hdigest⟩
        · simp only [Stored.fields, costFields, Kdf.method, hmword, htword, hpword,
            Decidable.of_not_not hknown, List.cons_append, List.nil_append]
        · show (0 < UInt32.toNat _ ∧ _) ∧ (0 < UInt32.toNat _ ∧ _) ∧ (0 < UInt32.toNat _ ∧ _)
          rw [hmword, htword, hpword]
          exact ⟨⟨hm, hmlimit⟩, ⟨ht, htlimit⟩, ⟨hp, hplimit⟩⟩
    · cases hread
  | pbkdf2 =>
    unfold readFields at hread
    dsimp only at hread
    split at hread
    · obtain ⟨iterations, hiterations, hread⟩ := exists_of_bind_eq_ok hread
      obtain ⟨rfl, rfl, rfl, hsalt, hdigest⟩ := readSecret_eq_ok_iff.1 hread
      obtain ⟨rfl, hi, hilimit⟩ := readNumber_eq_ok_iff.1 hiterations
      have hiword := toNat_ofNat_of_le hilimit (by decide)
      refine ⟨?_, ?_, hsalt, hdigest⟩
      · simp only [Stored.fields, costFields, Kdf.method, hiword, List.cons_append,
          List.nil_append]
      · show 0 < UInt32.toNat _ ∧ _
        rw [hiword]
        exact ⟨hi, hilimit⟩
    · cases hread

/-- A text that `parse` reads is the written form of the hash that comes out. -/
theorem eq_render_of_parse {text : String} {h : Stored} (hread : parse text = .ok h) :
    text = h.render ∧ h.Readable := by
  unfold parse at hread
  split at hread
  · rename_i name fields hsplit
    split at hread
    · rename_i method hmethod
      have hname := Method.name_of_ofName? hmethod
      obtain ⟨hfields, hreadable⟩ := eq_fields_of_readFields hread
      refine ⟨?_, hreadable⟩
      rw [hname, String.toList_ofList] at hfields
      rw [render, ← hfields, ← hsplit, List.intercalate_splitOn, String.ofList_toList]
    · cases hread
  · cases hread

/-! ## Refusals -/

/-- A reader refuses for nothing but the format: with `Error.invalidHashFormat`. -/
def OnlyMalformed {α : Type} (r : Except Error α) : Prop :=
  ∀ e, r = .error e → ∃ reason, e = .invalidHashFormat reason

theorem onlyMalformed_ok {α : Type} (a : α) : OnlyMalformed (.ok a) := by
  intro e h
  cases h

theorem onlyMalformed_malformed {α : Type} (reason : String) :
    OnlyMalformed (malformed (α := α) reason) := by
  intro e h
  cases h
  exact ⟨reason, rfl⟩

theorem OnlyMalformed.bind {α β : Type} {first : Except Error α} {next : α → Except Error β}
    (hfirst : OnlyMalformed first) (hnext : ∀ a, OnlyMalformed (next a)) :
    OnlyMalformed (first >>= next) := by
  cases first with
  | ok a => exact hnext a
  | error e =>
    intro e' h
    cases h
    exact hfirst e rfl

theorem onlyMalformed_readNumber (name : Char) (limit : Nat) (field : List Char) :
    OnlyMalformed (readNumber name limit field) := by
  unfold readNumber
  split
  · dsimp only
    split
    · exact onlyMalformed_malformed _
    · split
      · exact onlyMalformed_malformed _
      · split
        · exact onlyMalformed_malformed _
        · split
          · exact onlyMalformed_malformed _
          · exact onlyMalformed_ok _
  · exact onlyMalformed_malformed _

theorem onlyMalformed_readBytes (name : String) (field : List Char) :
    OnlyMalformed (readBytes name field) := by
  unfold readBytes
  split
  · exact onlyMalformed_malformed _
  · split
    · exact onlyMalformed_malformed _
    · exact onlyMalformed_ok _

theorem onlyMalformed_readSecret (kdf : Kdf) (salt digest : List Char) :
    OnlyMalformed (readSecret kdf salt digest) := by
  unfold readSecret
  refine (onlyMalformed_readBytes _ _).bind fun salt => ?_
  refine (onlyMalformed_readBytes _ _).bind fun digest => ?_
  split
  · exact onlyMalformed_malformed _
  · split
    · exact onlyMalformed_malformed _
    · exact onlyMalformed_ok _

private theorem onlyMalformed_readFields (method : Method) (fields : List (List Char)) :
    OnlyMalformed (readFields method fields) := by
  unfold readFields
  split
  · split
    · refine (onlyMalformed_readNumber _ _ _).bind fun version => ?_
      split
      · exact onlyMalformed_malformed _
      · refine (onlyMalformed_readNumber _ _ _).bind fun memory => ?_
        refine (onlyMalformed_readNumber _ _ _).bind fun passes => ?_
        refine (onlyMalformed_readNumber _ _ _).bind fun lanes => ?_
        exact onlyMalformed_readSecret _ _ _
    · exact onlyMalformed_malformed _
  · split
    · refine (onlyMalformed_readNumber _ _ _).bind fun iterations => ?_
      exact onlyMalformed_readSecret _ _ _
    · exact onlyMalformed_malformed _

/-- A text is refused by `parse` for nothing but its format. -/
theorem onlyMalformed_parse (text : String) : OnlyMalformed (parse text) := by
  unfold parse
  split
  · split
    · exact onlyMalformed_readFields _ _
    · exact onlyMalformed_malformed _
  · exact onlyMalformed_malformed _

/-! ## Reading is the inverse of writing -/

/-- A text is read as a hash by `parse` exactly if it is the written form (`render`) of that hash
and the hash is within the limits (`Readable`). Every other text is refused, and for its format. So
no two texts denote one hash, and every hash within the limits comes back from its written form. -/
theorem parse_iff_render :
    (∀ text h, parse text = .ok h ↔ text = h.render ∧ h.Readable)
      ∧ (∀ text, (∀ h : Stored, h.Readable → text ≠ h.render) →
          ∃ reason, parse text = .error (.invalidHashFormat reason))
      ∧ (∀ text other h, parse text = .ok h → parse other = .ok h → text = other)
      ∧ ∀ h : Stored, h.Readable → parse h.render = .ok h := by
  have hread : ∀ text h, parse text = .ok h ↔ text = h.render ∧ h.Readable := by
    intro text h
    constructor
    · exact eq_render_of_parse
    · rintro ⟨rfl, hreadable⟩
      exact parse_render hreadable
  refine ⟨hread, fun text hnone => ?_, fun text other h hthis hother => ?_, fun h hreadable => ?_⟩
  · cases hparse : parse text with
    | ok h =>
      obtain ⟨hrender, hreadable⟩ := (hread text h).1 hparse
      exact absurd hrender (hnone h hreadable)
    | error e =>
      obtain ⟨reason, rfl⟩ := onlyMalformed_parse text e hparse
      exact ⟨reason, rfl⟩
  · rw [(eq_render_of_parse hthis).1, (eq_render_of_parse hother).1]
  · exact parse_render hreadable

/-- A hash of two iterations, of the shortest salt and the shortest digest. -/
def shortHash : Stored := ⟨.pbkdf2 2, List.replicate 8 0, List.replicate 16 0⟩

theorem shortHash_parsed : shortHash.Readable ∧ parse shortHash.render = .ok shortHash := by
  have hreadable : shortHash.Readable := ⟨by decide, by decide, by decide⟩
  exact ⟨hreadable, parse_iff_render.2.2.2 shortHash hreadable⟩

example : shortHash.render = "$pbkdf2-sha256$i=2$AAAAAAAAAAA$AAAAAAAAAAAAAAAAAAAAAA" := by decide

example : parse "$pbkdf2-sha256$i=02$AAAAAAAAAAA$AAAAAAAAAAAAAAAAAAAAAA"
    = .error (.invalidHashFormat "parameter 'i' is not a canonical number") := by rfl

end Stored

end Strongbox.Password
