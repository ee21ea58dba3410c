import Strongbox.Proofs.Text.Base64
import Strongbox.Token.Signer
/-!
# The spellings of a token's text

The text of a token is read part by part in base64, whose reading tolerates padding. A nonce of 16
bytes leaves room for two padding characters and a code of 32 bytes for one, so every pair of nonce
and code has six spellings. A signer writes one of them and accepts all six.

## Main results

* `parts?_eq_some_iff`: the texts that denote a nonce and a code.
* `verify_iff`: a token is verified exactly if its text is a spelling of some nonce with the code
  of the message under that nonce.
* `verify_sign`: what a signer makes it accepts.
-/

namespace Strongbox.Token

open Text.Base64 (encodeChars paddings urlSafe)

/-- The text of a nonce and a code whose parts carry the paddings `p` and `q`. -/
def spelling (nonce code : Bytes) (p q : List Char) : String :=
  String.ofList (encodeChars urlSafe nonce ++ p ++ '.' :: (encodeChars urlSafe code ++ q))

/-- The texts that denote a nonce and a code: a `spelling` for each pair of `paddings`. -/
def spellings (nonce code : Bytes) : List String :=
  (paddings nonce.length).flatMap fun p =>
    (paddings code.length).map fun q => spelling nonce code p q

/-- The nonce that the token's text denotes. -/
def nonce? (t : Token) : Option Bytes := (parts? t.text).map (·.1)

theorem mem_spellings {nonce code : Bytes} {text : String} :
    text ∈ spellings nonce code ↔ ∃ p ∈ paddings nonce.length, ∃ q ∈ paddings code.length,
      text = spelling nonce code p q := by
  simp only [spellings, List.mem_flatMap, List.mem_map, eq_comm]

/-- The written form, `textOf`, is a spelling. -/
theorem textOf_mem_spellings (nonce code : Bytes) : textOf nonce code ∈ spellings nonce code := by
  refine mem_spellings.2 ⟨[], Text.Base64.nil_mem_paddings _, [],
    Text.Base64.nil_mem_paddings _, ?_⟩
  apply String.toList_injective
  simp [textOf, textPart, Text.Base64.encode, spelling]

/-! ## Reading -/

/-- The full stop is no letter and no padding, so it stands between the parts only. -/
theorem stop_not_mem_part {bytes : Bytes} {p : List Char} (hp : p ∈ paddings bytes.length) :
    '.' ∉ encodeChars urlSafe bytes ++ p := by
  have hstop : urlSafe.value? '.' = none := by decide
  have hletters : ∀ n < 64, urlSafe.letter n ≠ '.' := fun n hn heq => by
    have hvalue := (Text.Base64.urlSafe_proper n hn).1
    rw [heq, hstop] at hvalue
    simp at hvalue
  have hpadding : '.' ∉ p := by
    unfold paddings at hp
    split at hp <;> simp only [List.mem_cons, List.not_mem_nil, or_false] at hp
    · simp [hp]
    · rcases hp with rfl | rfl | rfl <;> simp
    · rcases hp with rfl | rfl <;> simp
  rw [List.mem_append]
  rintro (h | h)
  · exact Text.Base64.encodeChars_all (P := (· ≠ '.')) hletters bytes '.' h rfl
  · exact hpadding h

theorem decodeChars_urlSafe_eq_some_iff {chars : List Char} {bytes : Bytes} :
    Text.Base64.decodeChars urlSafe chars = some bytes
      ↔ ∃ p ∈ paddings bytes.length, chars = encodeChars urlSafe bytes ++ p :=
  Text.Base64.decodeChars_eq_some_iff Text.Base64.urlSafe_proper (by decide)

/-- The texts that denote a nonce and a code, by `parts?`, are their `spellings`. -/
theorem parts?_eq_some_iff {text : String} {nonce code : Bytes} :
    parts? text = some (nonce, code)
      ↔ nonce.length = nonceSize ∧ text ∈ spellings nonce code := by
  constructor
  · intro h
    unfold parts? at h
    split at h
    · rename_i a b hsplit
      simp only [Option.bind_eq_bind, Option.bind_eq_some_iff] at h
      obtain ⟨nonce', hnonce, code', hcode, h⟩ := h
      split at h
      · rename_i hlength
        obtain ⟨rfl, rfl⟩ := Prod.mk.inj (Option.some.inj h)
        obtain ⟨p, hp, rfl⟩ := decodeChars_urlSafe_eq_some_iff.1 hnonce
        obtain ⟨q, hq, rfl⟩ := decodeChars_urlSafe_eq_some_iff.1 hcode
        refine ⟨hlength, mem_spellings.2 ⟨p, hp, q, hq, ?_⟩⟩
        have htext : ['.'].intercalate (text.toList.splitOn '.') = text.toList :=
          List.intercalate_splitOn '.'
        rw [hsplit] at htext
        apply String.toList_injective
        rw [← htext, spelling, String.toList_ofList]
        simp [List.intercalate]
      · simp at h
    · simp at h
  · rintro ⟨hlength, htext⟩
    obtain ⟨p, hp, q, hq, rfl⟩ := mem_spellings.1 htext
    have hsplit : (spelling nonce code p q).toList.splitOn '.'
        = [encodeChars urlSafe nonce ++ p, encodeChars urlSafe code ++ q] := by
      rw [spelling, String.toList_ofList,
        List.splitOn_append_cons_self_of_not_mem (stop_not_mem_part hp),
        List.splitOn_eq_singleton (stop_not_mem_part hq)]
    have hnonce := decodeChars_urlSafe_eq_some_iff.2 ⟨p, hp, rfl⟩
    have hcode := decodeChars_urlSafe_eq_some_iff.2 ⟨q, hq, rfl⟩
    simp [parts?, hsplit, hnonce, hcode, hlength]

theorem parts?_textOf (nonce : Nonce) (code : Bytes) :
    parts? (textOf nonce code) = some (nonce.val, code) :=
  parts?_eq_some_iff.2 ⟨nonce.property, textOf_mem_spellings nonce code⟩

/-- The texts that `parts?` takes apart are not empty: they have a full stop. -/
private theorem isEmpty_eq_false_of_parts? {text : String} {parts : Bytes × Bytes}
    (h : parts? text = some parts) : text.isEmpty = false := by
  obtain ⟨nonce, code⟩ := parts
  obtain ⟨-, htext⟩ := parts?_eq_some_iff.1 h
  obtain ⟨p, -, q, -, rfl⟩ := mem_spellings.1 htext
  rw [← Bool.not_eq_true, String.isEmpty_iff]
  intro hempty
  have hchars := congrArg String.toList hempty
  simp [spelling] at hchars

/-! ## Verification -/

/-- The text of a token is no part of its `signedMessage`. -/
theorem signedMessage_withText (nonce : Bytes) (t : Token) (text : String) :
    signedMessage nonce { t with text } = signedMessage nonce t := rfl

/-- What a signer accepts: the `spellings` of each nonce and of the code of the message under it. -/
theorem verify_iff {signer : Signer} {t : Token} :
    signer.verify t = true
      ↔ ∃ nonce : Nonce, t.text ∈ spellings nonce (signer.code (signedMessage nonce t)) := by
  unfold Signer.verify
  constructor
  · intro h
    split at h
    · rename_i nonce code hparts
      obtain ⟨hlength, htext⟩ := parts?_eq_some_iff.1 hparts
      rw [beq_iff_eq] at h
      exact ⟨⟨nonce, hlength⟩, h ▸ htext⟩
    · simp at h
  · rintro ⟨nonce, htext⟩
    rw [parts?_eq_some_iff.2 ⟨nonce.property, htext⟩]
    simp

/-- What a signer makes with `sign`, it accepts with `verify`. -/
theorem verify_sign (signer : Signer) (nonce : Nonce) (t : Token) :
    signer.verify (signer.sign nonce t) = true :=
  verify_iff.2 ⟨nonce, textOf_mem_spellings _ _⟩

/-- The nonce that a verified token's text denotes. -/
theorem exists_nonce?_of_verify {signer : Signer} {t : Token} (h : signer.verify t = true) :
    ∃ nonce : Nonce, t.nonce? = some nonce.val
      ∧ t.text ∈ spellings nonce (signer.code (signedMessage nonce t)) := by
  obtain ⟨nonce, htext⟩ := verify_iff.1 h
  refine ⟨nonce, ?_, htext⟩
  rw [nonce?, parts?_eq_some_iff.2 ⟨nonce.property, htext⟩]
  rfl

theorem isEmpty_eq_false_of_verify {signer : Signer} {t : Token} (h : signer.verify t = true) :
    t.text.isEmpty = false := by
  unfold Signer.verify at h
  split at h
  · rename_i hparts
    exact isEmpty_eq_false_of_parts? hparts
  · cases h

end Strongbox.Token
