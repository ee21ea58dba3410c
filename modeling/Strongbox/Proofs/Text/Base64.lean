import Strongbox.Text.Base64
/-!
# The spellings of a byte string in base64

Reading is lenient in one point only, the padding of the last group, so the texts that denote a
byte string can be listed: its written form, followed by as much of the padding as the last group
leaves room for. A byte string has one, two or three spellings, depending on its length alone.

## Main results

* `decodeChars_eq_some_iff`: what is read is the written form with a padding, and the other way
  round.
-/

namespace Strongbox.Text.Base64

/-- The paddings that the spelling of `n` bytes may carry. -/
def paddings (n : Nat) : List (List Char) :=
  match n % 3 with
  | 0 => [[]]
  | 1 => [[], ['='], ['=', '=']]
  | _ => [[], ['=']]

theorem nil_mem_paddings (n : Nat) : [] ∈ paddings n := by
  unfold paddings
  split <;> simp

/-- Every three bytes fill whole groups, which take no padding. -/
theorem paddings_add_three (n : Nat) : paddings (n + 3) = paddings n := by
  rw [paddings, paddings, Nat.add_mod_right]

variable {α : Alphabet}

/-- A letter that has a value is the letter of that value. -/
theorem Alphabet.letter_of_value? {c : Char} {n : Nat} (h : α.value? c = some n) :
    α.letter n = c ∧ n < α.letters.length := by
  obtain ⟨hlt, hget, -⟩ := List.idxOf?_eq_some_iff.1 h
  refine ⟨?_, hlt⟩
  rw [letter, List.getD_eq_getElem?_getD, List.getElem?_eq_getElem hlt]
  exact hget

/-! ## Groups -/

theorem decodeTwo_eq_some {a b : Char} {bytes : Bytes} (hα : α.letters.length = 64)
    (h : decodeTwo α a b = some bytes) :
    ∃ x, bytes = [x] ∧ encodeChars α [x] = [a, b] := by
  simp only [decodeTwo, Option.bind_eq_bind, Option.bind_eq_some_iff] at h
  obtain ⟨u, hu, v, hv, h⟩ := h
  split at h
  · rename_i hrest
    obtain ⟨rfl, hu64⟩ := Alphabet.letter_of_value? hu
    obtain ⟨rfl, hv64⟩ := Alphabet.letter_of_value? hv
    have hx : (UInt8.ofNat (u * 4 + v / 16)).toNat = u * 4 + v / 16 := by
      rw [UInt8.toNat_ofNat', Nat.mod_eq_of_lt (by omega)]
    refine ⟨UInt8.ofNat (u * 4 + v / 16), (Option.some.inj h).symm, ?_⟩
    rw [encodeChars, hx, show (u * 4 + v / 16) / 4 = u by omega,
      show (u * 4 + v / 16) % 4 * 16 = v by omega]
  · simp at h

theorem decodeThree_eq_some {a b c : Char} {bytes : Bytes} (hα : α.letters.length = 64)
    (h : decodeThree α a b c = some bytes) :
    ∃ x y, bytes = [x, y] ∧ encodeChars α [x, y] = [a, b, c] := by
  simp only [decodeThree, Option.bind_eq_bind, Option.bind_eq_some_iff] at h
  obtain ⟨u, hu, v, hv, w, hw, h⟩ := h
  split at h
  · rename_i hrest
    obtain ⟨rfl, hu64⟩ := Alphabet.letter_of_value? hu
    obtain ⟨rfl, hv64⟩ := Alphabet.letter_of_value? hv
    obtain ⟨rfl, hw64⟩ := Alphabet.letter_of_value? hw
    have hx : (UInt8.ofNat (u * 4 + v / 16)).toNat = u * 4 + v / 16 := by
      rw [UInt8.toNat_ofNat', Nat.mod_eq_of_lt (by omega)]
    have hy : (UInt8.ofNat (v % 16 * 16 + w / 4)).toNat = v % 16 * 16 + w / 4 := by
      rw [UInt8.toNat_ofNat', Nat.mod_eq_of_lt (by omega)]
    refine ⟨UInt8.ofNat (u * 4 + v / 16), UInt8.ofNat (v % 16 * 16 + w / 4),
      (Option.some.inj h).symm, ?_⟩
    rw [encodeChars, hx, hy, show (u * 4 + v / 16) / 4 = u by omega,
      show (u * 4 + v / 16) % 4 * 16 + (v % 16 * 16 + w / 4) / 16 = v by omega,
      show (v % 16 * 16 + w / 4) % 16 * 4 = w by omega]
  · simp at h

theorem decodeFour_eq_some {a b c d : Char} {bytes : Bytes} (hα : α.letters.length = 64)
    (h : decodeFour α a b c d = some bytes) :
    ∃ x y z, bytes = [x, y, z] ∧ encodeChars α [x, y, z] = [a, b, c, d] := by
  simp only [decodeFour, Option.bind_eq_bind, Option.bind_eq_some_iff] at h
  obtain ⟨u, hu, v, hv, w, hw, q, hq, h⟩ := h
  obtain ⟨rfl, hu64⟩ := Alphabet.letter_of_value? hu
  obtain ⟨rfl, hv64⟩ := Alphabet.letter_of_value? hv
  obtain ⟨rfl, hw64⟩ := Alphabet.letter_of_value? hw
  obtain ⟨rfl, hq64⟩ := Alphabet.letter_of_value? hq
  have hx : (UInt8.ofNat (u * 4 + v / 16)).toNat = u * 4 + v / 16 := by
    rw [UInt8.toNat_ofNat', Nat.mod_eq_of_lt (by omega)]
  have hy : (UInt8.ofNat (v % 16 * 16 + w / 4)).toNat = v % 16 * 16 + w / 4 := by
    rw [UInt8.toNat_ofNat', Nat.mod_eq_of_lt (by omega)]
  have hz : (UInt8.ofNat (w % 4 * 64 + q)).toNat = w % 4 * 64 + q := by
    rw [UInt8.toNat_ofNat', Nat.mod_eq_of_lt (by omega)]
  refine ⟨UInt8.ofNat (u * 4 + v / 16), UInt8.ofNat (v % 16 * 16 + w / 4),
    UInt8.ofNat (w % 4 * 64 + q), (Option.some.inj h).symm, ?_⟩
  rw [encodeChars, hx, hy, hz, show (u * 4 + v / 16) / 4 = u by omega,
    show (u * 4 + v / 16) % 4 * 16 + (v % 16 * 16 + w / 4) / 16 = v by omega,
    show (v % 16 * 16 + w / 4) % 16 * 4 + (w % 4 * 64 + q) / 64 = w by omega,
    show (w % 4 * 64 + q) % 64 = q by omega]
  rfl

/-- The last group, read by `decodeLast`, is the spelling of at most three bytes. -/
private theorem decodeLast_eq_some {chars : List Char} {bytes : Bytes} (hα : α.letters.length = 64)
    (h : decodeLast α chars = some bytes) :
    ∃ p ∈ paddings bytes.length, chars = encodeChars α bytes ++ p := by
  unfold decodeLast at h
  split at h
  · obtain rfl := Option.some.inj h
    exact ⟨[], by simp [paddings], rfl⟩
  · obtain ⟨x, rfl, hx⟩ := decodeTwo_eq_some hα h
    exact ⟨[], by simp [paddings], by simp [hx]⟩
  · split at h
    · obtain ⟨x, rfl, hx⟩ := decodeTwo_eq_some hα h
      rename_i hc
      exact ⟨['='], by simp [paddings], by simp [hx, hc]⟩
    · obtain ⟨x, y, rfl, hxy⟩ := decodeThree_eq_some hα h
      exact ⟨[], by simp [paddings], by simp [hxy]⟩
  · split at h
    · rename_i hd
      split at h
      · rename_i hc
        obtain ⟨x, rfl, hx⟩ := decodeTwo_eq_some hα h
        exact ⟨['=', '='], by simp [paddings], by simp [hx, hc, hd]⟩
      · obtain ⟨x, y, rfl, hxy⟩ := decodeThree_eq_some hα h
        exact ⟨['='], by simp [paddings], by simp [hxy, hd]⟩
    · obtain ⟨x, y, z, rfl, hxyz⟩ := decodeFour_eq_some hα h
      exact ⟨[], by simp [paddings], by simp [hxyz]⟩
  · simp at h

/-! ## Whole texts -/

/-- Letters that `decodeChars` reads are the written form of what they denote, with a padding. -/
private theorem eq_append_of_decodeChars {chars : List Char} {bytes : Bytes}
    (hα : α.letters.length = 64) (h : decodeChars α chars = some bytes) :
    ∃ p ∈ paddings bytes.length, chars = encodeChars α bytes ++ p := by
  induction chars using decodeChars.induct generalizing bytes with
  | case1 a b c d e rest ih =>
    simp only [decodeChars, Option.bind_eq_bind, Option.bind_eq_some_iff] at h
    obtain ⟨front, hfront, back, hback, h⟩ := h
    obtain ⟨x, y, z, rfl, hxyz⟩ := decodeFour_eq_some hα hfront
    obtain ⟨p, hp, hrest⟩ := ih hback
    obtain rfl := Option.some.inj h
    refine ⟨p, ?_, ?_⟩
    · simpa [paddings_add_three] using hp
    · simp only [encodeChars, List.cons.injEq] at hxyz
      rw [List.cons_append, List.cons_append, List.cons_append, List.nil_append, encodeChars,
        hrest]
      simp [hxyz]
  | case2 chars hshort =>
    rw [decodeChars.eq_2 α chars hshort] at h
    exact decodeLast_eq_some hα h

/-- A padding that has its place is skipped. -/
theorem decodeChars_append_padding (bytes : Bytes) {p : List Char}
    (hp : p ∈ paddings bytes.length) :
    decodeChars α (encodeChars α bytes ++ p) = decodeChars α (encodeChars α bytes) := by
  match bytes with
  | [] =>
    obtain rfl : p = [] := by simpa [paddings] using hp
    rfl
  | [a] =>
    obtain rfl | rfl | rfl : p = [] ∨ p = ['='] ∨ p = ['=', '='] := by
      simpa [paddings] using hp
    · rfl
    · simp [encodeChars, decodeChars, decodeLast]
    · simp [encodeChars, decodeChars, decodeLast]
  | [a, b] =>
    obtain rfl | rfl : p = [] ∨ p = ['='] := by simpa [paddings] using hp
    · simp
    · simp [encodeChars, decodeChars, decodeLast]
  | a :: b :: c :: rest =>
    have hp' : p ∈ paddings rest.length := by
      simpa [List.length_cons, paddings_add_three] using hp
    have ih := decodeChars_append_padding rest hp'
    simp only [encodeChars, List.cons_append]
    cases hrest : encodeChars α rest with
    | nil =>
      -- Nothing is left after whole groups, so no padding has a place.
      obtain rfl := encodeChars_eq_nil hrest
      obtain rfl : p = [] := by simpa [paddings] using hp'
      rfl
    | cons e tail =>
      rw [hrest, List.cons_append] at ih
      rw [List.cons_append]
      simp only [decodeChars]
      rw [ih]

/-- The spellings of a byte string are its written form with each of the `paddings` that have their
place. -/
theorem decodeChars_eq_some_iff (hproper : α.Proper) (hα : α.letters.length = 64)
    {chars : List Char} {bytes : Bytes} :
    decodeChars α chars = some bytes
      ↔ ∃ p ∈ paddings bytes.length, chars = encodeChars α bytes ++ p := by
  constructor
  · exact eq_append_of_decodeChars hα
  · rintro ⟨p, hp, rfl⟩
    rw [decodeChars_append_padding bytes hp, decodeChars_encodeChars hproper]

/-- The written form has only letters of the alphabet. -/
theorem encodeChars_all {P : Char → Prop} (hletters : ∀ n < 64, P (α.letter n)) (bytes : Bytes) :
    ∀ c ∈ encodeChars α bytes, P c := by
  match bytes with
  | [] => simp [encodeChars]
  | [a] =>
    have ha := a.toNat_lt
    simp only [encodeChars, List.mem_cons, List.not_mem_nil, or_false]
    rintro c (rfl | rfl) <;> exact hletters _ (by omega)
  | [a, b] =>
    have ha := a.toNat_lt
    have hb := b.toNat_lt
    simp only [encodeChars, List.mem_cons, List.not_mem_nil, or_false]
    rintro c (rfl | rfl | rfl) <;> exact hletters _ (by omega)
  | a :: b :: c :: rest =>
    have ha := a.toNat_lt
    have hb := b.toNat_lt
    have hc := c.toNat_lt
    simp only [encodeChars, List.mem_cons]
    rintro d (rfl | rfl | rfl | rfl | hd)
    iterate 4 exact hletters _ (by omega)
    exact encodeChars_all hletters rest d hd

/-- There are at most two letters for each byte. -/
theorem length_encodeChars_le (α : Alphabet) (bytes : Bytes) :
    (encodeChars α bytes).length ≤ 2 * bytes.length := by
  match bytes with
  | [] => simp [encodeChars]
  | [a] => simp [encodeChars]
  | [a, b] => simp [encodeChars]
  | a :: b :: c :: rest =>
    have hrest := length_encodeChars_le α rest
    simp only [encodeChars, List.length_cons]
    omega

end Strongbox.Text.Base64
