import Strongbox.Cipher.Aes
/-!
# Deciphering undoes enciphering

Every step of a round has an inverse, and deciphering takes the inverses in the opposite order. For
substitution and the shifting of rows this is known already. The mixing of a column is linear over
exclusive or, so it is enough that the two matrices multiply to the identity, which is an identity
of polynomials in the doubling: no product has to be reduced.

## Main results

* `unmixWord_mixWord`, `mixWord_unmixWord`: the mixing is a permutation.
* `decipher_encipher`, `encipher_decipher`: so is the cipher, under any list of round keys.
-/

namespace Strongbox.Cipher.Aes

/-! ## Exclusive or -/

theorem byte_xor_left_comm (x y z : UInt8) : x ^^^ (y ^^^ z) = y ^^^ (x ^^^ z) := by
  rw [← UInt8.xor_assoc, UInt8.xor_comm x y, UInt8.xor_assoc]

@[simp] theorem xorWord_xorWord (x y : Word) : xorWord (xorWord x y) y = x := by
  simp only [xorWord, UInt8.xor_assoc, UInt8.xor_self, UInt8.xor_zero]

@[simp] theorem xorBlock_xorBlock (x y : Block) : xorBlock (xorBlock x y) y = x := by
  simp only [xorBlock, xorWord_xorWord]

/-! ## The mixing of columns -/

private theorem lt_half_iff (x : UInt8) : x < 0x80 ↔ x.toBitVec.msb = false := by
  rw [BitVec.msb_eq_decide, UInt8.lt_iff_toNat_lt]
  simp

/-- The low bits of two bytes move up together under `double`, and what falls off at the top falls
off of both. -/
theorem double_xor (x y : UInt8) : double (x ^^^ y) = double x ^^^ double y := by
  have hshift : (x ^^^ y) <<< 1 = (x <<< 1) ^^^ (y <<< 1) := by
    apply UInt8.toBitVec_inj.1
    simp [BitVec.shiftLeft_xor_distrib]
  simp only [double, lt_half_iff, UInt8.toBitVec_xor, BitVec.msb_xor, hshift]
  cases x.toBitVec.msb <;> cases y.toBitVec.msb <;>
    simp [UInt8.xor_assoc, UInt8.xor_comm, byte_xor_left_comm]

theorem mixWord_xorWord (x y : Word) :
    mixWord (xorWord x y) = xorWord (mixWord x) (mixWord y) := by
  simp only [mixWord, xorWord, double_xor]
  ac_rfl

private theorem multiples_xor (x y : UInt8) :
    multiples (x ^^^ y) = xorWord (multiples x) (multiples y) := by
  simp only [multiples, xorWord, double_xor, Column.mk.injEq]
  refine ⟨?_, ?_, ?_, ?_⟩ <;> ac_rfl

theorem unmixWord_xorWord (x y : Word) :
    unmixWord (xorWord x y) = xorWord (unmixWord x) (unmixWord y) := by
  simp only [unmixWord, xorWord, multiples_xor, Column.mk.injEq]
  refine ⟨?_, ?_, ?_, ?_⟩ <;> ac_rfl

/-- A column is the sum of its bytes at their places. -/
private theorem eq_xorWord (x : Word) :
    x = xorWord (xorWord ⟨x.a, 0, 0, 0⟩ ⟨0, x.b, 0, 0⟩)
      (xorWord ⟨0, 0, x.c, 0⟩ ⟨0, 0, 0, x.d⟩) := by
  simp [xorWord]

/-- An additive map that leaves each byte at its place is the identity. -/
theorem eq_of_additive {f : Word → Word} (hadd : ∀ x y, f (xorWord x y) = xorWord (f x) (f y))
    (ha : ∀ b, f ⟨b, 0, 0, 0⟩ = ⟨b, 0, 0, 0⟩) (hb : ∀ b, f ⟨0, b, 0, 0⟩ = ⟨0, b, 0, 0⟩)
    (hc : ∀ b, f ⟨0, 0, b, 0⟩ = ⟨0, 0, b, 0⟩) (hd : ∀ b, f ⟨0, 0, 0, b⟩ = ⟨0, 0, 0, b⟩)
    (x : Word) : f x = x := by
  have hx := eq_xorWord x
  calc f x = f (xorWord (xorWord ⟨x.a, 0, 0, 0⟩ ⟨0, x.b, 0, 0⟩)
        (xorWord ⟨0, 0, x.c, 0⟩ ⟨0, 0, 0, x.d⟩)) := by rw [← hx]
    _ = xorWord (xorWord ⟨x.a, 0, 0, 0⟩ ⟨0, x.b, 0, 0⟩)
        (xorWord ⟨0, 0, x.c, 0⟩ ⟨0, 0, 0, x.d⟩) := by rw [hadd, hadd, hadd, ha, hb, hc, hd]
    _ = x := hx.symm

theorem double_zero : double 0 = 0 := rfl

theorem unmixWord_mixWord (x : Word) : unmixWord (mixWord x) = x := by
  refine eq_of_additive (f := fun x => unmixWord (mixWord x)) (fun x y => ?_) ?_ ?_ ?_ ?_ x
  · simp only [mixWord_xorWord, unmixWord_xorWord]
  all_goals
    intro b
    simp [mixWord, unmixWord, multiples, double_xor, double_zero, UInt8.xor_assoc, UInt8.xor_comm,
      byte_xor_left_comm]

theorem mixWord_unmixWord (x : Word) : mixWord (unmixWord x) = x := by
  refine eq_of_additive (f := fun x => mixWord (unmixWord x)) (fun x y => ?_) ?_ ?_ ?_ ?_ x
  · simp only [mixWord_xorWord, unmixWord_xorWord]
  all_goals
    intro b
    simp [mixWord, unmixWord, multiples, double_xor, double_zero, UInt8.xor_assoc, UInt8.xor_comm,
      byte_xor_left_comm]

/-! ## The cipher -/

theorem mapWords_mapWords {f g : Word → Word} (h : ∀ w, f (g w) = w) (x : Block) :
    mapWords f (mapWords g x) = x := by
  simp only [mapWords, h]

theorem unsubstitute_word (x : Word) :
    mapWord unsubstitute (mapWord substitute x) = x := by
  simp only [mapWord, unsubstitute_substitute]

theorem substitute_word (x : Word) :
    mapWord substitute (mapWord unsubstitute x) = x := by
  simp only [mapWord, substitute_unsubstitute]

private theorem unrounds_rounds (ks : List Block) (x : Block) : unrounds ks (rounds ks x) = x := by
  induction ks, x using rounds.induct with
  | case1 x => rfl
  | case2 k x =>
    rw [rounds, unrounds, xorBlock_xorBlock, Grid.unslant_slant,
      mapWords_mapWords unsubstitute_word]
  | case3 x k ks hks ih =>
    rw [rounds, unrounds, ih, xorBlock_xorBlock, mapWords_mapWords unmixWord_mixWord,
      Grid.unslant_slant, mapWords_mapWords unsubstitute_word] <;> exact hks

private theorem rounds_unrounds (ks : List Block) (x : Block) : rounds ks (unrounds ks x) = x := by
  induction ks with
  | nil => rfl
  | cons k ks ih =>
    cases ks with
    | nil =>
      rw [unrounds, rounds, mapWords_mapWords substitute_word, Grid.slant_unslant,
        xorBlock_xorBlock]
    | cons k' ks =>
      rw [unrounds, rounds, mapWords_mapWords substitute_word, Grid.slant_unslant,
        mapWords_mapWords mixWord_unmixWord, xorBlock_xorBlock, ih] <;>
        exact List.cons_ne_nil k' ks

theorem decipher_encipher (ks : List Block) (x : Block) : decipher ks (encipher ks x) = x := by
  cases ks with
  | nil => rfl
  | cons k ks => rw [encipher, decipher, unrounds_rounds, xorBlock_xorBlock]

theorem encipher_decipher (ks : List Block) (x : Block) : encipher ks (decipher ks x) = x := by
  cases ks with
  | nil => rfl
  | cons k ks => rw [decipher, encipher, xorBlock_xorBlock, rounds_unrounds]

end Strongbox.Cipher.Aes
