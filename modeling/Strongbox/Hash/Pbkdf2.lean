import Strongbox.Hash.Hmac
/-!
# PBKDF2 over HMAC-SHA-256

The password-based key derivation of RFC 8018. Each block of 32 bytes is the exclusive or of a
chain of codes under the password: the first code is of the salt and the block's number, every
further one of the code before it.

## Main results

* `length_derive`: the derived key has the length that was asked for.
-/

namespace Strongbox.Hash.Pbkdf2

/-- `count` further codes of the chain, folded into `sum`. -/
def chain (key : Hmac.Key) : Nat → Bytes → Bytes → Bytes
  | 0, _, sum => sum
  | count + 1, last, sum =>
    let next := key.code last
    chain key count next (Bytes.xor sum next)

/-- Block number `index`, counted from 1. -/
def block (key : Hmac.Key) (salt : Bytes) (iterations index : Nat) : Bytes :=
  let first := key.code (salt ++ Bytes.bigEndian 4 index)
  chain key (iterations - 1) first first

/-- The key of `length` bytes derived from a password. -/
def derive (password salt : Bytes) (iterations length : Nat) : Bytes :=
  let key := Hmac.Key.ofBytes password
  ((List.range (Bytes.pieceCount 32 length)).flatMap
    fun i => block key salt iterations (i + 1)).take length

theorem length_chain (key : Hmac.Key) (count : Nat) (last sum : Bytes) (h : sum.length = 32) :
    (chain key count last sum).length = 32 := by
  induction count generalizing last sum with
  | zero => exact h
  | succ count ih =>
    refine ih _ _ ?_
    simp [Bytes.xor, h, Hmac.Key.length_code]

theorem length_block (key : Hmac.Key) (salt : Bytes) (iterations index : Nat) :
    (block key salt iterations index).length = 32 :=
  length_chain _ _ _ _ (Hmac.Key.length_code _ _)

theorem length_derive (password salt : Bytes) (iterations length : Nat) :
    (derive password salt iterations length).length = length := by
  have hblocks : ∀ n : Nat, ((List.range n).flatMap
      fun i => block (Hmac.Key.ofBytes password) salt iterations (i + 1)).length = 32 * n := by
    intro n
    induction n with
    | zero => rfl
    | succ n ih =>
      rw [List.range_succ, List.flatMap_append, List.length_append, ih]
      simp [length_block]
      omega
  rw [derive, List.length_take, hblocks, Bytes.pieceCount]
  omega

end Strongbox.Hash.Pbkdf2
