import Strongbox.Error
import Strongbox.Text.Blank
/-!
# Key identifiers

A key is named by a text of 1 to 200 characters without colons, which separate the parts of storage
locations, and without control characters.

Keys that are rotated have names of the form `base_vN`. The base is any non-empty text on one line,
even one that contains `_v` itself: the version is the run of digits at the end.

## Main results

* `checkIdentifier_eq_ok_iff`: which texts name a key.
-/

namespace Strongbox.Key

/-- The longest identifier, in characters. -/
def maxIdentifierLength : Nat := 200

/-- Why a text cannot name a key. -/
def identifierRefusal? (identifier : String) : Option String :=
  let chars := identifier.toList
  if chars = [] then some "must not be empty"
  else if maxIdentifierLength < chars.length then some "longer than 200 characters"
  else if ':' ∈ chars then some "must not contain ':'"
  else if chars.any Text.isControl then some "must not contain control characters"
  else none

/-- Refuses a text that cannot name a key. -/
def checkIdentifier (identifier : String) : Except Error Unit :=
  match identifierRefusal? identifier with
  | some reason => .error (.invalidKeyIdentifier identifier reason)
  | none => .ok ()

/-- The texts that name keys: those that have no `identifierRefusal?`. -/
structure IsIdentifier (identifier : String) : Prop where
  nonempty : identifier.toList ≠ []
  short : identifier.toList.length ≤ maxIdentifierLength
  no_colon : ':' ∉ identifier.toList
  no_control : ∀ c ∈ identifier.toList, Text.isControl c = false

theorem checkIdentifier_eq_ok_iff {identifier : String} :
    checkIdentifier identifier = .ok () ↔ IsIdentifier identifier := by
  simp only [checkIdentifier, identifierRefusal?]
  constructor
  · intro h
    split at h
    · simp at h
    · rename_i hnone
      split at hnone
      · simp at hnone
      split at hnone
      · simp at hnone
      split at hnone
      · simp at hnone
      split at hnone
      · simp at hnone
      rename_i h1 h2 h3 h4
      exact ⟨h1, by omega, h3, by simpa using h4⟩
  · intro ⟨h1, h2, h3, h4⟩
    have h4' : identifier.toList.any Text.isControl = false := by simpa using h4
    rw [if_neg h1, if_neg (by omega), if_neg h3, h4']
    rfl

/-! ## Versioned identifiers -/

/-- An identifier of the form `base_vN`. -/
structure VersionedId where
  base : String
  version : UInt32
  deriving DecidableEq, Repr

namespace VersionedId

/-- The identifier as a text. -/
def text (id : VersionedId) : String := id.base ++ "_v" ++ toString id.version.toNat

/-- The versioned identifier that a text is. -/
def parse (identifier : String) : Except Error VersionedId :=
  let reversed := identifier.toList.reverse
  let digits := (reversed.takeWhile Char.isDigit).reverse
  match reversed.dropWhile Char.isDigit with
  | 'v' :: '_' :: base =>
    if digits = [] ∨ base = [] ∨ '\n' ∈ base then
      .error (.invalidKeyIdentifier identifier "expected the form \x7bbase\x7d_v\x7bnumber\x7d")
    else
      let version := Nat.ofDigitChars 10 digits 0
      if version < UInt32.size then .ok ⟨String.ofList base.reverse, UInt32.ofNat version⟩
      else .error (.invalidKeyIdentifier identifier "version number out of range")
  | _ => .error (.invalidKeyIdentifier identifier "expected the form \x7bbase\x7d_v\x7bnumber\x7d")

/-- The versioned identifier that a text is, if `parse` finds it to be one. -/
def parse? (identifier : String) : Option VersionedId := (parse identifier).toOption

/-- The identifier one version later. The last version is 2^32 - 1. -/
def next (id : VersionedId) : Except Error VersionedId :=
  if id.version.toNat + 1 < UInt32.size then .ok { id with version := id.version + 1 }
  else .error (.invalidKeyIdentifier id.text "version counter exhausted")

end VersionedId

end Strongbox.Key
