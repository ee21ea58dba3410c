import Strongbox.Error
import Strongbox.Hash.Argon2
import Strongbox.Hash.Pbkdf2
/-!
# Password derivations

A password is turned into a digest by one of two key derivation functions, each with costs of its
own. A derivation refuses costs and inputs it cannot work with.

## Main results

* `Kdf.length_digest`: a digest has the length that was asked for.
-/

namespace Strongbox.Password

/-- A key derivation function for passwords. -/
inductive Method where
  | argon2id
  | pbkdf2
  deriving DecidableEq, Repr

/-- The name under which a `Method` is stored. -/
def Method.name : Method → String
  | .argon2id => "argon2id"
  | .pbkdf2 => "pbkdf2-sha256"

/-- The method of that name, see `Method.name`. -/
def Method.ofName? (text : String) : Option Method :=
  [Method.argon2id, .pbkdf2].find? fun m => m.name == text

theorem Method.ofName?_name (m : Method) : Method.ofName? m.name = some m := by
  cases m <;> decide

/-- A key derivation function with its costs. -/
inductive Kdf where
  | argon2id (costs : Hash.Argon2.Params)
  | pbkdf2 (iterations : UInt32)
  deriving DecidableEq, Repr

namespace Kdf

/-- The function without its costs. -/
def method : Kdf → Method
  | .argon2id _ => .argon2id
  | .pbkdf2 _ => .pbkdf2

/-- Why no digest of `length` bytes can be derived from a password and a salt of these lengths. -/
def refusal? (kdf : Kdf) (passwordLength saltLength length : Nat) : Option Error :=
  match kdf with
  | .argon2id costs =>
    match costs.refusal? length with
    | some refusal => some (.invalidHashFormat ("argon2 parameters: " ++ refusal.message))
    | none =>
      (Hash.Argon2.inputRefusal? passwordLength saltLength).map fun refusal =>
        .hashingFailed Method.argon2id.name refusal.message
  | .pbkdf2 iterations =>
    if iterations = 0 then some (.invalidHashFormat "iterations must be positive") else none

/-- The digest of a password and a salt, for costs that `refusal?` lets pass. -/
def digest (kdf : Kdf) (password salt : Bytes) (length : Nat) : Bytes :=
  match kdf with
  | .argon2id costs => Hash.Argon2.derive costs password salt length
  | .pbkdf2 iterations => Hash.Pbkdf2.derive password salt iterations.toNat length

/-- Derives a digest of `length` bytes from a password and a salt. -/
def derive (kdf : Kdf) (password : String) (salt : Bytes) (length : Nat) : Except Error Bytes :=
  let password := Bytes.ofText password
  match kdf.refusal? password.length salt.length length with
  | some e => .error e
  | none => .ok (kdf.digest password salt length)

theorem length_digest (kdf : Kdf) (password salt : Bytes) {length : Nat} (h : length ≤ 64) :
    (kdf.digest password salt length).length = length := by
  cases kdf with
  | argon2id costs => exact Hash.Argon2.length_derive costs password salt h
  | pbkdf2 iterations => exact Hash.Pbkdf2.length_derive password salt iterations.toNat length

end Kdf

end Strongbox.Password
