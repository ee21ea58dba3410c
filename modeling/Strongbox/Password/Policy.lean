import Strongbox.Json.Record
import Strongbox.Password.Kdf
/-!
# Password policies

How new passwords are hashed: the derivation with its costs, the length of the salt and the length
of the digest. Both derivations keep their costs in the policy; `method` says which is in use.

A policy is checked as a whole before it is used. The costs and the length of the digest are then
never refused by the derivation; for the length of the salt there is only a lower bound.
-/

namespace Strongbox.Password

/-- The most memory that is allowed, in units of 1024 bytes. -/
def maxMemory : Nat := 4194304

/-- The most passes that are allowed. -/
def maxPasses : Nat := 64

/-- The most lanes that are allowed. -/
def maxLanes : Nat := 64

/-- The most iterations that are allowed. -/
def maxIterations : Nat := 10000000

/-- The shortest salt of a new hash. -/
def minSaltLength : Nat := 16

/-- The shortest digest. -/
def minDigestLength : Nat := 16

/-- The longest digest. -/
def maxDigestLength : Nat := 64

/-- How new passwords are hashed. -/
structure Policy where
  method : Method
  argon2 : Hash.Argon2.Params
  iterations : UInt32
  saltLength : UInt64
  digestLength : UInt64
  deriving DecidableEq, Repr

namespace Policy

/-- Argon2id with 64 MiB, three passes and four lanes. -/
def default : Policy where
  method := .argon2id
  argon2 := ⟨65536, 3, 4⟩
  iterations := 310000
  saltLength := 16
  digestLength := 32

/-- For constrained devices: 19 MiB, two passes and one lane. -/
def lowResource : Policy := { default with argon2 := ⟨19456, 2, 1⟩ }

/-- For sensitive data: 256 MiB, four passes, eight lanes and a salt of 32 bytes. -/
def highSecurity : Policy :=
  { default with argon2 := ⟨262144, 4, 8⟩, iterations := 600000, saltLength := 32 }

/-- The derivation of new hashes, by the method of the policy `p`. -/
def kdf (p : Policy) : Kdf :=
  match p.method with
  | .argon2id => .argon2id p.argon2
  | .pbkdf2 => .pbkdf2 p.iterations

/-- The first setting that is out of range. -/
def validate (p : Policy) : Except Error Unit :=
  if p.saltLength.toNat < minSaltLength then
    .error (.configuration "password.salt_len" "must be at least 16 bytes")
  else if p.digestLength.toNat < minDigestLength ∨ maxDigestLength < p.digestLength.toNat then
    .error (.configuration "password.output_len" "must be between 16 and 64 bytes")
  else if p.iterations = 0 ∨ maxIterations < p.iterations.toNat then
    .error (.configuration "password.pbkdf2_iterations" "must be between 1 and 10000000")
  else if maxMemory < p.argon2.memory.toNat ∨ maxPasses < p.argon2.passes.toNat
      ∨ maxLanes < p.argon2.lanes.toNat then
    .error (.configuration "password.argon2"
      "memory at most 4 GiB, time cost and parallelism at most 64")
  else
    match p.argon2.refusal? p.digestLength.toNat with
    | some refusal => .error (.configuration "password.argon2" refusal.message)
    | none => .ok ()

/-! ## JSON -/

/-- The costs of Argon2id as a record. -/
def costsToJson (c : Hash.Argon2.Params) : Json :=
  .record
    [("memory_cost_kib", .ofNat c.memory.toNat), ("time_cost", .ofNat c.passes.toNat),
      ("parallelism", .ofNat c.lanes.toNat)]

/-- Reads the costs of Argon2id, all of which must be given. -/
def costsOfJson? (value : Json) : Option Hash.Argon2.Params := do
  match ← value.fields? ["memory_cost_kib", "time_cost", "parallelism"] with
  | [memory, passes, lanes] =>
    let memory ← Json.required Json.asWord32? memory
    let passes ← Json.required Json.asWord32? passes
    let lanes ← Json.required Json.asWord32? lanes
    some ⟨memory, passes, lanes⟩
  | _ => none

/-- A policy as a record. -/
def toJson (p : Policy) : Json :=
  .record
    [("algorithm", .ofText p.method.name), ("argon2", costsToJson p.argon2),
      ("pbkdf2_iterations", .ofNat p.iterations.toNat),
      ("salt_len", .ofNat p.saltLength.toNat), ("output_len", .ofNat p.digestLength.toNat)]

/-- Reads a policy; fields that are missing have their values in `default`. -/
def ofJson? (value : Json) : Option Policy := do
  match ← value.fields? ["algorithm", "argon2", "pbkdf2_iterations", "salt_len", "output_len"] with
  | [method, argon2, iterations, saltLength, digestLength] =>
    let method ← Json.orDefault default.method (·.asName?.bind Method.ofName?) method
    let argon2 ← Json.orDefault default.argon2 costsOfJson? argon2
    let iterations ← Json.orDefault default.iterations Json.asWord32? iterations
    let saltLength ← Json.orDefault default.saltLength Json.asWord64? saltLength
    let digestLength ← Json.orDefault default.digestLength Json.asWord64? digestLength
    some ⟨method, argon2, iterations, saltLength, digestLength⟩
  | _ => none

end Policy

end Strongbox.Password
