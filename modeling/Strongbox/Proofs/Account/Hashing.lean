import Strongbox.Proofs.Account.Records
import Strongbox.Proofs.Key.Consistency
/-!
# What an accepted policy is good for

Three sets of limits meet where a password is hashed: those of the policy's check, those of the
reader of stored hashes and those of the derivation. The first are within the second, so what is
hashed under an accepted policy can be read back; the costs are within the third. The length of the
salt is not: the check has a lower bound for it and no upper one. A salt beyond 4 GiB is refused by
Argon2id, and one that fills more than half the addresses cannot be made at all. So a policy can
pass its check and still refuse every password.

## Main results

* `hash_succeeds_iff`: under which accepted policies hashing succeeds, and what is known of the
  hash.
-/

namespace Strongbox.Account.Guard

open Password (Policy Stored Hashed)

variable {policy : Policy} {password : String}

/-- Verifying a password against the written form of a hash, by `Guard.verify`, needs no request and
no policy. -/
theorem perform_verify_render {h : Stored} (hreadable : h.Readable) (S : Surroundings)
    (s : S.State) :
    (S.perform (verify password h.render) s).1 = Outcome.ofExcept (h.verify password) := by
  have hparsed : S.perform (Action.ofExcept (Stored.parse h.render)) s = (.ok h, s) := by
    rw [Stored.parse_render hreadable]
    rfl
  rw [verify]
  exact congrArg Prod.fst (Action.perform_bind_of_ok S.answer _ hparsed)

/-- The derivation takes a salt of the length that the policy asks for, and the password. -/
def Takes (policy : Policy) (password : String) : Prop :=
  policy.method = .argon2id → policy.saltLength.toNat ≤ Hash.Argon2.maxInputLength
    ∧ (Bytes.ofText password).length ≤ Hash.Argon2.maxInputLength

/-- Under a policy that passed its check, a password that is not empty is hashed whatever salt is
drawn, provided that there can be a salt of that length and that the derivation `Takes` it and the
password. The hash is read back from its written form, is not outdated under the policy, and is one
that the password has, whoever verifies it. -/
theorem hash_succeeds_iff (S : Surroundings) (hpolicy : policy.validate = .ok ())
    (hnonempty : password.isEmpty = false) :
    (∀ s, S.failures (hash policy password) s = [] →
        ((∃ h, (S.perform (hash policy password) s).1 = .ok h)
          ↔ policy.saltLength.toNat ≤ Bytes.maxLength ∧ Takes policy password))
      ∧ ∀ s h, (S.perform (hash policy password) s).1 = .ok h →
        Stored.parse h.render = .ok h ∧ h.isOutdated policy = false
          ∧ ∀ t, (S.perform (verify password h.render) t).1 = .ok true := by
  have haccepted := Policy.isAccepted_of_validate hpolicy
  refine ⟨fun s hserved => ?_, fun s h hok => ?_⟩
  · obtain ⟨-, hderived⟩ := runs_hash (S.runs_perform (hash policy password) s)
    rw [hserved] at hderived
    generalize (S.perform (hash policy password) s).1 = outcome at hderived
    cases hderived with
    | @derived salt hlength hdrawn =>
      have hiff := haccepted.exists_hashWith_iff hnonempty hlength
      simp only [Outcome.ofExcept_eq_ok_iff]
      exact ⟨fun hsome => ⟨hdrawn, hiff.1 hsome⟩, fun htakes => hiff.2 htakes.2⟩
    | empty hempty => exact absurd hempty (Bool.eq_false_iff.1 hnonempty)
    | saltTooLong hlong =>
      exact iff_of_false (fun ⟨_, h⟩ => by cases h) fun h => Nat.not_lt.2 h.1 hlong
  · obtain ⟨-, hderived⟩ := runs_hash (S.runs_perform (hash policy password) s)
    rw [hok] at hderived
    have hhashed : Hashed policy password h := by
      generalize S.failures (hash policy password) s = failed at hderived
      generalize hsome : (Except.ok h : Outcome Stored) = outcome at hderived
      cases hderived with
      | derived hlength hdrawn =>
        exact ⟨_, hlength, Outcome.ofExcept_eq_ok_iff.1 hsome.symm⟩
      | empty | saltTooLong | notDrawn => cases hsome
    have hreadable := hhashed.readable haccepted
    refine ⟨Stored.parse_render hreadable, hhashed.isOutdated haccepted, fun t => ?_⟩
    rw [perform_verify_render hreadable, hhashed.verify haccepted]
    rfl

/-- A policy for Argon2id at the least costs, with salts of some length. -/
def leastCosts (saltLength : UInt64) : Policy := ⟨.argon2id, ⟨8, 1, 1⟩, 2, saltLength, 32⟩

/-- Two policies pass their check under which no password is hashed: there is no room for a salt of
the one, and Argon2id refuses a salt of the other. -/
theorem longSalt_refused :
    (leastCosts 9223372036854775808).validate = .ok ()
      ∧ (leastCosts 4294967296).validate = .ok ()
      ∧ (World.plainSurroundings.perform (hash (leastCosts 9223372036854775808) "p")
        Key.keylessWorld).1 = .error .outOfMemory
      ∧ Password.hashWith (leastCosts 4294967296) "p" (List.replicate 4294967296 0)
        = .error (.hashingFailed "argon2id" "salt is too long") := by
  have hrefusal : (leastCosts 4294967296).kdf.refusal? (Bytes.ofText "p").length 4294967296 32
      = some (.hashingFailed "argon2id" "salt is too long") := by decide +kernel
  refine ⟨by decide +kernel, by decide +kernel, by decide +kernel, ?_⟩
  apply Password.hashWith_eq_error
  · decide
  · rw [List.length_replicate]
    exact hrefusal

/-- Two iterations of PBKDF2, which is cheap. -/
def twoIterations : Policy := ⟨.pbkdf2, ⟨8, 1, 1⟩, 2, 16, 32⟩

/-- A hash under a policy that is good for it, verified elsewhere. -/
theorem twoIterations_hashed :
    ∃ h, (World.plainSurroundings.perform (hash twoIterations "p") Key.keylessWorld).1 = .ok h
      ∧ Stored.parse h.render = .ok h ∧ h.isOutdated twoIterations = false
      ∧ (World.plainSurroundings.perform (verify "p" h.render) Key.keylessWorld).1 = .ok true := by
  have hpolicy : twoIterations.validate = .ok () := by decide
  have hnonempty : "p".isEmpty = false := by decide
  obtain ⟨hiff, hknown⟩ := hash_succeeds_iff World.plainSurroundings hpolicy hnonempty
  obtain ⟨h, hok⟩ := (hiff Key.keylessWorld (World.failures_eq_nil rfl _)).2
    ⟨by decide, fun hmethod => by cases hmethod⟩
  obtain ⟨hparsed, hcurrent, hverified⟩ := hknown _ h hok
  exact ⟨h, hok, hparsed, hcurrent, hverified _⟩

end Strongbox.Account.Guard
