import Strongbox.Proofs.Password.Stored
/-!
# Hashing under a policy

What a policy that passed its check makes of a password: a hash that is read back from its record,
that the password has, and that the policy has no reason to renew. Whether two passwords have one
hash is up to the derivation. PBKDF2 fills a short password up with zero bytes before it uses it as
a key, so it has the same hashes with and without such bytes at its end; Argon2id takes the length
of the password into account.

## Main results

* `Hashed.readable`, `Hashed.verify`, `Hashed.isOutdated`: what is known of a hash made under a
  policy.
* `Policy.IsUsable.exists_hashWith`: under a policy in use no reasonable password is refused.
* `Stored.verify_of_verify`: which other passwords have the hash of one.
* `Stored.takesAlike_padded`: passwords that a hash by PBKDF2 does not tell apart.
-/

namespace Strongbox.Password

variable {policy : Policy} {password : String} {salt : Bytes} {h : Stored}

/-! ## Policies that passed their check -/

private theorem positive_of_refusal? {costs : Hash.Argon2.Params} {length : Nat}
    (h : costs.refusal? length = none) :
    0 < costs.memory.toNat ∧ 0 < costs.passes.toNat ∧ 0 < costs.lanes.toNat := by
  rw [Hash.Argon2.Params.refusal?] at h
  split at h; · cases h
  split at h; · cases h
  split at h; · cases h
  rename_i hmemory hpasses hlanes
  rw [not_or, UInt32.not_lt, UInt32.le_iff_toNat_le] at hmemory
  have height : (8 : UInt32).toNat = 8 := rfl
  omega

/-- What `Policy.validate` makes sure of. -/
structure Policy.IsAccepted (p : Policy) : Prop where
  costs : p.kdf.InRange
  salt : minSaltLength ≤ p.saltLength.toNat
  digest : minDigestLength ≤ p.digestLength.toNat ∧ p.digestLength.toNat ≤ maxDigestLength
  /-- Nothing but the lengths of password and salt can be refused. -/
  served : ∀ passwordLength saltLength,
    (p.method = .argon2id → Hash.Argon2.inputRefusal? passwordLength saltLength = none) →
    p.kdf.refusal? passwordLength saltLength p.digestLength.toNat = none

theorem Policy.isAccepted_of_validate {p : Policy} (h : p.validate = .ok ()) : p.IsAccepted := by
  rw [validate] at h
  split at h; · cases h
  split at h; · cases h
  split at h; · cases h
  split at h; · cases h
  rename_i hsalt hdigest hiterations hcosts
  cases hrefusal : p.argon2.refusal? p.digestLength.toNat with
  | some refusal =>
    rw [hrefusal] at h
    cases h
  | none =>
    obtain ⟨hmemory, hpasses, hlanes⟩ := positive_of_refusal? hrefusal
    have hpositive : 0 < p.iterations.toNat :=
      Nat.pos_of_ne_zero fun hzero => hiterations (.inl (UInt32.toNat_inj.1 hzero))
    refine ⟨?_, by omega, by omega, fun passwordLength saltLength hinputs => ?_⟩
    · cases hmethod : p.method with
      | argon2id =>
        rw [kdf, hmethod]
        exact ⟨⟨hmemory, by omega⟩, ⟨hpasses, by omega⟩, hlanes, by omega⟩
      | pbkdf2 =>
        rw [kdf, hmethod]
        exact ⟨hpositive, by omega⟩
    · cases hmethod : p.method with
      | argon2id =>
        rw [kdf, hmethod]
        simp only [Kdf.refusal?, hrefusal, hinputs hmethod, Option.map_none]
      | pbkdf2 =>
        rw [kdf, hmethod]
        exact if_neg fun hzero => hiterations (.inl hzero)

theorem inputRefusal?_eq_none_iff {passwordLength saltLength : Nat} :
    Hash.Argon2.inputRefusal? passwordLength saltLength = none
      ↔ passwordLength ≤ Hash.Argon2.maxInputLength ∧ 8 ≤ saltLength
        ∧ saltLength ≤ Hash.Argon2.maxInputLength := by
  rw [Hash.Argon2.inputRefusal?]
  split
  · exact iff_of_false (by simp) (by omega)
  split
  · exact iff_of_false (by simp) (by omega)
  split
  · exact iff_of_false (by simp) (by omega)
  · exact iff_of_true rfl (by omega)

/-- Under a policy for Argon2id, no input is served that has an `Argon2.inputRefusal?`. -/
theorem Policy.inputRefusal?_eq_none {p : Policy} {passwordLength saltLength length : Nat}
    (hserved : p.kdf.refusal? passwordLength saltLength length = none)
    (hmethod : p.method = .argon2id) :
    Hash.Argon2.inputRefusal? passwordLength saltLength = none := by
  rw [kdf, hmethod] at hserved
  simp only [Kdf.refusal?] at hserved
  split at hserved
  · cases hserved
  · exact Option.map_eq_none_iff.1 hserved

/-- The policy passed its check, as `IsAccepted` says, and asks for a salt that there can be. -/
structure Policy.IsUsable (p : Policy) : Prop where
  accepted : p.IsAccepted
  drawable : p.saltLength.toNat ≤ Bytes.maxLength
  salt_le : p.method = .argon2id → p.saltLength.toNat ≤ Hash.Argon2.maxInputLength

/-! ## Hashes made under a policy -/

/-- The hash was made of the password under the policy: by `hashWith`, for some salt. -/
def Hashed (policy : Policy) (password : String) (h : Stored) : Prop :=
  ∃ salt : Bytes, salt.length = policy.saltLength.toNat ∧ hashWith policy password salt = .ok h

theorem hashWith_eq_ok_iff :
    hashWith policy password salt = .ok h
      ↔ password.isEmpty = false
        ∧ policy.kdf.refusal? (Bytes.ofText password).length salt.length
          policy.digestLength.toNat = none
        ∧ h = ⟨policy.kdf, salt, policy.kdf.digest (Bytes.ofText password) salt
          policy.digestLength.toNat⟩ := by
  rw [hashWith, checkPassword, Kdf.derive]
  cases password.isEmpty with
  | true => simp [bind, Except.bind]
  | false =>
    cases policy.kdf.refusal? (Bytes.ofText password).length salt.length
        policy.digestLength.toNat with
    | some e => simp [bind, Except.bind]
    | none => simp [bind, Except.bind, eq_comm]

theorem hashWith_eq_error {e : Error} (hnonempty : password.isEmpty = false)
    (hrefusal : policy.kdf.refusal? (Bytes.ofText password).length salt.length
      policy.digestLength.toNat = some e) :
    hashWith policy password salt = .error e := by
  have hpassed : checkPassword password = .ok () := by
    rw [checkPassword, hnonempty]
    rfl
  rw [hashWith, hpassed, Kdf.derive, hrefusal]
  rfl

namespace Hashed

variable (hhashed : Hashed policy password h)

include hhashed

theorem isEmpty_eq_false : password.isEmpty = false := by
  obtain ⟨salt, -, hok⟩ := hhashed
  exact (hashWith_eq_ok_iff.1 hok).1

variable (haccepted : policy.IsAccepted)

include haccepted

theorem readable : h.Readable := by
  obtain ⟨salt, hlength, hok⟩ := hhashed
  obtain ⟨-, -, rfl⟩ := hashWith_eq_ok_iff.1 hok
  have hdigest := Kdf.length_digest policy.kdf (Bytes.ofText password) salt haccepted.digest.2
  refine ⟨haccepted.costs, ?_, ?_⟩
  · have hsalt := haccepted.salt
    unfold minSaltLength at hsalt
    show minStoredSaltLength ≤ salt.length
    unfold minStoredSaltLength
    omega
  · show minDigestLength ≤ (policy.kdf.digest _ salt _).length ∧ _ ≤ maxDigestLength
    rw [hdigest]
    exact haccepted.digest

/-- The password has its hash, according to `Stored.verify`. -/
theorem verify : h.verify password = .ok true := by
  obtain ⟨salt, -, hok⟩ := hhashed
  obtain ⟨-, hserved, rfl⟩ := hashWith_eq_ok_iff.1 hok
  have hdigest := Kdf.length_digest policy.kdf (Bytes.ofText password) salt haccepted.digest.2
  simp only [Stored.verify, hdigest, Kdf.derive, hserved, Except.map, beq_self_eq_true]

/-- The policy has no reason to renew the hash: it is not `isOutdated`. -/
theorem isOutdated : h.isOutdated policy = false := by
  obtain ⟨salt, hlength, hok⟩ := hhashed
  obtain ⟨-, -, rfl⟩ := hashWith_eq_ok_iff.1 hok
  have hdigest := Kdf.length_digest policy.kdf (Bytes.ofText password) salt haccepted.digest.2
  simp [Stored.isOutdated, hdigest, hlength]

/-- A policy under which one password was `Hashed` can be used for others. -/
theorem isUsable (hdrawn : policy.saltLength.toNat ≤ Bytes.maxLength) : policy.IsUsable := by
  refine ⟨haccepted, hdrawn, fun hmethod => ?_⟩
  obtain ⟨salt, hlength, hok⟩ := hhashed
  obtain ⟨-, hserved, -⟩ := hashWith_eq_ok_iff.1 hok
  rw [← hlength]
  exact (inputRefusal?_eq_none_iff.1 (Policy.inputRefusal?_eq_none hserved hmethod)).2.2

end Hashed

/-- Under a policy that passed its check (`IsAccepted`), a password is hashed with a salt of the
length that the policy asks for, unless one of them is too long for Argon2id. -/
theorem Policy.IsAccepted.exists_hashWith_iff (haccepted : policy.IsAccepted)
    (hnonempty : password.isEmpty = false) (hsalt : salt.length = policy.saltLength.toNat) :
    (∃ h, hashWith policy password salt = .ok h)
      ↔ (policy.method = .argon2id → policy.saltLength.toNat ≤ Hash.Argon2.maxInputLength
        ∧ (Bytes.ofText password).length ≤ Hash.Argon2.maxInputLength) := by
  rw [← hsalt]
  constructor
  · rintro ⟨h, hok⟩ hmethod
    obtain ⟨-, hserved, -⟩ := hashWith_eq_ok_iff.1 hok
    obtain ⟨hpassword, -, hlong⟩ :=
      inputRefusal?_eq_none_iff.1 (Policy.inputRefusal?_eq_none hserved hmethod)
    exact ⟨hlong, hpassword⟩
  · intro hshort
    have hmin := haccepted.salt
    unfold minSaltLength at hmin
    refine ⟨_, hashWith_eq_ok_iff.2 ⟨hnonempty, haccepted.served _ _ fun hmethod => ?_, rfl⟩⟩
    obtain ⟨hlong, hpassword⟩ := hshort hmethod
    exact inputRefusal?_eq_none_iff.2 ⟨hpassword, by omega, hlong⟩

/-- Under a policy in use (`IsUsable`) no password is refused but the empty one and those beyond 4
GiB. -/
theorem Policy.IsUsable.exists_hashWith (husable : policy.IsUsable)
    (hnonempty : password.isEmpty = false)
    (hshort : (Bytes.ofText password).length ≤ Hash.Argon2.maxInputLength)
    (hsalt : salt.length = policy.saltLength.toNat) :
    ∃ h, hashWith policy password salt = .ok h :=
  (husable.accepted.exists_hashWith_iff hnonempty hsalt).2 fun hmethod =>
    ⟨husable.salt_le hmethod, hshort⟩

/-! ## Passwords with one hash -/

/-- A derivation that has taken one password refuses another only for its length, and under Argon2id
only. -/
theorem Kdf.refusal?_eq_ite {kdf : Kdf} {sourceLength saltLength length : Nat}
    (hsource : kdf.refusal? sourceLength saltLength length = none) (passwordLength : Nat) :
    kdf.refusal? passwordLength saltLength length
      = if kdf.method = .argon2id ∧ Hash.Argon2.maxInputLength < passwordLength then
          some (.hashingFailed Method.argon2id.name Hash.Argon2.Refusal.passwordTooLong.message)
        else none := by
  cases kdf with
  | argon2id costs =>
    rw [refusal?] at hsource ⊢
    cases hcosts : costs.refusal? length with
    | some refusal =>
      rw [hcosts] at hsource
      cases hsource
    | none =>
      simp only [hcosts, Option.map_eq_none_iff, Hash.Argon2.inputRefusal?] at hsource ⊢
      split at hsource
      · cases hsource
      · by_cases hlong : Hash.Argon2.maxInputLength < passwordLength
        · simp [method, hlong]
        · simp [method, hlong, hsource]
  | pbkdf2 iterations => exact hsource

/-- The hash does not tell `p` and `q` apart: it has the same digest for both. -/
def Stored.TakesAlike (h : Stored) (p q : String) : Prop :=
  h.kdf.digest (Bytes.ofText p) h.salt h.digest.length
    = h.kdf.digest (Bytes.ofText q) h.salt h.digest.length

instance (h : Stored) (p q : String) : Decidable (h.TakesAlike p q) :=
  inferInstanceAs (Decidable (_ = _))

/-- A hash that one password has is had by those that it `TakesAlike` with it. -/
theorem Stored.verify_of_verify {source : String} (hsource : h.verify source = .ok true)
    (hshort : (Bytes.ofText password).length ≤ Hash.Argon2.maxInputLength) :
    h.verify password = .ok (decide (h.TakesAlike password source)) := by
  simp only [verify, Kdf.derive] at hsource ⊢
  cases hrefusal : h.kdf.refusal? (Bytes.ofText source).length h.salt.length h.digest.length with
  | some e =>
    rw [hrefusal] at hsource
    cases hsource
  | none =>
    rw [hrefusal] at hsource
    have hsame : h.kdf.digest (Bytes.ofText source) h.salt h.digest.length = h.digest :=
      eq_of_beq (Except.ok.inj hsource)
    rw [Kdf.refusal?_eq_ite hrefusal, if_neg fun hlong => Nat.not_lt.2 hshort hlong.2]
    simp only [Except.map, TakesAlike, hsame, Bool.beq_eq_decide_eq]

/-- To PBKDF2, a short password and the same with zero bytes after it are one key. -/
private theorem Kdf.digest_pbkdf2_padded {key : Bytes} {n : Nat} (hlength : key.length + n ≤ 64)
    (iterations : UInt32) (salt : Bytes) (length : Nat) :
    (Kdf.pbkdf2 iterations).digest (key ++ List.replicate n 0) salt length
      = (Kdf.pbkdf2 iterations).digest key salt length := by
  have hblock : Hash.Hmac.keyBlock (key ++ List.replicate n 0) = Hash.Hmac.keyBlock key := by
    have hpadded : (key ++ List.replicate n (0 : UInt8)).length = key.length + n := by simp
    have hzeros : n + (64 - (key.length + n)) = 64 - key.length := by omega
    simp only [Hash.Hmac.keyBlock, hpadded]
    rw [if_pos hlength, if_pos (by omega), hpadded, List.append_assoc,
      List.replicate_append_replicate, hzeros]
  have hkey : Hash.Hmac.Key.ofBytes (key ++ List.replicate n 0) = Hash.Hmac.Key.ofBytes key := by
    rw [Hash.Hmac.Key.ofBytes, Hash.Hmac.Key.ofBytes, hblock]
  rw [digest, digest, Hash.Pbkdf2.derive, Hash.Pbkdf2.derive, hkey]

/-- A hash by PBKDF2 `TakesAlike` a short password and the same with zero bytes after it. -/
theorem Stored.takesAlike_padded {zeros : String} {n : Nat} {iterations : UInt32}
    (hkdf : h.kdf = .pbkdf2 iterations) (hzeros : Bytes.ofText zeros = List.replicate n 0)
    (hlength : (Bytes.ofText password).length + n ≤ 64) :
    h.TakesAlike (password ++ zeros) password := by
  have hbytes : Bytes.ofText (password ++ zeros)
      = Bytes.ofText password ++ List.replicate n 0 := by
    rw [← hzeros]
    simp [Bytes.ofText]
  rw [TakesAlike, hkdf, hbytes]
  exact Kdf.digest_pbkdf2_padded hlength iterations h.salt h.digest.length

end Strongbox.Password
