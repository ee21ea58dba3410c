import Strongbox.Proofs.Token.Issue
import Strongbox.Session
/-!
# What a session makes of a token

A token that is accepted, authorized or refreshed is authentic: forged is the standing of all
others. Retired tokens are found under the digest of their text, so tokens of one text are retired
together.

## Main results

* `accepts_iff`, `authorize_eq_ok_iff`, `refreshRefusal?_eq_none_iff`: when a token is of use.
-/

namespace Strongbox.Session

open Time (Instant)

variable {issuer : Token.Issuer} {s : Session} {t u : Token} {now : Instant}

/-! ## Authentic tokens -/

theorem isAuthentic_iff :
    isAuthentic issuer t = true ↔ t.isWellFormed = true ∧ issuer.signer.verify t = true :=
  Bool.and_eq_true_iff

/-- What verifies and says the same as a token from `issue` is authentic. -/
theorem isAuthentic_of_issue {user : String} {nonce : Token.Nonce}
    (hpolicy : issuer.policy.validate = .ok ()) (h : issuer.issue user now nonce = .ok t)
    (hverify : issuer.signer.verify u = true) (hsame : Token.SameToTheSecond t u) :
    isAuthentic issuer u = true :=
  isAuthentic_iff.2 ⟨Token.isWellFormed_of_issue hpolicy h hverify hsame, hverify⟩

theorem isAuthentic_issued {user : String} {nonce : Token.Nonce}
    (hpolicy : issuer.policy.validate = .ok ()) (h : issuer.issue user now nonce = .ok t) :
    isAuthentic issuer t = true :=
  isAuthentic_of_issue hpolicy h (Token.verify_of_issue h) (.refl t)

/-- Verified tokens that differ in their texts only are `isAuthentic` together. -/
theorem isAuthentic_congr {text : String} (ht : issuer.signer.verify t = true)
    (htext : issuer.signer.verify { t with text } = true) :
    isAuthentic issuer { t with text } = isAuthentic issuer t := by
  have hempty : t.text.isEmpty = text.isEmpty := by
    rw [Token.isEmpty_eq_false_of_verify ht, Token.isEmpty_eq_false_of_verify htext]
  rw [isAuthentic, isAuthentic, ht, htext, Token.isWellFormed, Token.isWellFormed, hempty]

theorem standing_of_isAuthentic (h : isAuthentic issuer t = true) :
    s.standing issuer t now
      = if s.isRetired t then .revoked else if t.isExpired now then .expired else .valid := by
  rw [standing, h]
  rfl

private theorem isAuthentic_of_standing_ne (h : s.standing issuer t now ≠ .forged) :
    isAuthentic issuer t = true := by
  unfold standing at h
  by_cases hauthentic : isAuthentic issuer t = true
  · exact hauthentic
  · rw [if_pos (by simp [hauthentic])] at h
    exact absurd rfl h

private theorem standing_eq_valid_iff :
    s.standing issuer t now = .valid
      ↔ isAuthentic issuer t = true ∧ s.isRetired t = false ∧ now.before t.expiresAt = true := by
  constructor
  · intro h
    have hauthentic : isAuthentic issuer t = true := by
      apply isAuthentic_of_standing_ne
      rw [h]
      decide
    rw [standing_of_isAuthentic hauthentic, Token.isExpired] at h
    cases hretired : s.isRetired t <;> cases hbefore : now.before t.expiresAt
      <;> simp [hretired, hbefore] at h
    exact ⟨hauthentic, rfl, rfl⟩
  · rintro ⟨hauthentic, hretired, hbefore⟩
    simp [standing_of_isAuthentic hauthentic, hretired, Token.isExpired, hbefore]

theorem standing_eq_revoked_iff :
    s.standing issuer t now = .revoked
      ↔ isAuthentic issuer t = true ∧ s.isRetired t = true := by
  by_cases hauthentic : isAuthentic issuer t = true
  · rw [standing_of_isAuthentic hauthentic]
    cases s.isRetired t <;> cases t.isExpired now <;> simp [hauthentic]
  · simp [standing, hauthentic]

/-- A token is in force (`accepts`) if it is authentic, was not retired and has not come to its end.
-/
theorem accepts_iff :
    s.accepts issuer t now = true
      ↔ isAuthentic issuer t = true ∧ s.isRetired t = false ∧ now.before t.expiresAt = true := by
  rw [accepts, beq_iff_eq, standing_eq_valid_iff]

/-- A token authorizes its user exactly if `accepts` finds it in force. -/
theorem authorize_eq_ok_iff {operation user : String} :
    s.authorize issuer t operation now = .ok user
      ↔ s.accepts issuer t now = true ∧ t.user = user := by
  rw [accepts, beq_iff_eq]
  unfold authorize
  cases s.standing issuer t now <;> simp

/-- There is no `refreshRefusal?` exactly if the token is authentic, was not retired and its grace
is not over. -/
theorem refreshRefusal?_eq_none_iff :
    s.refreshRefusal? issuer t now = none
      ↔ isAuthentic issuer t = true ∧ s.isRetired t = false
        ∧ (now.before t.expiresAt = true ∨ now.since t.expiresAt ≤ issuer.policy.grace) := by
  unfold refreshRefusal?
  by_cases hauthentic : isAuthentic issuer t = true
  · rw [standing_of_isAuthentic hauthentic, Token.isExpired]
    cases hretired : s.isRetired t <;> cases hbefore : now.before t.expiresAt
      <;> simp [hauthentic]
  · simp [standing, hauthentic]

/-! ## Retired tokens -/

/-- The end under which a token's `retirementKey` is remembered as retired. -/
def remembered? (s : Session) (t : Token) : Option Instant := s.retired.get? (retirementKey t)

theorem isRetired_eq_isSome : s.isRetired t = (s.remembered? t).isSome := rfl

@[simp] theorem remembered?_close : s.close.remembered? t = s.remembered? t := rfl

@[simp] theorem remembered?_retire :
    (s.retire u).remembered? t
      = if retirementKey t = retirementKey u then some u.expiresAt else s.remembered? t :=
  Table.get?_insert _ _ _ _

@[simp] theorem remembered?_prune {policy : Token.Policy} :
    (s.prune policy now).remembered? t
      = (s.remembered? t).filter fun expiresAt => now.since expiresAt ≤ policy.grace :=
  Table.get?_filter _ _ _

theorem remembered?_revoke :
    (s.revoke issuer u).2.remembered? t
      = if isAuthentic issuer u = true ∧ retirementKey t = retirementKey u then some u.expiresAt
        else s.remembered? t := by
  unfold revoke
  by_cases hauthentic : isAuthentic issuer u = true
  · by_cases hactive : s.isActive u = true
    · simp [hauthentic, hactive]
    · simp [hauthentic, hactive]
  · simp [hauthentic]

theorem remembered?_logout :
    s.logout.remembered? t
      = match s.active with
        | some u => if retirementKey t = retirementKey u then some u.expiresAt
          else s.remembered? t
        | none => s.remembered? t := by
  unfold logout
  cases hactive : s.active with
  | none => rfl
  | some u => rw [remembered?_close, remembered?_retire]

/-- A token is retired under its text: for tokens of one `retirementKey` it is the same. -/
theorem isRetired_congr (h : retirementKey t = retirementKey u) :
    s.isRetired t = s.isRetired u := by
  rw [isRetired, isRetired, h]

end Strongbox.Session
