import Strongbox.Proofs.Token.Message
/-!
# Issued tokens

A new token is made for a user at an instant under a nonce. It begins with the second of the
instant, its end is whole seconds later, and it has the text that its signer makes, so it verifies
and is well-formed. There is no new token where its end would not lie in the calendar, and none
otherwise.

## Main results

* `issue_eq_ok_iff`: the tokens that an issuer makes.
* `expiresAt_of_issue`, `isWellFormed_of_issue`: under a policy in range they end with a second, and
  whatever agrees with them to the second is well-formed.
* `length_signedMessage_lt_of_issue`: their messages are not too long to be taken apart.
-/

namespace Strongbox.Token

open Bytes (lengthLimit)
open Time (Instant Span)

/-! ## Policies in range -/

namespace Policy

variable {p : Policy}

theorem span_eq_ofSeconds {seconds : UInt64} (h : seconds.toNat ≤ maxSeconds) :
    span seconds = Span.ofSeconds seconds.toNat := by
  have hsmall : 2 * seconds.toBitVec.toNat < 2 ^ 64 := by
    rw [UInt64.toNat_toBitVec]
    unfold maxSeconds at h
    omega
  exact congrArg Span.ofSeconds (BitVec.toInt_eq_toNat_of_lt hsmall)

theorem validitySeconds_of_validate (h : p.validate = .ok ()) :
    0 < p.validitySeconds.toNat ∧ p.validitySeconds.toNat ≤ maxSeconds := by
  unfold validate at h
  split at h
  · cases h
  · rename_i hrange
    have hzero : p.validitySeconds = 0 ↔ p.validitySeconds.toNat = 0 := by
      rw [← UInt64.toNat_inj]
      rfl
    rw [hzero] at hrange
    omega

private theorem graceSeconds_le_of_validate (h : p.validate = .ok ()) :
    p.graceSeconds.toNat ≤ maxSeconds := by
  unfold validate at h
  split at h
  · cases h
  · split at h
    · cases h
    · rename_i hrange
      exact Nat.not_lt.1 hrange

theorem thresholdSeconds_lt_of_validate (h : p.validate = .ok ()) :
    p.thresholdSeconds.toNat < p.validitySeconds.toNat := by
  unfold validate at h
  split at h
  · cases h
  · split at h
    · cases h
    · split at h
      · cases h
      · rename_i hshorter
        rw [UInt64.le_iff_toNat_le] at hshorter
        exact Nat.not_le.1 hshorter

/-- A threshold in range is a number of seconds below the validity. -/
theorem threshold_eq_ofSeconds_of_validate (h : p.validate = .ok ()) :
    p.threshold = Span.ofSeconds p.thresholdSeconds.toNat := by
  have hshorter := thresholdSeconds_lt_of_validate h
  have hrange := (validitySeconds_of_validate h).2
  exact span_eq_ofSeconds (by omega)

/-- A `grace` in range is not negative. -/
theorem grace_nonneg_of_validate (h : p.validate = .ok ()) : 0 ≤ p.grace := by
  rw [grace, span_eq_ofSeconds (graceSeconds_le_of_validate h)]
  show (0 : Int) ≤ p.graceSeconds.toNat * 1000000000
  omega

end Policy

/-! ## New tokens -/

variable {issuer : Issuer} {user : String} {now : Instant} {nonce : Nonce} {t : Token}

/-- With `issue` an issuer makes one token for a user, an instant and a nonce, if its end lies in
the calendar. -/
theorem issue_eq_ok_iff :
    issuer.issue user now nonce = .ok t
      ↔ ∃ expiresAt, now.truncated.plus? issuer.policy.validity = some expiresAt
        ∧ t = issuer.signer.sign nonce ⟨"", bearer, now.truncated, expiresAt, user,
          standardClaims issuer.policy.issuer user now.truncated expiresAt nonce⟩ := by
  have hissue : issuer.issue user now nonce
      = (Outcome.dated (now.truncated.plus? issuer.policy.validity)).bind fun expiresAt =>
          .ok (issuer.signer.sign nonce ⟨"", bearer, now.truncated, expiresAt, user,
            standardClaims issuer.policy.issuer user now.truncated expiresAt nonce⟩) := rfl
  rw [hissue]
  cases now.truncated.plus? issuer.policy.validity with
  | none =>
    constructor
    · intro h
      cases h
    · rintro ⟨expiresAt, h, -⟩
      cases h
  | some expiresAt =>
    constructor
    · intro h
      exact ⟨expiresAt, rfl, (Except.ok.inj h).symm⟩
    · rintro ⟨_, h, rfl⟩
      cases h
      rfl

/-- Whether `issue` gives a token is a question of the calendar alone. -/
theorem exists_issue_eq_ok_iff :
    (∃ t, issuer.issue user now nonce = .ok t)
      ↔ (now.truncated.plus? issuer.policy.validity).isSome = true := by
  rw [Option.isSome_iff_exists]
  constructor
  · rintro ⟨t, h⟩
    obtain ⟨expiresAt, hend, -⟩ := issue_eq_ok_iff.1 h
    exact ⟨expiresAt, hend⟩
  · rintro ⟨expiresAt, hend⟩
    exact ⟨_, issue_eq_ok_iff.2 ⟨expiresAt, hend, rfl⟩⟩

theorem user_of_issue (h : issuer.issue user now nonce = .ok t) : t.user = user := by
  obtain ⟨expiresAt, -, rfl⟩ := issue_eq_ok_iff.1 h
  rfl

theorem verify_of_issue (h : issuer.issue user now nonce = .ok t) :
    issuer.signer.verify t = true := by
  obtain ⟨expiresAt, -, rfl⟩ := issue_eq_ok_iff.1 h
  exact verify_sign _ _ _

theorem message?_of_issue (h : issuer.issue user now nonce = .ok t) :
    t.message? = some (signedMessage nonce t) := by
  obtain ⟨expiresAt, -, rfl⟩ := issue_eq_ok_iff.1 h
  exact message?_sign _ _ _

/-- Under a policy in range the end, `expiresAt`, is whole seconds after the beginning. -/
theorem expiresAt_of_issue (hpolicy : issuer.policy.validate = .ok ())
    (h : issuer.issue user now nonce = .ok t) :
    t.expiresAt.seconds = now.seconds + issuer.policy.validitySeconds.toNat
      ∧ t.expiresAt.nanos = 0 := by
  obtain ⟨expiresAt, hend, rfl⟩ := issue_eq_ok_iff.1 h
  have hrange := (Policy.validitySeconds_of_validate hpolicy).2
  rw [Policy.validity, Policy.span_eq_ofSeconds hrange] at hend
  exact Instant.plus?_truncated_ofSeconds.1 hend

/-- A token that verifies and ends in the seconds of one from `issue` is as well-formed as that. -/
theorem isWellFormed_of_issue (hpolicy : issuer.policy.validate = .ok ())
    (h : issuer.issue user now nonce = .ok t) {u : Token} (hu : issuer.signer.verify u = true)
    (hsame : SameToTheSecond t u) : u.isWellFormed = true := by
  have hend := (expiresAt_of_issue hpolicy h).1
  have hpositive := (Policy.validitySeconds_of_validate hpolicy).1
  obtain ⟨expiresAt, -, rfl⟩ := issue_eq_ok_iff.1 h
  have htext := isEmpty_eq_false_of_verify hu
  have hkind : u.kind = bearer := hsame.kind.symm
  have hbefore : u.issuedAt.before u.expiresAt = true := by
    have hbegin : now.seconds = u.issuedAt.seconds := hsame.issuedAt
    have hends := hsame.expiresAt
    rw [Instant.before_eq_true_iff]
    omega
  simp [isWellFormed, htext, hkind, hbefore]

/-! ## The length of a message -/

/-- The calendar ends before the numbers of fifteen digits begin. -/
theorem utf8ByteSize_seconds_le (instant : Instant) :
    (toString instant.seconds).utf8ByteSize ≤ 60 := by
  have hcalendar := instant.inCalendar
  unfold Time.firstSecond Time.lastSecond at hcalendar
  generalize instant.seconds = z at hcalendar
  have hdigits : ∀ n : Nat, n < 10 ^ 14 → n.repr.utf8ByteSize ≤ 56 := by
    intro n hn
    have hchars : n.repr.length ≤ 14 := (Nat.length_repr_le_iff (by decide)).2 hn
    have hbytes := Bytes.length_ofText_le n.repr
    rw [Bytes.length_ofText, String.length_toList] at hbytes
    omega
  rw [Int.toString_eq_repr]
  cases z with
  | ofNat n =>
    have hcalendar' : (n : Int) ≤ 8210266876799 := hcalendar.2
    have hn := hdigits n (by omega)
    simp only [Int.repr]
    omega
  | negSucc m =>
    have hm := hdigits m.succ (by omega)
    have hsign : "-".utf8ByteSize = 1 := by decide
    simp only [Int.repr, String.utf8ByteSize_append]
    omega

private theorem utf8ByteSize_textPart_le (nonce : Nonce) : (textPart nonce).utf8ByteSize ≤ 128 := by
  have hbytes := Bytes.length_ofText_le (textPart nonce)
  have hchars := Text.Base64.length_encodeChars_le Text.Base64.urlSafe nonce
  rw [Bytes.length_ofText, textPart, Text.Base64.encode, String.toList_ofList] at hbytes
  have hsize : nonce.val.length = 16 := nonce.property
  rw [textPart, Text.Base64.encode]
  omega

private theorem entries_standardClaims (issuer user : String) (issuedAt expiresAt : Instant)
    (nonce : Bytes) :
    (standardClaims issuer user issuedAt expiresAt nonce).entries
      = [("exp", toString expiresAt.seconds), ("iat", toString issuedAt.seconds),
          ("iss", issuer), ("jti", textPart nonce), ("sub", user)] := by
  simp only [standardClaims, Table.ofList, List.foldl_cons, List.foldl_nil, Table.insert,
    Table.insertEntry, Table.empty, String.reduceLT, if_true, if_false]

/-- The `signedMessage` of a new token for a user with an account name fits, if the issuer's name
fits a memory. -/
theorem length_signedMessage_lt_of_issue
    (hissuer : (Bytes.ofText issuer.policy.issuer).length ≤ Bytes.maxLength)
    (huser : user.toList.length ≤ 256) (h : issuer.issue user now nonce = .ok t) :
    (signedMessage nonce t).length < lengthLimit := by
  obtain ⟨expiresAt, -, rfl⟩ := issue_eq_ok_iff.1 h
  have hname := Bytes.length_ofText_le user
  have hnonce := utf8ByteSize_textPart_le nonce
  have hbegin := utf8ByteSize_seconds_le now.truncated
  have hend := utf8ByteSize_seconds_le expiresAt
  have hkeys : "exp".utf8ByteSize = 3 ∧ "iat".utf8ByteSize = 3 ∧ "iss".utf8ByteSize = 3
      ∧ "jti".utf8ByteSize = 3 ∧ "sub".utf8ByteSize = 3 ∧ bearer.utf8ByteSize = 6 := by decide
  have hsize := nonce.property
  simp only [signedMessage, Signer.sign, claimsMessage_eq, entries_standardClaims, claimMessage,
    List.flatMap_cons, List.flatMap_nil, List.length_append, List.length_nil,
    length_lengthPrefixed, Bytes.length_ofText, Bytes.length_bigEndian, Bytes.length_signed64]
  rw [Bytes.length_ofText] at hissuer hname
  unfold Bytes.maxLength at hissuer
  unfold nonceSize at hsize
  unfold lengthLimit
  omega

end Strongbox.Token
