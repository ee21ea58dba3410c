import Strongbox.Proofs.Services.Run
import Strongbox.Proofs.Session
/-!
# No access without a sign-in

Whatever tokens are presented in a run, access is granted to those only who signed in before. The
one thing assumed of the codes is that none is met that was not made: a presented token that
verifies has the message of one that was given out. The message tells the user, so the presented
token names the user of the one that was given out, and that one goes back to a sign-in.

## Main results

* `user_mem_signedIn_of_mem_issued`: every token of a run is for a user who signed in.
* `mem_signedIn_of_grantedTo`: access is granted to such users only.
-/

namespace Strongbox.Services

open Time (Instant)

/-- The user to whom the move `m`, after the run `earlier`, grants something on account of a token:
an operation (`authorize`), the confirmation that the token is in force (`validate`), or a new token
(`refresh`). -/
def grantedTo (s : Services) (earlier : List Move) (m : Move) : Option String :=
  match m.call, s.replyTo earlier m with
  | .authorize _ _, .ok (.user user) => some user
  | .validate t, .ok (.flag true) => some t.user
  | .refresh _, .ok (.token fresh) => some fresh.user
  | _, _ => none

variable {s : Services} {log earlier : List Move} {m : Move} {t : Token}

/-! ## Who signed in -/

theorem mem_signedIn_cons_of_mem {user : String} (h : user ∈ s.signedIn earlier) :
    user ∈ s.signedIn (m :: earlier) := by
  rw [signedIn]
  split
  · exact List.mem_cons_of_mem _ h
  · exact h

private theorem checkIdentifier_of_mem_signedIn {user : String} (h : user ∈ s.signedIn log) :
    Account.checkIdentifier user = .ok () := by
  induction log with
  | nil => cases h
  | cons m earlier ih =>
    rw [signedIn] at h
    split at h
    · rename_i c reply hcall hreply
      rcases List.mem_cons.1 h with rfl | h
      · have heffect := s.effect_run earlier m
        rw [hreply] at heffect
        generalize s.sessionAfter (m :: earlier) = after at heffect
        cases heffect with
        | signedIn call named =>
          rw [hcall] at call
          cases call
          exact named
        | refreshed call | revoked call | loggedOut call | validated call | authorized call =>
          rw [hcall] at call
          cases call
      · exact ih h
    · exact ih h

/-- Where codes are `Unforged`, a presented token that verifies says the same, to the second, as one
that was given out before. -/
theorem exists_sameToTheSecond_of_verify (hunforged : s.Unforged (m :: earlier))
    (hfits : ∀ u ∈ s.issued earlier, u.Fits) (hpresented : m.call.presented? = some t)
    (hverify : s.issuer.signer.verify t = true) :
    ∃ u ∈ s.issued earlier, u.nonce? = t.nonce? ∧ Token.SameToTheSecond u t := by
  obtain ⟨u, hu, hmessage⟩ := hunforged.1 t hpresented hverify
  obtain ⟨message, hmessage', hlength⟩ := hfits u hu
  have hsame := Token.sameToTheSecond_of_message? hmessage' (hmessage ▸ hmessage') hlength
  exact ⟨u, hu, hsame⟩

/-- Every token that is `issued` in a run is for a user who is `signedIn` before, and its message
can be taken apart: it `Fits`. -/
theorem user_mem_signedIn_of_mem_issued
    (hissuer : (Bytes.ofText s.issuer.policy.issuer).length ≤ Bytes.maxLength)
    (hunforged : s.Unforged log) : ∀ t ∈ s.issued log, t.user ∈ s.signedIn log ∧ t.Fits := by
  induction log with
  | nil =>
    intro t ht
    cases ht
  | cons m earlier ih =>
    have hbefore := ih hunforged.2
    intro t ht
    rcases mem_issued_cons.1 ht with hreply | ht
    · have heffect := s.effect_run earlier m
      rw [hreply] at heffect
      generalize s.sessionAfter (m :: earlier) = after at heffect
      cases heffect with
      | @signedIn c t nonce call named issued =>
        have huser : t.user ∈ s.signedIn (m :: earlier) := by
          rw [Services.signedIn, call, hreply, Token.user_of_issue issued]
          exact List.mem_cons_self
        exact ⟨huser, _, Token.message?_of_issue issued, Token.length_signedMessage_lt_of_issue
          hissuer (Account.length_le_of_checkIdentifier named) issued⟩
      | @refreshed u t nonce call allowed issued =>
        have hpresented : m.call.presented? = some u := by rw [call]; rfl
        obtain ⟨hauthentic, -, -⟩ := Session.refreshRefusal?_eq_none_iff.1 allowed
        have hverify := (Session.isAuthentic_iff.1 hauthentic).2
        obtain ⟨v, hv, -, hsame⟩ := exists_sameToTheSecond_of_verify hunforged
          (fun v hv => (hbefore v hv).2) hpresented hverify
        have huser : u.user ∈ s.signedIn earlier := hsame.user ▸ (hbefore v hv).1
        have hnamed := checkIdentifier_of_mem_signedIn huser
        refine ⟨?_, _, Token.message?_of_issue issued, Token.length_signedMessage_lt_of_issue
          hissuer (Account.length_le_of_checkIdentifier hnamed) issued⟩
        rw [Token.user_of_issue issued]
        exact mem_signedIn_cons_of_mem huser
    · exact ⟨mem_signedIn_cons_of_mem (hbefore t ht).1, (hbefore t ht).2⟩

/-! ## Access -/

/-- What is `grantedTo` someone is on account of a presented token that is authentic and theirs. -/
private theorem exists_presented_of_grantedTo {user : String}
    (h : s.grantedTo earlier m = some user) :
    ∃ t, m.call.presented? = some t ∧ s.issuer.signer.verify t = true ∧ t.user = user := by
  unfold grantedTo at h
  have heffect := s.effect_run earlier m
  generalize s.replyTo earlier m = reply at heffect h
  generalize s.sessionAfter (m :: earlier) = after at heffect
  cases heffect with
  | @signedIn c t nonce call named issued => simp [call] at h
  | @refreshed t fresh nonce call allowed issued =>
    rw [call] at h ⊢
    have huser : fresh.user = user := Option.some.inj h
    obtain ⟨hauthentic, -, -⟩ := Session.refreshRefusal?_eq_none_iff.1 allowed
    refine ⟨t, rfl, (Session.isAuthentic_iff.1 hauthentic).2, ?_⟩
    rw [← huser, Token.user_of_issue issued]
  | revoked call => simp [call] at h
  | loggedOut call => simp [call] at h
  | @validated t call =>
    rw [call] at h ⊢
    cases haccepts : (s.sessionAfter earlier).accepts s.issuer t m.reading with
    | true =>
      rw [haccepts] at h
      obtain ⟨hauthentic, -, -⟩ := Session.accepts_iff.1 haccepts
      exact ⟨t, rfl, (Session.isAuthentic_iff.1 hauthentic).2, Option.some.inj h⟩
    | false =>
      rw [haccepts] at h
      cases h
  | @authorized t operation name call allowed =>
    rw [call] at h ⊢
    obtain ⟨haccepts, hname⟩ := Session.authorize_eq_ok_iff.1 allowed
    obtain ⟨hauthentic, -, -⟩ := Session.accepts_iff.1 haccepts
    exact ⟨t, rfl, (Session.isAuthentic_iff.1 hauthentic).2, hname.trans (Option.some.inj h)⟩
  | refused => simp at h

private theorem grantedTo_of_authorize {operation user : String}
    (hcall : m.call = .authorize t operation)
    (hreply : s.replyTo earlier m = .ok (.user user)) : s.grantedTo earlier m = some user := by
  rw [grantedTo, hcall, hreply]

/-- Access is granted to those only who signed in before, whatever tokens are presented: in every
`Unforged` run, `grantedTo` names no one but the `signedIn`. -/
theorem mem_signedIn_of_grantedTo {user : String}
    (hissuer : (Bytes.ofText s.issuer.policy.issuer).length ≤ Bytes.maxLength)
    (hunforged : s.Unforged (m :: earlier)) (h : s.grantedTo earlier m = some user) :
    user ∈ s.signedIn earlier := by
  have hbefore := user_mem_signedIn_of_mem_issued hissuer hunforged.2
  obtain ⟨t, hpresented, hverify, rfl⟩ := exists_presented_of_grantedTo h
  obtain ⟨u, hu, -, hsame⟩ := exists_sameToTheSecond_of_verify hunforged
    (fun u hu => (hbefore u hu).2) hpresented hverify
  exact hsame.user ▸ (hbefore u hu).1

/-! ## A run with one sign-in -/

open Password (Stored)
open Token (sampleEnd sampleNonce sampleStart sampleToken sampleTokenAt)

/-- The hash of the password `p`, at little cost. -/
def sampleHash : Stored :=
  let salt := List.replicate 16 0
  ⟨.pbkdf2 2, salt, Hash.Pbkdf2.derive (Bytes.ofText "p") salt 2 32⟩

/-- Services that hash at little cost and issue tokens for an hour. -/
def sampleServices : Services :=
  let password : Password.Policy :=
    { Password.Policy.default with method := .pbkdf2, iterations := 2 }
  ⟨{ Config.default with password }, ⟨Token.sampleSigner, .default⟩, ⟨password, sampleHash⟩⟩

/-- The credentials of an account `ada`. -/
def sampleCredentials : Credentials := ⟨"ada", "p", .password, Table.empty⟩

/-- A world in which there is the account and `byte` is drawn all the time. -/
def sampleWorld (clock : Instant) (byte : UInt8) : World where
  storage := .memory (Table.empty.insert (Account.location "ada") (Bytes.ofText sampleHash.render))
  clock := clock
  entropy := ⟨fun _ => byte, 0⟩
  failingDraws := 0

private theorem sampleHash_readable : sampleHash.Readable where
  costs := by decide
  salt := by decide
  digest := by simp [sampleHash, Hash.Pbkdf2.length_derive, Password.minDigestLength,
    Password.maxDigestLength]

private theorem sampleHash_verify : sampleHash.verify "p" = .ok true := by
  have hlength : sampleHash.digest.length = 32 := Hash.Pbkdf2.length_derive _ _ _ _
  rw [Stored.verify, hlength]
  show Except.ok (sampleHash.digest == sampleHash.digest) = _
  rw [beq_self_eq_true]

private theorem sampleHash_current : sampleHash.isOutdated sampleServices.guard.policy = false := by
  have hlength : sampleHash.digest.length = 32 := Hash.Pbkdf2.length_derive _ _ _ _
  rw [Stored.isOutdated, hlength]
  decide

theorem authenticate_sample (clock : Instant) (byte : UInt8) :
    Action.perform World.answer (sampleServices.guard.authenticate sampleCredentials)
      (sampleWorld clock byte) = (.ok (), sampleWorld clock byte) := by
  have hrecord : (sampleWorld clock byte).retrieve (Account.location sampleCredentials.identifier)
      = (.ok (Bytes.ofText sampleHash.render), sampleWorld clock byte) := by
    apply World.retrieve_of_memory (rfl : (sampleWorld clock byte).storage = .memory _)
    rw [Table.get?_insert]
    exact if_pos rfl
  exact Account.Guard.authenticate_of_verify rfl rfl sampleHash_readable hrecord
    sampleHash_verify sampleHash_current

theorem issue_sample {clock expiresAt : Instant} (byte : UInt8)
    (hend : expiresAt.seconds = clock.seconds + 3600 ∧ expiresAt.nanos = 0) :
    sampleServices.issuer.issue "ada" clock (sampleNonce byte)
      = .ok (sampleTokenAt clock expiresAt byte) := by
  have hvalidity : sampleServices.issuer.policy.validity = Time.Span.ofSeconds 3600 := by decide
  refine Token.issue_eq_ok_iff.2 ⟨expiresAt, ?_, rfl⟩
  rw [hvalidity]
  exact Instant.plus?_truncated_ofSeconds.2 hend

theorem nonce_sample (call : Call) (clock : Instant) (byte : UInt8) :
    Move.nonce ⟨call, sampleWorld clock byte⟩ = sampleNonce byte := by
  apply Subtype.ext
  simp [Move.nonce, Entropy.draw, sampleWorld, sampleNonce, List.map_const']

/-- In a `sampleWorld` the sign-in with `sampleCredentials` succeeds. -/
theorem respond_sample {session : Session} {clock expiresAt : Instant} {byte : UInt8}
    (hend : expiresAt.seconds = clock.seconds + 3600 ∧ expiresAt.nanos = 0) :
    sampleServices.respond session ⟨.signIn sampleCredentials, sampleWorld clock byte⟩
      = (.ok (.token (sampleTokenAt clock expiresAt byte)), sampleServices.opened session
          sampleCredentials (sampleTokenAt clock expiresAt byte) clock) := by
  let m : Move := ⟨.signIn sampleCredentials, sampleWorld clock byte⟩
  have hissue := issue_sample byte hend
  rw [← nonce_sample (.signIn sampleCredentials) clock byte] at hissue
  exact respond_signIn (m := m) rfl (authenticate_sample clock byte) hissue

/-- Ada signs in. -/
def sampleSignIn : Move := ⟨.signIn sampleCredentials, sampleWorld sampleStart 0⟩

/-- Ada has an operation authorized with the token that was given out. -/
def sampleAuthorize : Move :=
  ⟨.authorize sampleToken "backup", sampleWorld sampleStart 0⟩

theorem respond_sampleSignIn (session : Session) :
    sampleServices.respond session sampleSignIn
      = (.ok (.token sampleToken), sampleServices.opened session
          sampleCredentials sampleToken sampleStart) :=
  respond_sample ⟨rfl, rfl⟩

theorem unforged_sample : sampleServices.Unforged [sampleAuthorize, sampleSignIn] := by
  refine ⟨fun t hpresented _ => ?_, fun t hpresented _ => ?_, trivial⟩
  · cases hpresented
    refine ⟨sampleToken, ?_, rfl⟩
    rw [mem_issued_cons]
    exact .inl (replyTo_of_respond (respond_sampleSignIn _))
  · cases hpresented

private theorem grantedTo_sample :
    sampleServices.grantedTo [sampleSignIn] sampleAuthorize = some "ada" := by
  have hissue := issue_sample 0 (⟨rfl, rfl⟩ : sampleEnd.seconds = sampleStart.seconds + 3600 ∧ _)
  have hauthentic := Session.isAuthentic_issued rfl hissue
  have haccepts : (sampleServices.sessionAfter [sampleSignIn]).accepts sampleServices.issuer
      sampleToken sampleStart = true := by
    rw [sessionAfter_of_respond (respond_sampleSignIn _), Session.accepts_iff]
    refine ⟨hauthentic, ?_, by decide⟩
    simp [opened, Session.isRetired, Session.prune, Table.contains, sessionAfter, Session.start]
  have hcall : sampleAuthorize.call
      = .authorize sampleToken "backup" := rfl
  have hallowed : (sampleServices.sessionAfter [sampleSignIn]).authorize sampleServices.issuer
      sampleToken "backup" sampleStart = .ok "ada" :=
    Session.authorize_eq_ok_iff.2 ⟨haccepts, Token.user_of_issue hissue⟩
  exact grantedTo_of_authorize hcall (replyTo_of_respond (respond_authorize hcall hallowed))

/-- Ada is authorized by `sampleAuthorize`, and she signed in. -/
theorem ada_mem_signedIn : "ada" ∈ sampleServices.signedIn [sampleSignIn] := by
  have hissuer : (Bytes.ofText sampleServices.issuer.policy.issuer).length ≤ Bytes.maxLength := by
    decide
  exact mem_signedIn_of_grantedTo hissuer unforged_sample grantedTo_sample

end Strongbox.Services
