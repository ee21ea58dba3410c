import Strongbox.Proofs.Services.Retirement
import Mathlib.Data.List.Nodup
/-!
# What the context says of the active token

A sign-in records who signed in, and the record is dropped together with the active token. A refresh
leaves it alone, whether it replaces the active token or lets another user's stand. So the record
names the user of the active token as long as there is one.

A refresh that finds no active token makes its new one active and records nothing. Such a session
is resumed, and as long as it goes on its context is empty.

## Main results

* `described_sessionAfter`: how the context stands to the active token, after every run.
* `context_iff_not_isResumed`: the context describes the active token, unless the session is
  resumed.
-/

namespace Strongbox.Services

open Time (Instant)

/-- Whether the session goes back to a `refresh` that found no active token. -/
def isResumed (s : Services) : List Move → Bool
  | [] => false
  | m :: earlier =>
    match m.call, s.replyTo earlier m with
    | .signIn _, .ok _ => false
    | .refresh _, .ok _ => (s.sessionAfter earlier).active.isNone || isResumed s earlier
    | _, _ => (s.sessionAfter (m :: earlier)).active.isSome && isResumed s earlier

/-- How a context stands to the active token and to whether the session `isResumed`. -/
inductive Described : Option Token → Bool → Table String → Prop where
  | closed : Described none false Table.empty
  | resumed (t : Token) : Described (some t) true Table.empty
  | opened (t : Token) (c : Credentials) (now : Instant) :
      Described (some t) false (Session.contextOf c.metadata c.method.name c.identifier now)

variable {s : Services} {log earlier : List Move} {m : Move} {t u : Token}

/-! ## The record of a sign-in -/

theorem get?_identifier_contextOf (metadata : Table String) (method user : String)
    (now : Instant) :
    (Session.contextOf metadata method user now).get? "identifier" = some user := by
  rw [Session.contextOf, Table.get?_insert, if_neg (by decide), Table.get?_insert, if_pos rfl]

private theorem contextOf_ne_empty (metadata : Table String) (method user : String)
    (now : Instant) : Session.contextOf metadata method user now ≠ Table.empty := by
  intro h
  have hidentifier := get?_identifier_contextOf metadata method user now
  rw [h] at hidentifier
  cases hidentifier

/-! ## What one move does -/

theorem isResumed_of_signIn {c : Credentials} {reply : Reply} (hcall : m.call = .signIn c)
    (hreply : s.replyTo earlier m = .ok reply) : s.isResumed (m :: earlier) = false := by
  rw [isResumed, hcall, hreply]

private theorem isResumed_of_refresh {reply : Reply} (hcall : m.call = .refresh t)
    (hreply : s.replyTo earlier m = .ok reply) :
    s.isResumed (m :: earlier)
      = ((s.sessionAfter earlier).active.isNone || s.isResumed earlier) := by
  rw [isResumed, hcall, hreply]

/-- Moves that give out no token do not let a session be `isResumed` that was not. -/
private theorem isResumed_of_no_token (h : ∀ t, s.replyTo earlier m ≠ .ok (.token t)) :
    s.isResumed (m :: earlier)
      = ((s.sessionAfter (m :: earlier)).active.isSome && s.isResumed earlier) := by
  have heffect := s.effect_run earlier m
  rw [isResumed]
  generalize s.replyTo earlier m = reply at heffect h ⊢
  generalize s.sessionAfter (m :: earlier) = after at heffect ⊢
  cases heffect with
  | signedIn call named issued => exact absurd rfl (h _)
  | refreshed call allowed issued => exact absurd rfl (h _)
  | revoked call | loggedOut call | validated call | authorized call allowed => rw [call]
  | refused =>
    split
    · rename_i hreply
      cases hreply
    · rename_i hreply
      cases hreply
    · rfl

/-- An open session stays as it is `Described`, and a closed one is not resumed. -/
theorem Described.and_isSome {active : Option Token} {resumed : Bool} {context : Table String}
    (h : Described active resumed context) :
    Described active (active.isSome && resumed) context := by
  cases h with
  | closed => exact .closed
  | resumed t => exact .resumed t
  | opened t c now => exact .opened t c now

theorem context_replaced (session : Session) (t fresh : Token) (now : Instant) :
    (s.replaced session t fresh now).context = session.context := rfl

/-- After `replaced` the session is `Described`, and it is resumed if there was no active token. -/
theorem described_replaced {session : Session} {resumed : Bool} {fresh : Token} {now : Instant}
    (h : Described session.active resumed session.context) :
    Described (s.replaced session t fresh now).active (session.active.isNone || resumed)
      (s.replaced session t fresh now).context := by
  have hactive : (s.replaced session t fresh now).active
      = if session.active.isNone || session.isActive t then some fresh else session.active := rfl
  rw [context_replaced, hactive]
  generalize session.isActive t = takesOver
  generalize session.active = active, session.context = context at h ⊢
  cases h with
  | closed => exact .resumed fresh
  | resumed u =>
    cases takesOver with
    | true => exact .resumed fresh
    | false => exact .resumed u
  | opened u c since =>
    cases takesOver with
    | true => exact .opened fresh c since
    | false => exact .opened u c since

theorem described_revoke {session : Session} {resumed : Bool}
    (h : Described session.active resumed session.context) :
    let after := (session.revoke s.issuer t).2
    Described after.active (after.active.isSome && resumed) after.context := by
  unfold Session.revoke
  by_cases hauthentic : Session.isAuthentic s.issuer t = true
  · by_cases hactive : session.isActive t = true
    · simpa [hauthentic, hactive, Session.close] using Described.closed
    · simpa [hauthentic, hactive, Session.retire] using h.and_isSome
  · simpa [hauthentic] using h.and_isSome

theorem described_logout (session : Session) (resumed : Bool) :
    Described session.logout.active (session.logout.active.isSome && resumed)
      session.logout.context := by
  unfold Session.logout
  split
  · exact .closed
  · exact .closed

/-! ## Whole runs -/

/-- After every run the session is `Described`: its context is that of a sign-in, or it is empty,
because there is no active token or because the session `isResumed`. -/
theorem described_sessionAfter (s : Services) (log : List Move) :
    Described (s.sessionAfter log).active (s.isResumed log) (s.sessionAfter log).context := by
  induction log with
  | nil => exact .closed
  | cons m earlier ih =>
    have heffect := s.effect_run earlier m
    have hsignIn := fun c reply => @isResumed_of_signIn s earlier m c reply
    have hrefresh := fun t reply => @isResumed_of_refresh s earlier m t reply
    have hother := @isResumed_of_no_token s earlier m
    generalize s.replyTo earlier m = reply at heffect hsignIn hrefresh hother
    generalize s.sessionAfter (m :: earlier) = after at heffect hother ⊢
    cases heffect with
    | signedIn call named issued =>
      rw [hsignIn _ _ call rfl]
      exact .opened _ _ _
    | refreshed call allowed issued =>
      rw [hrefresh _ _ call rfl]
      exact described_replaced ih
    | revoked call =>
      rw [hother (by simp)]
      exact described_revoke ih
    | loggedOut call =>
      rw [hother (by simp)]
      exact described_logout _ _
    | validated call =>
      rw [hother (by simp)]
      exact ih.and_isSome
    | authorized call allowed =>
      rw [hother (by simp)]
      exact ih.and_isSome
    | refused =>
      rw [hother (by simp)]
      exact ih.and_isSome

/-- Without an active token nothing is recorded. -/
theorem context_of_active_eq_none (h : (s.sessionAfter log).active = none) :
    (s.sessionAfter log).context = Table.empty := by
  have hdescribed := s.described_sessionAfter log
  rw [h] at hdescribed
  generalize (s.sessionAfter log).context = context, s.isResumed log = resumed at hdescribed ⊢
  cases hdescribed
  rfl

/-! ## The user of the active token -/

/-- A presented token that verifies under the text of one that was given out is for its user, in
`Unforged` runs of `DistinctNonces`. -/
private theorem user_eq_of_text_eq
    (hissuer : (Bytes.ofText s.issuer.policy.issuer).length ≤ Bytes.maxLength)
    (hunforged : s.Unforged (m :: earlier)) (hnonces : s.DistinctNonces earlier)
    (hpresented : m.call.presented? = some u) (hverify : s.issuer.signer.verify u = true)
    (ht : t ∈ s.issued earlier) (htext : t.text = u.text) : u.user = t.user := by
  have hbefore := user_mem_signedIn_of_mem_issued hissuer hunforged.2
  obtain ⟨v, hv, hnonce, hsame⟩ := exists_sameToTheSecond_of_verify hunforged
    (fun v hv => (hbefore v hv).2) hpresented hverify
  have hnonce' : v.nonce? = t.nonce? := by rw [hnonce, Token.nonce?, Token.nonce?, htext]
  obtain rfl := List.inj_on_of_nodup_map hnonces hv ht hnonce'
  exact hsame.user.symm

/-- Whom the context names under `identifier` is the user of the active token. -/
private theorem user_eq_of_get?_identifier
    (hissuer : (Bytes.ofText s.issuer.policy.issuer).length ≤ Bytes.maxLength)
    (hunforged : s.Unforged log) (hnonces : s.DistinctNonces log) {name : String}
    (hactive : (s.sessionAfter log).active = some t)
    (hnamed : (s.sessionAfter log).context.get? "identifier" = some name) : t.user = name := by
  induction log generalizing t with
  | nil => cases hactive
  | cons m earlier ih =>
    have hbefore := fun {t} => @ih t hunforged.2 hnonces.of_cons
    have hissued := fun {t} => @active_mem_issued s earlier t
    have heffect := s.effect_run earlier m
    generalize s.replyTo earlier m = reply at heffect
    generalize s.sessionAfter (m :: earlier) = after at heffect hactive hnamed
    cases heffect with
    | signedIn call named issued =>
      cases hactive
      rw [Token.user_of_issue issued]
      exact Option.some.inj ((get?_identifier_contextOf _ _ _ _).symm.trans hnamed)
    | @refreshed u fresh nonce call allowed issued =>
      -- the context is the one before, so there was an active token
      cases hold : (s.sessionAfter earlier).active with
      | none =>
        have hunnamed : (s.sessionAfter earlier).context.get? "identifier" = none := by
          rw [context_of_active_eq_none hold, Table.get?_empty]
        rw [context_replaced, hunnamed] at hnamed
        cases hnamed
      | some a =>
        rw [active_replaced hold] at hactive
        by_cases htext : a.text = u.text
        · rw [if_pos htext] at hactive
          obtain rfl := Option.some.inj hactive
          have hpresented : m.call.presented? = some u := by rw [call]; rfl
          obtain ⟨hauthentic, -, -⟩ := Session.refreshRefusal?_eq_none_iff.1 allowed
          rw [Token.user_of_issue issued, user_eq_of_text_eq hissuer hunforged hnonces.of_cons
            hpresented (Session.isAuthentic_iff.1 hauthentic).2 (hissued hold) htext]
          exact hbefore hold hnamed
        · rw [if_neg htext] at hactive
          exact hbefore (hold.trans hactive) hnamed
    | revoked call =>
      rw [(kept_of_active_revoke hactive).2] at hnamed
      exact hbefore (active_of_revoke hactive) hnamed
    | loggedOut call =>
      rw [active_logout] at hactive
      cases hactive
    | validated call => exact hbefore hactive hnamed
    | authorized call allowed => exact hbefore hactive hnamed
    | refused => exact hbefore hactive hnamed

/-- The context holds something exactly if there is an active token and the session is not resumed
(`isResumed`); and where no code is met that was not made (`Unforged`) and no nonce is drawn twice
(`DistinctNonces`), it then names the user of that token. -/
theorem context_iff_not_isResumed (s : Services) (log : List Move) :
    ((s.sessionAfter log).context ≠ Table.empty
        ↔ (s.sessionAfter log).active.isSome = true ∧ s.isResumed log = false)
      ∧ ((Bytes.ofText s.issuer.policy.issuer).length ≤ Bytes.maxLength →
          s.Unforged log → s.DistinctNonces log →
          ∀ t, (s.sessionAfter log).active = some t → s.isResumed log = false →
            (s.sessionAfter log).context.get? "identifier" = some t.user) := by
  have hdescribed := s.described_sessionAfter log
  have huser := fun {t name} hissuer hunforged hnonces =>
    @user_eq_of_get?_identifier s log t hissuer hunforged hnonces name
  generalize (s.sessionAfter log).active = active, (s.sessionAfter log).context = context,
    s.isResumed log = resumed at hdescribed huser ⊢
  cases hdescribed with
  | closed => simp
  | resumed u => simp
  | opened u c now =>
    have hnamed := get?_identifier_contextOf c.metadata c.method.name c.identifier now
    refine ⟨⟨fun _ => ⟨rfl, rfl⟩, fun _ => contextOf_ne_empty _ _ _ _⟩, ?_⟩
    intro hissuer hunforged hnonces t hactive _
    rw [huser hissuer hunforged hnonces hactive hnamed, hnamed]

/-! ### A session that is resumed -/

open Token (sampleEnd sampleNonce sampleStart sampleToken sampleTokenAt)

theorem issued_sampleSignIn : sampleServices.issued [sampleSignIn] = [sampleToken] :=
  issued_cons_of_token (replyTo_of_respond (respond_sampleSignIn _))

/-- After a sign-in the context names who signed in. -/
theorem identifier_after_signIn :
    (sampleServices.sessionAfter [sampleSignIn]).context.get? "identifier" = some "ada" := by
  have hissuer : (Bytes.ofText sampleServices.issuer.policy.issuer).length ≤ Bytes.maxLength := by
    decide
  have hnonces : sampleServices.DistinctNonces [sampleSignIn] := by
    rw [DistinctNonces, issued_sampleSignIn]
    exact List.pairwise_singleton _ _
  have hactive : (sampleServices.sessionAfter [sampleSignIn]).active = some sampleToken := by
    rw [sessionAfter_of_respond (respond_sampleSignIn _)]
    rfl
  have hsignIn : sampleServices.isResumed [sampleSignIn] = false :=
    isResumed_of_signIn rfl (replyTo_of_respond (respond_sampleSignIn _))
  exact (context_iff_not_isResumed _ _).2 hissuer unforged_sample.2 hnonces _ hactive hsignIn

/-- Ada signs in a second time, -/
def signInAgain : Move := ⟨.signIn sampleCredentials, sampleWorld sampleStart 1⟩

/-- leaves -/
def leave : Move := ⟨.logout, sampleWorld sampleStart 1⟩

/-- Ada comes back with her first token, `sampleToken`. -/
def comeBack : Move := ⟨.refresh sampleToken, sampleWorld sampleStart 2⟩

theorem respond_signInAgain :
    sampleServices.respond (sampleServices.sessionAfter [sampleSignIn]) signInAgain
      = (.ok (.token (sampleTokenAt sampleStart sampleEnd 1)), sampleServices.opened
          (sampleServices.sessionAfter [sampleSignIn]) sampleCredentials
          (sampleTokenAt sampleStart sampleEnd 1) sampleStart) :=
  respond_sample ⟨rfl, rfl⟩

theorem respond_leave :
    sampleServices.respond (sampleServices.sessionAfter [signInAgain, sampleSignIn]) leave
      = (.ok .done, (sampleServices.sessionAfter [signInAgain, sampleSignIn]).logout) :=
  respond_logout rfl

/-- Only the token that was active is retired by `leave`. -/
private theorem remembered?_leave :
    (sampleServices.sessionAfter [leave, signInAgain, sampleSignIn]).remembered? sampleToken
      = none := by
  have hkeys : Session.retirementKey sampleToken
      ≠ Session.retirementKey (sampleTokenAt sampleStart sampleEnd 1) := by
    decide +kernel
  rw [sessionAfter_of_respond respond_leave, Session.remembered?_logout,
    sessionAfter_of_respond respond_signInAgain]
  show (if Session.retirementKey sampleToken = _ then _ else _) = _
  rw [if_neg hkeys, remembered?_opened, sessionAfter_of_respond (respond_sampleSignIn _),
    remembered?_opened]
  rfl

theorem respond_comeBack :
    sampleServices.respond
        (sampleServices.sessionAfter [leave, signInAgain, sampleSignIn]) comeBack
      = (.ok (.token (sampleTokenAt sampleStart sampleEnd 2)), sampleServices.replaced
          (sampleServices.sessionAfter [leave, signInAgain, sampleSignIn]) sampleToken
          (sampleTokenAt sampleStart sampleEnd 2) sampleStart) := by
  have hissue := issue_sample 2 (⟨rfl, rfl⟩ : sampleEnd.seconds = sampleStart.seconds + 3600 ∧ _)
  have hfirst := issue_sample 0 (⟨rfl, rfl⟩ : sampleEnd.seconds = sampleStart.seconds + 3600 ∧ _)
  have hretired : (sampleServices.sessionAfter [leave, signInAgain, sampleSignIn]).isRetired
      sampleToken = false := by
    rw [Session.isRetired_eq_isSome, remembered?_leave]
    rfl
  have hbefore : sampleStart.before sampleToken.expiresAt = true := by decide
  have hallowed := Session.refreshRefusal?_eq_none_iff.2
    ⟨Session.isAuthentic_issued rfl hfirst, hretired, .inl hbefore⟩
  rw [← nonce_sample (.refresh sampleToken) sampleStart 2] at hissue
  exact respond_refresh_of_issue (m := comeBack) rfl hallowed hissue

/-- The run in which the active token comes from a `refresh` that found none. -/
def comingBack : List Move := [comeBack, leave, signInAgain, sampleSignIn]

private theorem issued_comingBack :
    sampleServices.issued comingBack
      = [sampleTokenAt sampleStart sampleEnd 2, sampleTokenAt sampleStart sampleEnd 1,
          sampleToken] := by
  have hleave : sampleServices.issued [leave, signInAgain, sampleSignIn]
      = sampleServices.issued [signInAgain, sampleSignIn] := by
    rw [issued, replyTo_of_respond respond_leave]
  rw [comingBack, issued_cons_of_token (replyTo_of_respond respond_comeBack), hleave,
    issued_cons_of_token (replyTo_of_respond respond_signInAgain), issued_sampleSignIn]

private theorem unforged_comingBack : sampleServices.Unforged comingBack := by
  have hissued : sampleToken ∈ sampleServices.issued [leave, signInAgain, sampleSignIn] := by
    have h : sampleToken ∈ sampleServices.issued [sampleSignIn] := by
      rw [issued_sampleSignIn]
      exact List.mem_singleton_self _
    exact mem_issued_cons.2 (.inr (mem_issued_cons.2 (.inr h)))
  refine ⟨fun t hpresented _ => ?_, fun t hpresented _ => ?_, fun t hpresented _ => ?_,
    unforged_sample.2⟩
  · cases hpresented
    exact ⟨sampleToken, hissued, rfl⟩
  · cases hpresented
  · cases hpresented

private theorem distinctNonces_comingBack : sampleServices.DistinctNonces comingBack := by
  have hdistinct : ∀ a b : UInt8, a ≠ b → Token.nonce? (sampleTokenAt sampleStart sampleEnd a)
      ≠ Token.nonce? (sampleTokenAt sampleStart sampleEnd b) := by
    intro a b hne h
    exact hne (Token.nonce?_sampleTokenAt_inj h)
  rw [DistinctNonces, issued_comingBack]
  simp only [List.map_cons, List.map_nil, List.nodup_cons, List.mem_cons, List.not_mem_nil,
    or_false, not_or, not_false_eq_true, List.nodup_nil, and_true]
  exact ⟨⟨hdistinct 2 1 (by decide), hdistinct 2 0 (by decide)⟩, hdistinct 1 0 (by decide)⟩

/-- No code was forged and no nonce drawn twice in `comingBack`, there is an active token, and yet
the context is empty. -/
theorem comingBack_undescribed :
    sampleServices.issuer.policy.validate = .ok ()
    ∧ sampleServices.Unforged comingBack
    ∧ sampleServices.DistinctNonces comingBack
    ∧ (sampleServices.sessionAfter comingBack).active
      = some (sampleTokenAt sampleStart sampleEnd 2)
    ∧ (sampleServices.sessionAfter comingBack).context = Table.empty := by
  have hclosed :
      (sampleServices.sessionAfter [leave, signInAgain, sampleSignIn]).active = none := by
    rw [sessionAfter_of_respond respond_leave, active_logout]
  refine ⟨rfl, unforged_comingBack, distinctNonces_comingBack, ?_, ?_⟩
  · rw [comingBack, sessionAfter_of_respond respond_comeBack, active_replaced_of_none hclosed]
  · rw [comingBack, sessionAfter_of_respond respond_comeBack, context_replaced,
      context_of_active_eq_none hclosed]

end Strongbox.Services
