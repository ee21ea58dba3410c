import Strongbox.Proofs.Services.Lifecycle
/-!
# The status of a session

The status looks at the active token alone: whether it was retired, whether its end has come,
whether its grace is over, and how much of its life is left. What the session can do is decided
elsewhere, by what validation and refresh make of that token. The two agree because the active token
is never retired: it was given out under a nonce of its own, so no token of its text was spent
before, and whatever spends it puts another in its place or ends the session.

A token that was just given out has its whole validity before it, which is longer than the
threshold, so the session is authenticated. In a leap second that is so only if the validity is
longer by two seconds, or ends at a later time of day: the span to an end at an earlier time of day
leaves the leap second out.

## Main results

* `not_isRetired_of_active`: the active token is not retired.
* `status_iff_session`: the status says what the session can do, and what it is after a token was
  given out.
-/

namespace Strongbox.Session

open Time (Instant)

variable {issuer : Token.Issuer} {s : Session} {t : Token} {now : Instant}

/-! ## The status of an active token -/

theorem status_of_active_eq_none (h : s.active = none) :
    s.status issuer now = .notAuthenticated := by
  rw [status, h]

theorem status_of_active (hactive : s.active = some t) (hretired : s.isRetired t = false) :
    s.status issuer now
      = if now.before t.expiresAt = true then
          if t.expiresAt.since now ≤ issuer.policy.threshold then .requiresRefresh
          else .authenticated
        else if now.since t.expiresAt ≤ issuer.policy.grace then .requiresRefresh
        else .notAuthenticated := by
  rw [status, hactive]
  by_cases hbefore : now.before t.expiresAt = true
  · simp [hretired, Token.isExpired, hbefore]
  · simp [hretired, Token.isExpired, hbefore]

theorem status_ne_notAuthenticated_iff (hactive : s.active = some t)
    (hretired : s.isRetired t = false) :
    s.status issuer now ≠ .notAuthenticated
      ↔ now.before t.expiresAt = true ∨ now.since t.expiresAt ≤ issuer.policy.grace := by
  rw [status_of_active hactive hretired]
  by_cases hbefore : now.before t.expiresAt = true
  · rw [if_pos hbefore]
    refine iff_of_true ?_ (.inl hbefore)
    split <;> decide
  · rw [if_neg hbefore, or_iff_right hbefore]
    by_cases hlasts : now.since t.expiresAt ≤ issuer.policy.grace
    · rw [if_pos hlasts]
      exact iff_of_true (by decide) hlasts
    · rw [if_neg hlasts]
      exact iff_of_false (by decide) hlasts

theorem status_eq_authenticated_iff (hactive : s.active = some t)
    (hretired : s.isRetired t = false) :
    s.status issuer now = .authenticated
      ↔ now.before t.expiresAt = true ∧ issuer.policy.threshold < t.expiresAt.since now := by
  rw [status_of_active hactive hretired]
  by_cases hbefore : now.before t.expiresAt = true
  · rw [if_pos hbefore, and_iff_right hbefore]
    by_cases hshort : t.expiresAt.since now ≤ issuer.policy.threshold
    · rw [if_pos hshort]
      exact iff_of_false (by decide) (Int.not_lt.2 hshort)
    · rw [if_neg hshort]
      exact iff_of_true rfl (Int.not_le.1 hshort)
  · rw [if_neg hbefore]
    refine iff_of_false ?_ fun h => hbefore h.1
    split <;> decide

end Strongbox.Session

namespace Strongbox.Services

open Time (Instant)

/-- What is assumed of a run: no code is met that was not made, no nonce is drawn twice, and no
other text that is spent has the digest of one that was given out. -/
structure Orderly (s : Services) (log : List Move) : Prop where
  unforged : s.Unforged log
  nonces : s.DistinctNonces log
  digests : ∀ t ∈ s.issued log, ∀ u ∈ s.spent log,
    Session.retirementKey t = Session.retirementKey u → t.text = u.text

variable {s : Services} {log earlier : List Move} {m : Move} {t u : Token}

theorem Orderly.of_cons (h : s.Orderly (m :: earlier)) : s.Orderly earlier where
  unforged := h.unforged.2
  nonces := h.nonces.of_cons
  digests t ht u hu :=
    h.digests t (mem_issued_cons.2 (.inr ht)) u (mem_spent_cons.2 (.inr hu))

/-! ## The active token is not retired -/

section Issuer

variable (hissuer : (Bytes.ofText s.issuer.policy.issuer).length ≤ Bytes.maxLength)

include hissuer in
/-- What was `spent` by the time a token is given out has another text than that token. -/
private theorem text_ne_of_mem_spent (horderly : s.Orderly (m :: earlier))
    (hreply : s.replyTo earlier m = .ok (.token t)) (hu : u ∈ s.spent (m :: earlier)) :
    t.text ≠ u.text := by
  have hissued := user_mem_signedIn_of_mem_issued hissuer horderly.unforged.2
  have hfits : ∀ v ∈ s.issued earlier, v.Fits := fun v hv => (hissued v hv).2
  have hbefore : ∃ v ∈ s.issued earlier, v.nonce? = u.nonce? := by
    rcases mem_spent_cons.1 hu with hspent | hu
    · obtain ⟨-, v, hv, hnonce, -⟩ := exists_issued_of_spentBy horderly.unforged hfits hspent
      exact ⟨v, hv, hnonce⟩
    · obtain ⟨-, v, hv, hnonce, -⟩ := exists_issued_of_mem_spent horderly.unforged.2 hfits hu
      exact ⟨v, hv, hnonce⟩
  obtain ⟨v, hv, hnonce⟩ := hbefore
  have hnonces := horderly.nonces
  rw [DistinctNonces, issued_cons_of_token hreply, List.map_cons, List.nodup_cons] at hnonces
  intro htext
  apply hnonces.1
  rw [Token.nonce?, htext, ← Token.nonce?, ← hnonce]
  exact List.mem_map_of_mem hv

include hissuer in
/-- A token that is given out is not `remembered?` as retired then. -/
private theorem remembered?_of_replyTo (horderly : s.Orderly (m :: earlier))
    (hreply : s.replyTo earlier m = .ok (.token t)) :
    (s.sessionAfter (m :: earlier)).remembered? t = none := by
  rw [Option.eq_none_iff_forall_ne_some]
  intro e he
  obtain ⟨u, hu, hkey, -⟩ := exists_spent_of_remembered? he
  have htext := horderly.digests t (mem_issued_cons.2 (.inl hreply)) u hu hkey
  exact text_ne_of_mem_spent hissuer horderly hreply hu htext

/-- A `revoke` of an authentic token that leaves a session active is not of the active token's text.
-/
private theorem text_ne_of_active_revoke {session : Session}
    (hauthentic : Session.isAuthentic s.issuer u = true)
    (h : (session.revoke s.issuer u).2.active = some t) : t.text ≠ u.text := by
  have hactive := active_of_revoke h
  intro htext
  have hsame : session.isActive u = true := by simp [Session.isActive, hactive, htext]
  simp [Session.revoke, hauthentic, hsame, Session.close] at h

include hissuer in
/-- In an `Orderly` run the active token is not `remembered?` as retired. -/
private theorem remembered?_of_active (horderly : s.Orderly log)
    (hactive : (s.sessionAfter log).active = some t) :
    (s.sessionAfter log).remembered? t = none := by
  induction log generalizing t with
  | nil => cases hactive
  | cons m earlier ih =>
    have hfresh := fun {t} => @remembered?_of_replyTo s earlier m t hissuer horderly
    have hbefore := fun {t} => @ih t horderly.of_cons
    have hissued := fun {t} (h : (s.sessionAfter earlier).active = some t) =>
      (mem_issued_cons (m := m)).2 (.inr (active_mem_issued h))
    have hspent := fun {u} (h : s.spentBy earlier m = some u) => mem_spent_cons.2 (.inl h)
    have hrefresh := fun {u reply} => @spentBy_of_refresh s earlier m u reply
    have heffect := s.effect_run earlier m
    generalize s.replyTo earlier m = reply at heffect hfresh hrefresh
    generalize s.sessionAfter (m :: earlier) = after at heffect hactive hfresh ⊢
    cases heffect with
    | signedIn call named issued =>
      cases hactive
      exact hfresh rfl
    | @refreshed u fresh nonce call allowed issued =>
      cases hold : (s.sessionAfter earlier).active with
      | none =>
        rw [active_replaced_of_none hold] at hactive
        cases hactive
        exact hfresh rfl
      | some a =>
        rw [active_replaced hold] at hactive
        by_cases htext : a.text = u.text
        · rw [if_pos htext] at hactive
          cases hactive
          exact hfresh rfl
        · rw [if_neg htext] at hactive
          cases hactive
          have hkey : Session.retirementKey t ≠ Session.retirementKey u := fun hkey =>
            htext (horderly.digests t (hissued hold) u (hspent (hrefresh call rfl)) hkey)
          rw [remembered?_replaced, if_neg hkey, hbefore hold]
          rfl
    | @revoked u call =>
      rw [Session.remembered?_revoke, hbefore (active_of_revoke hactive)]
      refine if_neg fun ⟨hauthentic, hkey⟩ => ?_
      have hu : s.spentBy earlier m = some u := by
        rw [spentBy_of_revoke call, if_pos (Session.isAuthentic_iff.1 hauthentic).2]
      exact text_ne_of_active_revoke hauthentic hactive
        (horderly.digests t (hissued (active_of_revoke hactive)) u (hspent hu) hkey)
    | loggedOut call =>
      rw [active_logout] at hactive
      cases hactive
    | validated call => exact hbefore hactive
    | authorized call allowed => exact hbefore hactive
    | refused => exact hbefore hactive

include hissuer in
theorem not_isRetired_of_active (horderly : s.Orderly log)
    (hactive : (s.sessionAfter log).active = some t) :
    (s.sessionAfter log).isRetired t = false := by
  rw [Session.isRetired_eq_isSome, remembered?_of_active hissuer horderly hactive]
  rfl

end Issuer

/-! ## After a token was given out -/

/-- A token that is given out at a sign-in, or for the active one, becomes the active token. -/
private theorem active_of_replyTo (hreply : s.replyTo earlier m = .ok (.token t))
    (hactive : ∀ u, m.call = .refresh u → (s.sessionAfter earlier).isActive u = true) :
    (s.sessionAfter (m :: earlier)).active = some t := by
  have heffect := s.effect_run earlier m
  rw [hreply] at heffect
  generalize s.sessionAfter (m :: earlier) = after at heffect ⊢
  cases heffect with
  | signedIn call named issued => rfl
  | refreshed call allowed issued => simp [replaced, hactive _ call]

/-- A token that was just given out has its validity before it, counted from the start of the
second: `expiresAt` lies that long after the reading. -/
private theorem expiresAt_of_replyTo (hpolicy : s.issuer.policy.validate = .ok ())
    (hreply : s.replyTo earlier m = .ok (.token t)) :
    t.expiresAt.seconds = m.reading.seconds + s.issuer.policy.validitySeconds.toNat
      ∧ t.expiresAt.nanos = 0 := by
  have heffect := s.effect_run earlier m
  rw [hreply] at heffect
  generalize s.sessionAfter (m :: earlier) = after at heffect
  cases heffect with
  | signedIn call named issued => exact Token.expiresAt_of_issue hpolicy issued
  | refreshed call allowed issued => exact Token.expiresAt_of_issue hpolicy issued

/-- A session whose active token was just given out is `authenticated`, unless that is in a leap
second and the threshold a second short of the validity. -/
theorem status_of_replyTo_iff (hpolicy : s.issuer.policy.validate = .ok ())
    (hreply : s.replyTo earlier m = .ok (.token t))
    (hactive : (s.sessionAfter (m :: earlier)).active = some t)
    (hretired : (s.sessionAfter (m :: earlier)).isRetired t = false) :
    (s.sessionAfter (m :: earlier)).status s.issuer m.reading = .authenticated
      ↔ (m.reading.isLeap = true →
          s.issuer.policy.thresholdSeconds.toNat + 1 = s.issuer.policy.validitySeconds.toNat →
          m.reading.secondOfDay < t.expiresAt.secondOfDay) := by
  obtain ⟨hseconds, hnanos⟩ := expiresAt_of_replyTo hpolicy hreply
  have hpositive := (Token.Policy.validitySeconds_of_validate hpolicy).1
  have hshorter := Token.Policy.thresholdSeconds_lt_of_validate hpolicy
  have hbefore : m.reading.before t.expiresAt = true := by
    rw [Instant.before_eq_true_iff]
    omega
  have hlong := Instant.ofSeconds_lt_since_iff hseconds hnanos (Int.ofNat_lt.2 hshorter)
  rw [Session.status_eq_authenticated_iff hactive hretired, and_iff_right hbefore,
    Token.Policy.threshold_eq_ofSeconds_of_validate hpolicy, hlong]
  exact imp_congr_right fun _ => imp_congr_left (by omega)

/-! ## What the session can do -/

/-- An active token that is not retired can be refreshed exactly if `status` does not deny it, where
the end of the new token lies in the calendar. -/
private theorem exists_refresh_iff_status (hpolicy : s.issuer.policy.validate = .ok ())
    (hactive : (s.sessionAfter log).active = some t)
    (hretired : (s.sessionAfter log).isRetired t = false) {world : World}
    (hcalendar : (world.clock.truncated.plus? s.issuer.policy.validity).isSome = true) :
    (∃ fresh, s.replyTo log ⟨.refresh t, world⟩ = .ok (.token fresh))
      ↔ (s.sessionAfter log).status s.issuer world.clock ≠ .notAuthenticated := by
  have hauthentic := isAuthentic_of_mem_issued hpolicy (active_mem_issued hactive)
  rw [exists_replyTo_refresh_iff rfl, Session.refreshRefusal?_eq_none_iff,
    Session.status_ne_notAuthenticated_iff hactive hretired]
  have hreading : Move.reading ⟨.refresh t, world⟩ = world.clock := rfl
  rw [hreading, and_iff_left hcalendar, and_iff_right hauthentic, and_iff_right hretired]

/-- The `status` says what the session can do. It does not deny the session exactly if there is an
active token that can be refreshed, and it is `authenticated` only where that token is in force and
more than the threshold is left of its life. The active token is never retired and always verifies.
After a sign-in, and after the active token was refreshed, the session is `authenticated` unless
that is in a leap second, the threshold a second short of the validity, and the end of the token at
no later time of day. -/
theorem status_iff_session (hpolicy : s.issuer.policy.validate = .ok ())
    (hissuer : (Bytes.ofText s.issuer.policy.issuer).length ≤ Bytes.maxLength)
    (horderly : s.Orderly log) :
    (∀ world : World, (world.clock.truncated.plus? s.issuer.policy.validity).isSome = true →
      ((s.sessionAfter log).status s.issuer world.clock ≠ .notAuthenticated
        ↔ ∃ t fresh, (s.sessionAfter log).active = some t
            ∧ s.replyTo log ⟨.refresh t, world⟩ = .ok (.token fresh)))
    ∧ (∀ t, (s.sessionAfter log).active = some t →
        (s.sessionAfter log).isRetired t = false ∧ s.issuer.signer.verify t = true
        ∧ ∀ world : World, (s.sessionAfter log).status s.issuer world.clock = .authenticated →
            s.replyTo log ⟨.validate t, world⟩ = .ok (.flag true)
            ∧ s.issuer.policy.threshold < t.expiresAt.since world.clock)
    ∧ ∀ m earlier t, log = m :: earlier → s.replyTo earlier m = .ok (.token t) →
        (∀ u, m.call = .refresh u → (s.sessionAfter earlier).isActive u = true) →
        (s.sessionAfter log).active = some t
        ∧ ((s.sessionAfter log).status s.issuer m.reading = .authenticated
          ↔ (m.reading.isLeap = true →
              s.issuer.policy.thresholdSeconds.toNat + 1 = s.issuer.policy.validitySeconds.toNat →
              m.reading.secondOfDay < t.expiresAt.secondOfDay)) := by
  have hretired := fun {t} => @not_isRetired_of_active s log t hissuer horderly
  refine ⟨fun world hcalendar => ?_, fun t hactive => ?_, ?_⟩
  · cases hactive : (s.sessionAfter log).active with
    | none => simp [Session.status_of_active_eq_none hactive]
    | some t =>
      rw [← exists_refresh_iff_status hpolicy hactive (hretired hactive) hcalendar]
      simp
  · have hissued := active_mem_issued hactive
    refine ⟨hretired hactive, verify_of_mem_issued hissued, fun world hstatus => ?_⟩
    obtain ⟨hbefore, hlong⟩ :=
      (Session.status_eq_authenticated_iff hactive (hretired hactive)).1 hstatus
    have haccepts := Session.accepts_iff.2
      ⟨isAuthentic_of_mem_issued hpolicy hissued, hretired hactive, hbefore⟩
    refine ⟨?_, hlong⟩
    rw [replyTo, respond_validate rfl]
    exact congrArg (fun flag => Except.ok (Reply.flag flag)) haccepts
  · rintro m earlier t rfl hreply hcall
    have hactive := active_of_replyTo hreply hcall
    exact ⟨hactive, status_of_replyTo_iff hpolicy hreply hactive (hretired hactive)⟩

/-! ### A session that was just opened -/

open Token (sampleSigner sampleStart sampleToken sampleTokenAt)

/-- A run of one sign-in is `Orderly`. -/
theorem orderly_of_signIn {c : Credentials} (hcall : m.call = .signIn c)
    (hreply : s.replyTo [] m = .ok (.token t)) : s.Orderly [m] where
  unforged := by
    refine ⟨fun u hpresented _ => ?_, trivial⟩
    rw [hcall] at hpresented
    cases hpresented
  nonces := by
    rw [DistinctNonces, issued_cons_of_token hreply]
    exact List.pairwise_singleton _ _
  digests t _ u hu := by
    rcases mem_spent_cons.1 hu with hspent | hu
    · rw [spentBy_of_signIn hcall] at hspent
      cases hspent
    · cases hu

/-- After Ada signed in she is authenticated and can have her token refreshed. -/
theorem status_sampleSignIn :
    (sampleServices.sessionAfter [sampleSignIn]).status sampleServices.issuer sampleStart
        = .authenticated
      ∧ ∃ t fresh, (sampleServices.sessionAfter [sampleSignIn]).active = some t
          ∧ sampleServices.replyTo [sampleSignIn] ⟨.refresh t, sampleWorld sampleStart 1⟩
            = .ok (.token fresh) := by
  have hissuer : (Bytes.ofText sampleServices.issuer.policy.issuer).length ≤ Bytes.maxLength := by
    decide
  have hreply := replyTo_of_respond (respond_sampleSignIn (sampleServices.sessionAfter []))
  have hagrees := status_iff_session rfl hissuer (orderly_of_signIn rfl hreply)
  obtain ⟨-, hstatus⟩ := hagrees.2.2 sampleSignIn [] sampleToken rfl hreply (fun _ h => by cases h)
  have hauthenticated := hstatus.2 (fun hleap => absurd hleap (by decide))
  refine ⟨hauthenticated, (hagrees.1 (sampleWorld sampleStart 1) (by decide)).1 ?_⟩
  exact fun h => absurd (hauthenticated.symm.trans h) (by decide)

/-! ### A session that is opened in a leap second -/

/-- The `sampleServices` with a refresh due after a second. -/
def eagerServices : Services :=
  { sampleServices with
    issuer := ⟨sampleSigner, { Token.Policy.default with thresholdSeconds := 3599 }⟩ }

/-- Ada signs in within a leap second at the end of a day. -/
def signInAtLeap : Move := ⟨.signIn sampleCredentials, sampleWorld leapSecond 0⟩

theorem respond_signInAtLeap :
    eagerServices.respond (eagerServices.sessionAfter []) signInAtLeap
      = (.ok (.token (sampleTokenAt leapSecond leapEnd 0)), eagerServices.opened
          (eagerServices.sessionAfter []) sampleCredentials
          (sampleTokenAt leapSecond leapEnd 0) leapSecond) := by
  have hvalidity : eagerServices.issuer.policy.validity = Time.Span.ofSeconds 3600 := by decide
  have hend : leapSecond.truncated.plus? eagerServices.issuer.policy.validity = some leapEnd := by
    rw [hvalidity]
    exact Instant.plus?_truncated_ofSeconds.2 ⟨rfl, rfl⟩
  have hissue : eagerServices.issuer.issue "ada" leapSecond (Token.sampleNonce 0)
      = .ok (sampleTokenAt leapSecond leapEnd 0) := Token.issue_eq_ok_iff.2 ⟨leapEnd, hend, rfl⟩
  rw [← nonce_sample (.signIn sampleCredentials) leapSecond 0] at hissue
  exact respond_signIn (m := signInAtLeap) rfl (authenticate_sample leapSecond 0) hissue

/-- The policy is accepted and the run is `Orderly`, and yet the session asks for a refresh at the
instant at which it was opened. -/
theorem leap_requiresRefresh :
    eagerServices.issuer.policy.validate = .ok ()
    ∧ eagerServices.Orderly [signInAtLeap]
    ∧ eagerServices.replyTo [] signInAtLeap = .ok (.token (sampleTokenAt leapSecond leapEnd 0))
    ∧ (eagerServices.sessionAfter [signInAtLeap]).active
      = some (sampleTokenAt leapSecond leapEnd 0)
    ∧ (eagerServices.sessionAfter [signInAtLeap]).status eagerServices.issuer leapSecond
      = .requiresRefresh := by
  have hreply := replyTo_of_respond respond_signInAtLeap
  refine ⟨rfl, orderly_of_signIn rfl hreply, hreply, ?_, ?_⟩
  · rw [sessionAfter_of_respond respond_signInAtLeap]
    rfl
  · rw [sessionAfter_of_respond respond_signInAtLeap]
    decide

end Strongbox.Services
