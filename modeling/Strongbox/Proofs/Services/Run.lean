import Strongbox.Proofs.Account.Guard
import Strongbox.Proofs.Token.Issue
import Strongbox.Services
/-!
# Runs of calls

The calls that concern tokens, one after another on one session. Each call meets a world of its
own: what happens to the storage between two calls, what the clock shows and what is drawn at random
is left open, so whatever holds of every run holds in every surroundings. A run is the list of its
moves, the newest first.

`Effect` lists what a call can do to the session. Everything about runs rests on it: an invariant
holds of every run once it holds at the start and every effect preserves it.

## Main results

* `effect_respond`: a call has one of the listed effects.
* `exists_issue_of_mem_issued`, `active_mem_issued`: what is given out was issued, and the active
  token is one of those.
-/

namespace Strongbox

open Time (Instant)

/-- A call that concerns tokens. -/
inductive Call where
  | signIn (c : Credentials)
  | refresh (t : Token)
  | revoke (t : Token)
  | logout
  | validate (t : Token)
  | authorize (t : Token) (operation : String)

/-- The token that is presented with a call, which is `none` for a sign-in and a logout. -/
def Call.presented? : Call → Option Token
  | .signIn _ | .logout => none
  | .refresh t | .revoke t | .validate t | .authorize t _ => some t

/-- What a call gives. -/
inductive Reply where
  | token (t : Token)
  | user (name : String)
  | flag (answer : Bool)
  | done

/-- A call and the world it meets. -/
structure Move where
  call : Call
  world : World

/-- What the clock shows at a move. -/
def Move.reading (m : Move) : Instant := m.world.clock

/-- The nonce that is drawn first at a move: `Token.nonceSize` bytes of its world's entropy. -/
def Move.nonce (m : Move) : Token.Nonce := (m.world.entropy.draw Token.nonceSize).1

namespace Services

variable (s : Services)

/-- Answers a call on a session. -/
def answer (session : Session) : Call → Action (Reply × Session)
  | .signIn c => do
    let (t, session) ← s.signIn session c
    pure (.token t, session)
  | .refresh t => do
    let (fresh, session) ← s.refresh session t
    pure (.token fresh, session)
  | .revoke t =>
    let (fresh, session) := session.revoke s.issuer t
    pure (.flag fresh, session)
  | .logout => pure (.done, session.logout)
  | .validate t => do
    let now ← Action.now
    pure (.flag (session.accepts s.issuer t now), session)
  | .authorize t operation => do
    let now ← Action.now
    let user ← Action.ofExcept (session.authorize s.issuer t operation now)
    pure (.user user, session)

/-- The reply to a move and the session after it. A call that halts leaves `session` alone. -/
def respond (session : Session) (m : Move) : Outcome Reply × Session :=
  match (Action.perform World.answer (s.answer session m.call) m.world).1 with
  | .ok (reply, session) => (.ok reply, session)
  | .error halt => (.error halt, session)

/-- The session after a run, which starts with `Session.start`. -/
def sessionAfter : List Move → Session
  | [] => Session.start
  | m :: earlier => (s.respond (sessionAfter earlier) m).2

/-- The reply to the move `m` after the run `earlier`. -/
def replyTo (earlier : List Move) (m : Move) : Outcome Reply :=
  (s.respond (s.sessionAfter earlier) m).1

/-- The tokens that were given out in a run. -/
def issued : List Move → List Token
  | [] => []
  | m :: earlier =>
    match s.replyTo earlier m with
    | .ok (.token t) => t :: issued earlier
    | _ => issued earlier

/-- The identifiers that were signed in in a run. -/
def signedIn : List Move → List String
  | [] => []
  | m :: earlier =>
    match m.call, s.replyTo earlier m with
    | .signIn c, .ok _ => c.identifier :: signedIn earlier
    | _, _ => signedIn earlier

/-- No code is met that was not made in the run: what is presented and verifies has the message of a
token that was given out before. -/
def Unforged : List Move → Prop
  | [] => True
  | m :: earlier =>
    (∀ t, m.call.presented? = some t → s.issuer.signer.verify t = true →
      ∃ u ∈ s.issued earlier, u.message? = t.message?)
    ∧ Unforged earlier

/-- No nonce is drawn twice: those of the tokens that were given out are distinct. -/
def DistinctNonces (log : List Move) : Prop := ((s.issued log).map Token.nonce?).Nodup

/-! ## What a call does -/

/-- The session after a sign-in with `c` at `now`, for which `t` was issued. -/
def opened (session : Session) (c : Credentials) (t : Token) (now : Instant) : Session :=
  { session.prune s.issuer.policy now with
    active := some t
    context := Session.contextOf c.metadata c.method.name c.identifier now }

/-- The session after `t` was replaced by `fresh` at `now`. -/
def replaced (session : Session) (t fresh : Token) (now : Instant) : Session :=
  { (session.prune s.issuer.policy now).retire t with
    active := if session.active.isNone || session.isActive t then some fresh else session.active }

/-- What `respond` can do at a move: its reply and the session after it. -/
inductive Effect (session : Session) (m : Move) : Outcome Reply → Session → Prop where
  /-- Someone with an account name signs in and is given a token. -/
  | signedIn {c : Credentials} {t : Token} {nonce : Token.Nonce} (call : m.call = .signIn c)
      (named : Account.checkIdentifier c.identifier = .ok ())
      (issued : s.issuer.issue c.identifier m.reading nonce = .ok t) :
      Effect session m (.ok (.token t)) (s.opened session c t m.reading)
  | refreshed {t fresh : Token} {nonce : Token.Nonce} (call : m.call = .refresh t)
      (allowed : session.refreshRefusal? s.issuer t m.reading = none)
      (issued : s.issuer.issue t.user m.reading nonce = .ok fresh) :
      Effect session m (.ok (.token fresh)) (s.replaced session t fresh m.reading)
  /-- A token is revoked, if it is authentic. -/
  | revoked {t : Token} (call : m.call = .revoke t) :
      Effect session m (.ok (.flag (session.revoke s.issuer t).1)) (session.revoke s.issuer t).2
  | loggedOut (call : m.call = .logout) : Effect session m (.ok .done) session.logout
  | validated {t : Token} (call : m.call = .validate t) :
      Effect session m (.ok (.flag (session.accepts s.issuer t m.reading))) session
  | authorized {t : Token} {operation user : String} (call : m.call = .authorize t operation)
      (allowed : session.authorize s.issuer t operation m.reading = .ok user) :
      Effect session m (.ok (.user user)) session
  /-- The call halts. A revocation and the end of a session never do. -/
  | refused {halt : Halt} (revoke : ∀ t, m.call ≠ .revoke t) (logout : m.call ≠ .logout) :
      Effect session m (.error halt) session

variable {s} {session : Session} {m : Move}

/-- The reply to a `refresh`, read off `Session.refresh`. -/
theorem respond_refresh {t : Token} (hcall : m.call = .refresh t) :
    s.respond session m = match session.refresh s.issuer t m.reading m.nonce with
      | .ok (fresh, session) => (.ok (.token fresh), session)
      | .error halt => (.error halt, session) := by
  unfold respond
  rw [hcall]
  simp only [answer, Services.refresh, Action.perform_bind, Action.perform_now,
    Action.perform_draw_system, Action.perform_ofOutcome, Move.reading, Move.nonce]
  rcases session.refresh s.issuer t m.world.clock (m.world.entropy.draw Token.nonceSize).1
    with halt | ⟨fresh, session'⟩ <;> rfl

private theorem respond_revoke {t : Token} (hcall : m.call = .revoke t) :
    s.respond session m
      = (.ok (.flag (session.revoke s.issuer t).1), (session.revoke s.issuer t).2) := by
  unfold respond
  rw [hcall]
  rfl

theorem respond_logout (hcall : m.call = .logout) :
    s.respond session m = (.ok .done, session.logout) := by
  unfold respond
  rw [hcall]
  rfl

theorem respond_validate {t : Token} (hcall : m.call = .validate t) :
    s.respond session m = (.ok (.flag (session.accepts s.issuer t m.reading)), session) := by
  unfold respond
  rw [hcall]
  rfl

theorem respond_authorize {t : Token} {operation user : String}
    (hcall : m.call = .authorize t operation)
    (h : session.authorize s.issuer t operation m.reading = .ok user) :
    s.respond session m = (.ok (.user user), session) := by
  rw [Move.reading] at h
  unfold respond
  rw [hcall]
  simp only [answer, Action.perform_bind, Action.perform_now, Action.perform_ofExcept, h]
  rfl

private theorem respond_authorize_error {t : Token} {operation : String} {e : Error}
    (hcall : m.call = .authorize t operation)
    (h : session.authorize s.issuer t operation m.reading = .error e) :
    s.respond session m = (.error (.failed e), session) := by
  rw [Move.reading] at h
  unfold respond
  rw [hcall]
  simp only [answer, Action.perform_bind, Action.perform_now, Action.perform_ofExcept, h]
  rfl

/-! ### Signing in and refreshing -/

private theorem login_eq_ok {user method : String} {metadata : Table String} {now : Instant}
    {nonce : Token.Nonce} {t : Token} {after : Session}
    (h : session.login s.issuer user method metadata now nonce = .ok (t, after)) :
    s.issuer.issue user now nonce = .ok t
      ∧ after = { session.prune s.issuer.policy now with
          active := some t, context := Session.contextOf metadata method user now } := by
  unfold Session.login at h
  rcases hissue : s.issuer.issue user now nonce with halt | t'
  · rw [hissue] at h
    cases h
  · rw [hissue] at h
    cases h
    exact ⟨rfl, rfl⟩

theorem refresh_eq_ok_iff {t fresh : Token} {now : Instant} {nonce : Token.Nonce}
    {after : Session} :
    session.refresh s.issuer t now nonce = .ok (fresh, after)
      ↔ session.refreshRefusal? s.issuer t now = none
        ∧ s.issuer.issue t.user now nonce = .ok fresh
        ∧ after = s.replaced session t fresh now := by
  unfold Session.refresh
  cases session.refreshRefusal? s.issuer t now with
  | some e => simp [Outcome.failure]
  | none =>
    rcases s.issuer.issue t.user now nonce with halt | fresh'
    · simp [bind, Except.bind]
    · constructor
      · intro h
        cases h
        exact ⟨rfl, rfl, rfl⟩
      · rintro ⟨-, h, rfl⟩
        cases h
        rfl

/-- A refresh that is allowed gives out the new token, and the session has `t` `replaced` by it. -/
theorem respond_refresh_of_issue {t fresh : Token} (hcall : m.call = .refresh t)
    (hallowed : session.refreshRefusal? s.issuer t m.reading = none)
    (hissue : s.issuer.issue t.user m.reading m.nonce = .ok fresh) :
    s.respond session m = (.ok (.token fresh), s.replaced session t fresh m.reading) := by
  rw [respond_refresh hcall, refresh_eq_ok_iff.2 ⟨hallowed, hissue, rfl⟩]

/-- A sign-in that has a result admits the credentials (`Guard.authenticate`) and then opens the
session. -/
private theorem login_of_signIn {c : Credentials} {w : World} {t : Token} {after : Session}
    (h : (Action.perform World.answer (s.signIn session c) w).1 = .ok (t, after)) :
    Account.checkIdentifier c.identifier = .ok ()
      ∧ ∃ nonce, session.login s.issuer c.identifier c.method.name c.metadata w.clock nonce
        = .ok (t, after) := by
  unfold signIn at h
  obtain ⟨_, w', hadmitted, h⟩ := Action.exists_of_perform_bind _ h
  have hnamed := Account.Guard.checkIdentifier_of_authenticate (congrArg Prod.fst hadmitted)
  have hclock : w'.clock = w.clock := by
    rw [← Action.clock_perform (s.guard.authenticate c) w, hadmitted]
  simp only [Action.perform_bind, Action.perform_now, Action.perform_draw_system,
    Action.perform_ofOutcome, hclock] at h
  exact ⟨hnamed, _, h⟩

/-- A sign-in with credentials that `Guard.authenticate` admits leaves the session `opened`. -/
theorem respond_signIn {c : Credentials} {w : World} {t : Token} (hcall : m.call = .signIn c)
    (hadmitted : Action.perform World.answer (s.guard.authenticate c) m.world = (.ok (), w))
    (hissue : s.issuer.issue c.identifier m.reading (w.entropy.draw Token.nonceSize).1 = .ok t) :
    s.respond session m = (.ok (.token t), s.opened session c t m.reading) := by
  have hclock : w.clock = m.reading := by
    rw [Move.reading, ← Action.clock_perform (s.guard.authenticate c) m.world, hadmitted]
  unfold respond
  rw [hcall, answer, signIn]
  simp only [Action.perform_bind, hadmitted, Action.perform_now, Action.perform_draw_system,
    Action.perform_ofOutcome, Session.login, hclock, hissue]
  rfl

/-- Each move has one of the effects that `Effect` lists. -/
theorem effect_respond (s : Services) (session : Session) (m : Move) :
    s.Effect session m (s.respond session m).1 (s.respond session m).2 := by
  cases hcall : m.call with
  | signIn c =>
    unfold respond
    rw [hcall, answer, Action.perform_bind]
    rcases hresult : Action.perform World.answer (s.signIn session c) m.world
      with ⟨halt | ⟨t, after⟩, w⟩
    · exact .refused (by simp [hcall]) (by simp [hcall])
    · obtain ⟨hnamed, nonce, hlogin⟩ := login_of_signIn (congrArg Prod.fst hresult)
      obtain ⟨hissued, rfl⟩ := login_eq_ok hlogin
      exact .signedIn hcall hnamed hissued
  | refresh t =>
    rw [respond_refresh hcall]
    rcases hresult : session.refresh s.issuer t m.reading m.nonce with halt | ⟨fresh, after⟩
    · exact .refused (by simp [hcall]) (by simp [hcall])
    · obtain ⟨hallowed, hissued, rfl⟩ := refresh_eq_ok_iff.1 hresult
      exact .refreshed hcall hallowed hissued
  | revoke t =>
    rw [respond_revoke hcall]
    exact .revoked hcall
  | logout =>
    rw [respond_logout hcall]
    exact .loggedOut hcall
  | validate t =>
    rw [respond_validate hcall]
    exact .validated hcall
  | authorize t operation =>
    rcases hallowed : session.authorize s.issuer t operation m.reading with e | user
    · rw [respond_authorize_error hcall hallowed]
      exact .refused (by simp [hcall]) (by simp [hcall])
    · rw [respond_authorize hcall hallowed]
      exact .authorized hcall hallowed

/-! ## Runs -/

/-- The `Effect` of the newest move of a run. -/
theorem effect_run (s : Services) (earlier : List Move) (m : Move) :
    s.Effect (s.sessionAfter earlier) m (s.replyTo earlier m) (s.sessionAfter (m :: earlier)) :=
  s.effect_respond (s.sessionAfter earlier) m

variable {log earlier : List Move} {t : Token}

theorem mem_issued_cons :
    t ∈ s.issued (m :: earlier) ↔ s.replyTo earlier m = .ok (.token t) ∨ t ∈ s.issued earlier := by
  rw [issued]
  split
  · rename_i u hreply
    rw [hreply, List.mem_cons]
    constructor
    · rintro (rfl | h)
      · exact .inl rfl
      · exact .inr h
    · rintro (h | h)
      · cases h
        exact .inl rfl
      · exact .inr h
  · rename_i hother
    constructor
    · exact .inr
    · rintro (h | h)
      · exact absurd h (hother t)
      · exact h

theorem issued_cons_of_token (h : s.replyTo earlier m = .ok (.token t)) :
    s.issued (m :: earlier) = t :: s.issued earlier := by
  rw [issued, h]

theorem DistinctNonces.of_cons (h : s.DistinctNonces (m :: earlier)) :
    s.DistinctNonces earlier := by
  unfold DistinctNonces at h
  rw [issued] at h
  split at h
  · exact (List.nodup_cons.1 h).2
  · exact h

/-- What is `issued` in a run came from `Issuer.issue`, for some user at some instant. -/
theorem exists_issue_of_mem_issued (h : t ∈ s.issued log) :
    ∃ now nonce, s.issuer.issue t.user now nonce = .ok t := by
  induction log with
  | nil => cases h
  | cons m earlier ih =>
    rcases mem_issued_cons.1 h with hreply | h
    · have heffect := s.effect_run earlier m
      rw [hreply] at heffect
      generalize s.sessionAfter (m :: earlier) = after at heffect
      cases heffect with
      | signedIn call named issued =>
        rw [← Token.user_of_issue issued] at issued
        exact ⟨_, _, issued⟩
      | refreshed call allowed issued =>
        rw [← Token.user_of_issue issued] at issued
        exact ⟨_, _, issued⟩
    · exact ih h

theorem verify_of_mem_issued (h : t ∈ s.issued log) : s.issuer.signer.verify t = true := by
  obtain ⟨now, nonce, hissue⟩ := exists_issue_of_mem_issued h
  exact Token.verify_of_issue hissue

theorem replyTo_of_respond {reply : Outcome Reply} {after : Session}
    (h : s.respond (s.sessionAfter earlier) m = (reply, after)) :
    s.replyTo earlier m = reply := by
  rw [replyTo, h]

theorem sessionAfter_of_respond {reply : Outcome Reply} {after : Session}
    (h : s.respond (s.sessionAfter earlier) m = (reply, after)) :
    s.sessionAfter (m :: earlier) = after := by
  rw [sessionAfter, h]

/-- A refresh has a result exactly if there is no `refreshRefusal?` and the new token has its end in
the calendar. -/
theorem exists_replyTo_refresh_iff (hcall : m.call = .refresh t) :
    (∃ fresh, s.replyTo earlier m = .ok (.token fresh))
      ↔ (s.sessionAfter earlier).refreshRefusal? s.issuer t m.reading = none
        ∧ (m.reading.truncated.plus? s.issuer.policy.validity).isSome = true := by
  rw [← @Token.exists_issue_eq_ok_iff s.issuer t.user m.reading m.nonce, replyTo,
    respond_refresh hcall]
  constructor
  · rintro ⟨fresh, h⟩
    split at h
    · rename_i fresh' after hresult
      obtain ⟨hallowed, hissue, -⟩ := refresh_eq_ok_iff.1 hresult
      exact ⟨hallowed, fresh', hissue⟩
    · cases h
  · rintro ⟨hallowed, fresh, hissue⟩
    rw [refresh_eq_ok_iff.2 ⟨hallowed, hissue, rfl⟩]
    exact ⟨fresh, rfl⟩

theorem refreshRefusal?_of_replyTo {reply : Reply} (hcall : m.call = .refresh t)
    (h : s.replyTo earlier m = .ok reply) :
    (s.sessionAfter earlier).refreshRefusal? s.issuer t m.reading = none := by
  rw [replyTo, respond_refresh hcall] at h
  split at h
  · rename_i fresh after hresult
    exact (refresh_eq_ok_iff.1 hresult).1
  · cases h

/-- A call that halts leaves the session alone. -/
theorem sessionAfter_of_error {halt : Halt} (h : s.replyTo earlier m = .error halt) :
    s.sessionAfter (m :: earlier) = s.sessionAfter earlier := by
  have heffect := s.effect_run earlier m
  rw [h] at heffect
  generalize s.sessionAfter (m :: earlier) = after at heffect ⊢
  cases heffect with
  | refused => rfl

/-! ### The active token -/

/-- After a `revoke` that leaves an active token, that token and the context are what they were. -/
theorem kept_of_active_revoke {u : Token}
    (h : (session.revoke s.issuer t).2.active = some u) :
    (session.revoke s.issuer t).2.active = session.active
      ∧ (session.revoke s.issuer t).2.context = session.context := by
  unfold Session.revoke at h ⊢
  by_cases hauthentic : Session.isAuthentic s.issuer t = true
  · by_cases hactive : session.isActive t = true
    · simp [hauthentic, hactive, Session.close] at h
    · simp [hauthentic, hactive, Session.retire]
  · simp [hauthentic]

theorem active_of_revoke {u : Token} (h : (session.revoke s.issuer t).2.active = some u) :
    session.active = some u :=
  (kept_of_active_revoke h).1.symm.trans h

/-- Where there is an active token, a fresh one takes its place in `replaced` if it was the one
replaced. -/
theorem active_replaced {a fresh : Token} {now : Instant} (hactive : session.active = some a) :
    (s.replaced session t fresh now).active = if a.text = t.text then some fresh else some a := by
  simp [replaced, hactive, Session.isActive]

/-- Where there is no active token, a fresh one becomes active whatever it replaces. -/
theorem active_replaced_of_none {fresh : Token} {now : Instant} (hactive : session.active = none) :
    (s.replaced session t fresh now).active = some fresh := by
  simp [replaced, hactive]

theorem active_logout (session : Session) : session.logout.active = none := by
  unfold Session.logout
  split <;> rfl

/-- The active token was given out in the run: it is among the `issued`. -/
theorem active_mem_issued (h : (s.sessionAfter log).active = some t) : t ∈ s.issued log := by
  induction log with
  | nil => cases h
  | cons m earlier ih =>
    have heffect := s.effect_run earlier m
    rw [mem_issued_cons]
    generalize s.replyTo earlier m = reply at heffect ⊢
    generalize s.sessionAfter (m :: earlier) = after at heffect h
    cases heffect with
    | signedIn call named issued =>
      cases h
      exact .inl rfl
    | @refreshed u fresh nonce call allowed issued =>
      unfold replaced at h
      by_cases htakes : ((s.sessionAfter earlier).active.isNone
          || (s.sessionAfter earlier).isActive u) = true
      · simp only [htakes, if_true, Option.some.injEq] at h
        exact .inl (by rw [h])
      · simp only [htakes] at h
        exact .inr (ih h)
    | revoked call => exact .inr (ih (active_of_revoke h))
    | loggedOut call =>
      rw [active_logout] at h
      cases h
    | validated call => exact .inr (ih h)
    | authorized call allowed => exact .inr (ih h)
    | refused => exact .inr (ih h)

end Services

end Strongbox
