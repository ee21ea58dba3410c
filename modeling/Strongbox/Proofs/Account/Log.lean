import Strongbox.Proofs.Account.Records
import Strongbox.Proofs.Key.Atomicity
import Strongbox.Proofs.Program.Surroundings
import Strongbox.Proofs.Token.Issue
/-!
# Passwords over a log of visits

Visits to any number of services over one storage follow one another; a log of them has the newest
first. What is on file for an account is read off the log: the password that was last set, and the
password of which the hash on record was made. The two differ only where someone signed in with
another password that has the same hash, and had it renewed.

The password that was set is admitted for as long as it has the hash on record, through renewals
that are written and renewals that fail.

## Main results

* `effect_run`: what a visit does to the data.
* `onFile_of_filing`: what the log says of an account is so.
* `passwords_kept`: who is admitted, and what is left alone.
-/

namespace Strongbox

/-- The services are what `Services.create` has opened in some surroundings. -/
def Services.IsOpened (s : Services) : Prop :=
  ∃ (S : Surroundings) (config : Config) (key : Option Bytes) (state : S.State),
    (S.perform (Services.create config key) state).1 = .ok s

/-- Opening that has a result has services as its result. -/
theorem Services.isOpened_get {S : Surroundings} {config : Config} {key : Option Bytes}
    {state : S.State}
    (hsome : (S.perform (Services.create config key) state).1.toOption.isSome = true) :
    ((S.perform (Services.create config key) state).1.toOption.get hsome).IsOpened := by
  refine ⟨S, config, key, state, ?_⟩
  generalize (S.perform (Services.create config key) state).1 = outcome at hsome ⊢
  cases outcome with
  | error halt => cases hsome
  | ok s => rfl

namespace Account

open Guard (filed get?_filed_of_ne hasHash_filed IsProper OnlyStoring Sets)
open Password (Stored Hashed)
open Storage (Memory)

/-! ## Services that were opened -/

private theorem decoy_of_runs_create {policy : Password.Policy} {guard : Guard} {d d' : Memory}
    {failed : List Request} (hrun : (Guard.create policy).Runs d (.ok guard) d' failed) :
    guard.policy.IsUsable ∧ Hashed guard.policy "umbra-unknown-identity" guard.decoy := by
  rcases Action.runs_ofExcept_bind_iff.1 hrun with ⟨_, hvalid, hdecoy⟩ | ⟨e, -, he, -, -⟩
  · rcases Guard.runs_hash_bind hdecoy with ⟨h, hhashed, hdrawn, hend⟩ | ⟨⟨halt, hhalt⟩, -, -⟩
    · obtain ⟨hguard, -, -⟩ := Action.runs_pure_iff.1 hend
      cases hguard
      exact ⟨hhashed.isUsable (Password.Policy.isAccepted_of_validate hvalid) hdrawn, hhashed⟩
    · cases hhalt
  · cases he

/-- Services that were opened hash under a policy that `IsUsable`, and so was their decoy. -/
theorem decoy_of_isOpened {s : Services} (h : s.IsOpened) :
    s.guard.policy.IsUsable ∧ Hashed s.guard.policy "umbra-unknown-identity" s.guard.decoy := by
  obtain ⟨S, config, key, state, hcreate⟩ := h
  have hrun := S.runs_perform (Services.create config key) state
  rw [hcreate, Services.create] at hrun
  rcases Action.runs_bind_iff.1 hrun with
    ⟨signer, d₁, before, after, -, hchecked, -⟩ | ⟨halt, -, hhalt⟩
  · rcases Action.runs_ofExcept_bind_iff.1 hchecked with ⟨_, -, hguard⟩ | ⟨e, -, he, -, -⟩
    · rcases Action.runs_bind_iff.1 hguard with
        ⟨guard, d₂, before, after, hopen, hend, -⟩ | ⟨halt, -, hhalt⟩
      · obtain ⟨hs, -, -⟩ := Action.runs_pure_iff.1 hend
        cases hs
        exact decoy_of_runs_create hopen
      · cases hhalt
    · cases he
  · cases hhalt

theorem isUsable_of_isOpened {s : Services} (h : s.IsOpened) : s.guard.policy.IsUsable :=
  (decoy_of_isOpened h).1

/-! ## What a visit does -/

/-- What an `Operation` comes to and does to the data. -/
def Effect (policy : Password.Policy) (d : Memory) :
    (o : Operation) → Outcome o.Result → Memory → Prop
  | .register identifier password, outcome, d' => Sets policy identifier password d outcome d'
  | .change identifier _ new, outcome, d' => Sets policy identifier new d outcome d'
  | .remove identifier, outcome, d' =>
    outcome = .ok () ∧ d' = d.erase (location identifier)
      ∨ (∃ halt, outcome = .error halt) ∧ d' = d
  | .has _, _, d' => d' = d
  | .signIn c, outcome, d' =>
    -- whether a token is given out in the end is another matter
    (∀ h, HasHash d c.identifier h → h.verify c.secret = .ok true)
        ∧ (∃ h, Hashed policy c.secret h ∧ d' = filed d c.identifier h)
        ∧ outcome ≠ .error (.failed .authenticationFailed)
      ∨ d' = d

variable {S : Surroundings} {services : Nat → Services} {d d' : Memory} {failed : List Request}

/-- An action that leaves the session as it is. -/
theorem runs_of_runs_pair {α : Type} {action : Action α} {session : Session}
    {outcome : Outcome (α × Session)}
    (hrun : (action >>= fun a => pure (a, session)).Runs d outcome d' failed) :
    action.Runs d (outcome.map (·.1)) d' failed := by
  rcases Action.runs_bind_iff.1 hrun with
    ⟨a, d₁, before, after, haction, hend, rfl⟩ | ⟨halt, haction, rfl⟩
  · obtain ⟨rfl, rfl, rfl⟩ := Action.runs_pure_iff.1 hend
    rwa [List.append_nil]
  · exact haction

/-- What `openSession` fails for is the date or want of a nonce, and it changes no data. -/
theorem runs_openSession {s : Services} {session : Session} {c : Credentials}
    {outcome : Outcome (Token × Session)}
    (hrun : (openSession s session c).Runs d outcome d' failed) :
    d' = d ∧ outcome ≠ .error (.failed .authenticationFailed) := by
  obtain ⟨now, hdraw⟩ := Action.runs_now_bind hrun
  rcases Action.runs_draw_bind hdraw with ⟨nonce, hend⟩ | ⟨⟨cause, rfl⟩, rfl, -⟩
  · obtain ⟨rfl, rfl, -⟩ := Action.runs_ofOutcome_iff.1 hend
    refine ⟨rfl, fun h => ?_⟩
    rw [Session.login, Token.Issuer.issue] at h
    cases hend : now.truncated.plus? s.issuer.policy.validity <;>
    · rw [hend] at h
      cases h
  · exact ⟨rfl, fun h => by cases h⟩

/-- A sign-in that changes the data renews a hash that is outdated, with a password that has it, and
is not refused. -/
theorem runs_signIn {s : Services} {session : Session} {c : Credentials}
    {outcome : Outcome (Token × Session)}
    (hrun : (s.signIn session c).Runs d outcome d' failed) :
    ((∃ old, ReadsAs d c.identifier old ∧ old.verify c.secret = .ok true
          ∧ old.isOutdated s.guard.policy = true)
        ∧ (∃ h, Hashed s.guard.policy c.secret h ∧ d' = filed d c.identifier h)
        ∧ outcome ≠ .error (.failed .authenticationFailed))
      ∨ d' = d := by
  rw [signIn_eq] at hrun
  rcases Action.runs_bind_iff.1 hrun with
    ⟨_, d₁, before, after, hadmit, hopen, -⟩ | ⟨halt, hadmit, rfl⟩
  · obtain ⟨rfl, hother⟩ := runs_openSession hopen
    rcases Guard.runs_authenticate hadmit with ⟨-, hright, hrenewed⟩ | hsame
    · exact .inl ⟨hright, hrenewed, hother⟩
    · exact .inr hsame
  · rcases Guard.runs_authenticate hadmit with ⟨hok, -⟩ | hsame
    · cases hok
    · exact .inr hsame

theorem effect_of_runs {s : Services} {session : Session} {o : Operation}
    {outcome : Outcome (o.Result × Session)}
    (hrun : (o.action s session).Runs d outcome d' failed) :
    Effect s.guard.policy d o (outcome.map (·.1)) d' := by
  cases o with
  | register identifier password => exact Guard.runs_register (runs_of_runs_pair hrun)
  | change identifier current new => exact Guard.runs_change (runs_of_runs_pair hrun)
  | remove identifier => exact Guard.runs_remove (runs_of_runs_pair hrun)
  | has identifier => exact (runs_of_runs_pair hrun).data_eq (Guard.composed_has identifier).asks
  | signIn c =>
    rcases runs_signIn hrun with ⟨⟨old, hreads, hverify, -⟩, hrenewed, hother⟩ | hsame
    · refine .inl ⟨fun h hhash => ?_, hrenewed, fun h => ?_⟩
      · rwa [← hhash.eq_of_readsAs hreads]
      · cases outcome with
        | ok result => cases h
        | error halt => exact hother (congrArg Except.error (Except.error.inj h))
    · exact .inr hsame

theorem effect_run (services : Nat → Services) (v : Visit) (s : S.State)
    (sessions : Nat → Session) :
    Effect (services v.services).guard.policy (S.data s) v.operation
      (v.run S.answer services s sessions).1 (S.data (v.run S.answer services s sessions).2.1) :=
  effect_of_runs (S.runs_perform _ s)

/-! ## Logs -/

section Logs

variable (S services) (start : S.State × (Nat → Session))

/-- The state and the sessions after a log of visits, the newest first. -/
def after : List Visit → S.State × (Nat → Session)
  | [] => start
  | v :: earlier => (v.run S.answer services (after earlier).1 (after earlier).2).2

/-- What comes of a `Visit` after a log. -/
def replyTo (earlier : List Visit) (v : Visit) : Outcome v.operation.Result :=
  (v.run S.answer services (after S services start earlier).1
    (after S services start earlier).2).1

/-- What is stored after a log. -/
def dataAfter (log : List Visit) : Memory := S.data (after S services start log).1

/-- The requests that fail in a visit after a log. -/
def failuresOf (earlier : List Visit) (v : Visit) : List Request :=
  S.failures (v.operation.action (services v.services)
    ((after S services start earlier).2 v.services)) (after S services start earlier).1

/-- What the clock shows when a sign-in after a log is past the admission. -/
def clockAt (earlier : List Visit) (i : Nat) (c : Credentials) : Time.Instant :=
  (S.answer .now
    (S.perform ((services i).guard.authenticate c) (after S services start earlier).1).2).1

/-- What a log says of the hash on record. -/
structure Filing where
  /-- The password that was last set, by a registration or a change. -/
  password : String
  /-- The password that the hash was made of. -/
  source : String
  deriving DecidableEq

/-- What is on file for an account after a log. Before the first registration that succeeds, and
after a removal, there is nothing. A sign-in that changes the record leaves a hash of what was
presented. -/
def filing : List Visit → String → Option Filing
  | [], _ => none
  | v :: earlier, identifier =>
    match v.operation with
    | .register name password | .change name _ password =>
      if name = identifier ∧ (replyTo S services start earlier v).isOk then
        some ⟨password, password⟩
      else filing earlier identifier
    | .remove name =>
      if name = identifier ∧ (replyTo S services start earlier v).isOk then none
      else filing earlier identifier
    | .has _ => filing earlier identifier
    | .signIn c =>
      if c.identifier = identifier
          ∧ (dataAfter S services start (v :: earlier)).get? (location identifier)
            ≠ (dataAfter S services start earlier).get? (location identifier) then
        (filing earlier identifier).map fun f => { f with source := c.secret }
      else filing earlier identifier

end Logs

/-- What a `Filing` says to be on file is: there is a hash on record that the source has. -/
structure OnFile (d : Memory) (identifier : String) (f : Filing) : Prop where
  named : checkIdentifier identifier = .ok ()
  nonempty : f.password.isEmpty = false
  hash : ∃ h, HasHash d identifier h ∧ h.verify f.source = .ok true

variable {start : S.State × (Nat → Session)} {identifier password : String} {f : Filing}

/-- Only the record of the account matters. -/
theorem OnFile.congr (h : OnFile d identifier f)
    (hrecord : d'.get? (location identifier) = d.get? (location identifier)) :
    OnFile d' identifier f := by
  obtain ⟨h', ⟨hreadable, hget⟩, hverify⟩ := h.hash
  exact ⟨h.named, h.nonempty, h', ⟨hreadable, hrecord.trans hget⟩, hverify⟩

/-- A password that was just set is `OnFile`. -/
private theorem onFile_filed {policy : Password.Policy} {h : Stored}
    (hname : checkIdentifier identifier = .ok ()) (haccepted : policy.IsAccepted)
    (hhashed : Hashed policy password h) :
    OnFile (filed d identifier h) identifier ⟨password, password⟩ :=
  ⟨hname, hhashed.isEmpty_eq_false, h, hasHash_filed (hhashed.readable haccepted),
    hhashed.verify haccepted⟩

theorem onFile_of_sets {policy : Password.Policy} {name : String} {reply : Outcome Unit}
    {before : Option Filing} (haccepted : policy.IsAccepted)
    (hsets : Sets policy name password d reply d')
    (hbefore : ∀ f, before = some f → OnFile d identifier f)
    (hfiling : (if name = identifier ∧ reply.isOk then some ⟨password, password⟩ else before)
      = some f) : OnFile d' identifier f := by
  cases hsets with
  | done hname hhashed =>
    by_cases heq : name = identifier
    · rw [if_pos ⟨heq, rfl⟩] at hfiling
      cases hfiling
      exact heq ▸ onFile_filed hname haccepted hhashed
    · rw [if_neg fun h => heq h.1] at hfiling
      exact (hbefore f hfiling).congr (get?_filed_of_ne _ heq)
  | halted =>
    rw [if_neg fun h => Bool.false_ne_true h.2] at hfiling
    exact hbefore f hfiling

/-- One `Visit` keeps what the log says true. -/
private theorem onFile_cons {v : Visit} {earlier : List Visit}
    (haccepted : (services v.services).guard.policy.IsAccepted)
    (hbefore : ∀ f, filing S services start earlier identifier = some f →
      OnFile (dataAfter S services start earlier) identifier f)
    (hfiling : filing S services start (v :: earlier) identifier = some f) :
    OnFile (dataAfter S services start (v :: earlier)) identifier f := by
  have heffect : Effect (services v.services).guard.policy (dataAfter S services start earlier)
      v.operation (replyTo S services start earlier v)
      (dataAfter S services start (v :: earlier)) := effect_run services v _ _
  obtain ⟨i, o⟩ := v
  cases o with
  | register name password => exact onFile_of_sets haccepted heffect hbefore hfiling
  | change name current new => exact onFile_of_sets haccepted heffect hbefore hfiling
  | remove name =>
    simp only [filing] at hfiling
    rcases heffect with ⟨hok, hdata⟩ | ⟨⟨halt, hhalt⟩, hdata⟩
    · rw [hok] at hfiling
      by_cases heq : name = identifier
      · rw [if_pos ⟨heq, rfl⟩] at hfiling
        cases hfiling
      · rw [if_neg fun h => heq h.1] at hfiling
        refine (hbefore f hfiling).congr ?_
        rw [hdata, Table.get?_erase, if_neg fun h => heq (location_inj.1 h).symm]
    · rw [hhalt, if_neg fun h => Bool.false_ne_true h.2] at hfiling
      exact hdata ▸ hbefore f hfiling
  | has name => exact (hbefore f hfiling).congr (congrArg (Table.get? · _) heffect)
  | signIn c =>
    simp only [filing] at hfiling
    split at hfiling
    · rename_i hwritten
      obtain ⟨f, hearlier, rfl⟩ := Option.map_eq_some_iff.1 hfiling
      obtain ⟨hname, hnonempty, -⟩ := hbefore f hearlier
      obtain ⟨rfl, hchanged⟩ := hwritten
      rcases heffect with ⟨-, ⟨h, hhashed, hdata⟩, -⟩ | hdata
      · rw [hdata]
        exact ⟨hname, hnonempty, h, hasHash_filed (hhashed.readable haccepted),
          hhashed.verify haccepted⟩
      · exact absurd (congrArg (Table.get? · _) hdata) hchanged
    · rename_i hnot
      refine (hbefore f hfiling).congr ?_
      by_cases heq : c.identifier = identifier
      · exact Decidable.not_not.1 fun hne => hnot ⟨heq, hne⟩
      · rcases heffect with ⟨-, ⟨h, hhashed, hdata⟩, -⟩ | hdata
        · rw [hdata, get?_filed_of_ne h heq]
        · rw [hdata]

/-- What `filing` says is on file for an account is. -/
theorem onFile_of_filing (hopened : ∀ i, (services i).IsOpened) {log : List Visit} {f : Filing}
    (hfiling : filing S services start log identifier = some f) :
    OnFile (dataAfter S services start log) identifier f := by
  induction log generalizing f with
  | nil => cases hfiling
  | cons v earlier ih =>
    exact onFile_cons (isUsable_of_isOpened (hopened v.services)).accepted (fun _ => ih) hfiling

/-! ## Who is admitted -/

/-- What `openSession` opens is a session, if a nonce can be drawn and the token ends within the
calendar. -/
theorem perform_openSession {s : Services} {session : Session} {c : Credentials} {state : S.State}
    (hfailed : OnlyStoring (S.failures (openSession s session c) state))
    (hcalendar : ((S.answer .now state).1.truncated.plus? s.issuer.policy.validity).isSome = true) :
    ∃ result, (S.perform (openSession s session c) state).1 = .ok result := by
  have hnow : S.perform Action.now state
      = (.ok (S.answer .now state).1, (S.answer .now state).2) := rfl
  rw [openSession, S.failures_bind_of_ok hnow] at hfailed
  rw [openSession, Surroundings.perform, Action.perform_bind_of_ok S.answer _ hnow]
  have hrest := S.runs_perform (do
    let nonce ← Action.draw .system Token.nonceSize
    Action.ofOutcome (session.login s.issuer c.identifier c.method.name c.metadata
      (S.answer .now state).1 nonce)) (S.answer .now state).2
  rcases Action.runs_draw_bind hrest with
    ⟨nonce, hend⟩ | ⟨-, -, hdraw⟩
  · obtain ⟨t, hissue⟩ : ∃ t, s.issuer.issue c.identifier (S.answer .now state).1 nonce = .ok t :=
      Token.exists_issue_eq_ok_iff.2 hcalendar
    obtain ⟨houtcome, -, -⟩ := Action.runs_ofOutcome_iff.1 hend
    have hlogin : ∃ result, session.login s.issuer c.identifier c.method.name c.metadata
        (S.answer .now state).1 nonce = .ok result := by
      unfold Session.login
      rw [hissue]
      exact ⟨_, rfl⟩
    exact hlogin.imp fun _ => houtcome.trans
  · obtain ⟨_, _, hstore⟩ := hfailed (.draw .system Token.nonceSize) (by rw [hdraw]; simp)
    cases hstore

/-- What comes of `signIn` where there is a hash on record, if nothing fails but the storing of its
renewal and the token ends within the calendar. -/
theorem perform_signIn_of_hash {s : Services} {session : Session} {c : Credentials} {h : Stored}
    {admits : Bool} {state : S.State} (husable : s.guard.policy.IsUsable)
    (hmethod : c.method = .password) (hname : checkIdentifier c.identifier = .ok ())
    (hproper : admits = true → IsProper c.secret) (hhash : HasHash (S.data state) c.identifier h)
    (hverify : h.verify c.secret = .ok admits)
    (hfailed : OnlyStoring (S.failures (s.signIn session c) state))
    (hcalendar : ((S.answer .now (S.perform (s.guard.authenticate c) state).2).1.truncated.plus?
      s.issuer.policy.validity).isSome = true) :
    if admits then
      (∃ result, (S.perform (s.signIn session c) state).1 = .ok result)
        ∧ (S.failures (s.signIn session c) state = [] →
          ∃ h', HasHash (S.data (S.perform (s.signIn session c) state).2) c.identifier h'
            ∧ h'.isOutdated s.guard.policy = false)
    else (S.perform (s.signIn session c) state).1 = .error (.failed .authenticationFailed) := by
  obtain ⟨houtcome, hsettled⟩ := Guard.runs_authenticate_of_hash husable hmethod hname hproper hhash
    hverify (S.runs_perform (s.guard.authenticate c) state)
    fun r hr => hfailed r (S.mem_failures_bind hr)
  rcases hadmission : S.perform (s.guard.authenticate c) state with ⟨outcome, admitted⟩
  rw [hadmission] at houtcome hsettled hcalendar
  cases admits with
  | false =>
    obtain rfl : outcome = .error (.failed .authenticationFailed) := houtcome
    have hafter := Action.perform_bind S.answer (s.guard.authenticate c)
      (fun _ => openSession s session c) state
    unfold Surroundings.perform at hadmission
    rw [hadmission] at hafter
    exact congrArg Prod.fst hafter
  | true =>
    obtain rfl : outcome = .ok () := houtcome
    rw [if_pos rfl]
    have hafter : S.perform (s.signIn session c) state
        = S.perform (openSession s session c) admitted :=
      Action.perform_bind_of_ok S.answer _ hadmission
    have hfailures : S.failures (s.signIn session c) state
        = S.failures (s.guard.authenticate c) state
          ++ S.failures (openSession s session c) admitted := S.failures_bind_of_ok hadmission _
    rw [hfailures] at hfailed
    rw [hafter, hfailures]
    refine ⟨perform_openSession (fun r hr => hfailed r (List.mem_append_right _ hr)) hcalendar,
      fun hnone => ?_⟩
    obtain ⟨hdata, -⟩ := runs_openSession (S.runs_perform (openSession s session c) admitted)
    rw [hdata]
    exact hsettled rfl (List.append_eq_nil_iff.1 hnone).1

/-! ## What is left alone -/

/-- An operation that comes to an error has changed no data, unless it is a sign-in that was not
refused for the password. -/
private theorem Effect.data_eq_of_error {policy : Password.Policy} {o : Operation}
    {outcome : Outcome o.Result} {halt : Halt} (heffect : Effect policy d o outcome d')
    (herror : outcome = .error halt)
    (hkind : (∀ c, o ≠ .signIn c) ∨ halt = .failed .authenticationFailed) : d' = d := by
  subst herror
  cases o with
  | register name password =>
    cases heffect with
    | halted => rfl
  | change name current new =>
    cases heffect with
    | halted => rfl
  | remove name =>
    rcases heffect with ⟨hok, -⟩ | ⟨-, hsame⟩
    · cases hok
    · exact hsame
  | has name => exact heffect
  | signIn c =>
    rcases heffect with ⟨-, -, hother⟩ | hsame
    · rcases hkind with hkind | rfl
      · exact absurd rfl (hkind c)
      · exact absurd rfl hother
    · exact hsame

theorem sessions_eq_of_error {earlier : List Visit} {v : Visit} {halt : Halt}
    (herror : replyTo S services start earlier v = .error halt) :
    (after S services start (v :: earlier)).2 = (after S services start earlier).2 := by
  rw [replyTo, Visit.run] at herror
  rw [after, Visit.run]
  generalize Action.perform S.answer _ _ = performed at herror ⊢
  obtain ⟨outcome | outcome, state⟩ := performed
  · rfl
  · cases herror

/-! ## Over any log -/

/-- Services that were opened over one storage, each under a configuration of its own, are visited
in any order, with any of the requests to the storage failing without effect. Where a password is on
file for an account (`filing`) there is a hash on record, which the password has that it was made
of. Who presents that password, or one that the hash does not tell from it (`TakesAlike`), is
admitted by any of the services, if nothing fails but the storing of a renewal and the token ends
within the calendar; and unless that storing fails, the hash on record is not outdated any more. Who
presents any other password is refused. So the password that was set is admitted for as long as
nobody has the hash renewed who signs in with another one that it does not tell from it. An
operation that comes to an error leaves data and sessions alone, if it is not a sign-in or if it
refuses the password. A sign-in that changes the data does so by a renewal, with a password that has
the hash on record, and leaves a hash of that password that is not outdated. -/
theorem passwords_kept (S : Surroundings) (services : Nat → Services)
    (hopened : ∀ i, (services i).IsOpened) (start : S.State × (Nat → Session)) (log : List Visit) :
    (∀ (i : Nat) (c : Credentials) (f : Filing),
      filing S services start log c.identifier = some f → c.method = .password →
      (Bytes.ofText c.secret).length ≤ Hash.Argon2.maxInputLength →
      OnlyStoring (failuresOf S services start log ⟨i, .signIn c⟩) →
      ((clockAt S services start log i c).truncated.plus?
        (services i).issuer.policy.validity).isSome = true →
      f.password.isEmpty = false
      ∧ ∃ h, HasHash (dataAfter S services start log) c.identifier h
        ∧ h.verify f.source = .ok true
        ∧ (h.TakesAlike c.secret f.source → c.secret.isEmpty = false →
            (∃ t, replyTo S services start log ⟨i, .signIn c⟩ = .ok t)
            ∧ (failuresOf S services start log ⟨i, .signIn c⟩ = [] →
              ∃ h', HasHash (dataAfter S services start (⟨i, .signIn c⟩ :: log)) c.identifier h'
                ∧ h'.isOutdated (services i).guard.policy = false))
        ∧ (¬ h.TakesAlike c.secret f.source →
            replyTo S services start log ⟨i, .signIn c⟩
              = .error (.failed .authenticationFailed)))
    ∧ (∀ (v : Visit) (halt : Halt), replyTo S services start log v = .error halt →
        ((∀ c, v.operation ≠ .signIn c) ∨ halt = .failed .authenticationFailed) →
        dataAfter S services start (v :: log) = dataAfter S services start log
          ∧ (after S services start (v :: log)).2 = (after S services start log).2)
    ∧ ∀ (i : Nat) (c : Credentials),
        dataAfter S services start (⟨i, .signIn c⟩ :: log) ≠ dataAfter S services start log →
        (∀ h, HasHash (dataAfter S services start log) c.identifier h →
          h.verify c.secret = .ok true)
        ∧ ∃ h, dataAfter S services start (⟨i, .signIn c⟩ :: log)
              = filed (dataAfter S services start log) c.identifier h
            ∧ h.Readable ∧ h.verify c.secret = .ok true
            ∧ h.isOutdated (services i).guard.policy = false := by
  have husable := fun i => isUsable_of_isOpened (hopened i)
  refine ⟨fun i c f hfiling hmethod hshort hfailed hcalendar => ?_, fun v halt herror hkind => ?_,
    fun i c hchanged => ?_⟩
  · obtain ⟨hname, hnonempty, h, hhash, hsource⟩ := onFile_of_filing hopened hfiling
    refine ⟨hnonempty, h, hhash, hsource, fun halike hsecret => ?_, fun hunlike => ?_⟩
    · have hverify := Stored.verify_of_verify hsource hshort
      rw [decide_eq_true halike] at hverify
      obtain ⟨⟨result, hresult⟩, hsettled⟩ := perform_signIn_of_hash (husable i) hmethod hname
        (fun _ => ⟨hsecret, hshort⟩) hhash hverify hfailed hcalendar
      exact ⟨⟨result.1, congrArg (Except.map Prod.fst) hresult⟩, hsettled⟩
    · have hverify := Stored.verify_of_verify hsource hshort
      rw [decide_eq_false hunlike] at hverify
      exact congrArg (Except.map Prod.fst) (perform_signIn_of_hash (husable i) hmethod hname
        (fun h => by cases h) hhash hverify hfailed hcalendar)
  · exact ⟨(effect_run services v _ _).data_eq_of_error herror hkind, sessions_eq_of_error herror⟩
  · rcases effect_run services ⟨i, .signIn c⟩ (after S services start log).1
      (after S services start log).2 with ⟨hright, ⟨h, hhashed, hdata⟩, -⟩ | hsame
    · have haccepted := (husable i).accepted
      exact ⟨hright, h, hdata, hhashed.readable haccepted, hhashed.verify haccepted,
        hhashed.isOutdated haccepted⟩
    · exact absurd hsame hchanged

/-! ### Two services with different costs -/

/-- A storage that cannot store a password hash the first time. -/
def crowded : World.surroundings.State :=
  ⟨Key.failingWorld Table.empty ⟨.store, "credential:", .unavailable "no room", 1⟩,
    Key.failingWorld_isHonest rfl⟩

/-- Passwords are hashed by PBKDF2, with one iteration in the first services and two in the
others. -/
def costlierConfig (i : Nat) : Config :=
  { Config.default with
    password := { Password.Policy.default with
      method := .pbkdf2
      iterations := if i = 0 then 1 else 2 } }

/-- The services are opened. -/
def opening (i : Nat) : Outcome Services :=
  (World.surroundings.perform (Services.create (costlierConfig i) (some (List.replicate 32 0)))
    crowded).1

private theorem isSome_opening (i : Nat) : (opening i).toOption.isSome = true := by
  rw [opening, costlierConfig]
  split <;> decide +kernel

/-- The services as they were opened. -/
def costlier (i : Nat) : Services := (opening i).toOption.get (isSome_opening i)

theorem isOpened_costlier (i : Nat) : (costlier i).IsOpened := Services.isOpened_get _

/-- Nobody has signed in to them. -/
def opened : World.surroundings.State × (Nat → Session) := (crowded, fun _ => .start)

/-- Ada registers with the first of them -/
def adaRegisters : Visit := ⟨0, .register "ada" "p"⟩

/-- and signs in with the second. -/
def adaSignsIn : Visit := ⟨1, .signIn ⟨"ada", "p", .password, Table.empty⟩⟩

/-- A registration that fails leaves nothing behind. After one that succeeds Ada is admitted by the
other services, and her hash is renewed there. -/
theorem ada_admitted :
    dataAfter World.surroundings costlier opened [adaRegisters] = Table.empty
    ∧ (∃ t, replyTo World.surroundings costlier opened [adaRegisters, adaRegisters] adaSignsIn
      = .ok t)
    ∧ ∃ h, HasHash (dataAfter World.surroundings costlier opened
        [adaSignsIn, adaRegisters, adaRegisters]) "ada" h
      ∧ h.isOutdated (costlier 1).guard.policy = false := by
  obtain ⟨-, hkept, -⟩ := passwords_kept World.surroundings costlier isOpened_costlier opened []
  obtain ⟨hadmitted, -, -⟩ := passwords_kept World.surroundings costlier isOpened_costlier opened
    [adaRegisters, adaRegisters]
  have hcrowded : replyTo World.surroundings costlier opened [] adaRegisters
      = .error (.failed (.storage (.unavailable "no room"))) := by decide +kernel
  have hfiling : filing World.surroundings costlier opened [adaRegisters, adaRegisters] "ada"
      = some ⟨"p", "p"⟩ := by decide +kernel
  have hsignIn : failuresOf World.surroundings costlier opened [adaRegisters, adaRegisters]
        adaSignsIn = []
      ∧ ((clockAt World.surroundings costlier opened [adaRegisters, adaRegisters] 1
          ⟨"ada", "p", .password, Table.empty⟩).truncated.plus?
        (costlier 1).issuer.policy.validity).isSome = true := by decide +kernel
  obtain ⟨hfailures, hcalendar⟩ := hsignIn
  obtain ⟨-, h, -, -, hsame, -⟩ := hadmitted 1 ⟨"ada", "p", .password, Table.empty⟩ ⟨"p", "p"⟩
    hfiling rfl (by decide)
    (fun r hr => absurd (hfailures ▸ hr : r ∈ ([] : List Request)) List.not_mem_nil) hcalendar
  obtain ⟨hadmits, hrenewed⟩ := hsame rfl (by decide)
  exact ⟨(hkept adaRegisters _ hcrowded (.inl fun c h => by cases h)).1, hadmits,
    hrenewed hfailures⟩

end Account
end Strongbox
