import Strongbox.Proofs.Account.Log
import Strongbox.Proofs.Key.Consistency
/-!
# What a refusal says

A secret can be refused for three reasons: there can be no account of that name, there is none, or
it has another password. Where there is no hash the secret is verified against the guard's `decoy`,
which was made like any other hash, so that this verification fails on no secret that the others do
not fail on. And since nothing is written before a secret is verified, all refusals are alike, and
none of them changes anything.

There is one exception, in the secret alone: Argon2id refuses what is longer than
`Hash.Argon2.maxInputLength`, 4 GiB, before it is compared with anything. What such a secret is told
depends on the method of the hash that it `Meets`.

## Main results

* `recorded_dataAfter`: the records of accounts are hashes of passwords, whatever was done.
* `runs_of_vain`: an operation stops at a secret that is not right, with the `Stored.refusal` of the
  hash that the secret meets.
* `refusals_alike`: refused sign-ins and changes say the same and change nothing.
-/

namespace Strongbox

namespace Password

/-- What the services say to a secret that is refused, as an `Error`. -/
inductive Refusal (secret : String) : Error → Prop where
  | wrong : Refusal secret .authenticationFailed
  /-- Argon2id does not take a secret of this length. -/
  | tooLong : Hash.Argon2.maxInputLength < (Bytes.ofText secret).length →
    Refusal secret (.hashingFailed Method.argon2id.name Hash.Argon2.Refusal.passwordTooLong.message)

namespace Stored

variable {h : Stored} {source secret : String}

/-- What this hash says to a secret that does not have it: the error of `verify`, if it comes to
one. -/
def refusal (h : Stored) (secret : String) : Error :=
  match h.verify secret with
  | .ok _ => .authenticationFailed
  | .error e => e

/-- Where verification comes to an end for one password, it does for every other that the method
takes. -/
theorem refusal_eq_ite (hsource : h.verify source = .ok true) (secret : String) :
    h.refusal secret
      = if h.kdf.method = .argon2id
            ∧ Hash.Argon2.maxInputLength < (Bytes.ofText secret).length then
          .hashingFailed Method.argon2id.name Hash.Argon2.Refusal.passwordTooLong.message
        else .authenticationFailed := by
  simp only [refusal, verify, Kdf.derive] at hsource ⊢
  have htaken : h.kdf.refusal? (Bytes.ofText source).length h.salt.length h.digest.length
      = none := by
    cases hrefusal : h.kdf.refusal? (Bytes.ofText source).length h.salt.length h.digest.length with
    | none => rfl
    | some e =>
      rw [hrefusal] at hsource
      cases hsource
  rw [Kdf.refusal?_eq_ite htaken]
  by_cases hlong : h.kdf.method = .argon2id
      ∧ Hash.Argon2.maxInputLength < (Bytes.ofText secret).length
  · rw [if_pos hlong, if_pos hlong]
    rfl
  · rw [if_neg hlong, if_neg hlong]
    rfl

theorem refusal_isRefusal (hsource : h.verify source = .ok true) :
    Refusal secret (h.refusal secret) := by
  rw [refusal_eq_ite hsource]
  split
  · rename_i hlong
    exact .tooLong hlong.2
  · exact .wrong

theorem refusal_eq_authenticationFailed_iff (hsource : h.verify source = .ok true) :
    h.refusal secret = .authenticationFailed
      ↔ ¬ (h.kdf.method = .argon2id
        ∧ Hash.Argon2.maxInputLength < (Bytes.ofText secret).length) := by
  rw [refusal_eq_ite hsource]
  split
  · rename_i hlong
    exact iff_of_false Error.noConfusion (not_not_intro hlong)
  · rename_i hshort
    exact iff_of_true rfl hshort

end Stored

end Password

namespace Account

open Guard (filed hasHash_filed Sets)
open Password (Stored Hashed Refusal)
open Storage (Memory)

variable {d d' : Memory} {failed : List Request} {identifier secret : String}

/-! ## Records of accounts -/

/-- Every `record` of an account is a hash of some password, made under a policy in use. -/
def Recorded (d : Memory) : Prop :=
  ∀ identifier content, d.get? (location identifier) = some content →
    ∃ (policy : Password.Policy) (password : String) (h : Stored),
      policy.IsAccepted ∧ Hashed policy password h ∧ content = record h

theorem recorded_empty : Recorded Table.empty := by
  intro identifier content hget
  cases hget

/-- An account has no record, or a hash that some password has. -/
theorem Recorded.hasHash (h : Recorded d) (identifier : String) :
    d.get? (location identifier) = none
      ∨ ∃ (h : Stored) (password : String), HasHash d identifier h
        ∧ h.verify password = .ok true := by
  cases hget : d.get? (location identifier) with
  | none => exact .inl rfl
  | some content =>
    obtain ⟨policy, password, hash, haccepted, hhashed, rfl⟩ := h identifier content hget
    exact .inr ⟨hash, password, ⟨hhashed.readable haccepted, hget⟩, hhashed.verify haccepted⟩

theorem Recorded.filed {policy : Password.Policy} {name password : String} {h : Stored}
    (hrecorded : Recorded d) (haccepted : policy.IsAccepted)
    (hhashed : Hashed policy password h) : Recorded (filed d name h) := by
  intro identifier content hget
  rw [Guard.filed, Table.get?_insert] at hget
  split at hget
  · cases hget
    exact ⟨policy, password, h, haccepted, hhashed, rfl⟩
  · exact hrecorded identifier content hget

theorem Recorded.erase (hrecorded : Recorded d) (name : String) :
    Recorded (d.erase (location name)) := by
  intro identifier content hget
  rw [Table.get?_erase] at hget
  split at hget
  · cases hget
  · exact hrecorded identifier content hget

theorem Recorded.sets {policy : Password.Policy} {name password : String} {outcome : Outcome Unit}
    (hrecorded : Recorded d) (haccepted : policy.IsAccepted)
    (hsets : Sets policy name password d outcome d') : Recorded d' := by
  cases hsets with
  | done _ hhashed => exact hrecorded.filed haccepted hhashed
  | halted => exact hrecorded

/-- Operations leave what is `Recorded` as it is to be. -/
private theorem Recorded.of_effect {policy : Password.Policy} {o : Operation}
    {outcome : Outcome o.Result} (hrecorded : Recorded d) (haccepted : policy.IsAccepted)
    (heffect : Effect policy d o outcome d') : Recorded d' := by
  cases o with
  | register name password => exact hrecorded.sets haccepted heffect
  | change name current new => exact hrecorded.sets haccepted heffect
  | remove name =>
    rcases heffect with ⟨-, rfl⟩ | ⟨-, rfl⟩
    · exact hrecorded.erase name
    · exact hrecorded
  | has name => exact Eq.symm heffect ▸ hrecorded
  | signIn c =>
    rcases heffect with ⟨-, ⟨h, hhashed, rfl⟩, -⟩ | rfl
    · exact hrecorded.filed haccepted hhashed
    · exact hrecorded

theorem recorded_dataAfter {S : Surroundings} {services : Nat → Services}
    (hopened : ∀ i, (services i).IsOpened) {start : S.State × (Nat → Session)}
    (hstart : Recorded (S.data start.1)) (log : List Visit) :
    Recorded (dataAfter S services start log) := by
  induction log with
  | nil => exact hstart
  | cons v earlier ih =>
    exact ih.of_effect (isUsable_of_isOpened (hopened v.services)).accepted
      (effect_run services v _ _)

/-! ## Verification stops at a secret that is not right -/

/-- The secret is not the password of a hash on record. -/
inductive Unverified (d : Memory) (identifier secret : String) : Prop where
  /-- There is no account of that name. -/
  | unknown (h : d.get? (location identifier) = none)
  /-- The account has another password. -/
  | wrong (h : Stored) (hhash : HasHash d identifier h) (hverify : h.verify secret ≠ .ok true)

/-- The hash that a secret for an account is verified against: the one on record or, where there is
none or can be none, the decoy. -/
inductive Meets (g : Guard) (d : Memory) (identifier : String) : Stored → Prop where
  | malformed {e : Error} (hname : checkIdentifier identifier = .error e) :
    Meets g d identifier g.decoy
  | unknown (hnone : d.get? (location identifier) = none) : Meets g d identifier g.decoy
  | onRecord {h : Stored} (hname : checkIdentifier identifier = .ok ())
    (hhash : HasHash d identifier h) : Meets g d identifier h

variable {α : Type} {outcome : Outcome α} {g : Guard} {h : Stored} {source : String}

theorem Recorded.exists_meets (hrecorded : Recorded d) (g : Guard) (identifier : String) :
    ∃ h, Meets g d identifier h := by
  cases hname : checkIdentifier identifier with
  | error e => exact ⟨g.decoy, .malformed hname⟩
  | ok _ =>
    rcases hrecorded.hasHash identifier with hnone | ⟨h, -, hhash, -⟩
    · exact ⟨g.decoy, .unknown hnone⟩
    · exact ⟨h, .onRecord hname hhash⟩

/-- Some password has the hash that a secret meets. -/
private theorem Meets.exists_verify (hmeets : Meets g d identifier h) (hrecorded : Recorded d)
    (hdecoy : g.decoy.verify source = .ok true) : ∃ source, h.verify source = .ok true := by
  cases hmeets with
  | malformed | unknown => exact ⟨source, hdecoy⟩
  | onRecord _ hhash =>
    rcases hrecorded.hasHash identifier with hnone | ⟨other, password, hother, hpassword⟩
    · cases hnone.symm.trans hhash.get?_eq
    · obtain rfl := hhash.unique hother
      exact ⟨password, hpassword⟩

/-- Whatever `refuse` makes of a secret, it is refused. -/
theorem runs_refuse_bind {β : Type} {next : β → Action α}
    (hrun : (g.refuse secret >>= next).Runs d outcome d' failed) :
    outcome = .error (.failed (g.decoy.refusal secret)) ∧ d' = d := by
  rw [Guard.refuse, bind_assoc] at hrun
  rcases Action.runs_ofExcept_bind_iff.1 hrun with ⟨_, hok, hend⟩ | ⟨e, he, rfl, rfl, -⟩
  · obtain ⟨rfl, rfl, -⟩ := Program.runs_done_iff.1 hend
    rw [Stored.refusal, hok]
    exact ⟨rfl, rfl⟩
  · rw [Stored.refusal, he]
    exact ⟨rfl, rfl⟩

/-- An action after `loadVerified` does not run on a secret that is not right. -/
theorem runs_loadVerified_of_unverified {next : Stored → Action α}
    (hname : checkIdentifier identifier = .ok ()) (hmeets : Meets g d identifier h)
    (hunverified : Unverified d identifier secret)
    (hrun : (g.loadVerified identifier secret >>= next).Runs d outcome d' failed)
    (hread : Request.retrieve (location identifier) ∉ failed) :
    outcome = .error (.failed (h.refusal secret)) ∧ d' = d := by
  cases hmeets with
  | malformed hmalformed => cases hname.symm.trans hmalformed
  | unknown hnone =>
    rw [Guard.loadVerified, bind_assoc] at hrun
    rcases Guard.runs_load?_of_none hnone hrun with hrefuse | ⟨-, -, rfl⟩
    · exact runs_refuse_bind hrefuse
    · exact absurd List.mem_cons_self hread
  | onRecord _ hhash =>
    rcases Guard.runs_loadVerified_of_hash hhash hrun with
      ⟨hright, -⟩ | ⟨-, rfl, ⟨hwrong, rfl⟩ | ⟨e, he, rfl⟩ | rfl⟩
    · cases hunverified with
      | unknown hnone => cases hnone.symm.trans hhash.get?_eq
      | wrong other hother hverify =>
        obtain rfl := hhash.unique hother
        exact absurd hright hverify
    · rw [Stored.refusal, hwrong]
      exact ⟨rfl, rfl⟩
    · rw [Stored.refusal, he]
      exact ⟨rfl, rfl⟩
    · exact absurd List.mem_cons_self hread

/-! ## Sign-ins and changes in vain -/

/-- An operation that presents a secret which is not right. -/
inductive Vain (d : Memory) (secret : String) : Operation → Prop where
  /-- There can be no account of that name. -/
  | malformed {c : Credentials} {e : Error} (hmethod : c.method = .password)
    (hsecret : c.secret = secret) (hname : checkIdentifier c.identifier = .error e) :
    Vain d secret (.signIn c)
  | signIn {c : Credentials} (hmethod : c.method = .password) (hsecret : c.secret = secret)
    (hunverified : Unverified d c.identifier secret) : Vain d secret (.signIn c)
  | change {identifier new : String} (hname : checkIdentifier identifier = .ok ())
    (hunverified : Unverified d identifier secret) :
    Vain d secret (.change identifier secret new)

/-- The account that an operation is about. -/
def Operation.account : Operation → String
  | register identifier _ | change identifier _ _ | remove identifier | has identifier => identifier
  | signIn c => c.identifier

theorem runs_authenticate_of_vain {c : Credentials} {outcome : Outcome Unit}
    (hmeets : Meets g d c.identifier h) (hvain : Vain d secret (.signIn c))
    (hrun : (g.authenticate c).Runs d outcome d' failed)
    (hread : ∀ name, Request.retrieve name ∉ failed) :
    outcome = .error (.failed (h.refusal secret)) ∧ d' = d := by
  obtain ⟨hmethod, rfl⟩ : c.method = .password ∧ c.secret = secret := by
    cases hvain with
    | malformed hmethod hsecret | signIn hmethod hsecret => exact ⟨hmethod, hsecret⟩
  rw [Guard.authenticate, if_neg (not_not_intro hmethod)] at hrun
  cases hname : checkIdentifier c.identifier with
  | error e =>
    rw [hname, ← bind_pure (g.refuse c.secret)] at hrun
    cases hmeets with
    | malformed | unknown => exact runs_refuse_bind hrun
    | onRecord hwellFormed => cases hname.symm.trans hwellFormed
  | ok _ =>
    rw [hname] at hrun
    cases hvain with
    | malformed _ _ hmalformed => cases hname.symm.trans hmalformed
    | signIn _ _ hunverified =>
      exact runs_loadVerified_of_unverified hname hmeets hunverified
        (Action.runs_withLock_iff.1 hrun) (hread _)

/-- An operation that presents a secret in `Vain` is refused before anything else is done, in the
words of the hash that the secret meets. -/
theorem runs_of_vain {s : Services} {session : Session} {o : Operation}
    {outcome : Outcome (o.Result × Session)} (hmeets : Meets s.guard d o.account h)
    (hvain : Vain d secret o) (hrun : (o.action s session).Runs d outcome d' failed)
    (hread : ∀ name, Request.retrieve name ∉ failed) :
    outcome = .error (.failed (h.refusal secret)) ∧ d' = d := by
  cases o with
  | signIn c =>
    rw [Operation.action, signIn_eq] at hrun
    rcases Action.runs_bind_iff.1 hrun with
      ⟨_, d₁, before, after, hadmit, -, rfl⟩ | ⟨halt, hadmit, rfl⟩
    · obtain ⟨hrefused, -⟩ := runs_authenticate_of_vain hmeets hvain hadmit
        fun name h => hread name (List.mem_append_left _ h)
      cases hrefused
    · obtain ⟨hrefused, hdata⟩ := runs_authenticate_of_vain hmeets hvain hadmit hread
      cases hrefused
      exact ⟨rfl, hdata⟩
  | change identifier current new =>
    cases hvain with
    | change hname hunverified =>
      rw [Operation.action, Guard.change, hname] at hrun
      rcases Action.runs_bind_iff.1 hrun with
        ⟨_, d₁, before, after, hchange, -, rfl⟩ | ⟨halt, hchange, rfl⟩
      · obtain ⟨hrefused, -⟩ := runs_loadVerified_of_unverified hname hmeets hunverified
          (Action.runs_withLock_iff.1 hchange) fun h => hread _ (List.mem_append_left _ h)
        cases hrefused
      · obtain ⟨hrefused, hdata⟩ := runs_loadVerified_of_unverified hname hmeets hunverified
          (Action.runs_withLock_iff.1 hchange) (hread _)
        cases hrefused
        exact ⟨rfl, hdata⟩
  | register | remove | has => cases hvain

/-! ## Any two situations -/

/-- Services over one storage after a number of visits. At the start the storage had no records of
accounts but hashes of passwords. -/
structure Situation where
  S : Surroundings
  services : Nat → Services
  opened : ∀ i, (services i).IsOpened
  start : S.State × (Nat → Session)
  recorded : Recorded (S.data start.1)
  log : List Visit

namespace Situation

variable (x : Situation)

/-- What is stored. -/
def data : Memory := dataAfter x.S x.services x.start x.log

/-- The sessions of the services. -/
def sessions : Nat → Session := (after x.S x.services x.start x.log).2

/-- What comes of another visit. -/
def reply (v : Visit) : Outcome v.operation.Result := replyTo x.S x.services x.start x.log v

/-- The situation after another visit. -/
def next (v : Visit) : Situation := { x with log := v :: x.log }

/-- In another visit, nothing that is read fails to be. -/
def Reads (v : Visit) : Prop :=
  ∀ name, Request.retrieve name ∉ failuresOf x.S x.services x.start x.log v

variable {x} in
theorem reads_of_failuresOf {v : Visit}
    (h : failuresOf x.S x.services x.start x.log v = []) : x.Reads v := by
  intro name hmem
  rw [h] at hmem
  cases hmem

/-- What is said to a secret that is presented in `Vain`, and that nothing else comes of it. -/
theorem reply_of_vain {v : Visit} {h : Stored}
    (hmeets : Meets (x.services v.services).guard x.data v.operation.account h)
    (hvain : Vain x.data secret v.operation) (hread : x.Reads v) :
    x.reply v = .error (.failed (h.refusal secret))
      ∧ (x.next v).data = x.data ∧ (x.next v).sessions = x.sessions := by
  obtain ⟨hrefused, hdata⟩ := runs_of_vain hmeets hvain (x.S.runs_perform _ _) hread
  have hreply : x.reply v = .error (.failed (h.refusal secret)) :=
    congrArg (Except.map Prod.fst) hrefused
  exact ⟨hreply, hdata, sessions_eq_of_error hreply⟩

/-- A secret `Meets` some hash, and that is one that some password has. -/
theorem exists_meets (i : Nat) (identifier : String) :
    ∃ h, Meets (x.services i).guard x.data identifier h :=
  (recorded_dataAfter x.opened x.recorded x.log).exists_meets (x.services i).guard identifier

theorem exists_verify_of_meets {i : Nat} {h : Stored}
    (hmeets : Meets (x.services i).guard x.data identifier h) :
    ∃ source, h.verify source = .ok true := by
  obtain ⟨husable, hdecoy⟩ := decoy_of_isOpened (x.opened i)
  exact hmeets.exists_verify (recorded_dataAfter x.opened x.recorded x.log)
    (hdecoy.verify husable.accepted)

/-- A secret that is not too long for Argon2id is told the same in every situation. -/
theorem reply_of_short {v : Visit}
    (hlength : (Bytes.ofText secret).length ≤ Hash.Argon2.maxInputLength)
    (hvain : Vain x.data secret v.operation) (hread : x.Reads v) :
    x.reply v = .error (.failed .authenticationFailed) := by
  obtain ⟨h, hmeets⟩ := x.exists_meets v.services v.operation.account
  obtain ⟨source, hsource⟩ := x.exists_verify_of_meets hmeets
  have hsaid : h.refusal secret = .authenticationFailed :=
    (Stored.refusal_eq_authenticationFailed_iff hsource).2 fun hlong =>
      Nat.not_le.2 hlong.2 hlength
  rw [(x.reply_of_vain hmeets hvain hread).1, hsaid]

end Situation

/-- A sign-in by password that presents a secret in vain, because there can be no account of that
name, because there is none or because it has another password, and a change of password that
presents one in vain for either of the last two reasons, whatever the new password (`Vain`), change
nothing that is stored and no session. They are refused with `authenticationFailed` in every
`Situation`, so in any two alike, but for a secret of more than `Hash.Argon2.maxInputLength` bytes:
that is told so exactly if the hash that it `Meets` is one of Argon2id. -/
theorem refusals_alike (x : Situation) (i : Nat) (o : Operation) (secret : String)
    (hvain : Vain x.data secret o) (hread : x.Reads ⟨i, o⟩) :
    (x.next ⟨i, o⟩).data = x.data ∧ (x.next ⟨i, o⟩).sessions = x.sessions
      ∧ (∃ e, Refusal secret e ∧ x.reply ⟨i, o⟩ = .error (.failed e))
      ∧ (∀ h, Meets (x.services i).guard x.data o.account h →
        (x.reply ⟨i, o⟩ = .error (.failed .authenticationFailed)
          ↔ ¬ (h.kdf.method = .argon2id
            ∧ Hash.Argon2.maxInputLength < (Bytes.ofText secret).length)))
      ∧ ((Bytes.ofText secret).length ≤ Hash.Argon2.maxInputLength →
        x.reply ⟨i, o⟩ = .error (.failed .authenticationFailed)
        ∧ ∀ (y : Situation) (j : Nat), Vain y.data secret o → y.Reads ⟨j, o⟩ →
          y.reply ⟨j, o⟩ = x.reply ⟨i, o⟩) := by
  obtain ⟨h, hmeets⟩ := x.exists_meets i o.account
  obtain ⟨source, hsource⟩ := x.exists_verify_of_meets hmeets
  obtain ⟨hreply, hdata, hsessions⟩ := x.reply_of_vain (v := ⟨i, o⟩) hmeets hvain hread
  refine ⟨hdata, hsessions, ⟨_, Stored.refusal_isRefusal hsource, hreply⟩, fun other hother => ?_,
    fun hlength => ?_⟩
  · obtain ⟨source', hsource'⟩ := x.exists_verify_of_meets hother
    obtain ⟨hsaid, -, -⟩ := x.reply_of_vain (v := ⟨i, o⟩) hother hvain hread
    rw [hsaid, ← Stored.refusal_eq_authenticationFailed_iff hsource']
    exact ⟨fun h => Halt.failed.inj (Except.error.inj h), fun h => by rw [h]⟩
  · have hx := x.reply_of_short (v := ⟨i, o⟩) hlength hvain hread
    refine ⟨hx, fun y j hvain' hread' => ?_⟩
    rw [hx, y.reply_of_short (v := ⟨j, o⟩) hlength hvain' hread']

/-! ### Two storages -/

/-- Nobody has an account yet. -/
def nobodyThere : Situation :=
  ⟨World.surroundings, costlier, isOpened_costlier, opened, recorded_empty, []⟩

/-- Ada has one. -/
def adaThere : Situation := { nobodyThere with log := [adaRegisters, adaRegisters] }

/-- Ada's password is mistaken. -/
def adaMistaken : Credentials := ⟨"ada", "q", .password, Table.empty⟩

/-- A wrong password of Ada's says no more, in `adaThere`, than any password does where she has no
account. -/
theorem ada_refused_alike :
    (adaThere.next ⟨1, .signIn adaMistaken⟩).data = adaThere.data
      ∧ adaThere.reply ⟨1, .signIn adaMistaken⟩ = .error (.failed .authenticationFailed)
      ∧ nobodyThere.reply ⟨0, .signIn adaMistaken⟩ = adaThere.reply ⟨1, .signIn adaMistaken⟩ := by
  have hfiling : filing World.surroundings costlier opened [adaRegisters, adaRegisters] "ada"
      = some ⟨"p", "p"⟩ := by decide +kernel
  have hmistaken : ((adaThere.data.get? (location "ada")).bind fun content =>
      (Bytes.toText? content).bind fun text => (Stored.parse text).toOption).any
        (fun h => (h.verify "q").toOption == some true) = false := by decide +kernel
  have hreads : failuresOf World.surroundings costlier opened [adaRegisters, adaRegisters]
        ⟨1, .signIn adaMistaken⟩ = []
      ∧ failuresOf World.surroundings costlier opened [] ⟨0, .signIn adaMistaken⟩ = [] := by
    decide +kernel
  obtain ⟨-, -, h, hhash, -⟩ := onFile_of_filing isOpened_costlier hfiling
  have hwrong : h.verify "q" ≠ .ok true := fun hright => by
    rw [show adaThere.data.get? (location "ada") = some (record h) from hhash.get?_eq,
      Option.bind_some, record, Bytes.toText?_ofText, Option.bind_some,
      Stored.parse_render hhash.readable] at hmistaken
    simp [Except.toOption, hright] at hmistaken
  obtain ⟨hdata, -, -, -, halike⟩ := refusals_alike adaThere 1 (.signIn adaMistaken) "q"
    (.signIn rfl rfl (.wrong h hhash hwrong)) (Situation.reads_of_failuresOf hreads.1)
  obtain ⟨hreply, hother⟩ := halike (by decide)
  exact ⟨hdata, hreply, hother nobodyThere 0 (.signIn rfl rfl (.unknown rfl))
    (Situation.reads_of_failuresOf hreads.2)⟩

/-! ### Two methods -/

/-- Passwords are hashed by Argon2id in the first services and by PBKDF2 in the others, each at the
least costs. -/
def mixedConfig (i : Nat) : Config :=
  { Config.default with
    password := ⟨if i = 0 then .argon2id else .pbkdf2, ⟨8, 1, 1⟩, 1, 16, 32⟩ }

/-- The services are opened. -/
def openingMixed (i : Nat) : Outcome Services :=
  (World.plainSurroundings.perform
    (Services.create (mixedConfig i) (some (List.replicate 32 0))) Key.keylessWorld).1

private theorem isSome_openingMixed (i : Nat) : (openingMixed i).toOption.isSome = true := by
  rw [openingMixed, mixedConfig]
  split <;> decide +kernel

/-- The services as they were opened. -/
def mixed (i : Nat) : Services := (openingMixed i).toOption.get (isSome_openingMixed i)

private theorem isOpened_mixed (i : Nat) : (mixed i).IsOpened := by
  unfold mixed openingMixed
  exact Services.isOpened_get _

/-- Nobody has an account with them yet. -/
def nobodyAnywhere : Situation :=
  ⟨World.plainSurroundings, mixed, isOpened_mixed, (Key.keylessWorld, fun _ => .start),
    recorded_empty, []⟩

/-- Ada has one with the others. Her password is a character that is zero. -/
def adaZero : Situation := { nobodyAnywhere with log := [⟨1, .register "ada" "\x00"⟩] }

/-- Someone signs in as Ada. -/
def signInAsAda (secret : String) : Operation := .signIn ⟨"ada", secret, .password, Table.empty⟩

/-- A secret of 4 GiB, one byte more than Argon2id takes. -/
def longSecret : String := String.ofList (List.replicate 4294967296 'p')

private theorem lt_length_longSecret :
    Hash.Argon2.maxInputLength < (Bytes.ofText longSecret).length :=
  calc Hash.Argon2.maxInputLength
    _ < 4294967296 := by decide
    _ ≤ (Bytes.ofText longSecret).length := Bytes.le_length_ofText_replicate 4294967296 'p'

theorem reads_nobodyAnywhere (v : Visit) : nobodyAnywhere.Reads v :=
  Situation.reads_of_failuresOf (World.failures_eq_nil rfl _)

theorem vain_nobodyAnywhere (secret : String) :
    Vain nobodyAnywhere.data secret (signInAsAda secret) :=
  .signIn rfl rfl (.unknown rfl)

/-- Refusals that are not alike. Where nobody has an account, a secret of 4 GiB is told by the first
services that it is too long and by the others `authenticationFailed`. And a secret that is empty,
which is nobody's password, is told `authenticationFailed` where Ada has no account; where she has
one it is told that it is empty, or it has her password changed. -/
theorem refusals_unlike :
    ((∀ v, nobodyAnywhere.Reads v)
      ∧ Vain nobodyAnywhere.data longSecret (signInAsAda longSecret)
      ∧ nobodyAnywhere.reply ⟨0, signInAsAda longSecret⟩
        = .error (.failed (.hashingFailed "argon2id" "password is too long"))
      ∧ nobodyAnywhere.reply ⟨1, signInAsAda longSecret⟩
        = .error (.failed .authenticationFailed))
    ∧ nobodyAnywhere.reply ⟨0, signInAsAda ""⟩ = .error (.failed .authenticationFailed)
      ∧ adaZero.reply ⟨0, signInAsAda ""⟩
        = .error (.failed (.invalidParameter "password" "a non-empty password" "empty"))
      ∧ (adaZero.reply ⟨1, .change "ada" "" "q"⟩).toOption.isSome = true := by
  have hsaid (i : Nat) : nobodyAnywhere.reply ⟨i, signInAsAda longSecret⟩
      = .error (.failed ((mixed i).guard.decoy.refusal longSecret)) :=
    (nobodyAnywhere.reply_of_vain (v := ⟨i, signInAsAda longSecret⟩) (.unknown rfl)
      (vain_nobodyAnywhere _) (reads_nobodyAnywhere _)).1
  have hdecoy (i : Nat) : (mixed i).guard.decoy.refusal longSecret
      = if (mixed i).guard.decoy.kdf.method = .argon2id then
          .hashingFailed "argon2id" "password is too long"
        else .authenticationFailed := by
    have hmeets : Meets (mixed i).guard nobodyAnywhere.data "ada" (mixed i).guard.decoy :=
      .unknown rfl
    obtain ⟨source, hsource⟩ := nobodyAnywhere.exists_verify_of_meets hmeets
    rw [Stored.refusal_eq_ite hsource]
    simp only [lt_length_longSecret, and_true]
    rfl
  have hfirst : (mixed 0).guard.decoy.kdf.method = .argon2id := by decide +kernel
  have hother : (mixed 1).guard.decoy.kdf.method = .pbkdf2 := by decide +kernel
  have hempty : nobodyAnywhere.reply ⟨0, signInAsAda ""⟩
      = .error (.failed .authenticationFailed) :=
    nobodyAnywhere.reply_of_short (by decide) (vain_nobodyAnywhere "") (reads_nobodyAnywhere _)
  have hzero : adaZero.reply ⟨0, signInAsAda ""⟩
        = .error (.failed (.invalidParameter "password" "a non-empty password" "empty"))
      ∧ (adaZero.reply ⟨1, .change "ada" "" "q"⟩).toOption.isSome = true := by decide +kernel
  refine ⟨⟨reads_nobodyAnywhere, vain_nobodyAnywhere _, ?_, ?_⟩, hempty, hzero⟩
  · rw [hsaid, hdecoy, if_pos hfirst]
  · rw [hsaid, hdecoy, if_neg fun h => by cases hother.symm.trans h]

end Account

end Strongbox
