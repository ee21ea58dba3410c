import Strongbox.Proofs.Account.Composition
import Strongbox.Proofs.Account.Guard
import Strongbox.Proofs.Password.Hashing
/-!
# What becomes of password hashes

Each operation on an account writes at most one record, its last request to the storage but for a
sign-in, and only after everything that can be refused was checked. So an operation that halts has
changed nothing. A sign-in writes a record only if the password was right, and goes on whether that
succeeds or not.

## Main results

* `runs_register`, `runs_change`, `runs_remove`, `runs_authenticate`: what an operation does to the
  data.
* `runs_authenticate_of_hash`: who is admitted by a hash on record.
-/

namespace Strongbox.Account

open Password (Stored Hashed)
open Storage (Memory)

variable {d d' : Memory} {failed : List Request} {identifier password : String}

@[simp] theorem location_inj {a b : String} : location a = location b ↔ a = b := by
  simp [location, ← String.toList_inj]

/-- The record of a hash. -/
def record (h : Stored) : Bytes := Bytes.ofText h.render

/-- The data `d` hold the hash `h` on record for the account. -/
structure HasHash (d : Memory) (identifier : String) (h : Stored) : Prop where
  readable : h.Readable
  get?_eq : d.get? (location identifier) = some (record h)

/-- At most one hash is on record: `HasHash` determines it. -/
theorem HasHash.unique {h h' : Stored} (hhash : HasHash d identifier h)
    (hhash' : HasHash d identifier h') : h = h' := by
  have hrecord : record h = record h' :=
    Option.some.inj (hhash.get?_eq.symm.trans hhash'.get?_eq)
  have hparsed := congrArg Stored.parse (Bytes.ofText_injective hrecord)
  rw [Stored.parse_render hhash.readable, Stored.parse_render hhash'.readable] at hparsed
  exact Except.ok.inj hparsed

/-- The record of an account is a text that `Stored.parse` reads as `h`. -/
def ReadsAs (d : Memory) (identifier : String) (h : Stored) : Prop :=
  ∃ content text, d.get? (location identifier) = some content ∧ Bytes.toText? content = some text
    ∧ Stored.parse text = .ok h

theorem HasHash.eq_of_readsAs {h h' : Stored} (hhash : HasHash d identifier h)
    (hreads : ReadsAs d identifier h') : h' = h := by
  obtain ⟨content, text, hget, htext, hparse⟩ := hreads
  obtain rfl : record h = content := Option.some.inj (hhash.get?_eq.symm.trans hget)
  rw [record, Bytes.toText?_ofText] at htext
  cases htext
  rw [Stored.parse_render hhash.readable] at hparse
  exact (Except.ok.inj hparse).symm

namespace Guard

/-! ## Hashing -/

/-- The password is one that `Password.hashWith` does not refuse under a policy in use. -/
structure IsProper (password : String) : Prop where
  nonempty : password.isEmpty = false
  short : (Bytes.ofText password).length ≤ Hash.Argon2.maxInputLength

/-- What can come of `hash policy password`, and the requests that fail in it. -/
inductive Derived (policy : Password.Policy) (password : String) :
    Outcome Stored → List Request → Prop where
  | derived {salt : Bytes} : salt.length = policy.saltLength.toNat →
    policy.saltLength.toNat ≤ Bytes.maxLength →
    Derived policy password (Outcome.ofExcept (Password.hashWith policy password salt)) []
  | empty {e : Error} : password.isEmpty = true → Derived policy password (.error (.failed e)) []
  /-- There is no room for the salt. -/
  | saltTooLong : Bytes.maxLength < policy.saltLength.toNat →
    Derived policy password (.error .outOfMemory) []
  | notDrawn {halt : Halt} :
    Derived policy password (.error halt) [.draw .system policy.saltLength.toNat]

theorem runs_hash {policy : Password.Policy} {outcome : Outcome Stored}
    (hrun : (hash policy password).Runs d outcome d' failed) :
    d' = d ∧ Derived policy password outcome failed := by
  rcases Action.runs_ofExcept_bind_iff.1 hrun with ⟨_, -, hdraw⟩ | ⟨e, he, rfl, rfl, rfl⟩
  · rw [Action.drawChosen] at hdraw
    by_cases hlong : Bytes.maxLength < policy.saltLength.toNat
    · rw [if_pos hlong] at hdraw
      obtain ⟨rfl, rfl, rfl⟩ := Program.runs_done_iff.1 hdraw
      exact ⟨rfl, .saltTooLong hlong⟩
    · rw [if_neg hlong] at hdraw
      rcases Action.runs_draw_bind hdraw with ⟨salt, hderive⟩ | ⟨⟨cause, rfl⟩, rfl, rfl⟩
      · obtain ⟨rfl, rfl, rfl⟩ := Action.runs_ofExcept_iff.1 hderive
        exact ⟨rfl, .derived salt.2 (Nat.not_lt.1 hlong)⟩
      · exact ⟨rfl, .notDrawn⟩
  · refine ⟨rfl, .empty ?_⟩
    rw [Password.checkPassword] at he
    split at he
    · assumption
    · cases he

/-- An action after `hash` runs on a hash of the password, unless that is refused or no salt is
drawn. -/
theorem runs_hash_bind {α : Type} {policy : Password.Policy} {next : Stored → Action α}
    {outcome : Outcome α} (hrun : (hash policy password >>= next).Runs d outcome d' failed) :
    (∃ h, Hashed policy password h ∧ policy.saltLength.toNat ≤ Bytes.maxLength
        ∧ (next h).Runs d outcome d' failed)
      ∨ (∃ halt, outcome = .error halt) ∧ d' = d
        ∧ (failed = [] ∧ ¬ (policy.IsUsable ∧ IsProper password)
          ∨ failed = [.draw .system policy.saltLength.toNat]) := by
  rcases Action.runs_bind_iff.1 hrun with
    ⟨h, d₁, before, after, hhash, hnext, rfl⟩ | ⟨halt, hhash, rfl⟩
  · obtain ⟨rfl, hderived⟩ := runs_hash hhash
    generalize hok : (Except.ok h : Outcome Stored) = outcome at hderived
    cases hderived with
    | derived hlength hdrawn =>
      exact .inl ⟨h, ⟨_, hlength, Outcome.ofExcept_eq_ok_iff.1 hok.symm⟩, hdrawn, hnext⟩
    | empty | saltTooLong | notDrawn => cases hok
  · obtain ⟨rfl, hderived⟩ := runs_hash hhash
    refine .inr ⟨⟨halt, rfl⟩, rfl, ?_⟩
    generalize herror : (Except.error halt : Outcome Stored) = outcome at hderived
    cases hderived with
    | derived hlength _ =>
      refine .inl ⟨rfl, fun ⟨husable, hproper⟩ => ?_⟩
      obtain ⟨h, hok⟩ := husable.exists_hashWith hproper.nonempty hproper.short hlength
      rw [hok] at herror
      cases herror
    | empty hempty => exact .inl ⟨rfl, fun h => Bool.eq_false_iff.1 h.2.nonempty hempty⟩
    | saltTooLong hlong => exact .inl ⟨rfl, fun h => Nat.not_lt.2 h.1.drawable hlong⟩
    | notDrawn => exact .inr rfl

/-! ## Reading and verifying -/

variable {g : Guard}

/-- An action after `load?` runs on what the record reads as, over the data as they are, if it runs.
-/
theorem runs_load?_bind {α : Type} {next : Option Stored → Action α} {outcome : Outcome α}
    (hrun : (load? identifier >>= next).Runs d outcome d' failed) :
    (∃ found after, (∀ h, found = some h → ReadsAs d identifier h)
        ∧ (next found).Runs d outcome d' after)
      ∨ (∃ halt, outcome = .error halt) ∧ d' = d := by
  rw [load?, bind_assoc] at hrun
  rcases Action.runs_retrieve?_bind hrun with hread | ⟨⟨e, rfl⟩, rfl, -⟩
  · cases hget : d.get? (location identifier) with
    | none =>
      rw [hget] at hread
      exact .inl ⟨none, failed, fun h hh => (by cases hh), hread⟩
    | some content =>
      rw [hget] at hread
      cases htext : Bytes.toText? content with
      | none =>
        simp only [htext] at hread
        obtain ⟨rfl, rfl, -⟩ := Action.runs_fail_bind_iff.1 hread
        exact .inr ⟨⟨_, rfl⟩, rfl⟩
      | some text =>
        simp only [htext, bind_assoc] at hread
        rcases Action.runs_ofExcept_bind_iff.1 hread with ⟨h, hparse, hnext⟩ | ⟨e, -, rfl, rfl, -⟩
        · refine .inl ⟨some h, failed, fun h' hh' => ?_, hnext⟩
          cases hh'
          exact ⟨content, text, hget, htext, hparse⟩
        · exact .inr ⟨⟨_, rfl⟩, rfl⟩
  · exact .inr ⟨⟨_, rfl⟩, rfl⟩

/-- An action after `loadVerified` runs over the data as they are, if it runs; then the password has
the hash that the record `ReadsAs`. -/
theorem runs_loadVerified_bind {α : Type} {next : Stored → Action α} {outcome : Outcome α}
    (hrun : (g.loadVerified identifier password >>= next).Runs d outcome d' failed) :
    (∃ h after, ReadsAs d identifier h ∧ h.verify password = .ok true
        ∧ (next h).Runs d outcome d' after)
      ∨ (∃ halt, outcome = .error halt) ∧ d' = d := by
  rw [loadVerified, bind_assoc] at hrun
  rcases runs_load?_bind hrun with ⟨_ | h, after, hreads, hfound⟩ | hhalt
  · rw [refuse, bind_assoc] at hfound
    rcases Action.runs_ofExcept_bind_iff.1 hfound with ⟨_, -, hfail⟩ | ⟨e, -, rfl, rfl, -⟩
    · obtain ⟨rfl, rfl, -⟩ := Action.runs_fail_bind_iff.1 hfail
      exact .inr ⟨⟨_, rfl⟩, rfl⟩
    · exact .inr ⟨⟨_, rfl⟩, rfl⟩
  · rw [bind_assoc] at hfound
    rcases Action.runs_ofExcept_bind_iff.1 hfound with ⟨verified, hok, hrest⟩ | ⟨e, -, rfl, rfl, -⟩
    · cases verified with
      | true => exact .inl ⟨h, after, hreads h rfl, hok, hrest⟩
      | false =>
        obtain ⟨rfl, rfl, -⟩ := Action.runs_fail_bind_iff.1 hrest
        exact .inr ⟨⟨_, rfl⟩, rfl⟩
    · exact .inr ⟨⟨_, rfl⟩, rfl⟩
  · exact .inr hhalt

/-- Where there is no hash on record `load?` gives none, unless the retrieval fails. -/
theorem runs_load?_of_none {α : Type} {next : Option Stored → Action α} {outcome : Outcome α}
    (hnone : d.get? (location identifier) = none)
    (hrun : (load? identifier >>= next).Runs d outcome d' failed) :
    (next none).Runs d outcome d' failed
      ∨ (∃ halt, outcome = .error halt) ∧ d' = d ∧ failed = [.retrieve (location identifier)] := by
  rw [load?, bind_assoc] at hrun
  rcases Action.runs_retrieve?_bind hrun with hread | ⟨⟨e, rfl⟩, rfl, rfl⟩
  · rw [hnone] at hread
    exact .inl hread
  · exact .inr ⟨⟨_, rfl⟩, rfl, rfl⟩

/-- Where `HasHash` holds, `load?` gives the hash, unless the retrieval fails. -/
theorem runs_load?_of_hash {α : Type} {next : Option Stored → Action α} {outcome : Outcome α}
    {h : Stored} (hhash : HasHash d identifier h)
    (hrun : (load? identifier >>= next).Runs d outcome d' failed) :
    (next (some h)).Runs d outcome d' failed
      ∨ (∃ halt, outcome = .error halt) ∧ d' = d ∧ failed = [.retrieve (location identifier)] := by
  rw [load?, bind_assoc] at hrun
  rcases Action.runs_retrieve?_bind hrun with hread | ⟨⟨e, rfl⟩, rfl, rfl⟩
  · rw [hhash.get?_eq] at hread
    simp only [record, Bytes.toText?_ofText, Stored.parse_render hhash.readable] at hread
    exact .inl hread
  · exact .inr ⟨⟨_, rfl⟩, rfl, rfl⟩

/-- Only a password that has the hash on record passes `loadVerified`, and it does unless the
retrieval fails. -/
theorem runs_loadVerified_of_hash {α : Type} {next : Stored → Action α} {outcome : Outcome α}
    {h : Stored} (hhash : HasHash d identifier h)
    (hrun : (g.loadVerified identifier password >>= next).Runs d outcome d' failed) :
    (h.verify password = .ok true ∧ (next h).Runs d outcome d' failed)
      ∨ (∃ halt, outcome = .error halt) ∧ d' = d
        ∧ ((h.verify password = .ok false ∧ outcome = .error (.failed .authenticationFailed))
          ∨ (∃ e, h.verify password = .error e ∧ outcome = .error (.failed e))
          ∨ failed = [.retrieve (location identifier)]) := by
  rw [loadVerified, bind_assoc] at hrun
  rcases runs_load?_of_hash hhash hrun with hverified | ⟨houtcome, rfl, rfl⟩
  · rw [bind_assoc] at hverified
    rcases Action.runs_ofExcept_bind_iff.1 hverified with
      ⟨verified, hok, hrest⟩ | ⟨e, he, rfl, rfl, rfl⟩
    · cases verified with
      | true => exact .inl ⟨hok, hrest⟩
      | false =>
        obtain ⟨rfl, rfl, -⟩ := Program.runs_done_iff.1 hrest
        exact .inr ⟨⟨_, rfl⟩, rfl, .inl ⟨hok, rfl⟩⟩
    · exact .inr ⟨⟨_, rfl⟩, rfl, .inr (.inl ⟨e, he, rfl⟩)⟩
  · exact .inr ⟨houtcome, rfl, .inr (.inr rfl)⟩

/-! ## What an operation does to the data -/

/-- The data `d` with the hash `h` at the location of the account. -/
def filed (d : Memory) (identifier : String) (h : Stored) : Memory :=
  d.insert (location identifier) (record h)

theorem hasHash_filed {h : Stored} (hreadable : h.Readable) :
    HasHash (filed d identifier h) identifier h :=
  ⟨hreadable, by rw [filed, Table.get?_insert, if_pos rfl]⟩

theorem get?_filed_of_ne {name : String} (h : Stored) (hne : name ≠ identifier) :
    (filed d name h).get? (location identifier) = d.get? (location identifier) := by
  rw [filed, Table.get?_insert, if_neg fun heq => hne (location_inj.1 heq).symm]

theorem runs_write {h : Stored} {outcome : Outcome Unit}
    (hrun : (write identifier h).Runs d outcome d' failed) :
    (outcome = .ok () ∧ d' = filed d identifier h ∧ failed = [])
      ∨ (∃ e, outcome = .error (.failed (.storage e))) ∧ d' = d
        ∧ failed = [.store (location identifier) (record h)] :=
  Action.runs_store hrun

/-- What can come of setting a password: its hash is `filed`, or nothing is changed. -/
inductive Sets (policy : Password.Policy) (identifier password : String) (d : Memory) :
    Outcome Unit → Memory → Prop where
  | done {h : Stored} : checkIdentifier identifier = .ok () → Hashed policy password h →
    Sets policy identifier password d (.ok ()) (filed d identifier h)
  | halted {halt : Halt} : Sets policy identifier password d (.error halt) d

theorem Sets.exists_of_ne {policy : Password.Policy} {outcome : Outcome Unit}
    (h : Sets policy identifier password d outcome d') (hchanged : d' ≠ d) :
    ∃ h, Hashed policy password h ∧ d' = filed d identifier h := by
  cases h with
  | done _ hhashed => exact ⟨_, hhashed, rfl⟩
  | halted => exact absurd rfl hchanged

theorem runs_hash_write {policy : Password.Policy} {outcome : Outcome Unit}
    (hname : checkIdentifier identifier = .ok ())
    (hrun : (hash policy password >>= write identifier).Runs d outcome d' failed) :
    Sets policy identifier password d outcome d' := by
  rcases runs_hash_bind hrun with ⟨h, hhashed, -, hwrite⟩ | ⟨⟨halt, rfl⟩, rfl, -⟩
  · rcases runs_write hwrite with ⟨rfl, rfl, -⟩ | ⟨⟨e, rfl⟩, rfl, -⟩
    · exact .done hname hhashed
    · exact .halted
  · exact .halted

theorem runs_register {outcome : Outcome Unit}
    (hrun : (g.register identifier password).Runs d outcome d' failed) :
    Sets g.policy identifier password d outcome d' := by
  rcases Action.runs_ofExcept_bind_iff.1 hrun with ⟨_, hname, hlocked⟩ | ⟨e, -, rfl, rfl, -⟩
  · rcases Action.runs_contains_bind (Action.runs_withLock_iff.1 hlocked) with
      hrest | ⟨⟨e, rfl⟩, rfl, -⟩
    · cases hfound : d.contains (location identifier) with
      | true =>
        rw [hfound] at hrest
        obtain ⟨rfl, rfl, -⟩ := Action.runs_fail_iff.1 hrest
        exact .halted
      | false =>
        rw [hfound] at hrest
        exact runs_hash_write hname hrest
    · exact .halted
  · exact .halted

/-- Only an account that is not there passes `register`. -/
theorem contains_eq_false_of_runs_register
    (hrun : (g.register identifier password).Runs d (.ok ()) d' failed) :
    d.contains (location identifier) = false := by
  rcases Action.runs_ofExcept_bind_iff.1 hrun with ⟨_, -, hlocked⟩ | ⟨e, -, he, -⟩
  · rcases Action.runs_contains_bind (Action.runs_withLock_iff.1 hlocked) with
      hrest | ⟨⟨e, he⟩, -⟩
    · cases hfound : d.contains (location identifier) with
      | true =>
        rw [hfound] at hrest
        obtain ⟨he, -⟩ := Action.runs_fail_iff.1 hrest
        cases he
      | false => rfl
    · cases he
  · cases he

theorem runs_change {current new : String} {outcome : Outcome Unit}
    (hrun : (g.change identifier current new).Runs d outcome d' failed) :
    Sets g.policy identifier new d outcome d' := by
  rcases Action.runs_ofExcept_bind_iff.1 hrun with ⟨_, hname, hlocked⟩ | ⟨e, -, rfl, rfl, -⟩
  · rcases runs_loadVerified_bind (Action.runs_withLock_iff.1 hlocked) with
      ⟨_, after, -, -, hrest⟩ | ⟨⟨halt, rfl⟩, rfl⟩
    · exact runs_hash_write hname hrest
    · exact .halted
  · exact .halted

theorem runs_remove {outcome : Outcome Unit}
    (hrun : (remove identifier).Runs d outcome d' failed) :
    (outcome = .ok () ∧ d' = d.erase (location identifier))
      ∨ (∃ halt, outcome = .error halt) ∧ d' = d := by
  rcases Action.runs_ofExcept_bind_iff.1 hrun with ⟨_, -, hlocked⟩ | ⟨e, -, rfl, rfl, -⟩
  · rcases Action.runs_ask_bind_iff.1 (Action.runs_withLock_iff.1 hlocked) with
      ⟨answer, d₁, hserves, hend⟩ | ⟨answer, rest, hfails, hend, -⟩
    · cases hserves with
      | deleted hcontains =>
        obtain ⟨rfl, rfl, -⟩ := Action.runs_pure_iff.1 hend
        exact .inl ⟨rfl, rfl⟩
      | nothingDeleted name hnothing =>
        obtain ⟨rfl, rfl, -⟩ := Action.runs_fail_iff.1 hend
        exact .inr ⟨⟨_, rfl⟩, rfl⟩
    · cases answer with
      | error e =>
        obtain ⟨rfl, rfl, -⟩ := Action.runs_fail_iff.1 hend
        exact .inr ⟨⟨_, rfl⟩, rfl⟩
      | ok done => cases hfails
  · exact .inr ⟨⟨_, rfl⟩, rfl⟩

/-- No request has failed but to store data. -/
def OnlyStoring (failed : List Request) : Prop :=
  ∀ r ∈ failed, ∃ location content, r = .store location content

/-- What `authenticateByPassword` goes on to once the password is verified: the hash is renewed if
it `isOutdated`. -/
def renew (g : Guard) (identifier password : String) (h : Stored) : Action Unit :=
  if h.isOutdated g.policy then do
    let renewed ← hash g.policy password
    let _ ← Action.attempt (write identifier renewed)
    pure ()
  else pure ()

theorem authenticateByPassword_eq (g : Guard) (identifier password : String) :
    g.authenticateByPassword identifier password
      = Action.withLock (lock identifier)
        (g.loadVerified identifier password >>= g.renew identifier password) := rfl

theorem runs_renew {h : Stored} {outcome : Outcome Unit}
    (hrun : (g.renew identifier password h).Runs d outcome d' failed) :
    ((outcome = .ok () ∧ h.isOutdated g.policy = true
          ∧ ∃ h, Hashed g.policy password h ∧ d' = filed d identifier h)
        ∨ d' = d)
      ∧ (g.policy.IsUsable → IsProper password → OnlyStoring failed → outcome = .ok ()) := by
  rw [renew] at hrun
  split at hrun
  · rename_i houtdated
    rcases runs_hash_bind hrun with ⟨renewed, hhashed, -, hwrite⟩ | ⟨-, rfl, hwhy⟩
    · rcases Action.runs_bind_iff.1 hwrite with
        ⟨o, d₁, before, after, hattempt, hend, -⟩ | ⟨halt, hattempt, -⟩
      · obtain ⟨rfl, rfl, -⟩ := Action.runs_pure_iff.1 hend
        obtain ⟨_, -, hstore⟩ := Action.runs_attempt_iff.1 hattempt
        refine ⟨?_, fun _ _ _ => rfl⟩
        rcases runs_write hstore with ⟨-, rfl, -⟩ | ⟨-, rfl, -⟩
        · exact .inl ⟨rfl, houtdated, renewed, hhashed, rfl⟩
        · exact .inr rfl
      · obtain ⟨_, hok, -⟩ := Action.runs_attempt_iff.1 hattempt
        cases hok
    · refine ⟨.inr rfl, fun husable hproper hfailed => ?_⟩
      rcases hwhy with ⟨-, hnot⟩ | rfl
      · exact absurd ⟨husable, hproper⟩ hnot
      · obtain ⟨_, _, hdraw⟩ := hfailed _ List.mem_cons_self
        cases hdraw
  · obtain ⟨rfl, rfl, -⟩ := Action.runs_pure_iff.1 hrun
    exact ⟨.inr rfl, fun _ _ _ => rfl⟩

/-- After a `renew` that could be written, the hash on record is not outdated. -/
theorem runs_renew_settled {h : Stored} {outcome : Outcome Unit} (haccepted : g.policy.IsAccepted)
    (hhash : HasHash d identifier h) (hrun : (g.renew identifier password h).Runs d outcome d' [])
    (hok : outcome = .ok ()) :
    ∃ h', HasHash d' identifier h' ∧ h'.isOutdated g.policy = false := by
  rw [renew] at hrun
  split at hrun
  · rcases runs_hash_bind hrun with ⟨renewed, hhashed, -, hwrite⟩ | ⟨⟨halt, rfl⟩, -, -⟩
    · rcases Action.runs_bind_iff.1 hwrite with
        ⟨o, d₁, before, after, hattempt, hend, hnone⟩ | ⟨halt, -, rfl⟩
      · obtain ⟨rfl, -⟩ := List.append_eq_nil_iff.1 hnone.symm
        obtain ⟨-, rfl, -⟩ := Action.runs_pure_iff.1 hend
        obtain ⟨_, -, hstore⟩ := Action.runs_attempt_iff.1 hattempt
        rcases runs_write hstore with ⟨-, rfl, -⟩ | ⟨-, -, hfailed⟩
        · exact ⟨renewed, hasHash_filed (hhashed.readable haccepted), hhashed.isOutdated haccepted⟩
        · cases hfailed
      · cases hok
    · cases hok
  · rename_i hcurrent
    obtain ⟨-, rfl, -⟩ := Action.runs_pure_iff.1 hrun
    exact ⟨h, hhash, Bool.eq_false_iff.2 hcurrent⟩

/-- A sign-in that is admitted, with a password that has the hash on record, may have that renewed
if it is outdated; any other changes nothing. -/
theorem runs_authenticate {c : Credentials} {outcome : Outcome Unit}
    (hrun : (g.authenticate c).Runs d outcome d' failed) :
    (outcome = .ok ()
        ∧ (∃ old, ReadsAs d c.identifier old ∧ old.verify c.secret = .ok true
          ∧ old.isOutdated g.policy = true)
        ∧ ∃ h, Hashed g.policy c.secret h ∧ d' = filed d c.identifier h)
      ∨ d' = d := by
  rw [authenticate] at hrun
  split at hrun
  · exact .inr (Action.runs_fail_iff.1 hrun).2.1
  · split at hrun
    · exact .inr (hrun.data_eq (Action.asks_bind (Action.asks_ofOutcome _) fun _ =>
        Action.asks_ofOutcome _))
    · rw [authenticateByPassword_eq] at hrun
      rcases runs_loadVerified_bind (Action.runs_withLock_iff.1 hrun) with
        ⟨old, after, hreads, hverify, hrest⟩ | ⟨-, rfl⟩
      · rcases (runs_renew hrest).1 with ⟨rfl, houtdated, hrenewed⟩ | hsame
        · exact .inl ⟨rfl, ⟨old, hreads, hverify, houtdated⟩, hrenewed⟩
        · exact .inr hsame
      · exact .inr rfl

/-- Who is admitted by `authenticate` where `HasHash` holds, and what is on record then. -/
theorem runs_authenticate_of_hash {c : Credentials} {h : Stored} {admits : Bool}
    {outcome : Outcome Unit} (husable : g.policy.IsUsable) (hmethod : c.method = .password)
    (hname : checkIdentifier c.identifier = .ok ())
    (hproper : admits = true → IsProper c.secret) (hhash : HasHash d c.identifier h)
    (hverify : h.verify c.secret = .ok admits) (hrun : (g.authenticate c).Runs d outcome d' failed)
    (hfailed : OnlyStoring failed) :
    (outcome = if admits then .ok () else .error (.failed .authenticationFailed))
      ∧ (admits = true → failed = [] →
        ∃ h', HasHash d' c.identifier h' ∧ h'.isOutdated g.policy = false) := by
  rw [authenticate, if_neg (not_not_intro hmethod), hname] at hrun
  dsimp only at hrun
  rw [authenticateByPassword_eq] at hrun
  rcases runs_loadVerified_of_hash hhash (Action.runs_withLock_iff.1 hrun) with
    ⟨hright, hrest⟩ | ⟨-, -, ⟨hwrong, rfl⟩ | ⟨e, he, -⟩ | rfl⟩
  · cases hverify.symm.trans hright
    have hok : outcome = .ok () := (runs_renew hrest).2 husable (hproper rfl) hfailed
    refine ⟨hok, fun _ hnone => ?_⟩
    rw [hnone] at hrest
    exact runs_renew_settled husable.accepted hhash hrest hok
  · cases hverify.symm.trans hwrong
    exact ⟨rfl, fun h => by cases h⟩
  · cases hverify.symm.trans he
  · obtain ⟨_, _, hretrieve⟩ := hfailed _ List.mem_cons_self
    cases hretrieve

end Guard

end Strongbox.Account
