import Strongbox.Proofs.Account.Operation
import Strongbox.Proofs.Key.Composition
/-!
# What is done with accounts, part by part

Password hashes lie behind the beginning `credential:`, which makes up the `region` of accounts, and
the lock of an account is taken inside no other. Under that lock a hash is read, verified or made,
and written at the end.

## Main results

* `Operation.composed`: every operation on accounts keeps to the region.
-/

namespace Strongbox.Account

open Key (depth)
open Storage (beginsWith)

variable {allowed : Request → Prop} {identifier : String} {n : Nat}

/-- Where password hashes are stored. -/
def region (location : String) : Bool := beginsWith "credential:" location

theorem region_location (identifier : String) : region (location identifier) = true :=
  beginsWith_append "credential:" identifier

namespace Guard

theorem composed_hash (policy : Password.Policy) (password : String)
    (hdraw : ∀ size, allowed (.draw .system size)) :
    (hash policy password).Composed allowed region depth 1 :=
  .bind (.ofOutcome _) fun _ => .bind (Action.composed_drawChosen (hdraw _)) fun _ => .ofOutcome _

theorem composed_load? (hretrieve : allowed (.retrieve (location identifier))) :
    (load? identifier).Composed allowed region depth 1 := by
  refine .bind (Action.composed_retrieve? hretrieve (region_location identifier)) fun found => ?_
  cases found with
  | none => exact .ofOutcome _
  | some record =>
    dsimp only
    cases Bytes.toText? record with
    | none => exact .ofOutcome _
    | some text => exact .bind (.ofOutcome _) fun _ => .ofOutcome _

theorem composed_has (identifier : String) :
    (has identifier).Composed Request.IsRead region depth 0 :=
  .bind (.ofOutcome _) fun _ => Action.composed_contains trivial (region_location identifier)

variable (g : Guard)

theorem composed_refuse {α : Type} (password : String) :
    (g.refuse password : Action α).Composed allowed region depth n :=
  .bind (.ofOutcome _) fun _ => .ofOutcome _

theorem composed_loadVerified (password : String)
    (hretrieve : allowed (.retrieve (location identifier))) :
    (g.loadVerified identifier password).Composed allowed region depth 1 := by
  refine .bind (composed_load? hretrieve) fun found => ?_
  cases found with
  | none => exact g.composed_refuse password
  | some h =>
    refine .bind (.ofOutcome _) fun verified => ?_
    cases verified <;> exact .ofOutcome _

theorem composed_write (identifier : String) (h : Password.Stored) :
    (write identifier h).Composed (fun _ => True) region depth 1 :=
  Action.composed_store trivial (region_location identifier)

/-- What is done to an account is checked, and done under its lock. -/
theorem composed_locked {α : Type} {action : Action α}
    (haction : action.Composed (fun _ => True) region depth 1) :
    Action.Composed (fun _ => True) region depth 0 (do
      Action.ofExcept (checkIdentifier identifier)
      Action.withLock (lock identifier) action) :=
  .bind (.ofOutcome _) fun _ => .withLock trivial trivial (Nat.le_refl 0) haction

theorem composed_hash_write (policy : Password.Policy) (identifier password : String) :
    (hash policy password >>= write identifier).Composed (fun _ => True) region depth 1 :=
  .bind (composed_hash policy password fun _ => trivial) (composed_write identifier)

theorem composed_authenticateByPassword (identifier password : String) :
    (g.authenticateByPassword identifier password).Composed (fun _ => True) region depth 0 := by
  refine .withLock trivial trivial (Nat.le_refl 0)
    (.bind (g.composed_loadVerified password trivial) fun h => ?_)
  split
  · exact .bind (composed_hash g.policy password fun _ => trivial) fun renewed =>
      .bind (.attempt (composed_write identifier renewed)) fun _ => .ofOutcome _
  · exact .ofOutcome _

theorem composed_authenticate (c : Credentials) :
    (g.authenticate c).Composed (fun _ => True) region depth 0 := by
  rw [authenticate]
  split
  · exact .ofOutcome _
  · split
    · exact g.composed_refuse c.secret
    · exact g.composed_authenticateByPassword c.identifier c.secret

end Guard

/-- What a sign-in goes on to after the admission. -/
def openSession (s : Services) (session : Session) (c : Credentials) :
    Action (Token × Session) := do
  let now ← Action.now
  let nonce ← Action.draw .system Token.nonceSize
  Action.ofOutcome (session.login s.issuer c.identifier c.method.name c.metadata now nonce)

theorem signIn_eq (s : Services) (session : Session) (c : Credentials) :
    s.signIn session c = s.guard.authenticate c >>= fun _ => openSession s session c := rfl

/-- Opening a session by `openSession` has nothing to do with the storage. -/
theorem composed_openSession (s : Services) (session : Session) (c : Credentials)
    (hnow : allowed .now) (hdraw : ∀ size, allowed (.draw .system size)) :
    (openSession s session c).Composed allowed region depth 0 :=
  .bind (Action.composed_now hnow) fun _ => .bind (Action.composed_draw (hdraw _)) fun _ =>
    .ofOutcome _

/-- Every operation on accounts keeps to the `region` of accounts. -/
theorem Operation.composed (s : Services) (session : Session) (o : Operation) :
    (o.action s session).Composed (fun _ => True) region depth 0 := by
  cases o with
  | register identifier password =>
    refine .bind (Guard.composed_locked (.bind
      (Action.composed_contains trivial (region_location identifier)) fun found => ?_))
      fun _ => .ofOutcome _
    cases found with
    | true => exact .ofOutcome _
    | false => exact Guard.composed_hash_write s.guard.policy identifier password
  | change identifier current new =>
    exact .bind (Guard.composed_locked (.bind (s.guard.composed_loadVerified current trivial)
      fun _ => Guard.composed_hash_write s.guard.policy identifier new)) fun _ => .ofOutcome _
  | remove identifier =>
    exact .bind (Guard.composed_locked
      (Action.composed_delete trivial (region_location identifier))) fun _ => .ofOutcome _
  | has identifier =>
    exact .bind ((Guard.composed_has identifier).mono (fun _ _ => trivial) (Nat.le_refl 0))
      fun _ => .ofOutcome _
  | signIn c =>
    rw [action, signIn_eq]
    exact .bind (s.guard.composed_authenticate c) fun _ =>
      composed_openSession s session c trivial fun _ => trivial

end Strongbox.Account
