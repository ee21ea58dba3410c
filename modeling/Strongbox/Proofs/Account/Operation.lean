import Mathlib.Logic.Function.Basic
import Strongbox.Proofs.Program.Action
import Strongbox.Services
/-!
# What can be done with accounts

Passwords are registered, changed and removed, it is asked whether there is an account, and someone
signs in. Any number of services can share a storage, each under a configuration of its own; every
one of them keeps its own session, which only a sign-in there changes.
-/

namespace Strongbox.Account

/-- The operations on accounts. -/
inductive Operation where
  | register (identifier password : String)
  | change (identifier current new : String)
  | remove (identifier : String)
  | has (identifier : String)
  | signIn (c : Credentials)
  deriving DecidableEq

namespace Operation

/-- What an operation has as its result. -/
def Result : Operation → Type
  | register _ _ | change _ _ _ | remove _ => Unit
  | has _ => Bool
  | signIn _ => Token

instance : (o : Operation) → DecidableEq o.Result
  | register _ _ | change _ _ _ | remove _ => inferInstanceAs (DecidableEq Unit)
  | has _ => inferInstanceAs (DecidableEq Bool)
  | signIn _ => inferInstanceAs (DecidableEq Token)

/-- What is done, with the session after it. -/
def action (s : Services) (session : Session) : (o : Operation) → Action (o.Result × Session)
  | register identifier password => do
    s.guard.register identifier password
    pure ((), session)
  | change identifier current new => do
    s.guard.change identifier current new
    pure ((), session)
  | remove identifier => do
    Guard.remove identifier
    pure ((), session)
  | has identifier => do
    let found ← Guard.has identifier
    pure (found, session)
  | signIn c => s.signIn session c

end Operation

/-- An operation and the services that carry it out. -/
structure Visit where
  services : Nat
  operation : Operation

/-- The sessions after a visit. One that halts leaves them alone. -/
def sessionsAfter {α : Type} (sessions : Nat → Session) (services : Nat) :
    Outcome (α × Session) → Nat → Session
  | .ok (_, session) => Function.update sessions services session
  | .error _ => sessions

/-- What comes of a visit, and the state and the sessions after it. -/
def Visit.run {σ : Type} (handler : Program.Handler σ) (services : Nat → Services) (v : Visit)
    (s : σ) (sessions : Nat → Session) : Outcome v.operation.Result × σ × (Nat → Session) :=
  let action := v.operation.action (services v.services) (sessions v.services)
  let (outcome, s) := action.perform handler s
  (outcome.map (·.1), s, sessionsAfter sessions v.services outcome)

end Strongbox.Account
