import Strongbox.Credentials
import Strongbox.Password.Stored
import Strongbox.Program.Action
import Strongbox.Text.Blank
/-!
# Guarding accounts

An account is named by a text of 1 to 256 characters without control characters. Its password hash
is stored under `credential:` and its name.

The `Guard` keeps the password hashes of accounts: it registers, changes and removes them and admits
who presents the right password. It works under a password policy and holds a decoy, a hash of no
one's password: where there is no hash to verify against, the presented password is verified against
the decoy, so a refusal says as little as it can (`Guard.refuse`).

Operations on one account exclude each other by its lock. A password that is presented while its
hash is outdated is hashed anew; whether that can be stored does not matter to the admission.
-/

namespace Strongbox.Account

open Password (Stored)

/-! ## Names -/

/-- The longest name of an account, in characters. -/
def maxIdentifierLength : Nat := 256

/-- Refuses a text that cannot name an account. -/
def checkIdentifier (identifier : String) : Except Error Unit :=
  let chars := identifier.toList
  if chars = [] ∨ maxIdentifierLength < chars.length then
    .error (.invalidParameter "identifier" "1 to 256 characters"
      (toString chars.length ++ " characters"))
  else if chars.any Text.isControl then
    .error (.invalidParameter "identifier" "no control characters" "control characters")
  else .ok ()

/-- Where the password hash of an account is stored. -/
def location (identifier : String) : String := "credential:" ++ identifier

/-! ## The guard -/

/-- A keeper of password hashes. -/
structure Guard where
  policy : Password.Policy
  /-- The hash that stands in where there is none, see `refuse`. -/
  decoy : Stored

namespace Guard

/-- The lock of an account. -/
def lock (identifier : String) : Lock := ⟨.credential, identifier⟩

/-- The hash of `password` under a fresh salt. -/
def hash (policy : Password.Policy) (password : String) : Action Stored := do
  Action.ofExcept (Password.checkPassword password)
  let salt ← Action.drawChosen .system policy.saltLength.toNat
  Action.ofExcept (Password.hashWith policy password salt)

/-- A guard under a policy, which must be in range. -/
def create (policy : Password.Policy) : Action Guard := do
  Action.ofExcept policy.validate
  return ⟨policy, ← hash policy "umbra-unknown-identity"⟩

variable (g : Guard)

/-- Writes the hash of an account. -/
def write (identifier : String) (h : Stored) : Action Unit :=
  Action.store (location identifier) (Bytes.ofText h.render)

/-- The hash of an account, if there is one. -/
def load? (identifier : String) : Action (Option Stored) := do
  match ← Action.retrieve? (location identifier) with
  | none => pure none
  | some record =>
    match Bytes.toText? record with
    | none =>
      Action.fail (.storage (.corrupted (location identifier) "credential record is not UTF-8"))
    | some text => return some (← Action.ofExcept (Stored.parse text))

/-- Refuses after the password was verified against the `decoy`. -/
def refuse {α : Type} (password : String) : Action α := do
  let _ ← Action.ofExcept (g.decoy.verify password)
  Action.fail .authenticationFailed

/-- The hash of an account, if the password is right. Where there is no account, `refuse` answers.
-/
def loadVerified (identifier password : String) : Action Stored := do
  match ← load? identifier with
  | none => g.refuse password
  | some h =>
    if ← Action.ofExcept (h.verify password) then pure h else Action.fail .authenticationFailed

/-- Registers a password for a new account. -/
def register (identifier password : String) : Action Unit := do
  Action.ofExcept (checkIdentifier identifier)
  Action.withLock (lock identifier) do
    if ← Action.contains (location identifier) then
      Action.fail (.storage (.alreadyExists identifier))
    else
      let h ← hash g.policy password
      write identifier h

/-- Replaces a password. -/
def change (identifier current new : String) : Action Unit := do
  Action.ofExcept (checkIdentifier identifier)
  Action.withLock (lock identifier) do
    let _ ← g.loadVerified identifier current
    let h ← hash g.policy new
    write identifier h

/-- Removes an account. -/
def remove (identifier : String) : Action Unit := do
  Action.ofExcept (checkIdentifier identifier)
  Action.withLock (lock identifier) (Action.delete (location identifier))

/-- Whether there is an account of that name. -/
def has (identifier : String) : Action Bool := do
  Action.ofExcept (checkIdentifier identifier)
  Action.contains (location identifier)

/-- Admits who presents the right password of an account, by `loadVerified`. -/
def authenticateByPassword (identifier password : String) : Action Unit :=
  Action.withLock (lock identifier) do
    let h ← g.loadVerified identifier password
    if h.isOutdated g.policy then
      let renewed ← hash g.policy password
      let _ ← Action.attempt (write identifier renewed)
      pure ()
    else pure ()

/-- Admits who presents the right credentials. Passwords are the only method that is offered, and a
text that cannot name an account is refused like an unknown account, by `refuse`. -/
def authenticate (c : Credentials) : Action Unit :=
  if c.method ≠ .password then Action.fail (.methodNotSupported c.method.name)
  else
    match checkIdentifier c.identifier with
    | .error _ => g.refuse c.secret
    | .ok _ => g.authenticateByPassword c.identifier c.secret

/-- Whether a password has a given stored hash. -/
def verify (password encoded : String) : Action Bool := do
  let h ← Action.ofExcept (Stored.parse encoded)
  Action.ofExcept (h.verify password)

end Guard

end Strongbox.Account
