import Strongbox.Account.Guard
import Strongbox.Config
import Strongbox.Session
/-!
# Services

Services are opened with a configuration and a signing key, which is drawn if none is given. They
hold the guard of the accounts and the issuer of tokens; keys need no more than the storage and the
rotation policy.

Signing in admits the credentials first and then opens a session. The sessions of services that are
opened anew start empty.
-/

namespace Strongbox

/-- What is opened with a configuration. -/
structure Services where
  config : Config
  issuer : Token.Issuer
  guard : Account.Guard

namespace Services

/-- The signer with a key, or with one that is drawn. -/
def signer (signingKey : Option Bytes) : Action Token.Signer := do
  match signingKey with
  | some key => Action.ofExcept (Token.Signer.ofKey key)
  | none =>
    let key ← Action.draw .system Token.Signer.minKeySize
    Action.ofExcept (Token.Signer.ofKey key)

/-- Opens services. -/
def create (config : Config) (signingKey : Option Bytes) : Action Services := do
  let signer ← signer signingKey
  Action.ofExcept config.validate
  let guard ← Account.Guard.create config.password
  pure ⟨config, ⟨signer, config.tokens⟩, guard⟩

/-- Signs in. -/
def signIn (s : Services) (session : Session) (c : Credentials) : Action (Token × Session) := do
  s.guard.authenticate c
  let now ← Action.now
  let nonce ← Action.draw .system Token.nonceSize
  Action.ofOutcome (session.login s.issuer c.identifier c.method.name c.metadata now nonce)

/-- Refreshes a token. -/
def refresh (s : Services) (session : Session) (t : Token) : Action (Token × Session) := do
  let now ← Action.now
  let nonce ← Action.draw .system Token.nonceSize
  Action.ofOutcome (session.refresh s.issuer t now nonce)

end Services

end Strongbox
