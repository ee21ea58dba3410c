import Strongbox.Token.Signer
/-!
# Sessions

A session keeps the active token, what was recorded at sign-in, and the tokens that were retired:
revoked, refreshed or logged out. Retired tokens are remembered under the digest of their text,
together with their end, and forgotten once they could not be refreshed anyway.

Every operation takes the instant at which it happens, and where it issues a token the nonce that
was drawn for it. An operation that fails leaves the session as it was.
-/

namespace Strongbox

open Time (Instant)

/-- What is remembered about sign-ins. -/
structure Session where
  active : Option Token
  /-- The ends of retired tokens, by their `retirementKey`. -/
  retired : Table Instant
  /-- What was recorded at sign-in. -/
  context : Table String

namespace Session

/-- What a token is worth. -/
inductive Standing where
  | valid
  | expired
  | revoked
  /-- It was not issued here, or was altered. -/
  | forged
  deriving DecidableEq, Repr

/-- What a session can do. -/
inductive Status where
  | authenticated
  | requiresRefresh
  | notAuthenticated
  deriving DecidableEq, Repr

/-- The name of a status. -/
def Status.name : Status → String
  | .authenticated => "authenticated"
  | .requiresRefresh => "requires_refresh"
  | .notAuthenticated => "not_authenticated"

/-- Nobody has signed in yet. -/
def start : Session := ⟨none, Table.empty, Table.empty⟩

/-- Under which key a retired token is remembered. -/
def retirementKey (t : Token) : String := Hash.hexDigest (Bytes.ofText t.text)

/-- Whether a token was retired. -/
def isRetired (s : Session) (t : Token) : Bool := s.retired.contains (retirementKey t)

/-- Remembers a token as retired. -/
def retire (s : Session) (t : Token) : Session :=
  { s with retired := s.retired.insert (retirementKey t) t.expiresAt }

/-- Forgets the retired tokens that could no longer be refreshed under `policy`. -/
def prune (s : Session) (policy : Token.Policy) (now : Instant) : Session :=
  { s with retired := s.retired.filter fun _ expiresAt => now.since expiresAt ≤ policy.grace }

/-- Ends the current session. -/
def close (s : Session) : Session := { s with active := none, context := Table.empty }

/-- Whether `t` has the text of the active token. -/
def isActive (s : Session) (t : Token) : Bool := s.active.any (·.text == t.text)

variable (issuer : Token.Issuer)

/-- Whether `t` was issued here and says what it was issued for. -/
def isAuthentic (t : Token) : Bool := t.isWellFormed && issuer.signer.verify t

/-- What `t` is worth at `now`. -/
def standing (s : Session) (t : Token) (now : Instant) : Standing :=
  if !isAuthentic issuer t then .forged
  else if s.isRetired t then .revoked
  else if t.isExpired now then .expired
  else .valid

/-- Whether `t` is in force: its `standing` is `valid`. -/
def accepts (s : Session) (t : Token) (now : Instant) : Bool :=
  s.standing issuer t now == .valid

/-- The user behind a token that is in force, as `accepts` says. -/
def authorize (s : Session) (t : Token) (operation : String) (now : Instant) :
    Except Error String :=
  match s.standing issuer t now with
  | .valid => .ok t.user
  | .expired => .error .tokenExpired
  | .revoked => .error .tokenRevoked
  | .forged => .error (.unauthorized operation)

/-- What is recorded at sign-in: what came with the credentials, and how, who and when. -/
def contextOf (metadata : Table String) (method user : String) (now : Instant) : Table String :=
  ((metadata.insert "method" method).insert "identifier" user).insert "authenticatedAt"
    (Time.Rfc3339.writeOffset now)

/-- Opens a session for a `user` whose credentials were verified. -/
def login (s : Session) (user method : String) (metadata : Table String) (now : Instant)
    (nonce : Token.Nonce) : Outcome (Token × Session) := do
  let t ← issuer.issue user now nonce
  .ok (t, { s.prune issuer.policy now with
    active := some t
    context := contextOf metadata method user now })

/-- Why `t` cannot be refreshed, if so. -/
def refreshRefusal? (s : Session) (t : Token) (now : Instant) : Option Error :=
  match s.standing issuer t now with
  | .forged => some (.invalidToken "token was not issued by this provider")
  | .revoked => some .tokenRevoked
  | .expired => if issuer.policy.grace < now.since t.expiresAt then some .tokenExpired else none
  | .valid => none

/-- Replaces a token by a new one for the same user and retires it. The new token becomes the
active one if the old one was, or if there is none. -/
def refresh (s : Session) (t : Token) (now : Instant) (nonce : Token.Nonce) :
    Outcome (Token × Session) :=
  match s.refreshRefusal? issuer t now with
  | some e => Outcome.failure e
  | none => do
    let fresh ← issuer.issue t.user now nonce
    let pruned := (s.prune issuer.policy now).retire t
    let takesOver := s.active.isNone || s.isActive t
    .ok (fresh, { pruned with active := if takesOver then some fresh else s.active })

/-- Retires a token and ends the session if it is the active one. Tells whether the token was
issued here and had not been retired before. -/
def revoke (s : Session) (t : Token) : Bool × Session :=
  if !isAuthentic issuer t then (false, s)
  else
    let retired := s.retire t
    (!s.isRetired t, if s.isActive t then retired.close else retired)

/-- Retires the active token, if there is one, and ends the session. -/
def logout (s : Session) : Session :=
  match s.active with
  | some t => (s.retire t).close
  | none => s.close

/-- What the session can do at `now`. -/
def status (s : Session) (now : Instant) : Status :=
  match s.active with
  | none => .notAuthenticated
  | some t =>
    if s.isRetired t then .notAuthenticated
    else if t.isExpired now then
      if now.since t.expiresAt ≤ issuer.policy.grace then .requiresRefresh else .notAuthenticated
    else if t.expiresAt.since now ≤ issuer.policy.threshold then .requiresRefresh
    else .authenticated

end Session

end Strongbox
