import Strongbox.Hash.Algorithm
import Strongbox.Json.Reader
import Strongbox.Json.Record
import Strongbox.Json.Writer
import Strongbox.Text.Quoted
import Strongbox.Time.Rfc3339
/-!
# Tokens

A token tells who is signed in from when to when, with further claims, and carries a text that only
its signer can make. What a token says counts only after its text has been verified.

Diagnostics show a fingerprint in place of the text.
-/

namespace Strongbox

open Time (Instant)

/-- A token. -/
structure Token where
  text : String
  kind : String
  issuedAt : Instant
  expiresAt : Instant
  user : String
  claims : Table String
  deriving DecidableEq

namespace Token

/-- The only kind of token that is issued. -/
def bearer : String := "Bearer"

/-- Whether the token has a text, is of the issued kind (`bearer`) and does not end before it
begins. -/
def isWellFormed (t : Token) : Bool :=
  !t.text.isEmpty && t.kind == bearer && t.issuedAt.before t.expiresAt

/-- Whether the token has come to its end at `now`. -/
def isExpired (t : Token) (now : Instant) : Bool := !now.before t.expiresAt

/-- Eight digits that stand for the text in logs. -/
def fingerprint (t : Token) : String := Hash.fingerprint (Bytes.ofText t.text)

/-- The token for diagnosis. -/
def summary (t : Token) : String :=
  "AuthToken \x7b fingerprint: " ++ Text.quoted t.fingerprint
    ++ ", token_type: " ++ Text.quoted t.kind
    ++ ", issued_at: " ++ Time.Rfc3339.write t.issuedAt
    ++ ", expires_at: " ++ Time.Rfc3339.write t.expiresAt
    ++ ", user_identifier: " ++ Text.quoted t.user
    ++ ", claims: " ++ Text.quotedTable t.claims ++ " \x7d"

/-! ## JSON -/

/-- The timestamp of an instant. -/
def timeToJson (t : Instant) : Json := .ofText (Time.Rfc3339.write t)

/-- The instant of a timestamp. -/
def timeOfJson? (value : Json) : Option Instant := value.asText?.bind Time.Rfc3339.read?

/-- A token as a record. -/
def toJson (t : Token) : Json :=
  .record
    [("tokenString", .ofText t.text), ("tokenType", .ofText t.kind),
      ("issuedAt", timeToJson t.issuedAt), ("expiresAt", timeToJson t.expiresAt),
      ("userIdentifier", .ofText t.user), ("claims", .ofTable t.claims)]

/-- Reads a token from what `toJson` makes; every field must be given. -/
def ofJson? (value : Json) : Option Token := do
  match ← value.fields?
    ["tokenString", "tokenType", "issuedAt", "expiresAt", "userIdentifier", "claims"] with
  | [text, kind, issuedAt, expiresAt, user, claims] =>
    let text ← Json.required Json.asText? text
    let kind ← Json.required Json.asText? kind
    let issuedAt ← Json.required timeOfJson? issuedAt
    let expiresAt ← Json.required timeOfJson? expiresAt
    let user ← Json.required Json.asText? user
    let claims ← Json.required Json.asTable? claims
    some ⟨text, kind, issuedAt, expiresAt, user, claims⟩
  | _ => none

/-- The token of a document. -/
def read (document : Bytes) : Except Error Token :=
  match (Json.read? document).bind ofJson? with
  | some t => .ok t
  | none => .error (.serialization "not a token")

/-- The document of a token. -/
def write (t : Token) : Bytes := t.toJson.compact

end Token

end Strongbox
