import Strongbox.Hash.Hmac
import Strongbox.Outcome
import Strongbox.Text.Base64
import Strongbox.Token.Basic
import Strongbox.Token.Policy
/-!
# Signing tokens

The text of a token is a nonce and a code, each in URL-safe base64, with a full stop between them.
The code is a message authentication code over the nonce and every other field of the token, to the
second. In the message every field of variable length is preceded by its length, the claims by their
number, and times are fixed-width.

A signer is its code function. The one in use is HMAC-SHA-256 under a key of at least 32 bytes, but
nothing here depends on that.
-/

namespace Strongbox.Token

open Time (Instant)

/-- The length of a `Nonce`. -/
def nonceSize : Nat := 16

/-- The length of a code. -/
def codeSize : Nat := 32

/-- The random part of a token's text. -/
abbrev Nonce := Bytes.Sized nonceSize

/-- A maker and verifier of token texts, which is given by its `code`. -/
structure Signer where
  code : Bytes → Bytes
  length_code : ∀ message, (code message).length = codeSize

namespace Signer

/-- The shortest key of a signer. -/
def minKeySize : Nat := 32

/-- The signer with a key. -/
def ofKey (key : Bytes) : Except Error Signer :=
  if key.length < minKeySize then
    .error (.invalidKeySize "HMAC-SHA256" minKeySize key.length)
  else
    let prepared := Hash.Hmac.Key.ofBytes key
    .ok ⟨prepared.code, Hash.Hmac.Key.length_code prepared⟩

end Signer

/-! ## The signed message -/

/-- A field of variable length, preceded by its length. -/
def lengthPrefixed (field : Bytes) : Bytes := Bytes.bigEndian 8 field.length ++ field

/-- The claims, preceded by their number, in key order. -/
def claimsMessage (claims : Table String) : Bytes :=
  Bytes.bigEndian 8 claims.size
    ++ claims.entries.flatMap fun e =>
      lengthPrefixed (Bytes.ofText e.1) ++ lengthPrefixed (Bytes.ofText e.2)

/-- What the code of the token `t` covers. -/
def signedMessage (nonce : Bytes) (t : Token) : Bytes :=
  nonce ++ lengthPrefixed (Bytes.ofText t.kind)
    ++ Bytes.signed64 t.issuedAt.seconds ++ Bytes.signed64 t.expiresAt.seconds
    ++ lengthPrefixed (Bytes.ofText t.user) ++ claimsMessage t.claims

/-! ## Texts -/

/-- A part of a token's text. -/
def textPart (bytes : Bytes) : String := Text.Base64.encode Text.Base64.urlSafe bytes

/-- The text of a nonce and a code, each a `textPart`. -/
def textOf (nonce code : Bytes) : String := textPart nonce ++ "." ++ textPart code

/-- The nonce and the code of a text like `textOf`. -/
def parts? (text : String) : Option (Bytes × Bytes) :=
  match text.toList.splitOn '.' with
  | [nonce, code] => do
    let nonce ← Text.Base64.decodeChars Text.Base64.urlSafe nonce
    let code ← Text.Base64.decodeChars Text.Base64.urlSafe code
    if nonce.length = nonceSize then some (nonce, code) else none
  | _ => none

/-- Whether the token's text was made by the signer for exactly what the token says, its
`signedMessage`. -/
def Signer.verify (signer : Signer) (t : Token) : Bool :=
  match parts? t.text with
  | some (nonce, code) => signer.code (signedMessage nonce t) == code
  | none => false

/-! ## Issuing -/

/-- The claims of a new token. -/
def standardClaims (issuer user : String) (issuedAt expiresAt : Instant) (nonce : Bytes) :
    Table String :=
  Table.ofList
    [("iss", issuer), ("sub", user), ("iat", toString issuedAt.seconds),
      ("exp", toString expiresAt.seconds), ("jti", textPart nonce)]

/-- The token `t` with the text that the signer makes for it. -/
def Signer.sign (signer : Signer) (nonce : Nonce) (t : Token) : Token :=
  { t with text := textOf nonce (signer.code (signedMessage nonce t)) }

/-- A signer with the lifetimes of the tokens it issues. -/
structure Issuer where
  signer : Signer
  policy : Policy

/-- A new token for a user, valid from the start of the second `now`. -/
def Issuer.issue (issuer : Issuer) (user : String) (now : Instant) (nonce : Nonce) :
    Outcome Token := do
  let issuedAt := now.truncated
  let expiresAt ← Outcome.dated (issuedAt.plus? issuer.policy.validity)
  let claims := standardClaims issuer.policy.issuer user issuedAt expiresAt nonce
  .ok (issuer.signer.sign nonce ⟨"", bearer, issuedAt, expiresAt, user, claims⟩)

end Strongbox.Token
