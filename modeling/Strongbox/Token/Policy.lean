import Strongbox.Error
import Strongbox.Json.Reader
import Strongbox.Json.Record
import Strongbox.Text.Blank
import Strongbox.Time.Instant
/-!
# Token policies

How long tokens live: the validity of a new token, the grace after its end during which it may
still be refreshed, and the remaining life below which a session asks for a refresh. The policy
also names the issuer.

Lifetimes are words of 64 bits. As a span such a word counts as signed, which makes no difference
to a policy that is in range.
-/

namespace Strongbox.Token

/-- Lifetimes of tokens. -/
structure Policy where
  validitySeconds : UInt64
  /-- The seconds after its end during which a token may be refreshed. -/
  graceSeconds : UInt64
  /-- The remaining seconds from which on a session asks for a refresh. -/
  thresholdSeconds : UInt64
  issuer : String
  deriving DecidableEq, Repr

namespace Policy

/-- An hour of validity, a week of grace and a refresh in the last five minutes. -/
def default : Policy := ⟨3600, 604800, 300, "umbra"⟩

/-- A word of seconds as a span. -/
def span (seconds : UInt64) : Time.Span := Time.Span.ofSeconds seconds.toInt64.toInt

/-- The validity of a new token. -/
def validity (p : Policy) : Time.Span := span p.validitySeconds

/-- The grace after a token's end. -/
def grace (p : Policy) : Time.Span := span p.graceSeconds

/-- The remaining life from which on a session asks for a refresh. -/
def threshold (p : Policy) : Time.Span := span p.thresholdSeconds

/-- The longest lifetime: 100 years of 365 days, in seconds. -/
def maxSeconds : Nat := 3153600000

/-- The first setting that is out of range. -/
def validate (p : Policy) : Except Error Unit :=
  if p.validitySeconds = 0 ∨ maxSeconds < p.validitySeconds.toNat then
    .error (.configuration "tokens.validity_secs" "must be positive and at most 100 years")
  else if maxSeconds < p.graceSeconds.toNat then
    .error (.configuration "tokens.refresh_grace_secs" "must be at most 100 years")
  else if p.validitySeconds ≤ p.thresholdSeconds then
    .error (.configuration "tokens.refresh_threshold_secs"
      "must be shorter than the validity window")
  else if Text.trimChars p.issuer.toList = [] then
    .error (.configuration "tokens.issuer" "must not be empty")
  else .ok ()

/-- A policy as a record. -/
def toJson (p : Policy) : Json :=
  .record
    [("validity_secs", .ofNat p.validitySeconds.toNat),
      ("refresh_grace_secs", .ofNat p.graceSeconds.toNat),
      ("refresh_threshold_secs", .ofNat p.thresholdSeconds.toNat),
      ("issuer", .ofText p.issuer)]

/-- Reads a policy; fields that are missing have their values in `default`. -/
def ofJson? (value : Json) : Option Policy := do
  match ← value.fields?
    ["validity_secs", "refresh_grace_secs", "refresh_threshold_secs", "issuer"] with
  | [validity, grace, threshold, issuer] =>
    let validity ← Json.orDefault default.validitySeconds Json.asWord64? validity
    let grace ← Json.orDefault default.graceSeconds Json.asWord64? grace
    let threshold ← Json.orDefault default.thresholdSeconds Json.asWord64? threshold
    let issuer ← Json.orDefault default.issuer Json.asText? issuer
    some ⟨validity, grace, threshold, issuer⟩
  | _ => none

/-- The policy of a document. It may be out of range. -/
def read (document : Bytes) : Except Error Policy :=
  match (Json.read? document).bind ofJson? with
  | some p => .ok p
  | none => .error (.serialization "not a token policy")

end Policy

end Strongbox.Token
