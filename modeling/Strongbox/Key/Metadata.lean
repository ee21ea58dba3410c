import Strongbox.Cipher.Algorithm
import Strongbox.Json.Reader
import Strongbox.Json.Record
import Strongbox.Json.Writer
import Strongbox.Time.Rfc3339
/-!
# Key metadata

What is kept about a key: its algorithm and size, what it is for, when it was made, and further
attributes. Two attributes have a meaning: one overrides the rotation period of the policy, one
names the key that this one replaced.

Metadata are stored as JSON records.
-/

namespace Strongbox.Key

open Time (Instant)

/-- What is kept about a key. -/
structure Metadata where
  id : String
  algorithm : Cipher.Algorithm
  sizeBits : UInt32
  purpose : String
  createdAt : Instant
  attributes : Table String
  deriving DecidableEq

namespace Metadata

/-- The attribute that overrides the rotation period, in days. -/
def periodAttribute : String := "rotationPeriodDays"

/-- The attribute that names the key this one replaced. -/
def rotatedFromAttribute : String := "rotatedFrom"

/-- Metadata of a key that has the size of its `algorithm`. -/
def ofKey (id : String) (algorithm : Cipher.Algorithm) (purpose : String) (createdAt : Instant)
    (attributes : Table String) : Metadata :=
  ⟨id, algorithm, UInt32.ofNat algorithm.keyBits, purpose, createdAt, attributes⟩

/-- The positive number of days that a text gives, if it gives one: blanks around the number and a
plus sign in front of it do not count. -/
def daysOfText? (text : String) : Option UInt32 :=
  let digits := match Text.trimChars text.toList with
    | '+' :: rest => rest
    | chars => chars
  let days := Nat.ofDigitChars 10 digits 0
  if digits ≠ [] ∧ digits.all Char.isDigit ∧ 0 < days ∧ days < UInt32.size then
    some (UInt32.ofNat days)
  else none

/-- The key's own rotation period in days. An attribute that is no such number, see `daysOfText?`,
does not count. -/
def periodDays? (m : Metadata) : Option UInt32 :=
  (m.attributes.get? periodAttribute).bind daysOfText?

/-- The key that this one replaced, under `rotatedFromAttribute`. -/
def rotatedFrom? (m : Metadata) : Option String := m.attributes.get? rotatedFromAttribute

/-- Metadata as a record. -/
def toJson (m : Metadata) : Json :=
  .record
    [("id", .ofText m.id), ("algorithm", .ofText m.algorithm.name),
      ("keySizeBits", .ofNat m.sizeBits.toNat), ("purpose", .ofText m.purpose),
      ("createdAt", .ofText (Time.Rfc3339.write m.createdAt)),
      ("attributes", .ofTable m.attributes)]

/-- Reads metadata. Only the attributes may be missing. -/
def ofJson? (value : Json) : Option Metadata := do
  match ← value.fields?
    ["id", "algorithm", "keySizeBits", "purpose", "createdAt", "attributes"] with
  | [id, algorithm, sizeBits, purpose, createdAt, attributes] =>
    let id ← Json.required Json.asText? id
    let algorithm ← Json.required (·.asName?.bind Cipher.Algorithm.ofExactName?) algorithm
    let sizeBits ← Json.required Json.asWord32? sizeBits
    let purpose ← Json.required Json.asText? purpose
    let createdAt ← Json.required (·.asText?.bind Time.Rfc3339.read?) createdAt
    let attributes ← Json.orDefault Table.empty Json.asTable? attributes
    some ⟨id, algorithm, sizeBits, purpose, createdAt, attributes⟩
  | _ => none

/-- The record under which metadata are stored. -/
def write (m : Metadata) : Bytes := m.toJson.compact

/-- The metadata of a stored record. -/
def read (record : Bytes) : Except Error Metadata :=
  match (Json.read? record).bind ofJson? with
  | some m => .ok m
  | none => .error (.serialization "not key metadata")

end Metadata

end Strongbox.Key
