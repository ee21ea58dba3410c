import Strongbox.Error
import Strongbox.Json.Record
/-!
# Rotation policies

After how many days a key is due for rotation, unless its metadata say otherwise: the ordinary
period, or the shorter one that sensitive deployments switch to.
-/

namespace Strongbox.Rotation

/-- After how many days keys are due for rotation. -/
structure Policy where
  defaultDays : UInt32
  /-- The period in days of sensitive deployments. -/
  highSecurityDays : UInt32
  /-- Whether the second period is in force. -/
  isHighSecurity : Bool
  deriving DecidableEq, Repr

namespace Policy

/-- 90 days, or 30 days for sensitive deployments, which this is not. -/
def default : Policy := ⟨90, 30, false⟩

/-- The default policy with the shorter period in force. -/
def highSecurity : Policy := { default with isHighSecurity := true }

/-- The period in force, in days. -/
def periodDays (p : Policy) : UInt32 :=
  if p.isHighSecurity then p.highSecurityDays else p.defaultDays

/-- The first setting that is out of range. -/
def validate (p : Policy) : Except Error Unit :=
  if p.defaultDays = 0 then
    .error (.configuration "rotation.default_period_days" "must be at least one day")
  else if p.highSecurityDays = 0 then
    .error (.configuration "rotation.high_security_period_days" "must be at least one day")
  else .ok ()

/-- A policy as a record. -/
def toJson (p : Policy) : Json :=
  .record
    [("default_period_days", .ofNat p.defaultDays.toNat),
      ("high_security_period_days", .ofNat p.highSecurityDays.toNat),
      ("high_security", .bool p.isHighSecurity)]

/-- Reads a policy; fields that are missing have their defaults. -/
def ofJson? (value : Json) : Option Policy := do
  match ← value.fields?
    ["default_period_days", "high_security_period_days", "high_security"] with
  | [defaultDays, highSecurityDays, isHighSecurity] =>
    let defaultDays ← Json.orDefault default.defaultDays Json.asWord32? defaultDays
    let highSecurityDays ← Json.orDefault default.highSecurityDays Json.asWord32? highSecurityDays
    let isHighSecurity ← Json.orDefault default.isHighSecurity Json.asBool? isHighSecurity
    some ⟨defaultDays, highSecurityDays, isHighSecurity⟩
  | _ => none

end Policy

end Strongbox.Rotation
