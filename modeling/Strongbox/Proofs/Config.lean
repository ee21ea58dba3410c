import Strongbox.Config
import Strongbox.Proofs.Json.Indented
import Strongbox.Proofs.Json.Omission
/-!
# Documents with gaps

A document may leave out whole sections and settings within sections. It is read as if it had been
complete, with the defaults in the gaps. Whether it is accepted depends on the configuration that
this makes, not on the one that the document was written from: a setting that is still there may be
out of range beside the default of one that is missing.

## Main results

* `ofJson?_reduce`: what a document with gaps is read as.
* `reduced_read`: such a document is refused if and only if the configuration it makes is.
-/

namespace Strongbox

/-! ## Settings within a section -/

namespace Rotation.Policy

/-- The policy `p` with the defaults of the settings that are `omitted`. -/
def withDefaults (omitted : String → Bool) (p : Policy) : Policy where
  defaultDays := if omitted "default_period_days" then default.defaultDays else p.defaultDays
  highSecurityDays :=
    if omitted "high_security_period_days" then default.highSecurityDays else p.highSecurityDays
  isHighSecurity := if omitted "high_security" then default.isHighSecurity else p.isHighSecurity

theorem ofJson?_without (omitted : String → Bool) (p : Policy) :
    ofJson? (p.toJson.without omitted) = some (p.withDefaults omitted) := by
  rw [toJson, ofJson?, Json.without, Json.fields?_sift (by simp)]
  simp [withDefaults, Json.orDefault_eq_some _ (Json.asWord32?_ofNat _),
    Json.orDefault_eq_some _ (Json.asBool?_bool _)]

theorem isWritten_toJson (p : Policy) : p.toJson.IsWritten :=
  Json.isWritten_record (by simp [Json.IsWritten.bool])

theorem exists_of_validate_eq_error {p : Policy} {e : Error} (h : p.validate = .error e) :
    ∃ setting reason, e = .configuration setting reason := by
  rw [validate] at h
  split at h
  · cases h
    exact ⟨_, _, rfl⟩
  split at h
  · cases h
    exact ⟨_, _, rfl⟩
  · cases h

end Rotation.Policy

namespace Password.Policy

/-- The policy `p` with the defaults of the settings that are `omitted`. -/
def withDefaults (omitted : String → Bool) (p : Policy) : Policy where
  method := if omitted "algorithm" then default.method else p.method
  argon2 := if omitted "argon2" then default.argon2 else p.argon2
  iterations := if omitted "pbkdf2_iterations" then default.iterations else p.iterations
  saltLength := if omitted "salt_len" then default.saltLength else p.saltLength
  digestLength := if omitted "output_len" then default.digestLength else p.digestLength

private theorem costsOfJson?_costsToJson (costs : Hash.Argon2.Params) :
    costsOfJson? (costsToJson costs) = some costs := by
  rw [costsToJson, costsOfJson?, Json.fields?_record (by simp)]
  simp [Json.required, Json.asWord32?_ofNat]

theorem ofJson?_without (omitted : String → Bool) (p : Policy) :
    ofJson? (p.toJson.without omitted) = some (p.withDefaults omitted) := by
  have hmethod : Json.orDefault default.method (·.asName?.bind Method.ofName?)
        (if omitted "algorithm" then none else some (.ofText p.method.name))
      = some (if omitted "algorithm" then default.method else p.method) :=
    Json.orDefault_eq_some _ (by rw [Json.asName?_ofText, Option.bind_some, Method.ofName?_name])
  rw [toJson, ofJson?, Json.without, Json.fields?_sift (by simp)]
  simp [withDefaults, hmethod,
    Json.orDefault_eq_some _ (costsOfJson?_costsToJson _),
    Json.orDefault_eq_some _ (Json.asWord32?_ofNat _),
    Json.orDefault_eq_some _ (Json.asWord64?_ofNat _)]

private theorem isWritten_costsToJson (costs : Hash.Argon2.Params) :
    (costsToJson costs).IsWritten :=
  Json.isWritten_record (by simp)

theorem isWritten_toJson (p : Policy) : p.toJson.IsWritten :=
  Json.isWritten_record (by simp [isWritten_costsToJson])

theorem exists_of_validate_eq_error {p : Policy} {e : Error} (h : p.validate = .error e) :
    ∃ setting reason, e = .configuration setting reason := by
  rw [validate] at h
  iterate 4
    split at h
    · cases h
      exact ⟨_, _, rfl⟩
  split at h
  · cases h
    exact ⟨_, _, rfl⟩
  · cases h

end Password.Policy

namespace Token.Policy

/-- The policy `p` with the defaults of the settings that are `omitted`. -/
def withDefaults (omitted : String → Bool) (p : Policy) : Policy where
  validitySeconds := if omitted "validity_secs" then default.validitySeconds else p.validitySeconds
  graceSeconds := if omitted "refresh_grace_secs" then default.graceSeconds else p.graceSeconds
  thresholdSeconds :=
    if omitted "refresh_threshold_secs" then default.thresholdSeconds else p.thresholdSeconds
  issuer := if omitted "issuer" then default.issuer else p.issuer

theorem ofJson?_without (omitted : String → Bool) (p : Policy) :
    ofJson? (p.toJson.without omitted) = some (p.withDefaults omitted) := by
  rw [toJson, ofJson?, Json.without, Json.fields?_sift (by simp)]
  simp [withDefaults, Json.orDefault_eq_some _ (Json.asWord64?_ofNat _),
    Json.orDefault_eq_some _ (Json.asText?_ofText _)]

theorem isWritten_toJson (p : Policy) : p.toJson.IsWritten :=
  Json.isWritten_record (by simp)

theorem exists_of_validate_eq_error {p : Policy} {e : Error} (h : p.validate = .error e) :
    ∃ setting reason, e = .configuration setting reason := by
  rw [validate] at h
  iterate 4
    split at h
    · cases h
      exact ⟨_, _, rfl⟩
  cases h

end Token.Policy

/-! ## Whole documents -/

namespace Config

/-- What is left out of a document. -/
structure Omission where
  /-- Whether the section of a name is missing. -/
  sections : String → Bool
  /-- Whether a setting is missing in a section, by the names of both. -/
  settings : String → String → Bool

namespace Omission

/-- Nothing is left out. -/
def nothing : Omission := ⟨fun _ => false, fun _ _ => false⟩

/-- The document without what `o` leaves out. -/
def reduce (o : Omission) (document : Json) : Json :=
  document.sift fun name settings =>
    if o.sections name then none else some (settings.without (o.settings name))

private theorem reduce_nothing (document : Json) : nothing.reduce document = document :=
  Json.sift_eq_self (fun _ settings => congrArg some (Json.sift_eq_self (fun _ _ => rfl) settings))
    document

private theorem isWritten_reduce (o : Omission) {document : Json} (h : document.IsWritten) :
    (o.reduce document).IsWritten := by
  refine Json.isWritten_sift (fun name settings part heq hsettings => ?_) h
  rw [Option.ite_none_left_eq_some] at heq
  obtain ⟨-, heq⟩ := heq
  cases heq
  exact Json.isWritten_without _ hsettings

end Omission

/-- The configuration with the defaults of the sections and settings that `o` leaves out. -/
def withDefaults (o : Omission) (c : Config) : Config where
  rotation :=
    if o.sections "rotation" then default.rotation
    else c.rotation.withDefaults (o.settings "rotation")
  password :=
    if o.sections "password" then default.password
    else c.password.withDefaults (o.settings "password")
  tokens :=
    if o.sections "tokens" then default.tokens else c.tokens.withDefaults (o.settings "tokens")

private theorem withDefaults_nothing (c : Config) : c.withDefaults .nothing = c := rfl

variable {c : Config} {document : Bytes} {o : Omission}

/-- A document with gaps is read by `ofJson?` as the configuration with the defaults in them. -/
theorem ofJson?_reduce (o : Omission) (c : Config) :
    ofJson? (o.reduce c.toJson) = some (c.withDefaults o) := by
  rw [toJson, ofJson?, Omission.reduce, Json.fields?_sift (by simp)]
  simp [withDefaults, Json.orDefault_eq_some _ (Rotation.Policy.ofJson?_without _ _),
    Json.orDefault_eq_some _ (Password.Policy.ofJson?_without _ _),
    Json.orDefault_eq_some _ (Token.Policy.ofJson?_without _ _)]

theorem isWritten_toJson (c : Config) : c.toJson.IsWritten :=
  Json.isWritten_record (by simp [Rotation.Policy.isWritten_toJson,
    Password.Policy.isWritten_toJson, Token.Policy.isWritten_toJson])

/-- Whatever is out of range, the error is `Error.configuration`: it says that it is a setting. -/
theorem exists_of_validate_eq_error {e : Error} (h : c.validate = .error e) :
    ∃ setting reason, e = .configuration setting reason := by
  cases hrotation : c.rotation.validate with
  | error _ =>
    rw [validate, hrotation] at h
    cases h
    exact Rotation.Policy.exists_of_validate_eq_error hrotation
  | ok _ =>
    cases hpassword : c.password.validate with
    | error _ =>
      rw [validate, hrotation, hpassword] at h
      cases h
      exact Password.Policy.exists_of_validate_eq_error hpassword
    | ok _ =>
      rw [validate, hrotation, hpassword] at h
      exact Token.Policy.exists_of_validate_eq_error h

theorem read_eq_of_reduced (h : Json.read? document = some (o.reduce c.toJson)) :
    read document = (c.withDefaults o).validate.map fun _ => c.withDefaults o := by
  rw [read, h, Option.bind_some, ofJson?_reduce]

/-- A configuration that is in range is read back from its document. A text of the document with
sections and settings left out (`Omission.reduce`) is read as the configuration with defaults in
their place (`Omission.withDefaults`), unless that is out of range, which is then the error. -/
theorem reduced_read (hvalid : c.validate = .ok ()) :
    read c.pretty = .ok c
      ∧ ∀ o : Omission, Json.read? (o.reduce c.toJson).pretty = some (o.reduce c.toJson)
        ∧ ∀ document, Json.read? document = some (o.reduce c.toJson) →
          (read document = .ok (c.withDefaults o) ↔ (c.withDefaults o).validate = .ok ())
          ∧ ((∃ setting reason, read document = .error (.configuration setting reason))
            ↔ (c.withDefaults o).validate ≠ .ok ()) := by
  have hpretty : ∀ o : Omission,
      Json.read? (o.reduce c.toJson).pretty = some (o.reduce c.toJson) :=
    fun o => Json.read?_pretty (o.isWritten_reduce c.isWritten_toJson)
  refine ⟨?_, fun o => ⟨hpretty o, fun document hdocument => ?_⟩⟩
  · have hwhole := read_eq_of_reduced (hpretty .nothing)
    rwa [withDefaults_nothing, Omission.reduce_nothing, hvalid] at hwhole
  · rw [read_eq_of_reduced hdocument]
    cases hcheck : (c.withDefaults o).validate with
    | ok _ => exact ⟨iff_of_true rfl rfl, iff_of_false (fun ⟨_, _, h⟩ => by cases h) (· rfl)⟩
    | error e =>
      obtain ⟨setting, reason, rfl⟩ := exists_of_validate_eq_error hcheck
      exact ⟨iff_of_false (by rintro ⟨⟩) (by rintro ⟨⟩),
        iff_of_true ⟨setting, reason, rfl⟩ (by rintro ⟨⟩)⟩

/-- Tokens are valid for longer than the default and are refreshed early. -/
def longLived : Config := { default with tokens := ⟨10000, 604800, 5000, "é \"\\\n"⟩ }

/-- The settings of the section `tokens` that are left out. -/
def tokenSettings (settings : List String) : Omission :=
  ⟨fun _ => false, fun name setting => name == "tokens" && settings.contains setting⟩

/-- A refresh may be asked for early beside the longer validity but not beside the default one. -/
theorem longLived_read :
    read longLived.pretty = .ok longLived
      ∧ (∃ setting reason,
        read ((tokenSettings ["validity_secs"]).reduce longLived.toJson).pretty
          = .error (.configuration setting reason))
      ∧ read ((tokenSettings ["validity_secs", "refresh_threshold_secs"]).reduce
          longLived.toJson).pretty
        = .ok { default with tokens := ⟨3600, 604800, 300, "é \"\\\n"⟩ } := by
  obtain ⟨hback, hreduced⟩ := reduced_read (c := longLived) rfl
  obtain ⟨hone, hgap⟩ := hreduced (tokenSettings ["validity_secs"])
  obtain ⟨htwo, hgaps⟩ := hreduced (tokenSettings ["validity_secs", "refresh_threshold_secs"])
  exact ⟨hback, (hgap _ hone).2.2 nofun, (hgaps _ htwo).1.2 rfl⟩

end Config

end Strongbox
