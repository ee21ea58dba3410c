import Strongbox.Json.Reader
import Strongbox.Json.Writer
import Strongbox.Password.Policy
import Strongbox.Rotation.Policy
import Strongbox.Token.Policy
/-!
# Configuration

The three policies of the services, as one document with a section for each. Every section and
every setting in it has a default, so the empty document is complete. The values are checked when
the document is read and again when services are opened with it.
-/

namespace Strongbox

/-- The policies of the services. -/
structure Config where
  rotation : Rotation.Policy
  password : Password.Policy
  tokens : Token.Policy
  deriving DecidableEq, Repr

namespace Config

/-- Every policy at its default. -/
def default : Config := ⟨.default, .default, .default⟩

/-- For constrained devices: cheaper password hashing. -/
def lowResource : Config := { default with password := .lowResource }

/-- For sensitive deployments: rotation after 30 days and costlier password hashing. -/
def highSecurity : Config :=
  { default with rotation := .highSecurity, password := .highSecurity }

/-- The configurations that have a name. -/
def preset? : String → Option Config
  | "default" => some default
  | "low_resource" => some lowResource
  | "high_security" => some highSecurity
  | _ => none

/-- The first setting that is out of range, section by section. -/
def validate (c : Config) : Except Error Unit := do
  c.rotation.validate
  c.password.validate
  c.tokens.validate

/-! ## Documents -/

/-- The document of a configuration. -/
def toJson (c : Config) : Json :=
  .record
    [("rotation", c.rotation.toJson), ("password", c.password.toJson),
      ("tokens", c.tokens.toJson)]

/-- Reads a document; sections and settings that are missing have their defaults. -/
def ofJson? (value : Json) : Option Config := do
  match ← value.fields? ["rotation", "password", "tokens"] with
  | [rotation, password, tokens] =>
    let rotation ← Json.orDefault default.rotation Rotation.Policy.ofJson? rotation
    let password ← Json.orDefault default.password Password.Policy.ofJson? password
    let tokens ← Json.orDefault default.tokens Token.Policy.ofJson? tokens
    some ⟨rotation, password, tokens⟩
  | _ => none

/-- The document of a configuration, indented. -/
def pretty (c : Config) : Bytes := c.toJson.pretty

/-- The configuration of a document, if it can be read and is in range. -/
def read (document : Bytes) : Except Error Config :=
  match (Json.read? document).bind ofJson? with
  | none => .error (.configuration "config" "invalid JSON")
  | some c => c.validate.map fun _ => c

/-- The configuration in the file of the given content; `none` is a file that cannot be read. A
file must be text. -/
def ofFile (content : Option Bytes) : Except Error Config :=
  match content.bind Bytes.toText? with
  | none => .error (.configuration "config" "cannot read file")
  | some document => read (Bytes.ofText document)

end Config

end Strongbox
