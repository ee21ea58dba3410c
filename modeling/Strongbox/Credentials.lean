import Strongbox.Text.Quoted
/-!
# Credentials

What someone presents to sign in. The secret is shown in no diagnosis.
-/

namespace Strongbox

/-- How someone proves an identity. -/
inductive SignInMethod where
  | password
  | biometric
  | singleSignOn
  | certificate
  deriving DecidableEq, Repr

namespace SignInMethod

/-- The name of a method. -/
def name : SignInMethod → String
  | .password => "password"
  | .biometric => "biometric"
  | .singleSignOn => "single_sign_on"
  | .certificate => "certificate"

/-- Every method. -/
def all : List SignInMethod := [.password, .biometric, .singleSignOn, .certificate]

/-- The method of that name. -/
def ofName? (text : String) : Option SignInMethod := all.find? fun m => m.name == text

/-- The name of a method for diagnosis. -/
def summary : SignInMethod → String
  | .password => "Password"
  | .biometric => "Biometric"
  | .singleSignOn => "SingleSignOn"
  | .certificate => "Certificate"

end SignInMethod

/-- What someone presents to sign in. -/
structure Credentials where
  identifier : String
  secret : String
  method : SignInMethod
  /-- What is to be recorded with the session. -/
  metadata : Table String
  deriving DecidableEq

/-- The credentials for diagnosis. -/
def Credentials.summary (c : Credentials) : String :=
  "Credentials \x7b identifier: " ++ Text.quoted c.identifier
    ++ ", secret: " ++ Text.quoted "[REDACTED]"
    ++ ", method: " ++ c.method.summary
    ++ ", metadata: " ++ Text.quotedTable c.metadata ++ " \x7d"

end Strongbox
