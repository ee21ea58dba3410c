import Strongbox.Table
/-!
# Errors

Every operation of the library fails with an `Error`, which names a cause and carries the values
a caller may see. Keys, passwords, salts, digests and token texts are in none of them.

An error has

* a `kind` and a numeric `code`, both stable, and a `category` that callers decide policy by;
* a `message` for the log, a `friendlyMessage` for the user, `details` for diagnosis and possibly
  a `remediation`;
* `isRetryable`, whether the same call may succeed later.

Storage backends fail with a `StorageError`; above them it is the cause `Error.storage`.
-/

namespace Strongbox

/-- Why a storage backend refused a call. -/
inductive StorageError where
  | notFound (identifier : String)
  | alreadyExists (identifier : String)
  | unavailable (cause : String)
  | corrupted (identifier cause : String)
  | permissionDenied (identifier : String)
  deriving DecidableEq, Repr

namespace StorageError

/-- Whether the entry simply does not exist. -/
def isNotFound : StorageError → Bool
  | .notFound _ => true
  | _ => false

/-- The stable number of the error. -/
def code : StorageError → Nat
  | .notFound _ => 4003
  | .alreadyExists _ => 4004
  | .unavailable _ => 4005
  | .corrupted _ _ => 4006
  | .permissionDenied _ => 4007

/-- The wording for the log. -/
def message : StorageError → String
  | .notFound id => "No entry stored under '" ++ id ++ "'"
  | .alreadyExists id => "An entry already exists under '" ++ id ++ "'"
  | .unavailable cause => "Secure storage unavailable: " ++ cause
  | .corrupted id cause => "Stored entry '" ++ id ++ "' is corrupted: " ++ cause
  | .permissionDenied id => "Permission denied for '" ++ id ++ "'"

/-- The wording for the user. -/
def friendlyMessage : StorageError → String
  | .notFound _ => "The requested item was not found."
  | .alreadyExists _ => "The item already exists."
  | .unavailable _ => "Secure storage is currently unavailable. Try again later."
  | .corrupted _ _ => "Stored data is corrupted and cannot be read."
  | .permissionDenied _ => "Access to secure storage was denied."

end StorageError

/-- Why an operation failed. -/
inductive Error where
  | invalidKeySize (algorithm : String) (expected actual : Nat)
  | invalidIvSize (algorithm : String) (expected actual : Nat)
  | invalidParameter (parameter expected actual : String)
  /-- A text that cannot name a key. -/
  | invalidKeyIdentifier (identifier reason : String)
  /-- A stored password hash that cannot be read or used. -/
  | invalidHashFormat (reason : String)
  | encryptionFailed (algorithm cause : String)
  /-- A blob that does not decrypt, for whatever reason. -/
  | decryptionFailed (algorithm : String)
  | hashingFailed (algorithm cause : String)
  | keyGenerationFailed (cause : String)
  | randomGenerationFailed (cause : String)
  /-- Wrong identifier or password. -/
  | authenticationFailed
  | timeout (operation : String)
  | cancelled (operation : String)
  | keyNotFound (identifier : String)
  | keyAlreadyExists (identifier : String)
  | storage (inner : StorageError)
  | serialization (text : String)
  | configuration (setting reason : String)
  | unauthorized (operation : String)
  | notAuthenticated
  | tokenExpired
  | tokenRevoked
  | invalidToken (reason : String)
  | unsupportedAlgorithm (algorithm : String)
  | methodNotSupported (method : String)
  | internal (context cause : String)
  deriving DecidableEq, Repr

/-- The broad classes of errors. -/
inductive ErrorCategory where
  | validation
  | operational
  | storage
  | configuration
  | securityBoundary
  | platform
  deriving DecidableEq, Repr

/-- The name of a category. -/
def ErrorCategory.name : ErrorCategory → String
  | .validation => "validation"
  | .operational => "operational"
  | .storage => "storage"
  | .configuration => "configuration"
  | .securityBoundary => "security_boundary"
  | .platform => "platform"

namespace Error

/-- An input-output failure with the given text. -/
def ofInputOutput (text : String) : Error := .internal "I/O operation failed" text

/-- The stable number of the error: 1000s validation, 2000s operational, 4000s storage,
5000s configuration, 6000s security boundary, 7000s platform, 9000s internal. -/
def code : Error → Nat
  | .invalidKeySize _ _ _ => 1001
  | .invalidIvSize _ _ _ => 1002
  | .invalidParameter _ _ _ => 1003
  | .invalidKeyIdentifier _ _ => 1004
  | .invalidHashFormat _ => 1005
  | .encryptionFailed _ _ => 2001
  | .decryptionFailed _ => 2002
  | .hashingFailed _ _ => 2003
  | .keyGenerationFailed _ => 2004
  | .randomGenerationFailed _ => 2005
  | .authenticationFailed => 2006
  | .timeout _ => 2007
  | .cancelled _ => 2008
  | .keyNotFound _ => 4001
  | .keyAlreadyExists _ => 4002
  | .storage inner => inner.code
  | .serialization _ => 4008
  | .configuration _ _ => 5001
  | .unauthorized _ => 6001
  | .notAuthenticated => 6002
  | .tokenExpired => 6003
  | .tokenRevoked => 6004
  | .invalidToken _ => 6005
  | .unsupportedAlgorithm _ => 7001
  | .methodNotSupported _ => 7002
  | .internal _ _ => 9001

/-- The stable name of the kind of error. -/
def kind : Error → String
  | .invalidKeySize _ _ _ => "InvalidKeySize"
  | .invalidIvSize _ _ _ => "InvalidIVSize"
  | .invalidParameter _ _ _ => "InvalidParameter"
  | .invalidKeyIdentifier _ _ => "InvalidKeyIdentifier"
  | .invalidHashFormat _ => "InvalidHashFormat"
  | .encryptionFailed _ _ => "EncryptionFailed"
  | .decryptionFailed _ => "DecryptionFailed"
  | .hashingFailed _ _ => "HashingFailed"
  | .keyGenerationFailed _ => "KeyGenerationFailed"
  | .randomGenerationFailed _ => "RandomGenerationFailed"
  | .authenticationFailed => "AuthenticationFailed"
  | .timeout _ => "Timeout"
  | .cancelled _ => "Cancelled"
  | .keyNotFound _ => "KeyNotFound"
  | .keyAlreadyExists _ => "KeyAlreadyExists"
  | .storage _ => "StorageError"
  | .serialization _ => "SerializationError"
  | .configuration _ _ => "ConfigurationError"
  | .unauthorized _ => "Unauthorized"
  | .notAuthenticated => "NotAuthenticated"
  | .tokenExpired => "TokenExpired"
  | .tokenRevoked => "TokenRevoked"
  | .invalidToken _ => "InvalidToken"
  | .unsupportedAlgorithm _ => "UnsupportedAlgorithm"
  | .methodNotSupported _ => "MethodNotSupported"
  | .internal _ _ => "InternalError"

/-- The class of the error. -/
def category : Error → ErrorCategory
  | .invalidKeySize _ _ _ | .invalidIvSize _ _ _ | .invalidParameter _ _ _
  | .invalidKeyIdentifier _ _ | .invalidHashFormat _ => .validation
  | .encryptionFailed _ _ | .decryptionFailed _ | .hashingFailed _ _ | .keyGenerationFailed _
  | .randomGenerationFailed _ | .authenticationFailed | .timeout _ | .cancelled _
  | .internal _ _ => .operational
  | .keyNotFound _ | .keyAlreadyExists _ | .storage _ | .serialization _ => .storage
  | .configuration _ _ => .configuration
  | .unauthorized _ | .notAuthenticated | .tokenExpired | .tokenRevoked
  | .invalidToken _ => .securityBoundary
  | .unsupportedAlgorithm _ | .methodNotSupported _ => .platform

/-- Whether the same call may succeed later. Nothing here retries on its own. -/
def isRetryable : Error → Bool
  | .storage (.unavailable _) | .timeout _ | .cancelled _ | .randomGenerationFailed _ => true
  | _ => false

/-- The wording for the log. -/
def message : Error → String
  | .invalidKeySize algorithm expected actual =>
    "Invalid key size for " ++ algorithm ++ ": expected " ++ toString expected ++ " bytes, got "
      ++ toString actual
  | .invalidIvSize algorithm expected actual =>
    "Invalid IV size for " ++ algorithm ++ ": expected " ++ toString expected ++ " bytes, got "
      ++ toString actual
  | .invalidParameter parameter expected actual =>
    "Invalid parameter: " ++ parameter ++ " - expected " ++ expected ++ " - got " ++ actual
  | .invalidKeyIdentifier identifier reason =>
    "Invalid key identifier '" ++ identifier ++ "': " ++ reason
  | .invalidHashFormat reason => "Invalid encoded hash: " ++ reason
  | .encryptionFailed algorithm cause => "Encryption failed for " ++ algorithm ++ ": " ++ cause
  | .decryptionFailed algorithm => "Decryption failed for " ++ algorithm
  | .hashingFailed algorithm cause => "Hashing failed for " ++ algorithm ++ ": " ++ cause
  | .keyGenerationFailed cause => "Key generation failed: " ++ cause
  | .randomGenerationFailed cause => "Random number generation failed: " ++ cause
  | .authenticationFailed => "Authentication failed"
  | .timeout operation => "Operation timed out: " ++ operation
  | .cancelled operation => "Operation cancelled: " ++ operation
  | .keyNotFound identifier => "Key not found: " ++ identifier
  | .keyAlreadyExists identifier => "Key already exists: " ++ identifier
  | .storage inner => "Secure storage error: " ++ inner.message
  | .serialization text => "Serialization error: " ++ text
  | .configuration setting reason => "Invalid configuration: " ++ setting ++ " - " ++ reason
  | .unauthorized operation => "Unauthorized: " ++ operation
  | .notAuthenticated => "No authenticated session"
  | .tokenExpired => "Token expired beyond the refresh window"
  | .tokenRevoked => "Token has been revoked"
  | .invalidToken reason => "Invalid token: " ++ reason
  | .unsupportedAlgorithm algorithm => "Unsupported algorithm: " ++ algorithm
  | .methodNotSupported method => "Authentication method not supported: " ++ method
  | .internal context cause => "Internal error: " ++ context ++ " - " ++ cause

/-- The wording for the user. -/
def friendlyMessage : Error → String
  | .invalidKeySize algorithm _ _ =>
    "The key supplied for " ++ algorithm ++ " has the wrong length."
  | .invalidIvSize algorithm _ _ =>
    "The initialization vector supplied for " ++ algorithm ++ " has the wrong length."
  | .invalidParameter parameter expected _ =>
    "Invalid parameter '" ++ parameter ++ "'. Expected " ++ expected ++ "."
  | .invalidKeyIdentifier identifier _ => "'" ++ identifier ++ "' is not a valid key identifier."
  | .invalidHashFormat _ => "The stored password hash is malformed and cannot be used."
  | .encryptionFailed _ _ => "Encryption failed. No data was written."
  | .decryptionFailed _ =>
    "Decryption failed. The data may be corrupted, tampered with, or encrypted under a "
      ++ "different key."
  | .hashingFailed _ _ => "Hashing operation failed."
  | .keyGenerationFailed _ => "A new key could not be generated."
  | .randomGenerationFailed _ =>
    "Secure random number generation is unavailable. Cryptographic operations cannot continue."
  | .authenticationFailed => "The identifier or password is incorrect."
  | .timeout operation => "Operation '" ++ operation ++ "' did not complete in time."
  | .cancelled operation => "Operation '" ++ operation ++ "' was cancelled."
  | .keyNotFound identifier => "No key named '" ++ identifier ++ "' exists."
  | .keyAlreadyExists identifier => "A key named '" ++ identifier ++ "' already exists."
  | .storage inner => inner.friendlyMessage
  | .serialization _ => "Data serialization failed. Data format may be corrupted."
  | .configuration setting _ => "Configuration setting '" ++ setting ++ "' is invalid."
  | .unauthorized operation => "You are not authorized to perform '" ++ operation ++ "'."
  | .notAuthenticated => "Please sign in to continue."
  | .tokenExpired => "Your session has expired. Please sign in again."
  | .tokenRevoked => "Your session was ended. Please sign in again."
  | .invalidToken _ => "The session token is invalid."
  | .unsupportedAlgorithm algorithm => "Algorithm '" ++ algorithm ++ "' is not supported."
  | .methodNotSupported method => "Sign-in method '" ++ method ++ "' is not available."
  | .internal _ _ => "An unexpected internal error occurred."

/-- The values of the error that may be shown in diagnostics, by name. -/
def fields : Error → List (String × String)
  | .invalidKeySize algorithm expected actual | .invalidIvSize algorithm expected actual =>
    [("algorithm", algorithm), ("expected", toString expected), ("actual", toString actual)]
  | .invalidParameter parameter expected actual =>
    [("parameter", parameter), ("expected", expected), ("actual", actual)]
  | .invalidKeyIdentifier identifier reason =>
    [("identifier", identifier), ("reason", reason)]
  | .encryptionFailed algorithm _ | .decryptionFailed algorithm | .hashingFailed algorithm _
  | .unsupportedAlgorithm algorithm => [("algorithm", algorithm)]
  | .keyNotFound identifier | .keyAlreadyExists identifier
  | .storage (.notFound identifier) | .storage (.alreadyExists identifier)
  | .storage (.permissionDenied identifier) | .storage (.corrupted identifier _) =>
    [("identifier", identifier)]
  | .storage (.unavailable cause) => [("cause", cause)]
  | .configuration setting reason => [("setting", setting), ("reason", reason)]
  | .timeout operation | .cancelled operation | .unauthorized operation =>
    [("operation", operation)]
  | .methodNotSupported method => [("method", method)]
  | .internal context _ => [("context", context)]
  | .invalidHashFormat _ | .keyGenerationFailed _ | .randomGenerationFailed _
  | .authenticationFailed | .serialization _ | .notAuthenticated | .tokenExpired
  | .tokenRevoked | .invalidToken _ => []

/-- Technical details: code, kind and category of the error, and its `fields`. -/
def details (e : Error) : Table String :=
  Table.ofList <|
    [("error_code", toString e.code), ("error_type", e.kind), ("category", e.category.name)]
      ++ e.fields

/-- What the caller can do about the error. -/
def remediation : Error → Option String
  | .invalidKeySize _ expected _ =>
    some ("Supply a key of exactly " ++ toString expected ++ " bytes for this algorithm.")
  | .invalidIvSize _ expected _ =>
    some ("Supply an IV of exactly " ++ toString expected
      ++ " bytes, or omit it to have one generated.")
  | .randomGenerationFailed _ =>
    some "Check system entropy sources. The operating system CSPRNG must be available."
  | .storage (.unavailable _) => some "Verify that the secure storage backend is reachable."
  | .configuration _ _ => some "Correct the configuration and restart the application."
  | .tokenExpired | .tokenRevoked | .notAuthenticated =>
    some "Authenticate again with valid credentials."
  | .unsupportedAlgorithm _ => some "Use AES-256-GCM, ChaCha20-Poly1305 or AES-256-CBC."
  | _ => none

end Error

/-! ## Computations that may fail -/

/-- A computation that goes on after another has a result only if both have one. -/
theorem exists_of_bind_eq_ok {ε α β : Type} {first : Except ε α} {next : α → Except ε β} {b : β}
    (h : first >>= next = .ok b) : ∃ a, first = .ok a ∧ next a = .ok b := by
  cases first with
  | ok a => exact ⟨a, rfl, h⟩
  | error e => cases h

end Strongbox
