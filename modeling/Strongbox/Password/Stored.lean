import Strongbox.Password.Policy
import Strongbox.Text.Base64
/-!
# Stored password hashes

A stored password hash is a text of fields that are introduced by `$`:

```text
$argon2id$v=19$m=<KiB>$t=<passes>$p=<lanes>$<salt>$<digest>
$pbkdf2-sha256$i=<iterations>$<salt>$<digest>
```

with salt and digest in standard base64 without padding. Reading is strict: numbers have no
leading zeros and lie within the limits of the password policy, and base64 must be spelled as it
would be written. A text that is read is therefore the written form of what it denotes.
-/

namespace Strongbox.Password

/-- The version of Argon2 that hashes are made with. -/
def argon2Version : Nat := 19

/-- The shortest salt of a stored hash. -/
def minStoredSaltLength : Nat := 8

/-- A password hash with everything that is needed to `verify` a password against it. -/
structure Stored where
  kdf : Kdf
  salt : Bytes
  digest : Bytes
  deriving DecidableEq, Repr

namespace Stored

/-! ## Writing -/

/-- A parameter field: its letter `name`, an equals sign and the number. -/
def numberField (name : Char) (n : Nat) : List Char := name :: '=' :: Nat.toDigits 10 n

/-- A bytes field. -/
def bytesField (bytes : Bytes) : List Char := Text.Base64.encodeChars Text.Base64.standard bytes

/-- The fields that name the derivation and its costs. The empty one stands before the first
`$`. -/
def costFields (h : Stored) : List (List Char) :=
  [] :: h.kdf.method.name.toList ::
    match h.kdf with
    | .argon2id costs =>
      [numberField 'v' argon2Version, numberField 'm' costs.memory.toNat,
        numberField 't' costs.passes.toNat, numberField 'p' costs.lanes.toNat]
    | .pbkdf2 iterations => [numberField 'i' iterations.toNat]

/-- Every field. -/
def fields (h : Stored) : List (List Char) :=
  h.costFields ++ [bytesField h.salt, bytesField h.digest]

/-- The written form: its `fields` between dollar signs. -/
def render (h : Stored) : String := String.ofList (['$'].intercalate h.fields)

/-- The written form up to the salt. -/
def costText (h : Stored) : String := String.ofList (['$'].intercalate h.costFields)

/-! ## Reading -/

/-- Refuses a text. -/
def malformed {α : Type} (reason : String) : Except Error α := .error (.invalidHashFormat reason)

/-- Whether `digits` are written without a needless zero in front. -/
def isCanonical (digits : List Char) : Bool :=
  !digits.isEmpty && digits.all Char.isDigit
    && !(decide (1 < digits.length) && digits.head? == some '0')

/-- The positive number of the field for parameter `name`, up to `limit`. -/
def readNumber (name : Char) (limit : Nat) (field : List Char) : Except Error Nat :=
  let parameter := "parameter '" ++ String.singleton name ++ "'"
  match field with
  | a :: '=' :: digits =>
    if a ≠ name then malformed ("expected " ++ parameter)
    else if !isCanonical digits then malformed (parameter ++ " is not a canonical number")
    else
      let n := Nat.ofDigitChars 10 digits 0
      if n = 0 then malformed (parameter ++ " must be positive")
      else if limit < n then malformed (parameter ++ " out of range")
      else .ok n
  | _ => malformed ("expected " ++ parameter)

/-- The bytes of a field, which must be spelled as they would be written. -/
def readBytes (name : String) (field : List Char) : Except Error Bytes :=
  match Text.Base64.decodeChars Text.Base64.standard field with
  | none => malformed (name ++ " is not valid base64")
  | some bytes =>
    if bytesField bytes ≠ field then malformed (name ++ " is not canonical base64")
    else .ok bytes

/-- Reads the fields of `salt` and `digest`. -/
def readSecret (kdf : Kdf) (salt digest : List Char) : Except Error Stored := do
  let salt ← readBytes "salt" salt
  let digest ← readBytes "digest" digest
  if salt.length < minStoredSaltLength then malformed "salt too short"
  else if digest.length < minDigestLength ∨ maxDigestLength < digest.length then
    malformed "digest length out of range"
  else .ok ⟨kdf, salt, digest⟩

/-- Reads the fields that follow the name of a `method`. -/
def readFields (method : Method) (fields : List (List Char)) : Except Error Stored :=
  match method with
  | .argon2id =>
    match fields with
    | [version, memory, passes, lanes, salt, digest] => do
      let version ← readNumber 'v' 0xFFFFFFFF version
      if version ≠ argon2Version then malformed "unsupported argon2 version"
      else do
        let memory ← readNumber 'm' maxMemory memory
        let passes ← readNumber 't' maxPasses passes
        let lanes ← readNumber 'p' maxLanes lanes
        readSecret (.argon2id ⟨.ofNat memory, .ofNat passes, .ofNat lanes⟩) salt digest
    | _ => malformed "argon2id hashes have exactly 7 fields"
  | .pbkdf2 =>
    match fields with
    | [iterations, salt, digest] => do
      let iterations ← readNumber 'i' maxIterations iterations
      readSecret (.pbkdf2 (.ofNat iterations)) salt digest
    | _ => malformed "pbkdf2-sha256 hashes have exactly 4 fields"

/-- Reads a stored hash from its written form, see `render`. -/
def parse (text : String) : Except Error Stored :=
  match text.toList.splitOn '$' with
  | [] :: name :: fields =>
    match Method.ofName? (String.ofList name) with
    | some method => readFields method fields
    | none => malformed "unknown algorithm tag"
  | _ => malformed "must start with '$'"

/-! ## Diagnostics -/

/-- The derivation and its costs, for diagnosis. -/
def kdfText : Kdf → String
  | .argon2id costs =>
    "Argon2id(Argon2Params \x7b memory_cost_kib: " ++ toString costs.memory.toNat
      ++ ", time_cost: " ++ toString costs.passes.toNat
      ++ ", parallelism: " ++ toString costs.lanes.toNat ++ " \x7d)"
  | .pbkdf2 iterations =>
    "Pbkdf2Sha256 \x7b iterations: " ++ toString iterations.toNat ++ " \x7d"

/-- The hash for diagnosis: its costs and the lengths of salt and digest. -/
def summary (h : Stored) : String :=
  "EncodedHash \x7b params: " ++ kdfText h.kdf ++ ", salt_len: " ++ toString h.salt.length
    ++ ", digest_len: " ++ toString h.digest.length ++ " \x7d"

/-! ## Verification -/

/-- Whether `password` has this hash. -/
def verify (h : Stored) (password : String) : Except Error Bool :=
  (h.kdf.derive password h.salt h.digest.length).map (· == h.digest)

/-- Whether the hash was made under other settings than those of `policy`. A longer salt is no
reason. -/
def isOutdated (h : Stored) (policy : Policy) : Bool :=
  h.kdf != policy.kdf || h.digest.length != policy.digestLength.toNat
    || h.salt.length < policy.saltLength.toNat

end Stored

/-- Refuses to hash an empty password. -/
def checkPassword (password : String) : Except Error Unit :=
  if password.isEmpty then
    .error (.invalidParameter "password" "a non-empty password" "empty")
  else .ok ()

/-- The hash of a password under `policy` and `salt`. -/
def hashWith (policy : Policy) (password : String) (salt : Bytes) : Except Error Stored := do
  checkPassword password
  let digest ← policy.kdf.derive password salt policy.digestLength.toNat
  .ok ⟨policy.kdf, salt, digest⟩

end Strongbox.Password
