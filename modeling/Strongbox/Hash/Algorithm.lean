import Strongbox.Error
import Strongbox.Hash.Sha256
import Strongbox.Hash.Sha512
import Strongbox.Text.Blank
import Strongbox.Text.Hex
/-!
# Hash algorithms

The two digests that are offered by name, and the short fingerprint that logs show in place of a
secret.
-/

namespace Strongbox.Hash

/-- A hash algorithm that is offered by name. -/
inductive Algorithm where
  | sha256
  | sha512
  deriving DecidableEq, Repr

namespace Algorithm

/-- The canonical name. -/
def name : Algorithm → String
  | .sha256 => "SHA-256"
  | .sha512 => "SHA-512"

/-- The length of a digest in bytes. -/
def size : Algorithm → Nat
  | .sha256 => 32
  | .sha512 => 64

/-- The digest of a message. -/
def digest : Algorithm → Bytes → Bytes
  | .sha256 => Sha256.digest
  | .sha512 => Sha512.digest

/-- The algorithm of a name, with or without its hyphen. Blanks around it and the case of letters
do not count. -/
def ofName (text : String) : Except Error Algorithm :=
  let given := Text.trim text
  if ["SHA-256", "SHA256"].any (Text.sameIgnoringCase · given) then .ok .sha256
  else if ["SHA-512", "SHA512"].any (Text.sameIgnoringCase · given) then .ok .sha512
  else .error (.unsupportedAlgorithm text)

theorem length_digest (a : Algorithm) (message : Bytes) : (a.digest message).length = a.size := by
  cases a
  · exact Sha256.length_digest message
  · exact Sha512.length_digest message

end Algorithm

/-- The hexadecimal SHA-256 digest of a message. -/
def hexDigest (message : Bytes) : String := Text.Hex.encode (Sha256.digest message)

/-- Eight hexadecimal digits that identify a secret in logs without giving it away. -/
def fingerprint (secret : Bytes) : String := Text.Hex.encode ((Sha256.digest secret).take 4)

end Strongbox.Hash
