import Strongbox.Cipher.Cbc
import Strongbox.Cipher.ChaChaPoly
import Strongbox.Cipher.Gcm
import Strongbox.Error
import Strongbox.Text.Blank
/-!
# Encryption algorithms

The three algorithms a key can be made for, with their names and sizes. The chaining mode keeps
keys of sixteen bytes, so its block cipher is AES-128, and it does not authenticate.
-/

namespace Strongbox.Cipher

/-- A symmetric encryption algorithm. -/
inductive Algorithm where
  | aesCbc
  | aesGcm
  | chaChaPoly
  deriving DecidableEq, Repr

namespace Algorithm

/-- Every algorithm. -/
def all : List Algorithm := [.aesCbc, .aesGcm, .chaChaPoly]

/-- The canonical name. -/
def name : Algorithm → String
  | .aesCbc => "AES-256-CBC"
  | .aesGcm => "AES-256-GCM"
  | .chaChaPoly => "ChaCha20-Poly1305"

/-- The length of a key in bytes. -/
def keySize : Algorithm → Nat
  | .aesCbc => 16
  | .aesGcm => 32
  | .chaChaPoly => 32

/-- The length of a key in bits. -/
def keyBits (a : Algorithm) : Nat := 8 * a.keySize

/-- The length of an initialization vector or nonce in bytes. -/
def ivSize : Algorithm → Nat
  | .aesCbc => 16
  | .aesGcm => 12
  | .chaChaPoly => 12

/-- The authenticated cipher behind an algorithm; the chaining mode has none. -/
def aead? : Algorithm → Option Aead
  | .aesCbc => none
  | .aesGcm => some Gcm.cipher
  | .chaChaPoly => some ChaChaPoly.cipher

/-- Whether ciphertext and associated data are authenticated. -/
def isAuthenticated (a : Algorithm) : Bool := a.aead?.isSome

/-- The length of the tag that follows the ciphertext. -/
def tagBytes (a : Algorithm) : Nat := if a.isAuthenticated then tagSize else 0

/-- The algorithm of a name. Blanks around it and the case of letters do not count. -/
def ofName (text : String) : Except Error Algorithm :=
  match all.find? fun a => Text.sameIgnoringCase a.name (Text.trim text) with
  | some a => .ok a
  | none => .error (.unsupportedAlgorithm text)

/-- The algorithm with exactly this name. -/
def ofExactName? (text : String) : Option Algorithm := all.find? fun a => a.name == text

theorem ofExactName?_name (a : Algorithm) : ofExactName? a.name = some a := by
  cases a <;> decide

end Algorithm

end Strongbox.Cipher
