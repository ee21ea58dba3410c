import Strongbox.Cipher.Request
import Strongbox.Key.Pair
import Strongbox.Text.Hex
/-!
# Managing keys

Keys are generated under a first version or a unique identifier, or imported; they are deleted with
their metadata; and data are encrypted and decrypted under them by the algorithm that the metadata
name. The vector of an encryption is drawn for it and travels with the blob.
-/

namespace Strongbox.Key.Manager

/-- Generates a key under an identifier. -/
def generateAs (identifier purpose : String) (algorithm : Cipher.Algorithm)
    (attributes : Table String) : Action String := do
  Action.ofExcept (checkIdentifier identifier)
  let key ← Action.draw .keys algorithm.keySize
  let createdAt ← Action.now
  Pair.create key (Metadata.ofKey identifier algorithm purpose createdAt attributes)
  pure identifier

/-- Generates the first version of a key for `purpose`. -/
def generate (purpose : String) (algorithm : Cipher.Algorithm) (attributes : Table String) :
    Action String :=
  generateAs (VersionedId.text ⟨purpose, 1⟩) purpose algorithm attributes

/-- Generates a key for `purpose` under a unique identifier. -/
def generateUnique (purpose : String) (algorithm : Cipher.Algorithm)
    (attributes : Table String) : Action String := do
  let unique ← Action.draw .system 16
  generateAs (purpose ++ "_" ++ Text.unique unique) purpose algorithm attributes

/-- Refuses a key whose length is not that of its algorithm or not the one its metadata give. -/
def checkImport (key : Bytes) (m : Metadata) : Except Error Unit :=
  if key.length ≠ m.algorithm.keySize then
    .error (.invalidKeySize m.algorithm.name m.algorithm.keySize key.length)
  else if m.sizeBits.toNat ≠ 8 * key.length then
    .error (.invalidParameter "key_size_bits" (toString (8 * key.length))
      (toString m.sizeBits.toNat))
  else .ok ()

/-- Stores an existing key with its metadata. -/
def importKey (key : Bytes) (m : Metadata) : Action Unit := do
  Action.ofExcept (checkImport key m)
  Pair.create key m

/-- Encrypts under a key. -/
def encrypt (identifier : String) (plaintext : Bytes) (aad : Option Bytes) : Action Bytes := do
  let (key, m) ← Pair.load identifier
  Cipher.encryptRequest m.algorithm key none plaintext aad

/-- Decrypts a blob under a key. -/
def decrypt (identifier : String) (blob : Bytes) (aad : Option Bytes) : Action Bytes := do
  let (key, m) ← Pair.load identifier
  Action.ofExcept (Cipher.decrypt m.algorithm key none blob aad)

end Strongbox.Key.Manager
