import Strongbox.Cipher.Algorithm
import Strongbox.Program.Action
/-!
# Requests to the ciphers

What encryption hands out is one byte string, a *blob*. For the chaining mode it is always
`iv ++ ciphertext`. For the authenticated algorithms it is `ciphertext ++ tag` when the caller
brought the initialization vector and keeps it, and `iv ++ ciphertext ++ tag` when the vector was
drawn for this message and has to travel with it.

Requests are checked before anything else, in this order: length of the key, length of a given
vector, associated data for the chaining mode (`checkRequest`). Whatever goes wrong in decryption
after that is the one error `decryptionFailed`. A request to encrypt that brings no vector has one
drawn for it once it was checked (`encryptRequest`).

## Main results

* `encrypt_eq`, `encryptFresh_eq`: what encryption gives for a well-formed request.
-/

namespace Strongbox.Cipher

/-- Refuses a request of the wrong shape. -/
def checkRequest (a : Algorithm) (key : Bytes) (iv aad : Option Bytes) : Except Error Unit :=
  if key.length ≠ a.keySize then
    .error (.invalidKeySize a.name a.keySize key.length)
  else
    match iv, aad with
    | some iv, aad =>
      if iv.length ≠ a.ivSize then .error (.invalidIvSize a.name a.ivSize iv.length)
      else checkAssociated a aad
    | none, aad => checkAssociated a aad
where
  /-- Refuses associated data that would not be authenticated. -/
  checkAssociated (a : Algorithm) : Option Bytes → Except Error Unit
    | none => .ok ()
    | some aad =>
      if a.isAuthenticated then .ok ()
      else
        .error (.invalidParameter "aad" ("no associated data for " ++ a.name)
          (toString aad.length ++ " bytes"))

/-- The blob of a plaintext under a vector that the caller keeps. -/
def sealUnder (a : Algorithm) (key iv plaintext : Bytes) (aad : Option Bytes) : Bytes :=
  match a.aead? with
  | none => iv ++ Cbc.encrypt key iv plaintext
  | some cipher => cipher.sealed key iv (aad.getD []) plaintext

/-- The blob of a plaintext under a vector that has to travel with it. -/
def sealCarrying (a : Algorithm) (key iv plaintext : Bytes) (aad : Option Bytes) : Bytes :=
  match a.aead? with
  | none => sealUnder a key iv plaintext aad
  | some _ => iv ++ sealUnder a key iv plaintext aad

/-- Encrypts under a vector of the caller's. -/
def encrypt (a : Algorithm) (key iv plaintext : Bytes) (aad : Option Bytes) :
    Except Error Bytes :=
  (checkRequest a key (some iv) aad).map fun _ => sealUnder a key iv plaintext aad

/-- Encrypts under a vector that was drawn for this message. -/
def encryptFresh (a : Algorithm) (key iv plaintext : Bytes) (aad : Option Bytes) :
    Except Error Bytes :=
  (checkRequest a key none aad).map fun _ => sealCarrying a key iv plaintext aad

/-- Encrypts under a given vector, or under one that is drawn. -/
def encryptRequest (a : Algorithm) (key : Bytes) (iv : Option Bytes) (plaintext : Bytes)
    (aad : Option Bytes) : Action Bytes :=
  match iv with
  | some iv => Action.ofExcept (encrypt a key iv plaintext aad)
  | none => do
    Action.ofExcept (checkRequest a key none aad)
    let vector ← Action.draw .system a.ivSize
    Action.ofExcept (encryptFresh a key vector plaintext aad)

/-- The plaintext of a blob of the chaining mode. A given vector must be the one in front. -/
def openChained? (key : Bytes) (iv : Option Bytes) (blob : Bytes) : Option Bytes :=
  if blob.length < 32 ∨ (blob.length - 16) % 16 ≠ 0 then none
  else if iv.any (· != blob.take 16) then none
  else Cbc.decrypt? key (blob.take 16) (blob.drop 16)

/-- The plaintext of a blob of an authenticated algorithm with vectors of `size` bytes. Without a
given vector it is read from the front. -/
def openSealed? (cipher : Aead) (size : Nat) (key : Bytes) (iv : Option Bytes)
    (aad blob : Bytes) : Option Bytes :=
  match iv with
  | some iv => cipher.open? key iv aad blob
  | none =>
    if blob.length < size then none
    else cipher.open? key (blob.take size) aad (blob.drop size)

/-- The plaintext of a blob, for a request of the right shape. -/
def openBlob? (a : Algorithm) (key : Bytes) (iv : Option Bytes) (blob : Bytes)
    (aad : Option Bytes) : Option Bytes :=
  match a.aead? with
  | none => openChained? key iv blob
  | some cipher => openSealed? cipher a.ivSize key iv (aad.getD []) blob

/-- Decrypts a blob. -/
def decrypt (a : Algorithm) (key : Bytes) (iv : Option Bytes) (blob : Bytes)
    (aad : Option Bytes) : Except Error Bytes :=
  match checkRequest a key iv aad with
  | .error e => .error e
  | .ok _ =>
    match openBlob? a key iv blob aad with
    | some plaintext => .ok plaintext
    | none => .error (.decryptionFailed a.name)

theorem encrypt_eq {a : Algorithm} {key iv : Bytes} {aad : Option Bytes}
    (h : checkRequest a key (some iv) aad = .ok ()) (plaintext : Bytes) :
    encrypt a key iv plaintext aad = .ok (sealUnder a key iv plaintext aad) := by
  rw [encrypt, h]; rfl

theorem encryptFresh_eq {a : Algorithm} {key : Bytes} {aad : Option Bytes}
    (h : checkRequest a key none aad = .ok ()) (iv plaintext : Bytes) :
    encryptFresh a key iv plaintext aad = .ok (sealCarrying a key iv plaintext aad) := by
  rw [encryptFresh, h]; rfl

end Strongbox.Cipher
