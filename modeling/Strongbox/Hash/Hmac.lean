import Strongbox.Hash.Sha256
/-!
# HMAC-SHA-256

The message authentication code of RFC 2104 over SHA-256. A key is prepared once into the two
states that stand after the inner and the outer key block; a code then costs only the message and
one more block.

## Main results

* `Key.length_code`: a code has 32 bytes.
-/

namespace Strongbox.Hash.Hmac

/-- A key, as the states of the inner and the outer hash after its block. -/
structure Key where
  /-- The state after the key block that starts the inner hash. -/
  inner : Sha256.State
  /-- The state after the key block that starts the outer hash. -/
  outer : Sha256.State
  deriving DecidableEq

/-- The key block: a key of more than 64 bytes is hashed first, and zeros fill it up. -/
def keyBlock (key : Bytes) : Bytes :=
  let short := if key.length ≤ 64 then key else Sha256.digest key
  short ++ List.replicate (64 - short.length) 0

/-- Prepares a key. -/
def Key.ofBytes (key : Bytes) : Key where
  inner := Sha256.compress .initial ((keyBlock key).map (· ^^^ 0x36))
  outer := Sha256.compress .initial ((keyBlock key).map (· ^^^ 0x5c))

/-- The code of a message under a prepared key. -/
def Key.code (key : Key) (message : Bytes) : Bytes :=
  Sha256.finishFrom key.outer 64 (Sha256.finishFrom key.inner 64 message)

/-- The code of a message. -/
def code (key message : Bytes) : Bytes := (Key.ofBytes key).code message

theorem Key.length_code (key : Key) (message : Bytes) : (key.code message).length = 32 :=
  Sha256.length_finishFrom _ _ _

end Strongbox.Hash.Hmac
