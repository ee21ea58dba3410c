import Strongbox.Bytes
import Strongbox.Error
import Strongbox.Text.Hex
/-!
# Secrets

A secret is a byte string that diagnostics show only by its length. Bytes that callers pass as
hexadecimal text are read here too.
-/

namespace Strongbox

/-- A byte string that is not to be shown. -/
structure Secret where
  bytes : Bytes
  deriving DecidableEq

namespace Secret

/-- The length in bytes. -/
def size (s : Secret) : Nat := s.bytes.length

/-- The length in bits. -/
def bits (s : Secret) : Nat := 8 * s.size

/-- Whether there are no bytes. -/
def isEmpty (s : Secret) : Bool := s.bytes.isEmpty

/-- The secret of `size` zeros. -/
def zeroed (size : Nat) : Secret := ⟨List.replicate size 0⟩

/-- The secret after `bytes` were written over its front. -/
def fill (s : Secret) (bytes : Bytes) : Secret :=
  ⟨bytes.take s.size ++ s.bytes.drop bytes.length⟩

/-- The secret for diagnosis. -/
def summary (s : Secret) : String :=
  "SecureBytes([REDACTED; " ++ toString s.size ++ " bytes])"

end Secret

/-- The bytes of a hexadecimal argument. -/
def Bytes.ofHex (text : String) : Except Error Bytes :=
  match Text.Hex.decode text with
  | .ok bytes => .ok bytes
  | .error refusal =>
    .error (.invalidParameter "hex" "an even-length hexadecimal string" refusal.message)

end Strongbox
