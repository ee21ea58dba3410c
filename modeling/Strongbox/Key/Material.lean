import Strongbox.Key.Identifier
import Strongbox.Program.Action
/-!
# Key material

The keys themselves, each stored under `key:` and its identifier. Operations on one key exclude each
other by the key's lock; the identifier and the material are checked before it is taken.
-/

namespace Strongbox.Key.Material

/-- How the locations of keys begin. -/
def locationStart : String := "key:"

/-- Where a key is stored. -/
def location (identifier : String) : String := locationStart ++ identifier

/-- The lock of a key. -/
def lock (identifier : String) : Lock := ⟨.key, identifier⟩

/-- Refuses empty material. -/
def checkMaterial (key : Bytes) : Except Error Unit :=
  if key = [] then
    .error (.invalidParameter "key" "non-empty key material" "0 bytes")
  else .ok ()

/-- Stores a key, in place of any earlier one. -/
def store (identifier : String) (key : Bytes) : Action Unit := do
  Action.ofExcept (checkIdentifier identifier)
  Action.ofExcept (checkMaterial key)
  Action.withLock (lock identifier) (Action.store (location identifier) key)

/-- Stores a key under an identifier that has none yet. -/
def create (identifier : String) (key : Bytes) : Action Unit := do
  Action.ofExcept (checkIdentifier identifier)
  Action.ofExcept (checkMaterial key)
  Action.withLock (lock identifier) do
    if ← Action.contains (location identifier) then
      Action.fail (.keyAlreadyExists identifier)
    else Action.store (location identifier) key

/-- The key under an identifier, if there is one. -/
def get? (identifier : String) : Action (Option Bytes) := do
  Action.ofExcept (checkIdentifier identifier)
  Action.withLock (lock identifier) (Action.retrieve? (location identifier))

/-- Deletes a key. Tells whether there was one. -/
def deleteIfPresent (identifier : String) : Action Bool := do
  Action.ofExcept (checkIdentifier identifier)
  Action.withLock (lock identifier) (Action.deleteIfPresent (location identifier))

/-- Deletes a key, which must be there. -/
def delete (identifier : String) : Action Unit := do
  if ← deleteIfPresent identifier then pure () else Action.fail (.keyNotFound identifier)

/-- Whether there is a key under an identifier. -/
def contains (identifier : String) : Action Bool := do
  Action.ofExcept (checkIdentifier identifier)
  Action.withLock (lock identifier) (Action.contains (location identifier))

/-- The identifiers in a listing whose locations begin with `start`, in order. -/
def identifiersUnder (start : String) (locations : List String) : List String :=
  (locations.filterMap fun location =>
    if start.toList.isPrefixOf location.toList then
      some (String.ofList (location.toList.drop start.length))
    else none).mergeSort (· ≤ ·)

/-- The identifiers of all keys, in order. -/
def identifiers : Action (List String) :=
  return identifiersUnder locationStart (← Action.identifiers)

end Strongbox.Key.Material
