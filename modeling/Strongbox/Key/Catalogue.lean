import Strongbox.Key.Material
import Strongbox.Key.Metadata
/-!
# The key catalogue

The metadata of keys, each record stored under `metadata:` and the key's identifier. Single records
are read and written under their own locks; a listing takes no locks and passes over records that
are deleted while it reads.
-/

namespace Strongbox.Key.Catalogue

/-- How the locations of metadata begin. -/
def locationStart : String := "metadata:"

/-- Where the metadata of a key are stored. -/
def location (identifier : String) : String := locationStart ++ identifier

/-- The lock of a key's metadata. -/
def lock (identifier : String) : Lock := ⟨.metadata, identifier⟩

/-- Stores metadata, in place of any earlier record of the key. -/
def store (m : Metadata) : Action Unit := do
  Action.ofExcept (checkIdentifier m.id)
  Action.withLock (lock m.id) (Action.store (location m.id) m.write)

/-- Reads the record at a key's location, if there is one. -/
def load? (identifier : String) : Action (Option Metadata) := do
  match ← Action.retrieve? (location identifier) with
  | none => pure none
  | some record => return some (← Action.ofExcept (Metadata.read record))

/-- The metadata of a key, if there are any. -/
def get? (identifier : String) : Action (Option Metadata) := do
  Action.ofExcept (checkIdentifier identifier)
  Action.withLock (lock identifier) (load? identifier)

/-- Deletes metadata. Tells whether there were any. -/
def deleteIfPresent (identifier : String) : Action Bool := do
  Action.ofExcept (checkIdentifier identifier)
  Action.withLock (lock identifier) (Action.deleteIfPresent (location identifier))

/-- Deletes metadata, which must be there. -/
def delete (identifier : String) : Action Unit := do
  if ← deleteIfPresent identifier then pure () else Action.fail (.keyNotFound identifier)

/-- The identifiers of all keys with metadata, in order. -/
def identifiers : Action (List String) :=
  return Material.identifiersUnder locationStart (← Action.identifiers)

/-- The metadata of some keys, each by `load?`, without those that are gone. -/
def loadAll : List String → Action (List Metadata)
  | [] => pure []
  | identifier :: rest => do
    match ← load? identifier with
    | none => loadAll rest
    | some m => return m :: (← loadAll rest)

/-- The metadata of all keys, in order of their locations. -/
def all : Action (List Metadata) := do
  loadAll (← identifiers)

end Strongbox.Key.Catalogue
