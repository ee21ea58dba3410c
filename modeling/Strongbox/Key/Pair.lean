import Strongbox.Key.Catalogue
/-!
# Keys with their metadata

A key and its metadata are made together, read together and deleted together. Whoever does so holds
the pair's lock, and takes the locks of key and metadata only inside it.

If the metadata of a new key cannot be written, the key is removed again.
-/

namespace Strongbox.Key.Pair

/-- The lock of a key with its metadata. -/
def lock (identifier : String) : Lock := ⟨.pair, identifier⟩

/-- Writes a new key and its metadata. An identifier that has a key is refused. -/
def create (key : Bytes) (m : Metadata) : Action Unit :=
  Action.withLock (lock m.id) do
    Material.create m.id key
    match ← Action.attempt (Catalogue.store m) with
    | .ok _ => pure ()
    | .error halt =>
      let _ ← Action.attempt (Material.delete m.id)
      Action.ofOutcome (.error halt)

/-- A key and its metadata. Both must be there. -/
def load (identifier : String) : Action (Bytes × Metadata) := do
  Action.ofExcept (checkIdentifier identifier)
  Action.withLock (lock identifier) do
    match ← Material.get? identifier with
    | none => Action.fail (.keyNotFound identifier)
    | some key =>
      match ← Catalogue.get? identifier with
      | none => Action.fail (.keyNotFound identifier)
      | some m => pure (key, m)

/-- Deletes a key and its metadata. One of them must be there. -/
def delete (identifier : String) : Action Unit := do
  Action.ofExcept (checkIdentifier identifier)
  Action.withLock (lock identifier) do
    let hadKey ← Material.deleteIfPresent identifier
    let hadMetadata ← Catalogue.deleteIfPresent identifier
    if hadKey || hadMetadata then pure () else Action.fail (.keyNotFound identifier)

end Strongbox.Key.Pair
