import Strongbox.Key.Pair
import Strongbox.Rotation.Schedule
import Strongbox.Text.Hex
/-!
# Rotating keys

A rotation makes a new key of the same length, algorithm, purpose and attributes, which remembers
the key it replaces, and leaves the old one in place for what was encrypted under it.

The new key of a versioned one has the version after the highest that is stored; rotations of one
base exclude each other, so no version is given twice. Any key can also be rotated to a unique
identifier that begins with its purpose.
-/

namespace Strongbox.Rotation

open Key (Metadata VersionedId)

/-- The lock of the rotations of `base`. -/
def lock (base : String) : Lock := ⟨.rotation, base⟩

/-- The stored versions of a base, among the identifiers of keys. -/
def versionsOf (base : String) (identifiers : List String) : List VersionedId :=
  (identifiers.filterMap VersionedId.parse?).filter fun id => id.base == base

/-- The stored versions of `base`. -/
def storedVersions (base : String) : Action (List VersionedId) :=
  return versionsOf base (← Key.Material.identifiers)

/-- The highest of the version `current` and some others. -/
def latest (current : UInt32) (others : List VersionedId) : UInt32 :=
  others.foldl (fun v id => max v id.version) current

/-- The metadata of the key that replaces `old`. -/
def successor (old : Metadata) (id : String) (createdAt : Time.Instant) : Metadata :=
  { old with
    id
    createdAt
    attributes := old.attributes.insert Metadata.rotatedFromAttribute old.id }

/-- Makes the key that replaces `old`, with the metadata of its `successor`. -/
def mint (oldKey : Bytes) (old : Metadata) (id : String) : Action Unit := do
  let key ← Action.draw .keys oldKey.length
  let createdAt ← Action.now
  Key.Pair.create key (successor old id createdAt)

/-- Rotates a versioned key. -/
def rotate (identifier : String) : Action String := do
  let (oldKey, old) ← Key.Pair.load identifier
  let current ← Action.ofExcept (VersionedId.parse identifier)
  Action.withLock (lock current.base) do
    let stored ← storedVersions current.base
    let next ← Action.ofExcept (VersionedId.next ⟨current.base, latest current.version stored⟩)
    Action.ofExcept (Key.checkIdentifier next.text)
    mint oldKey old next.text
    pure next.text

/-- The longest purpose that stands in front of a unique identifier. -/
def maxTagLength : Nat := 100

/-- A purpose as the front of an identifier: colons and control characters become hyphens, and it
is cut after 100 characters. -/
def tagOf (purpose : String) : String :=
  String.ofList <| (purpose.toList.map fun c =>
    if c = ':' || Text.isControl c then '-' else c).take maxTagLength

/-- Rotates a key to a unique identifier, with the purpose's `tagOf` in front. -/
def rotateUnique (identifier : String) : Action String := do
  let (oldKey, old) ← Key.Pair.load identifier
  let unique ← Action.draw .system 16
  let id := tagOf old.purpose ++ "_" ++ Text.unique unique
  Action.ofExcept (Key.checkIdentifier id)
  mint oldKey old id
  pure id

/-! ## Questions -/

/-- The metadata of a key, which must be there. -/
def metadataOf (identifier : String) : Action Metadata := do
  match ← Key.Catalogue.get? identifier with
  | some m => pure m
  | none => Action.fail (.keyNotFound identifier)

/-- Whether a key is due, by `isDue`. -/
def shouldRotate (policy : Policy) (identifier : String) : Action Bool := do
  let m ← metadataOf identifier
  return isDue policy m (← Action.now)

/-- The days until a key is due; none once it is. -/
def timeUntil (policy : Policy) (identifier : String) : Action (Option Nat) := do
  let m ← metadataOf identifier
  Action.ofOutcome (daysRemaining policy m (← Action.now))

/-- The keys that are due. -/
def due (policy : Policy) : Action (List String) := do
  let all ← Key.Catalogue.all
  return dueKeys policy all (← Action.now)

/-- The age and the rotation of a key, by `summarize`. -/
def summary (policy : Policy) (identifier : String) : Action Summary := do
  let m ← metadataOf identifier
  Action.ofOutcome (summarize policy m (← Action.now))

/-- The age and the rotation of every key. -/
def summaries (policy : Policy) : Action (List Summary) := do
  let now ← Action.now
  let all ← Key.Catalogue.all
  Action.ofOutcome (all.mapM fun m => summarize policy m now)

/-- The stored versions of a base, lowest first. -/
def versions (base : String) : Action (List String) := do
  let stored ← storedVersions base
  return (stored.mergeSort fun a b => a.version ≤ b.version).map (·.text)

end Strongbox.Rotation
