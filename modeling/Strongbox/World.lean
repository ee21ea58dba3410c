import Strongbox.Program.Basic
import Strongbox.Storage.Memory
import Strongbox.Storage.Vault
/-!
# Worlds

A world answers the requests of programs: it has a storage, a clock that stands at an instant,
random sources and, for the keys, a number of draws that are yet to fail. Locks are granted at once,
as is right for a program that runs alone.

Randomness is a tape that is read from front to back; the tape is whatever the surroundings supply.
-/

namespace Strongbox

open Time (Instant)

/-- A random tape and how far it has been read. -/
structure Entropy where
  /-- The byte at each place of the tape. -/
  tape : Nat → UInt8
  place : Nat

namespace Entropy

/-- The next `size` bytes of the tape. -/
def draw (e : Entropy) (size : Nat) : Bytes.Sized size × Entropy :=
  (⟨(List.range size).map fun i => e.tape (e.place + i), by simp⟩,
    { e with place := e.place + size })

end Entropy

/-- A storage. -/
inductive Storage where
  | memory (data : Storage.Memory)
  | vault (vault : Storage.Vault)
  | failing (storage : Storage.Failing)

/-- What programs act on. -/
structure World where
  storage : Storage
  clock : Instant
  entropy : Entropy
  /-- How many draws of key material are yet to fail. -/
  failingDraws : Nat

namespace World

/-- Stores data. -/
def store (w : World) (identifier : String) (data : Bytes) : Except StorageError Unit × World :=
  match w.storage with
  | .memory m => (.ok (), { w with storage := .memory (m.insert identifier data) })
  | .failing s =>
    let (answer, s) := s.guarded .store identifier fun m => (.ok (), m.insert identifier data)
    (answer, { w with storage := .failing s })
  | .vault v =>
    let (vector, entropy) := w.entropy.draw Storage.Vault.vectorSize
    match v.store identifier data vector with
    | .ok v => (.ok (), { w with storage := .vault v, entropy })
    | .error e => (.error e, { w with entropy })

/-- The data under an identifier. -/
def retrieve (w : World) (identifier : String) : Except StorageError Bytes × World :=
  match w.storage with
  | .memory m => (m.retrieve identifier, w)
  | .vault v => (v.retrieve identifier, w)
  | .failing s =>
    let (answer, s) := s.guarded .retrieve identifier fun m => (m.retrieve identifier, m)
    (answer, { w with storage := .failing s })

/-- The outcome of a deletion in memory. -/
def deleteFrom (identifier : String) (m : Storage.Memory) :
    Except StorageError Unit × Storage.Memory :=
  match m.delete identifier with
  | .ok m => (.ok (), m)
  | .error e => (.error e, m)

/-- Deletes the data under an identifier. -/
def delete (w : World) (identifier : String) : Except StorageError Unit × World :=
  match w.storage with
  | .memory m =>
    let (answer, m) := deleteFrom identifier m
    (answer, { w with storage := .memory m })
  | .vault v =>
    match v.delete identifier with
    | .ok v => (.ok (), { w with storage := .vault v })
    | .error e => (.error e, w)
  | .failing s =>
    let (answer, s) := s.guarded .delete identifier (deleteFrom identifier)
    (answer, { w with storage := .failing s })

/-- Whether there is data under an identifier. -/
def contains (w : World) (identifier : String) : Except StorageError Bool × World :=
  match w.storage with
  | .memory m => (.ok (m.contains identifier), w)
  | .vault v => (.ok (v.contains identifier), w)
  | .failing _ =>
    match w.retrieve identifier with
    | (.ok _, w) => (.ok true, w)
    | (.error e, w) => (if e.isNotFound then .ok false else .error e, w)

/-- Every identifier there is data under. -/
def list (w : World) : Except StorageError (List String) × World :=
  match w.storage with
  | .memory m => (.ok m.keys, w)
  | .vault v => (v.identifiers, w)
  | .failing s =>
    let (answer, s) := s.guarded .list "" fun m => (.ok m.keys, m)
    (answer, { w with storage := .failing s })

/-- Draws random bytes. A draw of key material fails as long as there are `failingDraws`. -/
def draw (w : World) (source : RandomSource) (size : Nat) :
    Except Error (Bytes.Sized size) × World :=
  if source = .keys ∧ 0 < w.failingDraws then
    (.error (.randomGenerationFailed "entropy source closed"),
      { w with failingDraws := w.failingDraws - 1 })
  else
    let (bytes, entropy) := w.entropy.draw size
    (.ok bytes, { w with entropy })

/-- Answers a request. -/
def answer : Program.Handler World
  | .store identifier data, w => w.store identifier data
  | .retrieve identifier, w => w.retrieve identifier
  | .delete identifier, w => w.delete identifier
  | .contains identifier, w => w.contains identifier
  | .list, w => w.list
  | .now, w => (w.clock, w)
  | .draw source size, w => w.draw source size
  | .acquire _, w => ((), w)
  | .release _, w => ((), w)

/-- The identifiers in storage, whatever rules there are. -/
def identifiers (w : World) : Except StorageError (List String) :=
  match w.storage with
  | .memory m => .ok m.keys
  | .vault v => v.identifiers
  | .failing s => .ok s.memory.keys

end World

end Strongbox
