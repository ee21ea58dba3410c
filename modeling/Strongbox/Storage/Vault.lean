import Strongbox.Cipher.Request
import Strongbox.Storage.Location
import Strongbox.Table
/-!
# Storage in sealed files

A vault keeps each entry in a file of its own, named by the digest of the identifier and sealed
under the vault's master key. The sealed content is the identifier, preceded by its length, and the
data; the file's name is authenticated with it. A file that was copied over another, renamed or
altered therefore does not open, and what a file says of itself is true or not read.

The folder itself can be missing, and a file's place can be taken by a folder; both are seen as the
errors that a file system gives.
-/

namespace Strongbox.Storage

/-- What stands at a name in a folder. -/
inductive Entry where
  | file (content : Bytes)
  | folder
  deriving DecidableEq

/-- What stands at a path that a vault is to be opened at. -/
inductive Place where
  | nothing
  | file
  | folder (entries : Table Entry)

/-- A storage in sealed files. -/
structure Vault where
  path : String
  /-- The entries of the folder; `none` if there is no folder. -/
  entries : Option (Table Entry)
  masterKey : Bytes
  length_masterKey : masterKey.length = Cipher.Algorithm.aesGcm.keySize

namespace Vault

/-- The length of the vector that each file is sealed under. -/
def vectorSize : Nat := Cipher.Algorithm.aesGcm.ivSize

/-- What a file system says to a file operation on a folder. -/
def isFolder : StorageError := .unavailable "Is a directory (os error 21)"

/-- What a file system says to a folder operation on a file. -/
def isFile : StorageError := .unavailable "File exists (os error 17)"

/-! ## Contents -/

/-- The content of an entry before `sealEntry` seals it. -/
def payload (identifier : String) (data : Bytes) : Bytes :=
  let name := Bytes.ofText identifier
  Bytes.bigEndian 4 name.length ++ name ++ data

/-- The identifier and the data of a `payload`. -/
def readPayload? (payload : Bytes) : Option (String × Bytes) :=
  let size := Bytes.natOfBigEndian (payload.take 4)
  let rest := payload.drop 4
  if payload.length < 4 ∨ rest.length < size then none
  else (Bytes.toText? (rest.take size)).map fun identifier => (identifier, rest.drop size)

/-- The sealed content of an entry, its `payload` under a vector drawn for it. -/
def sealEntry (v : Vault) (identifier : String) (data vector : Bytes) : Bytes :=
  Cipher.sealCarrying .aesGcm v.masterKey vector (payload identifier data)
    (some (Bytes.ofText (stem identifier)))

/-- The identifier and the data of a sealed content that stands under `digest`. -/
def openEntry? (v : Vault) (digest : String) (content : Bytes) : Option (String × Bytes) := do
  let plain ← (Cipher.decrypt .aesGcm v.masterKey none content
    (some (Bytes.ofText digest))).toOption
  let (identifier, data) ← readPayload? plain
  if stem identifier = digest then some (identifier, data) else none

/-! ## Operations -/

/-- Opens a vault at a path. A folder that is missing is made. -/
def openAt (path : String) (place : Place) (masterKey : Bytes) : Except Error Vault :=
  if h : masterKey.length = Cipher.Algorithm.aesGcm.keySize then
    match place with
    | .nothing => .ok ⟨path, some Table.empty, masterKey, h⟩
    | .folder entries => .ok ⟨path, some entries, masterKey, h⟩
    | .file => .error (.storage isFile)
  else
    .error (.invalidKeySize Cipher.Algorithm.aesGcm.name Cipher.Algorithm.aesGcm.keySize
      masterKey.length)

/-- Opens a vault again at the same path, by `openAt`. -/
def reopen (v : Vault) (masterKey : Bytes) : Except Error Vault :=
  openAt v.path (match v.entries with | some entries => .folder entries | none => .nothing)
    masterKey

/-- What stands in an identifier's place. -/
def entry? (v : Vault) (identifier : String) : Option Entry :=
  v.entries.bind (·.get? (fileName identifier))

/-- The vault with an entry for an identifier, sealed under a vector drawn for it. -/
def store (v : Vault) (identifier : String) (data vector : Bytes) : Except StorageError Vault :=
  if UInt32.size ≤ (Bytes.ofText identifier).length then
    .error (.unavailable "identifier too long")
  else
    match v.entries, v.entry? identifier with
    | none, _ => .error (.notFound identifier)
    | some _, some .folder => .error isFolder
    | some entries, _ =>
      let content := v.sealEntry identifier data vector
      .ok { v with entries := some (entries.insert (fileName identifier) (.file content)) }

/-- The data under an identifier. -/
def retrieve (v : Vault) (identifier : String) : Except StorageError Bytes :=
  match v.entry? identifier with
  | none => .error (.notFound identifier)
  | some .folder => .error isFolder
  | some (.file content) =>
    match v.openEntry? (stem identifier) content with
    | some (found, data) =>
      if found = identifier then .ok data
      else .error (.corrupted identifier "authentication tag mismatch")
    | none => .error (.corrupted identifier "authentication tag mismatch")

/-- The vault without the file of an identifier. -/
def delete (v : Vault) (identifier : String) : Except StorageError Vault :=
  match v.entry? identifier with
  | none => .error (.notFound identifier)
  | some .folder => .error isFolder
  | some (.file _) =>
    .ok { v with entries := v.entries.map (·.erase (fileName identifier)) }

/-- Whether something stands in an identifier's place. -/
def contains (v : Vault) (identifier : String) : Bool := (v.entry? identifier).isSome

/-- The identifier of a sealed file that opens (`openEntry?`), if this is one. A folder under the
name of a sealed file cannot be read. -/
def identifierOf (v : Vault) (name : String) (entry : Entry) :
    Except StorageError (Option String) :=
  match stem? name, entry with
  | none, _ => .ok none
  | some _, .folder => .error isFolder
  | some digest, .file content => .ok ((v.openEntry? digest content).map (·.1))

/-- The identifiers of the sealed files that open, in order. Files without an `identifierOf` are
passed over. -/
def identifiers (v : Vault) : Except StorageError (List String) :=
  match v.entries with
  | none => .error (.notFound v.path)
  | some entries => do
    let found ← entries.entries.mapM fun e => v.identifierOf e.1 e.2
    .ok ((found.filterMap id).mergeSort (· ≤ ·))

end Vault

end Strongbox.Storage
