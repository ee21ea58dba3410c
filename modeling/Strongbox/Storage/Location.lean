import Strongbox.Hash.Algorithm
/-!
# Where vaults are kept

The usual folder of a vault is under the data folder of the user: the one that the environment
names, if that is an absolute path, and otherwise the usual one in the home folder.

In its folder a vault has one file for each identifier, under the name that `Vault.fileName` gives
it; `Vault.stem?` tells such names from others.
-/

namespace Strongbox.Storage

/-- The path `path` with `name` at its end. -/
def joinPath (path name : String) : String :=
  if path.toList.getLast? = some '/' then path ++ name else path ++ "/" ++ name

/-- Whether a path starts at the root. -/
def isAbsolute (path : String) : Bool := path.toList.head? == some '/'

/-- The data folder of a user, from the home folder and the data folder that the environment
names. -/
def dataFolder? (home dataHome : Option String) : Option String :=
  match dataHome.filter isAbsolute with
  | some path => some path
  | none => home.map fun home => joinPath (joinPath home ".local") "share"

/-- The usual folder of a vault, inside the `dataFolder?`. -/
def defaultLocation? (home dataHome : Option String) : Option String :=
  (dataFolder? home dataHome).map fun path => joinPath (joinPath path "umbra") "secure-storage"

/-! ## Names of files -/

namespace Vault

/-- What a file's name says of its identifier: the digest. -/
def stem (identifier : String) : String := Hash.hexDigest (Bytes.ofText identifier)

/-- The ending of file names. -/
def ending : String := ".sealed"

/-- The name of an identifier's file: its `stem` and the `ending`. -/
def fileName (identifier : String) : String := stem identifier ++ ending

/-- The digest in the name of a sealed file, its `stem`; other names have none. -/
def stem? (name : String) : Option String :=
  let chars := name.toList
  let front := chars.take (chars.length - ending.length)
  if chars.drop (chars.length - ending.length) = ending.toList ∧ front.length = 64
      ∧ front.all fun c => c.isDigit || ('a' ≤ c && c ≤ 'f') || ('A' ≤ c && c ≤ 'F') then
    some (String.ofList front)
  else none

end Vault

end Strongbox.Storage
