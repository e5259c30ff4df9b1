import Pipework.FileTree
import Pipework.Storage

/-!
A storage of files: a document's key is the path of its file below a root directory.
-/

namespace Pipework

/-- Files below a root directory. -/
structure FileStorage where
  root : String
  tree : FileTree
  deriving DecidableEq

namespace FileStorage

/-- Whether a path could lead out of the directory from which it starts. -/
def leadsOut (path : String) : Bool :=
  (Path.components path).any fun component => component = .up || component = .root

/-- The path of the file of a key, below a root. -/
def pathBelow (root key : String) : Except Error String :=
  if key.isEmpty || leadsOut key then .error (.invalidName key .outside)
  else .ok (Path.join root key)

/-- The path of the file of a key. -/
def path (storage : FileStorage) (key : String) : Except Error String :=
  pathBelow storage.root key

/-- What the tree makes of the file of a key. -/
def look {α : Type} (storage : FileStorage) (key : String)
    (query : FileTree → String → Except OsError α) : Except Error α := do
  let path ← storage.path key
  match query storage.tree path with
  | .ok answer => return answer
  | .error error => throw (.system error)

/-- Replaces the file at a path, and makes the directories on the way to it. -/
def replace (storage : FileStorage) (key path : String) (bytes : ByteArray) :
    WriteResult × FileStorage :=
  match storage.tree.makeDirectories ((Path.parent? path).getD "") with
  | (.error error, partly) => (.failed (.system error), { storage with tree := partly })
  | (.ok (), ready) =>
      match Path.fileName? path with
      | none => (.failed (.invalidName key .notFile), { storage with tree := ready })
      | some name =>
          match ready.replaceFile path name bytes with
          | (.error error, left) => (.failed (.system error), { storage with tree := left })
          | (.ok (), replaced) => (.done, { storage with tree := replaced })

instance : Storage FileStorage where
  read storage key := storage.look key FileTree.readFile
  write storage key bytes :=
    match storage.path key with
    | .error error => (.failed error, storage)
    | .ok path => storage.replace key path bytes
  holds storage key := storage.look key FileTree.tryExists

end FileStorage

end Pipework
