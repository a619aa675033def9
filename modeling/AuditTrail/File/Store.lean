import AuditTrail.CoreInstances
import AuditTrail.File.Path
/-!
# The file store

Folders and files by the place where they lie, a place being the names on the way from the root.
Every folder on the way to a place has to be there. Writes may fail: the store holds, for each
write in turn, whether it succeeds or how many bytes are left behind before it fails.
-/

namespace AuditTrail

open scoped CoreInstances

/-- Why an operation on files fails. -/
inductive FileFault where
  | notFound
  | alreadyThere
  | notFolder
  | isFolder
  | nameTooLong
  | badName
  | notText
deriving DecidableEq, Repr

/-- The wording of a fault. -/
def FileFault.message : FileFault → String
  | .notFound => "No such file or directory (os error 2)"
  | .alreadyThere => "File exists (os error 17)"
  | .notFolder => "Not a directory (os error 20)"
  | .isFolder => "Is a directory (os error 21)"
  | .nameTooLong => "File name too long (os error 36)"
  | .badName => "file name contained an unexpected NUL byte"
  | .notText => "stream did not contain valid UTF-8"

/-- The names on the way from the root. -/
abbrev Place : Type := List String

/-- What lies at a place. -/
inductive FileNode where
  | folder
  | file (bytes : ByteArray)
  /-- A device that can be opened and refuses every write. -/
  | full
deriving DecidableEq

/-- Folders and files, and what becomes of writes. -/
structure FileStore where
  nodes : List (Place × FileNode)
  /-- The folder where relative paths start. -/
  home : Place
  /-- The number of bytes that a write leaves behind when it fails; nothing when it succeeds. -/
  failures : Nat → Option Nat
  /-- How many writes there have been. -/
  writes : Nat

/-- Where a path leads. -/
inductive Spot where
  /-- To something that is there. -/
  | found (place : Place) (node : FileNode)
  /-- To a name that is free in its folder; the path may insist on a folder. -/
  | free (place : Place) (asFolder : Bool)

namespace FileStore

/-- What lies at a place. The root is a folder. -/
def node? (store : FileStore) (place : Place) : Option FileNode :=
  if place = [] then some .folder else store.nodes.lookup place

/-- The store with something else at a place. -/
def put (store : FileStore) (place : Place) (node : FileNode) : FileStore :=
  { store with nodes := (place, node) :: store.nodes.filter fun entry => entry.1 != place }

/-- The longest name of a file, in bytes. -/
def maxNameBytes : Nat := 255

/-- Where the pieces of a path lead from a place. -/
def descend (store : FileStore) : Place → List String → Except FileFault Spot
  | place, [] =>
    match store.node? place with
    | some node => .ok (.found place node)
    | none => .error .notFound
  | place, piece :: rest =>
    if store.node? place = some .folder then
      if piece = "" ∨ piece = "." then descend store place rest
      else if piece = ".." then descend store place.dropLast rest
      else if maxNameBytes < piece.utf8ByteSize then .error .nameTooLong
      else if (store.node? (place ++ [piece])).isSome then descend store (place ++ [piece]) rest
      else if rest.all (· == "") then .ok (.free (place ++ [piece]) !rest.isEmpty)
      else .error .notFound
    else .error .notFolder

def maxPathBytes : Nat := 4095

/-- Where the first pieces of a path lead, the path being one that can be asked for. -/
def resolvePieces (store : FileStore) (path : String) (pieces : List String) :
    Except FileFault Spot :=
  if path.toList.contains '\x00' then .error .badName
  else if path = "" then .error .notFound
  else if maxPathBytes < path.utf8ByteSize then .error .nameTooLong
  else descend store (if Path.isAbsolute path then [] else store.home) pieces

/-- Where a path leads. -/
def resolve (store : FileStore) (path : String) : Except FileFault Spot :=
  store.resolvePieces path (Path.split path)

/-- What a path leads to. -/
def find (store : FileStore) (path : String) : Except FileFault FileNode :=
  match store.resolve path with
  | .ok (.found _ node) => .ok node
  | .ok (.free _ _) => .error .notFound
  | .error fault => .error fault

/-- The path leads to something. -/
def has (store : FileStore) (path : String) : Bool := (store.find path).isOk

/-- The path leads to a folder. -/
def hasFolder (store : FileStore) (path : String) : Bool :=
  match store.find path with
  | .ok .folder => true
  | _ => false

/-- The path leads to a file that is no device. -/
def hasFile (store : FileStore) (path : String) : Bool :=
  match store.find path with
  | .ok (.file _) => true
  | _ => false

/-- The bytes that can be read from an open file. -/
def content : FileNode → Except FileFault ByteArray
  | .folder => .error .isFolder
  | .file bytes => .ok bytes
  | .full => .ok .empty

/-- The text of a file. -/
def readText (store : FileStore) (path : String) : Except FileFault String :=
  match store.find path with
  | .error fault => .error fault
  | .ok node =>
    match content node with
    | .error fault => .error fault
    | .ok bytes =>
      match String.fromUTF8? bytes with
      | some text => .ok text
      | none => .error .notText

/-! ## Making folders -/

/-- Makes the folder at the end of a path. -/
def makeFolder (store : FileStore) (path : String) : Except FileFault FileStore :=
  match store.resolve path with
  | .error fault => .error fault
  | .ok (.found _ _) => .error .alreadyThere
  | .ok (.free place _) => .ok (store.put place .folder)

/-- Makes the folder at the end of a path and every folder on the way to it; the first number bounds
how many there are. -/
def makeFoldersUpTo : Nat → String → FileStore → Except FileFault FileStore
  | 0, _, store => .ok store
  | bound + 1, path, store =>
    if path = "" then .ok store
    else
      match store.makeFolder path with
      | .ok store => .ok store
      | .error .notFound =>
        match makeFoldersUpTo bound ((Path.parent? path).getD "") store with
        | .error fault => .error fault
        | .ok store =>
          match store.makeFolder path with
          | .ok store => .ok store
          | .error fault => if store.hasFolder path then .ok store else .error fault
      | .error fault => if store.hasFolder path then .ok store else .error fault

/-- Makes the folder that a path lies in, and every folder on the way to it. -/
def makeFolders (store : FileStore) (path : String) : Except FileFault FileStore :=
  match Path.parent? path with
  | none => .ok store
  | some folder => makeFoldersUpTo (Path.split folder).length folder store

/-! ## Writing -/

/-- The fault of a path that has slashes behind its last name where a file is to be written: the
file would be a folder, if there is a folder for it to lie in. -/
def slashFault (store : FileStore) (path : String) : FileFault :=
  let pieces := (Path.split path).reverse.dropWhile (· == "")
  match store.resolvePieces path (pieces.drop 1).reverse with
  | .error fault => fault
  | .ok (.found _ .folder) => .isFolder
  | .ok (.found _ _) => .notFolder
  | .ok (.free _ _) => .notFound

/-- Opens a file to write at its end, making it if it is not there. -/
def openForAppending (store : FileStore) (path : String) : Except FileFault (Place × FileStore) :=
  if Path.endsWithSlash path then .error (store.slashFault path)
  else
    match store.resolve path with
    | .error fault => .error fault
    | .ok (.found _ .folder) => .error .isFolder
    | .ok (.found place _) => .ok (place, store)
    | .ok (.free _ true) => .error .isFolder
    | .ok (.free place false) => .ok (place, store.put place (.file .empty))

/-- Writes some bytes at the end of an open file; false when the write fails. -/
def append (store : FileStore) (place : Place) (bytes : ByteArray) : Bool × FileStore :=
  let after := { store with writes := store.writes + 1 }
  match store.node? place with
  | some (.file old) =>
    match store.failures store.writes with
    | none => (true, after.put place (.file (old ++ bytes)))
    | some kept => (false, after.put place (.file (old ++ bytes.extract 0 kept)))
  | _ => (false, after)

end FileStore

end AuditTrail
