import AuditTrail.Text.Split
/-!
# Paths

A path is a row of names between slashes. A leading slash makes it start at the root. The names that
count are those that are neither empty nor a dot, except that a dot may stand in front.
-/

namespace AuditTrail.Path

/-- The pieces of a path between its slashes. -/
def split (path : String) : List String := Text.split '/' path

/-- The path starts at the root. -/
def isAbsolute (path : String) : Bool :=
  match path.toList with
  | '/' :: _ => true
  | _ => false

/-- A piece that leads nowhere. -/
def isIdle (piece : String) : Bool := piece == "" || piece == "."

def names (path : String) : List String :=
  match split path with
  | [] => []
  | first :: rest =>
    let kept := rest.filter fun name => !isIdle name
    if first = "" ∨ isAbsolute path then kept else first :: kept

/-- The pieces of a path without the idle ones at its end; the first piece is kept. -/
def busyPieces (path : String) : List String :=
  match split path with
  | [] => []
  | first :: rest => first :: (rest.reverse.dropWhile isIdle).reverse

/-- The path of some pieces, the first of which is empty where the path starts at the root. -/
def ofPieces (pieces : List String) : String :=
  if pieces = [""] then "/" else String.intercalate "/" pieces

/-- The path without its last name and without idle pieces at its end; nothing for the root. -/
def parent? (path : String) : Option String :=
  match busyPieces path with
  | [] | [""] => none
  | [_] => some ""
  | pieces =>
    let first := pieces.head?.toList
    some (ofPieces (first ++ ((pieces.drop 1).dropLast.reverse.dropWhile isIdle).reverse))

/-- The path ends with a name and slashes behind it. -/
def endsWithSlash (path : String) : Bool :=
  match (split path).reverse with
  | "" :: rest =>
    match rest.dropWhile (· == "") with
    | name :: _ => name != "." && name != ".."
    | [] => false
  | _ => false

/-- The part of a text behind its last dot, when something stands in front of that dot. -/
def extensionOf (name : List Char) : Option String :=
  let tail := name.reverse.takeWhile (· != '.')
  match name.reverse.dropWhile (· != '.') with
  | _ :: _ :: _ => some (String.ofList tail.reverse)
  | _ => none

/-- The extension of the last name of a path. -/
def extension (path : String) : Option String :=
  match (names path).getLast? with
  | some ".." => none
  | some name => extensionOf name.toList
  | none => none

/-- The path with an extension behind its last name, and no idle pieces behind that. -/
def withExtension (path extension : String) : String :=
  ofPieces (busyPieces path) ++ "." ++ extension

end AuditTrail.Path
