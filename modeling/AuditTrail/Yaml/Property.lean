import AuditTrail.Yaml.Scalar
/-!
# Names, tags and directives in YAML

A node may have a name, by which it can be used again, and a tag, which tells its kind. A tag is an
address in angle brackets or a handle and a suffix; a directive in front of a document says which
address a handle stands for.
-/

namespace AuditTrail.Yaml

/-- The name behind the mark of an anchor or of its use. -/
def anchorName? (c : Cursor) : Option (String × Cursor) :=
  let (name, c) := (c.pass 1).takeWhile isAnchorChar
  if name.isEmpty then none else some (String.ofList name, c)

/-! ## Addresses -/

/-- The byte that a percent sign and two digits stand for. -/
def escapedByte? : List Char → Option Nat
  | '%' :: a :: b :: _ => hexValue? [a, b]
  | _ => none

/-- For the first byte of a character: how many bytes follow it. -/
def followers? (byte : Nat) : Option Nat :=
  if byte < 0x80 then some 0
  else if byte / 0x20 = 6 then some 1
  else if byte / 0x10 = 14 then some 2
  else if byte / 0x08 = 30 then some 3
  else none

/-- The number that further escaped bytes write behind a number. -/
def escapedFollowers : Nat → Nat → Cursor → Option (Nat × Cursor)
  | 0, code, c => some (code, c)
  | count + 1, code, c =>
    (escapedByte? c.rest).bind fun byte =>
      if byte / 0x40 = 2 then escapedFollowers count (code * 256 + byte) (c.pass 3) else none

/-- The character that escaped bytes stand for: the one whose number they write. -/
def escapedAddressChar? (c : Cursor) : Option (Char × Cursor) := do
  let byte ← escapedByte? c.rest
  let (code, c) ← escapedFollowers (← followers? byte) byte (c.pass 3)
  if code.isValidChar then return (Char.ofNat code, c) else none

/-- The characters of a kind that stand here, those of them that are escaped being read; the first
number bounds how many there are. -/
def addressText (p : Char → Bool) : Nat → Cursor → Option (List Char × Cursor)
  | 0, c => some ([], c)
  | bound + 1, c =>
    match c.next? with
    | none => some ([], c)
    | some a =>
      if !p a then some ([], c)
      else do
        let (a, c) ← if a = '%' then escapedAddressChar? c else some (a, c.pass 1)
        let (cs, c) ← addressText p bound c
        return (a :: cs, c)

/-- The characters of a kind that stand here. -/
def address (p : Char → Bool) (c : Cursor) : Option (List Char × Cursor) :=
  addressText p (c.rest.length + 1) c

/-! ## Tags -/

/-- A tag as it is written. -/
structure Tag where
  handle : String
  suffix : String
deriving DecidableEq, Repr

/-- What stands for the handle of a tag: an exclamation mark, a name and, for a named handle,
another exclamation mark. -/
def tagHandle? (c : Cursor) : Option (List Char × Cursor) :=
  if c.next? = some '!' then
    let (name, c) := (c.pass 1).takeWhile isNameChar
    if c.next? = some '!' then some ('!' :: name ++ ['!'], c.pass 1) else some ('!' :: name, c)
  else none

/-- The characters are a handle between two exclamation marks. -/
def isNamedHandle (handle : List Char) : Bool :=
  2 ≤ handle.length && handle.head? == some '!' && handle.getLast? == some '!'

/-- The tag that stands here. -/
def tag? (inBrackets : Bool) (c : Cursor) : Option (Tag × Cursor) := do
  let (tag, c) ← (if c.second? = some '<' then do
      let (suffix, c) ← address isAddressChar (c.pass 2)
      if c.next? = some '>' then return ((⟨"", String.ofList suffix⟩ : Tag), c.pass 1) else none
    else do
      let (handle, c) ← tagHandle? c
      let (suffix, c) ← address isTagChar c
      if isNamedHandle handle then
        if suffix.isEmpty then none else return (⟨String.ofList handle, String.ofList suffix⟩, c)
      else
        let suffix := handle.drop 1 ++ suffix
        return (if suffix.isEmpty then ⟨"", "!"⟩ else ⟨"!", String.ofList suffix⟩, c))
  if c.atWordEnd || (inBrackets && c.next?.any isBracketMark) then return (tag, c) else none

/-! ## Directives -/

/-- What stands in front of a document. -/
inductive Directive where
  /-- The version of the format. -/
  | version
  /-- The address that a handle stands for; both are empty for a directive that is not known. -/
  | handle (handle address : String)
deriving DecidableEq, Repr

/-- Behind a number of at most nine digits. -/
def passVersionNumber? (c : Cursor) : Option Cursor :=
  let (ds, c) := c.takeWhile Char.isDigit
  if ds.isEmpty || 9 < ds.length then none else some c

/-- The address that a directive gives a handle. -/
def handleAddress? (c : Cursor) : Option (List Char × Cursor) := do
  let a ← c.next?
  if a = '!' then
    let (cs, c) ← address isAddressChar (c.pass 1)
    return ('!' :: cs, c)
  else if isTagChar a then address isAddressChar c
  else none

/-- The directive that stands here, and the start of the next line. -/
def directive? (c : Cursor) : Option (Directive × Cursor) := do
  let (name, c) := (c.pass 1).takeWhile isNameChar
  if name.isEmpty || !c.atWordEnd then none
  else
    let (directive, c) ← (match String.ofList name with
      | "YAML" => do
        let c ← passVersionNumber? (c.dropWhile isGap)
        if c.next? = some '.' then return (Directive.version, ← passVersionNumber? (c.pass 1))
        else none
      | "TAG" => do
        let (handle, c) ← tagHandle? (c.dropWhile isGap)
        if handle.length != 1 && !isNamedHandle handle then none
        else
          let (address, c) ← handleAddress? (c.dropWhile isGap)
          if c.atWordEnd then return (.handle (String.ofList handle) (String.ofList address), c)
          else none
      | _ => return (.handle "" "", c.passLine))
    let trail ← c.passTrail true
    if !trail.cursor.atLineEnd then none
    else
      return (directive, if trail.cursor.atBreak then trail.cursor.passBreak else trail.cursor)

end AuditTrail.Yaml
