import AuditTrail.Text.Hex
import AuditTrail.Yaml.Cursor
/-!
# Scalars in YAML

The three ways to write a scalar: in quotes, as it is, and as a block of lines. In the first two a
line break with the blanks around it counts as a space, and further ones as line breaks; a folded
block does the same between lines that do not start with a blank.

Each reader takes the indentation that holds: a line that lies left of it ends a scalar, or spoils
it when its closing quote is still to come.
-/

namespace AuditTrail.Yaml

/-- How a scalar is written. -/
inductive ScalarStyle where
  | plain
  | quoted
  | block
deriving DecidableEq, Repr

/-- A number of line breaks. -/
def breaks (n : Nat) : List Char := List.replicate n '\n'

/-! ## Folding -/

/-- The blanks and line breaks between two words. -/
structure Fold where
  /-- The blanks, as long as there is no break. -/
  blanks : List Char
  /-- There is a break that has not been escaped. -/
  hasBreak : Bool
  /-- The breaks after that. -/
  more : Nat
  /-- The words stand on different lines. -/
  isSplit : Bool

namespace Fold

/-- Nothing between two words. -/
def none : Fold := ⟨[], false, 0, false⟩

/-- An escaped break. -/
def escaped : Fold := ⟨[], false, 0, true⟩

/-- The same with one more blank; it counts only before the first break. -/
def addBlank (a : Char) (f : Fold) : Fold :=
  if f.isSplit then f else { f with blanks := f.blanks ++ [a] }

/-- The same with one more break. -/
def addBreak (f : Fold) : Fold :=
  if f.isSplit then { f with more := f.more + 1 } else ⟨[], true, 0, true⟩

/-- The same at the end of a line that holds more than blanks. -/
def endLine (f : Fold) : Fold := { f with blanks := [], hasBreak := true, isSplit := true }

/-- What is read for it. -/
def text (f : Fold) : List Char :=
  if f.isSplit then
    if f.hasBreak && f.more == 0 then [' '] else breaks f.more
  else f.blanks

end Fold

/-! ## Quoted scalars -/

/-- The characters that a backslash and a letter stand for. -/
def escapes : List (Char × Char) :=
  [('0', '\x00'), ('a', '\x07'), ('b', '\x08'), ('t', '\t'), ('\t', '\t'), ('n', '\n'),
   ('v', '\x0b'), ('f', '\x0c'), ('r', '\r'), ('e', '\x1b'), (' ', ' '), ('"', '"'), ('/', '/'),
   ('\\', '\\'), ('N', '\u0085'), ('_', '\u00a0'), ('L', '\u2028'), ('P', '\u2029')]

/-- How many hexadecimal digits follow a letter behind a backslash. -/
def codeLengths : List (Char × Nat) := [('x', 2), ('u', 4), ('U', 8)]

/-- The number that hexadecimal digits write. -/
def hexValue? (ds : List Char) : Option Nat :=
  ds.foldlM (fun n d => (Text.Hex.digitValue? d.toNat).map (16 * n + ·)) 0

/-- The character that an escape stands for, with the length of the escape; the first character is
the one behind the backslash. -/
def escape? : List Char → Option (Char × Nat)
  | [] => none
  | a :: rest =>
    match codeLengths.lookup a with
    | none => (escapes.lookup a).map (·, 2)
    | some length =>
      if rest.length < length then none
      else
        (hexValue? (rest.take length)).bind fun n =>
          if n.isValidChar then some (Char.ofNat n, length + 2) else none

/-- A word inside quotes, the place behind it, and whether an escaped break ends it; the first
number bounds its length. -/
def quotedWord (isSingle : Bool) : Nat → Cursor → Option (List Char × Cursor × Bool)
  | 0, _ => none
  | bound + 1, c =>
    match c.rest with
    | [] => some ([], c, false)
    | a :: rest =>
      if isSpace a then some ([], c, false)
      else if isSingle then
        if a = '\'' then
          if rest.head? = some '\'' then
            (quotedWord isSingle bound (c.pass 2)).map fun (cs, found) => ('\'' :: cs, found)
          else some ([], c, false)
        else (quotedWord isSingle bound (c.pass 1)).map fun (cs, found) => (a :: cs, found)
      else if a = '"' then some ([], c, false)
      else if a = '\\' then
        if rest.head?.any isBreak then some ([], (c.pass 1).passBreak, true)
        else
          (escape? rest).bind fun (e, length) =>
            (quotedWord isSingle bound (c.pass length)).map fun (cs, found) => (e :: cs, found)
      else (quotedWord isSingle bound (c.pass 1)).map fun (cs, found) => (a :: cs, found)

/-- The blanks and breaks that stand inside quotes; the first number bounds how many there are. -/
def quotedFold (indent : Int) : Nat → Fold → Cursor → Option (Fold × Cursor)
  | 0, f, c => some (f, c)
  | bound + 1, f, c =>
    match c.rest with
    | [] => some (f, c)
    | a :: _ =>
      if isGap a then
        if f.isSplit && a == '\t' && c.isLeftOf indent then none
        else quotedFold indent bound (f.addBlank a) (c.passGaps 1)
      else if isBreak a then quotedFold indent bound f.addBreak c.passBreak
      else some (f, c)

/-- The text up to a closing quote, and the place behind the quote; the first number bounds how many
words there are. -/
def quotedText (isSingle : Bool) (indent : Int) : Nat → Cursor → Option (List Char × Cursor)
  | 0, _ => none
  | bound + 1, c =>
    if c.atDocumentStart || c.atDocumentEnd || c.atEnd || c.isLeftOf indent then none
    else do
      let (word, c, isEscaped) ← quotedWord isSingle (c.rest.length + 1) c
      if c.next? = some (if isSingle then '\'' else '"') then return (word, c.pass 1)
      else
        let (f, c) ← quotedFold indent c.rest.length (if isEscaped then .escaped else .none) c
        let (more, c) ← quotedText isSingle indent bound c
        return (word ++ f.text ++ more, c)

/-- What may follow a quoted scalar: the end of the line, a mark of a collection around it, or a
colon, which outside of brackets has to be on the line where the scalar starts. -/
def mayFollowQuoted (inBrackets : Bool) (startLine : Nat) (c : Cursor) : Bool :=
  match c.next? with
  | none => true
  | some a =>
    isBreak a || (inBrackets && [',', ']', '}'].contains a) ||
      (a == ':' && (inBrackets || startLine == c.line))

/-- The scalar whose opening quote stands here. -/
def quoted? (isSingle inBrackets : Bool) (indent : Int) (c : Cursor) :
    Option (List Char × Cursor) := do
  let (text, after) ← quotedText isSingle indent (c.rest.length + 1) (c.pass 1)
  let trail ← after.passTrail true
  if mayFollowQuoted inBrackets c.line trail.cursor then return (text, trail.cursor) else none

/-! ## Plain scalars -/

/-- A character cannot go on a plain scalar: a colon before a blank, or in brackets before one of
their marks, and in brackets one of these marks. -/
def endsPlain (inBrackets : Bool) (a : Char) (rest : List Char) : Bool :=
  if a = ':' then rest.head?.all fun b => isSpace b || (inBrackets && isBracketMark b)
  else inBrackets && isBracketMark a

def plainWord (inBrackets : Bool) : List Char → List Char
  | [] => []
  | a :: rest =>
    if isSpace a || endsPlain inBrackets a rest then [] else a :: plainWord inBrackets rest

/-- The blanks and breaks behind a word of a plain scalar; the first number bounds how many there
are. A tab left of the indentation may stand on an empty line only. -/
def plainFold (indent : Int) : Nat → Fold → Cursor → Option (Fold × Cursor)
  | 0, f, c => some (f, c)
  | bound + 1, f, c =>
    match c.rest with
    | [] => some (f, c)
    | a :: _ =>
      if isGap a then
        if c.isFresh && a == '\t' && c.isLeftOf indent then
          (c.passTrail true).bind fun trail =>
            if trail.cursor.atLineEnd then plainFold indent bound f trail.cursor else none
        else plainFold indent bound (f.addBlank a) (c.passGaps 1)
      else if isBreak a then
        plainFold indent bound (if c.isFresh then f.addBreak else f.endLine) c.passBreak
      else some (f, c)

/-- The words of a plain scalar, what lies between them being the fold in front, and the place where
it ends; the first number bounds how many words there are. -/
def plainText (inBrackets : Bool) (indent : Int) :
    Nat → Fold → Cursor → Option (List Char × Cursor)
  | 0, _, c => some ([], c)
  | bound + 1, f, c =>
    if c.atDocumentStart || c.atDocumentEnd || c.next? = some '#' then some ([], c)
    else if inBrackets && c.next? == some '-' && c.second?.any isBracketMark then none
    else
      let word := plainWord inBrackets c.rest
      let text := if word.isEmpty then [] else f.text ++ word
      let f := if word.isEmpty then f else .none
      let c := c.pass word.length
      if !c.next?.any isSpace then some (text, c)
      else do
        let (f, c) ← plainFold indent c.rest.length f c
        if !inBrackets && c.isLeftOf indent then return (text, c)
        else
          let (more, c) ← plainText inBrackets indent bound f c
          return (text ++ more, c)

/-- The plain scalar that starts here. -/
def plain? (inBrackets : Bool) (indent : Int) (c : Cursor) : Option (List Char × Cursor) :=
  if inBrackets && c.isLeftOf indent then none
  else plainText inBrackets indent (c.rest.length + 1) .none { c with isFresh := false }

/-! ## Block scalars -/

/-- What becomes of the line breaks at the end of a block. -/
inductive Chomping where
  /-- One is kept. -/
  | clip
  /-- All are kept. -/
  | keep
  /-- None is kept. -/
  | strip
deriving DecidableEq, Repr

/-- The chomping that a sign asks for. -/
def chomping? (a : Char) : Option Chomping :=
  if a = '+' then some .keep else if a = '-' then some .strip else none

/-- The header of a block: what becomes of its last breaks, and how far it is indented if that is
told by a digit, which may stand in front of the sign or behind it. -/
def blockHeader (c : Cursor) : Chomping × Option Nat × Cursor :=
  let sign := fun (c : Cursor) => match c.next?.bind chomping? with
    | some chomping => (chomping, c.pass 1)
    | none => (.clip, c)
  let digit := fun (c : Cursor) => match c.next?.filter Char.isDigit with
    | some a => (some (a.toNat - 48), c.pass 1)
    | none => (none, c)
  match digit c with
  | (some increment, c) =>
    let (chomping, c) := sign c
    (chomping, some increment, c)
  | (none, c) =>
    let (chomping, c) := sign c
    let (increment, c) := if chomping = .clip then (none, c) else digit c
    (chomping, increment, c)

/-- Behind the spaces of an indentation and the empty lines in front of the next line, with the
number of these; the first number bounds how many there are. -/
def passIndent (indent : Nat) : Nat → Cursor → Nat × Cursor
  | 0, c => (0, c)
  | bound + 1, c =>
    let spaces := ((c.rest.takeWhile (· == ' ')).take (indent - c.column)).length
    let c := c.passGaps spaces
    if c.atBreak then
      let (n, c) := passIndent indent bound c.passBreak
      (n + 1, c)
    else (0, c)

/-- Behind the empty lines in front of the first line of a block and its spaces, with the number of
these lines and the most columns that spaces reach to. -/
def findIndent : Nat → Cursor → Nat × Nat × Cursor
  | 0, c => (0, 0, c)
  | bound + 1, c =>
    let c := c.passGaps (c.rest.takeWhile (· == ' ')).length
    if c.atBreak then
      let (n, most, after) := findIndent bound c.passBreak
      (n + 1, max c.column most, after)
    else (0, c.column, c)

/-- A block read so far. -/
structure BlockText where
  text : List Char
  /-- The last line has ended. -/
  hasBreak : Bool
  /-- The empty lines after that. -/
  more : Nat
  /-- The last line starts with a blank. -/
  isIndented : Bool

/-- What is read between the lines so far and another one. -/
def BlockText.fold (isLiteral isIndented : Bool) (b : BlockText) : List Char :=
  if !isLiteral && b.hasBreak && !b.isIndented && !isIndented then
    if b.more = 0 then [' '] else breaks b.more
  else breaks ((if b.hasBreak then 1 else 0) + b.more)

/-- The lines of a block; the first number bounds how many there are. -/
def blockLines (isLiteral : Bool) (indent : Nat) : Nat → BlockText → Cursor → BlockText × Cursor
  | 0, b, c => (b, c)
  | bound + 1, b, c =>
    if c.column != indent || c.atEnd || (indent == 0 && c.atDocumentEnd) then (b, c)
    else
      let isIndented := c.next?.any isGap
      let (line, c) := c.takeWhile fun a => !isBreak a
      let text := b.text ++ b.fold isLiteral isIndented ++ line
      if c.atEnd then (⟨text, false, 0, isIndented⟩, c)
      else
        let c := c.passBreak
        let (more, c) := passIndent indent (c.rest.length + 1) c
        blockLines isLiteral indent bound ⟨text, true, more, isIndented⟩ c

/-- The text of a block that ends here, with the breaks that chomping leaves it. -/
def BlockText.close (chomping : Chomping) (indent : Nat) (c : Cursor) (b : BlockText) : List Char :=
  let last := if b.hasBreak then 1 else 0
  let atEnd := if c.atEnd && decide (max indent 1 ≤ c.column) then 1 else 0
  b.text ++ breaks (match chomping with
    | .strip => 0
    | .clip => last + atEnd
    | .keep => last + atEnd + b.more)

/-- The text of a block without lines of its own: `hasBreak` tells whether its header's line has
ended, and `more` how many empty lines follow. -/
def emptyBlock (chomping : Chomping) (hasBreak : Bool) (more : Nat) : List Char :=
  if hasBreak then
    match chomping with
    | .strip => []
    | .clip => breaks 1
    | .keep => breaks (max 1 more)
  else []

/-- The block whose mark stands here, inside an indentation. -/
def block? (isLiteral : Bool) (outer : Int) (c : Cursor) : Option (List Char × Cursor) := do
  let (chomping, increment, c) := blockHeader (c.pass 1)
  if increment = some 0 then none
  else
    let trail ← c.passTrail true
    let c := trail.cursor
    if !c.atLineEnd then none
    else
      let hasBreak := c.atBreak
      let c := if hasBreak then c.passBreak else c
      if c.next? = some '\t' then none
      else
        let bound := c.rest.length + 1
        let (indent, more, c) := match increment with
          | some n =>
            let indent := (max outer 0).toNat + n
            let (more, c) := passIndent indent bound c
            (indent, more, c)
          | none =>
            let (more, most, c) := findIndent bound c
            (max most (outer + 1).toNat, more, c)
        if c.atEnd then return (emptyBlock chomping hasBreak more, c)
        else if decide (c.column < indent) && decide (outer < (c.column : Int)) then none
        else
          let (b, c) := blockLines isLiteral indent bound ⟨[], false, more, false⟩ c
          return (b.close chomping indent c, c)

end AuditTrail.Yaml
