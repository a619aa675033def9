import AuditTrail.Yaml.Property
/-!
# The tokens of a YAML text

A text is cut into marks, scalars and the properties of nodes. Where a block begins and ends is told
by indentation, so marks for it are added; and a scalar turns out to be a key only by the colon
behind it, so the mark of a key is put in front of it later.
-/

namespace AuditTrail.Yaml

/-- A part of a YAML text. -/
inductive Token where
  | directive (directive : Directive)
  | documentStart
  | documentEnd
  | sequenceBlock
  | mappingBlock
  | blockEnd
  | sequenceOpening
  | sequenceClosing
  | mappingOpening
  | mappingClosing
  /-- The hyphen in front of an item of a block. -/
  | item
  /-- The comma behind a value in brackets. -/
  | comma
  /-- What follows is a key. -/
  | key
  /-- What follows is the value of a key. -/
  | value
  | alias (name : String)
  | anchor (name : String)
  | tag (tag : Tag)
  | scalar (style : ScalarStyle) (text : String)
deriving DecidableEq, Repr

/-- A place that may turn out to be where a key begins. -/
structure Candidate where
  isPossible : Bool
  /-- Nothing but a key can stand there. -/
  isRequired : Bool
  /-- How many tokens stand before it. -/
  index : Nat
  line : Nat
  column : Nat
  position : Nat

/-- No place for a key. -/
def Candidate.none : Candidate := ⟨false, false, 0, 0, 0, 0⟩

/-- An indentation that a deeper one has taken the place of. -/
structure Indent where
  outer : Int
  /-- The deeper one is that of a block, which ends with it. -/
  isBlock : Bool

/-- A text of which some tokens have been read. -/
structure Lexer where
  cursor : Cursor
  /-- The tokens, the last one first. -/
  tokens : List Token
  /-- A key may begin here. -/
  allowsKey : Bool
  /-- Where a key may have begun: outside of brackets and inside each open pair, the innermost pair
  first. -/
  candidates : List Candidate
  indent : Int
  /-- The indentations around, the innermost first. -/
  indents : List Indent
  /-- How many pairs of brackets are open. -/
  depth : Nat
  /-- Where a colon may stand without a blank behind it. -/
  adjacent : Nat
  /-- A key in brackets has a mark of its own. -/
  hasOpenMapping : Bool
  /-- For each open sequence in brackets, the innermost first: a pair without braces is being
  read. -/
  pairs : List Bool

namespace Lexer

/-- The deepest nesting of brackets. -/
def maxDepth : Nat := 255

/-- How many characters a key may have. -/
def maxKeyLength : Nat := 1024

/-- Nothing has been read. -/
def start (cs : List Char) : Lexer where
  cursor := .start cs
  tokens := []
  allowsKey := true
  candidates := [.none]
  indent := -1
  indents := []
  depth := 0
  adjacent := 0
  hasOpenMapping := false
  pairs := []

/-! ## Tokens -/

/-- One more token. -/
def push (t : Token) (l : Lexer) : Lexer := { l with tokens := t :: l.tokens }

/-- One more token behind the first `index` ones. -/
def insert (index : Nat) (t : Token) (l : Lexer) : Lexer :=
  let behind := l.tokens.length - index
  { l with tokens := l.tokens.take behind ++ t :: l.tokens.drop behind }

/-! ## Places for keys -/

/-- The place for a key in the innermost brackets. -/
def candidate (l : Lexer) : Candidate := l.candidates.headD .none

/-- The same with another place for a key in the innermost brackets. -/
def withCandidate (k : Candidate) (l : Lexer) : Lexer :=
  { l with candidates := k :: l.candidates.drop 1 }

/-- A key may begin here, if one is allowed. -/
def noteKey (l : Lexer) : Lexer :=
  if l.allowsKey then
    let isRequired := l.depth == 0 && l.indent == l.cursor.column && l.indents.head?.any (·.isBlock)
    l.withCandidate
      ⟨true, isRequired, l.tokens.length, l.cursor.line, l.cursor.column, l.cursor.position⟩
  else l

/-- No key has begun; refused where nothing else can stand. -/
def dropKey (l : Lexer) : Option Lexer :=
  if l.candidate.isPossible && l.candidate.isRequired then none
  else some (l.withCandidate .none)

/-- Outside of brackets a key ends on the line where it begins, and is not too long. -/
def dropStaleKeys (l : Lexer) : Option Lexer :=
  let isStale := fun k : Candidate => k.isPossible && l.depth == 0 &&
    (decide (k.line < l.cursor.line) || decide (k.position + maxKeyLength < l.cursor.position))
  if l.candidates.any fun k => isStale k && k.isRequired then none
  else some { l with candidates := l.candidates.map fun k => if isStale k then .none else k }

/-! ## Indentation -/

/-- Indentations without those deeper than a column, and how many of these are blocks. -/
def unwind (column : Int) : Int → List Indent → Int × List Indent × Nat
  | indent, [] => (indent, [], 0)
  | indent, i :: rest =>
    if column < indent then
      let (indent, rest, blocks) := unwind column i.outer rest
      (indent, rest, blocks + i.isBlock.toNat)
    else (indent, i :: rest, 0)

/-- Outside of brackets, the blocks deeper than a column end. -/
def closeBlocks (column : Int) (l : Lexer) : Lexer :=
  if l.depth == 0 then
    let (indent, indents, blocks) := unwind column l.indent l.indents
    { l with indent, indents, tokens := List.replicate blocks .blockEnd ++ l.tokens }
  else l

/-- The innermost indentation, if it is no block, is given up. -/
def dropMargin (l : Lexer) : Lexer :=
  match l.indents with
  | i :: rest => if i.isBlock then l else { l with indent := i.outer, indents := rest }
  | [] => l

/-- Outside of brackets, what follows stands deeper than the block that it belongs to. -/
def addMargin (l : Lexer) : Lexer :=
  if l.depth == 0 && l.indents.head?.any (·.isBlock) then
    { l with indent := l.indent + 1, indents := ⟨l.indent, false⟩ :: l.indents }
  else l

/-- Outside of brackets, a block whose first token has `index` tokens before it begins at a column,
unless the block around it stands there already. -/
def openBlock (t : Token) (column index : Nat) (l : Lexer) : Lexer :=
  if l.depth == 0 then
    let l := if l.indent ≤ column then l.dropMargin else l
    if l.indent < column then
      { l.insert index t with indent := column, indents := ⟨l.indent, true⟩ :: l.indents }
    else l
  else l

/-! ## Blanks -/

/-- At the next token; the number bounds how many blanks and comments stand before it. A tab does
not indent a block. -/
def passBlanks : Nat → Lexer → Option Lexer
  | 0, l => some l
  | bound + 1, l =>
    let c := l.cursor
    match c.next? with
    | none => some l
    | some a =>
      if a == '\t' && !l.indents.isEmpty && c.isFresh && c.isLeftOf l.indent then
        (c.passTrail true).bind fun trail =>
          if trail.cursor.atLineEnd then passBlanks bound { l with cursor := trail.cursor }
          else none
      else if isGap a then passBlanks bound { l with cursor := c.passGaps 1 }
      else if isBreak a then
        passBlanks bound
          { l with cursor := c.passBreak, allowsKey := l.allowsKey || l.depth == 0 }
      else if a == '#' then passBlanks bound { l with cursor := c.passLine }
      else some l

def toNext (l : Lexer) : Option Lexer := l.passBlanks (l.cursor.rest.length + 1)

/-- The blanks and comments behind the mark of a key, and whether there is a blank; the number
bounds how many there are. -/
def keyBlanks : Nat → Bool → Lexer → Bool × Lexer
  | 0, found, l => (found, l)
  | bound + 1, found, l =>
    let c := l.cursor
    match c.next? with
    | none => (found, l)
    | some a =>
      if a == ' ' then keyBlanks bound true { l with cursor := c.passGaps 1 }
      else if isBreak a then
        keyBlanks bound true
          { l with cursor := c.passBreak, allowsKey := l.allowsKey || l.depth == 0 }
      else if a == '#' then keyBlanks bound found { l with cursor := c.passLine }
      else (found, l)

/-- Behind a mark of some characters and the blanks that follow it on its line. -/
def passMark (length : Nat) (l : Lexer) : Option Lexer :=
  ((l.cursor.pass length).passTrail true).map fun trail => { l with cursor := trail.cursor }

/-! ## Directives and documents -/

/-- A new document, or what stands before it. -/
def leaveBlocks (l : Lexer) : Option Lexer :=
  (l.closeBlocks (-1)).dropKey.map fun l => { l with allowsKey := false }

/-- The directive that stands here. -/
def readDirective (l : Lexer) : Option Lexer := do
  let l ← l.leaveBlocks
  let (d, cursor) ← directive? l.cursor
  return { l with cursor }.push (.directive d)

def readDocumentStart (l : Lexer) : Option Lexer := do
  let l ← l.leaveBlocks
  return { l with cursor := l.cursor.pass 3 }.push .documentStart

/-- The mark that ends a document, which stands alone on its line. -/
def readDocumentEnd (l : Lexer) : Option Lexer := do
  let l ← (← l.leaveBlocks).passMark 3
  if l.cursor.atLineEnd then return l.push .documentEnd else none

/-! ## Brackets -/

/-- A pair without braces ends. -/
def closePair (l : Lexer) : Lexer :=
  match l.pairs with
  | true :: rest => { l with hasOpenMapping := false, pairs := false :: rest }.push .mappingClosing
  | _ => l

/-- The bracket or brace that opens here. -/
def readOpening (t : Token) (l : Lexer) : Option Lexer :=
  if l.depth < maxDepth then
    let l := l.noteKey.addMargin
    let l := { l with candidates := .none :: l.candidates, depth := l.depth + 1, allowsKey := true }
    let l := if t = .mappingOpening then { l with hasOpenMapping := true }
      else { l with pairs := false :: l.pairs }
    (l.passMark 1).map (push t)
  else none

/-- The bracket or brace that closes here. -/
def readClosing (t : Token) (l : Lexer) : Option Lexer := do
  let l ← l.dropKey
  let l := if l.depth == 0 then l
    else { l with candidates := l.candidates.drop 1, depth := l.depth - 1 }
  let l := { l with allowsKey := false }
  let l := if t = .sequenceClosing then { l.closePair with pairs := l.pairs.drop 1 } else l
  let l ← l.passMark 1
  let l := if l.depth == 0 then l else { l with adjacent := l.cursor.position }
  return l.push t

/-- The comma that stands here. -/
def readComma (l : Lexer) : Option Lexer := do
  let l ← l.dropKey
  let l ← { l with allowsKey := true }.closePair.passMark 1
  return l.push .comma

/-! ## Items, keys and values -/

/-- The hyphen in front of an item. Another one may follow it behind spaces, not behind a tab. -/
def readItem (l : Lexer) : Option Lexer :=
  if l.depth != 0 || !l.allowsKey then none
  else do
    let column := l.cursor.column
    let trail ← (l.cursor.pass 1).passTrail true
    let c := trail.cursor
    if trail.hasTab && c.next? == some '-' && c.second?.all isSpace then none
    else
      let l := { l with cursor := c }.openBlock .sequenceBlock column l.tokens.length
      let l := if c.atBreak || c.next?.any isBracketMark then l.addMargin else l
      let l ← l.dropKey
      return { l with allowsKey := true }.push .item

/-- The mark of a key that stands here. -/
def readKey (l : Lexer) : Option Lexer :=
  if l.depth == 0 && !l.allowsKey then none
  else do
    let l := if l.depth == 0 then l.openBlock .mappingBlock l.cursor.column l.tokens.length
      else { l with hasOpenMapping := true }
    let l ← l.dropKey
    let l := { l with allowsKey := l.depth == 0, cursor := l.cursor.pass 1 }
    let (found, l) := l.keyBlanks (l.cursor.rest.length + 1) false
    if !found || l.cursor.next? == some '\t' then none else return l.push .key

/-- Behind a colon and the blanks after it, if the first of them is a tab; then at least one is a
space, or neither a hyphen nor a letter follows. -/
def passColon (c : Cursor) : Option Cursor :=
  let c := c.pass 1
  if c.next? == some '\t' then
    (c.passTrail true).bind fun trail =>
      if !trail.hasSpace && trail.cursor.next?.any isNameChar then none else some trail.cursor
  else some c

/-- The colon that stands here, which makes a key of what began at the place noted for one. -/
def readValue (l : Lexer) : Option Lexer := do
  let k := l.candidate
  let line := l.cursor.line
  let column := l.cursor.column
  let isPair := !l.pairs.isEmpty && !l.hasOpenMapping
  let l := if isPair then { l with pairs := true :: l.pairs.drop 1 } else l
  let l := { l with cursor := ← passColon l.cursor }
  if k.isPossible then
    if isPair && decide (k.line < line) then none
    else
      let l := l.insert k.index .key
      let l := if isPair then l.insert k.index .mappingOpening else l
      let l := (l.openBlock .mappingBlock k.column k.index).addMargin
      return { l.withCandidate .none with allowsKey := false }.push .value
  else
    let l := if isPair then l.push .mappingOpening else l
    if l.depth == 0 && !l.allowsKey then none
    else
      let l := (l.openBlock .mappingBlock column l.tokens.length).addMargin
      return { l with allowsKey := l.depth == 0 }.push .value

/-! ## Scalars and properties -/

/-- A property of a node or the use of a name. -/
def readProperty (read : Cursor → Option (Token × Cursor)) (l : Lexer) : Option Lexer :=
  (read l.cursor).map fun (t, cursor) => { l.noteKey with allowsKey := false, cursor }.push t

/-- A scalar in quotes. -/
def readQuoted (isSingle : Bool) (l : Lexer) : Option Lexer := do
  let l := { l.noteKey with allowsKey := false }
  let (text, cursor) ← quoted? isSingle (l.depth != 0) l.indent l.cursor
  let l ← { l with cursor }.toNext
  return { l with adjacent := l.cursor.position }.push (.scalar .quoted (String.ofList text))

/-- A plain scalar. -/
def readPlain (l : Lexer) : Option Lexer := do
  let l := { l.noteKey with allowsKey := false }.dropMargin
  let (text, cursor) ← plain? (l.depth != 0) (l.indent + 1) l.cursor
  return { l with allowsKey := cursor.isFresh, cursor }.push (.scalar .plain (String.ofList text))

/-- A scalar written as a block. -/
def readBlock (isLiteral : Bool) (l : Lexer) : Option Lexer := do
  let l := { l.noteKey with allowsKey := true }.dropMargin
  let (text, cursor) ← block? isLiteral l.indent l.cursor
  return { l with cursor }.push (.scalar .block (String.ofList text))

/-! ## All tokens -/

/-- A character begins a token of its own kind here, or a plain scalar. -/
def readMark (a : Char) (l : Lexer) : Option Lexer :=
  let isLoose := l.cursor.second?.all isSpace
  let inBrackets := l.depth != 0
  let isColon := isLoose || (inBrackets &&
    (l.cursor.second?.any isBracketMark || l.cursor.position == l.adjacent))
  match a with
  | '[' => l.readOpening .sequenceOpening
  | '{' => l.readOpening .mappingOpening
  | ']' => l.readClosing .sequenceClosing
  | '}' => l.readClosing .mappingClosing
  | ',' => l.readComma
  | '-' => if isLoose then l.readItem else l.readPlain
  | '?' => if isLoose then l.readKey else l.readPlain
  | ':' => if isColon then l.readValue else l.readPlain
  | '*' => l.readProperty fun c => (anchorName? c).map fun (name, c) => (.alias name, c)
  | '&' => l.readProperty fun c => (anchorName? c).map fun (name, c) => (.anchor name, c)
  | '!' => l.readProperty fun c => (tag? inBrackets c).map fun (tag, c) => (.tag tag, c)
  | '|' => if inBrackets then l.readPlain else l.readBlock true
  | '>' => if inBrackets then l.readPlain else l.readBlock false
  | '\'' => l.readQuoted true
  | '"' => l.readQuoted false
  | '%' | '@' | '\x60' => none
  | _ => l.readPlain

/-- The token that stands here. -/
def read (l : Lexer) : Option Lexer :=
  let c := l.cursor
  if c.column == 0 && c.next? == some '%' then l.readDirective
  else if c.atDocumentStart then l.readDocumentStart
  else if c.atDocumentEnd then l.readDocumentEnd
  else if c.isLeftOf l.indent then none
  else c.next?.bind fun a => l.readMark a

/-- All tokens at the end of the text. -/
def finish (l : Lexer) : Option (List Token) :=
  if l.candidates.any fun k => k.isPossible && k.isRequired then none
  else some (l.closeBlocks (-1)).tokens.reverse

/-- All tokens; the number bounds how many are left. -/
def readAll : Nat → Lexer → Option (List Token)
  | 0, _ => none
  | bound + 1, l => do
    let l ← (← l.toNext).dropStaleKeys
    let l := l.closeBlocks l.cursor.column
    if l.cursor.atEnd then l.finish else readAll bound (← l.read)

end Lexer

def Token.ofText? (cs : List Char) : Option (List Token) :=
  (Lexer.start cs).readAll (cs.length + 2)

end AuditTrail.Yaml
