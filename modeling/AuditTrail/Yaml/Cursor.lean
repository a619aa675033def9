/-!
# A place in a YAML text

The characters that YAML tells apart, and a cursor: what is left of a text, with the line, the
column and the count of characters in front of it. The reader of a text moves by spaces and tabs, by
other characters, and by line breaks; a cursor is fresh as long as the first kind alone stands
before it on its line.
-/

namespace AuditTrail.Yaml

/-! ## Characters -/

/-- A line break, or half of one. -/
def isBreak (c : Char) : Bool := c == '\n' || c == '\r'

/-- A space or a tab. -/
def isGap (c : Char) : Bool := c == ' ' || c == '\t'

/-- A character that ends a word. -/
def isSpace (c : Char) : Bool := isGap c || isBreak c

def isBracketMark (c : Char) : Bool := [',', '[', ']', '{', '}'].contains c

/-- A letter, a digit, a hyphen or an underscore. -/
def isNameChar (c : Char) : Bool := c.isAlphanum || c == '_' || c == '-'

def isAnchorChar (c : Char) : Bool := !isSpace c && c != '\ufeff' && !isBracketMark c

/-- The marks that may stand in an address besides letters, digits and hyphens. -/
def addressMarks : List Char :=
  ['#', ';', '/', '?', ':', '@', '&', '=', '+', '$', ',', '_', '.', '!', '~', '*', '\'', '(', ')',
    '[', ']', '%']

def isAddressChar (c : Char) : Bool := c.isAlphanum || c == '-' || addressMarks.contains c

/-- A character of the part of a tag behind its handle. -/
def isTagChar (c : Char) : Bool := isAddressChar c && !isBracketMark c && c != '!'

/-! ## Cursors -/

/-- A place in a text. -/
structure Cursor where
  /-- What follows. -/
  rest : List Char
  line : Nat
  column : Nat
  /-- How many characters stand before it. -/
  position : Nat
  /-- Nothing but spaces and tabs stands before it on its line. -/
  isFresh : Bool

namespace Cursor

def start (cs : List Char) : Cursor := ⟨cs, 0, 0, 0, true⟩

/-- The next character. -/
def next? (c : Cursor) : Option Char := c.rest.head?

/-- The character behind the next one. -/
def second? (c : Cursor) : Option Char := c.rest[1]?

/-- The text ends here. -/
def atEnd (c : Cursor) : Bool := c.rest.isEmpty

/-- A line break stands here. -/
def atBreak (c : Cursor) : Bool := c.next?.any isBreak

/-- The line ends here. -/
def atLineEnd (c : Cursor) : Bool := c.next?.all isBreak

/-- A word ends here. -/
def atWordEnd (c : Cursor) : Bool := c.next?.all isSpace

/-- Some spaces and tabs further. -/
def passGaps (n : Nat) (c : Cursor) : Cursor :=
  { c with rest := c.rest.drop n, column := c.column + n, position := c.position + n }

/-- Some characters further. -/
def pass (n : Nat) (c : Cursor) : Cursor :=
  { c.passGaps n with isFresh := c.isFresh && n == 0 }

/-- Behind the line break that stands here. -/
def passBreak (c : Cursor) : Cursor :=
  let length := if c.rest.take 2 == ['\r', '\n'] then 2 else 1
  ⟨c.rest.drop length, c.line + 1, 0, c.position + length, true⟩

/-- The characters of a kind that stand here, and the place behind them. -/
def takeWhile (p : Char → Bool) (c : Cursor) : List Char × Cursor :=
  let cs := c.rest.takeWhile p
  (cs, c.pass cs.length)

/-- Behind the characters of a kind that stand here. -/
def dropWhile (p : Char → Bool) (c : Cursor) : Cursor := (c.takeWhile p).2

/-- At the end of the line. -/
def passLine (c : Cursor) : Cursor := c.dropWhile fun a => !isBreak a

/-- The line is a mark of three characters, or starts with one. -/
def atMark (mark : List Char) (c : Cursor) : Bool :=
  c.column == 0 && c.rest.take 3 == mark && (c.rest[3]?).all isSpace

def atDocumentStart (c : Cursor) : Bool := c.atMark ['-', '-', '-']

/-- A document ends here. -/
def atDocumentEnd (c : Cursor) : Bool := c.atMark ['.', '.', '.']

/-- The column lies left of an indentation. -/
def isLeftOf (c : Cursor) (indent : Int) : Bool := decide ((c.column : Int) < indent)

/-- What stood between a token and the place where its line goes on. -/
structure Trail where
  hasSpace : Bool
  hasTab : Bool
  cursor : Cursor

/-- Behind the spaces that stand here, the tabs among them if they are allowed, and a comment. A
comment needs a space or a tab in front of it. -/
def passTrail (allowTabs : Bool) (c : Cursor) : Option Trail :=
  let gaps := c.rest.takeWhile fun a => a == ' ' || (allowTabs && a == '\t')
  let after := c.passGaps gaps.length
  if after.next? = some '#' then
    if gaps.isEmpty then none
    else some ⟨gaps.contains ' ', gaps.contains '\t', after.passLine⟩
  else some ⟨gaps.contains ' ', gaps.contains '\t', after⟩

end Cursor

end AuditTrail.Yaml
