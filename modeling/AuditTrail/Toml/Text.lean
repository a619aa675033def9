import AuditTrail.Text.Hex
/-!
# Blanks, comments and strings in TOML

A string stands in double quotes, with escapes, or in single quotes, as it is. With three quotes it
may go over lines; a line break right behind the opening quotes does not count, and up to two quotes
may stand in front of the closing ones. No control characters stand in strings or comments, tabs
excepted.
-/

namespace AuditTrail.Toml

/-! ## Blanks and comments -/

/-- A space or a tab. -/
def isGap (c : Char) : Bool := c == ' ' || c == '\t'

/-- The text without spaces and tabs in front. -/
def dropGaps (cs : List Char) : List Char := cs.dropWhile isGap

/-- A character that may stand in a comment, and in a string unless it ends it. -/
def isContent (c : Char) : Bool := c == '\t' || (decide (32 ≤ c.toNat) && c.toNat != 127)

/-- What follows a line break. -/
def dropBreak? : List Char → Option (List Char)
  | '\n' :: rest => some rest
  | '\r' :: '\n' :: rest => some rest
  | _ => none

/-- The text without a comment in front. -/
def dropComment : List Char → List Char
  | '#' :: rest => rest.dropWhile isContent
  | cs => cs

/-- The text behind the end of a line, on which only blanks and a comment are left. -/
def dropLineEnd? (cs : List Char) : Option (List Char) :=
  match dropComment (dropGaps cs) with
  | [] => some []
  | rest => dropBreak? rest

/-- The text without the blanks, comments and line breaks in front; the number bounds how many lines
these take. -/
def dropLines : Nat → List Char → List Char
  | 0, cs => dropGaps cs
  | bound + 1, cs =>
    match dropBreak? (dropComment (dropGaps cs)) with
    | some rest => dropLines bound rest
    | none => dropGaps cs

/-! ## Strings -/

/-- The characters that a backslash and a letter stand for. -/
def escapes : List (Char × Char) :=
  [('b', '\x08'), ('t', '\t'), ('n', '\n'), ('f', '\x0c'), ('r', '\r'), ('"', '"'), ('\\', '\\')]

/-- How many hexadecimal digits follow a letter behind a backslash. -/
def codeLengths : List (Char × Nat) := [('u', 4), ('U', 8)]

/-- The number that digits of some base write. -/
def radixValue? (base : Nat) (ds : List Char) : Option Nat :=
  ds.foldlM (fun n d => do
    let d ← Text.Hex.digitValue? d.toNat
    if d < base then return base * n + d else none) 0

/-- The character that an escape stands for, and the length of the escape; its first character is
the one behind the backslash. -/
def escape? : List Char → Option (Char × Nat)
  | [] => none
  | a :: rest =>
    match codeLengths.lookup a with
    | none => (escapes.lookup a).map (·, 1)
    | some length =>
      if rest.length < length then none
      else
        (radixValue? 16 (rest.take length)).bind fun n =>
          if n.isValidChar then some (Char.ofNat n, length + 1) else none

/-- The text without the blanks and line breaks in front; the number bounds how many lines these
take. -/
def dropBreaks : Nat → List Char → List Char
  | 0, cs => cs
  | bound + 1, cs =>
    match dropBreak? (dropGaps cs) with
    | some rest => dropBreaks bound rest
    | none => dropGaps cs

/-- The text behind an escaped line break and the blanks and line breaks that follow it. -/
def dropEscapedBreak? (cs : List Char) : Option (List Char) :=
  (dropBreak? (dropGaps cs)).map fun rest => dropBreaks (rest.length + 1) rest

/-- The part of a string at a backslash, and what follows it; escaped line breaks stand only in
strings that go over lines. -/
def escaped? (overLines : Bool) (cs : List Char) : Option (List Char × List Char) :=
  match if overLines then dropEscapedBreak? cs else none with
  | some rest => some ([], rest)
  | none => (escape? cs).map fun (c, length) => ([c], cs.drop length)

/-- A string on one line up to its closing quote, and what follows it; the number bounds its
length. -/
def lineString (quote : Char) : Nat → List Char → Option (List Char × List Char)
  | 0, _ | _, [] => none
  | bound + 1, c :: rest =>
    if c = quote then some ([], rest)
    else if quote = '"' ∧ c = '\\' then do
      let (part, rest) ← escaped? false rest
      let (text, rest) ← lineString quote bound rest
      return (part ++ text, rest)
    else if isContent c then (lineString quote bound rest).map fun (text, rest) => (c :: text, rest)
    else none

/-- A string over lines up to its closing quotes, and what follows them; the number bounds its
length. Three quotes close it, and further ones up to two in front of them belong to it. -/
def linesString (quote : Char) : Nat → List Char → Option (List Char × List Char)
  | 0, _ | _, [] => none
  | bound + 1, c :: rest =>
    if c = quote then
      let quotes := 1 + (rest.takeWhile (· == quote)).length
      if quotes < 3 then
        (linesString quote bound rest).map fun (text, rest) => (c :: text, rest)
      else
        let inside := min (quotes - 3) 2
        some (List.replicate inside quote, rest.drop (inside + 2))
    else if quote = '"' ∧ c = '\\' then do
      let (part, rest) ← escaped? true rest
      let (text, rest) ← linesString quote bound rest
      return (part ++ text, rest)
    else if isContent c then
      (linesString quote bound rest).map fun (text, rest) => (c :: text, rest)
    else
      (dropBreak? (c :: rest)).bind fun rest =>
        (linesString quote bound rest).map fun (text, rest) => ('\n' :: text, rest)

/-- A string on one line whose opening quote stands in front. -/
def lineString? : List Char → Option (List Char × List Char)
  | '"' :: rest => lineString '"' (rest.length + 1) rest
  | '\'' :: rest => lineString '\'' (rest.length + 1) rest
  | _ => none

/-- A string whose opening quotes stand in front. -/
def string? : List Char → Option (List Char × List Char)
  | '"' :: '"' :: '"' :: rest => linesString '"' (rest.length + 1) ((dropBreak? rest).getD rest)
  | '\'' :: '\'' :: '\'' :: rest =>
    linesString '\'' (rest.length + 1) ((dropBreak? rest).getD rest)
  | cs => lineString? cs

end AuditTrail.Toml
