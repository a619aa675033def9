import AuditTrail.Toml.Number
import AuditTrail.Toml.Table
/-!
# Keys and values in TOML

A key is a word or a string, or several of them with dots between. A list may go over lines and hold
comments; a table in braces stands on one line.
-/

namespace AuditTrail.Toml

/-- One more than the number of lists and tables that may lie inside each other, and of the parts
that a key may have. -/
def maxLevels : Nat := 80

/-! ## Keys -/

/-- A character of a key without quotes. -/
def isKeyChar (c : Char) : Bool := c.isAlphanum || c == '_' || c == '-'

def keyPart? (cs : List Char) : Option (String × List Char) :=
  let word := cs.takeWhile isKeyChar
  if word.isEmpty then (lineString? cs).map fun (text, rest) => (String.ofList text, rest)
  else some (String.ofList word, cs.drop word.length)

/-- The parts of a key, at most as many as the number, and what follows them. -/
def keyParts? : Nat → List Char → Option (List String × List Char)
  | 0, _ => none
  | bound + 1, cs => do
    let (part, rest) ← keyPart? (dropGaps cs)
    match dropGaps rest with
    | '.' :: rest =>
      let (parts, rest) ← keyParts? bound rest
      return (part :: parts, rest)
    | rest => return ([part], rest)

/-- The parts of a key and what follows them. -/
def key? (cs : List Char) : Option (List String × List Char) := keyParts? (maxLevels - 1) cs

/-- The parts of the key in front of an equals sign, and what follows the sign. -/
def keySign? (cs : List Char) : Option (List String × List Char) := do
  match ← key? cs with
  | (parts, '=' :: rest) => return (parts, rest)
  | _ => none

/-! ## Values -/

/-- A value that is no list and no table, and what follows it. -/
def scalar? (cs : List Char) : Option (Value × List Char) :=
  match cs with
  | '"' :: _ | '\'' :: _ => (string? cs).map fun (text, rest) => (.text (String.ofList text), rest)
  | 't' :: 'r' :: 'u' :: 'e' :: rest => some (.flag true, rest)
  | 'f' :: 'a' :: 'l' :: 's' :: 'e' :: rest => some (.flag false, rest)
  | _ =>
    if Moment.startsDate cs || Moment.startsClock cs then
      (Moment.read? true cs).map fun (m, rest) => (.moment m, rest)
    else
      (numeral? cs).map fun (n, rest) =>
        match n with
        | .integer n => (.integer n, rest)
        | .double x => (.double x, rest)

mutual

/-- A value and what follows it: the first number bounds how many steps it takes, the second one how
many lists and tables lie inside each other. -/
def value? : Nat → Nat → List Char → Option (Value × List Char)
  | 0, _, _ => none
  | bound + 1, levels, cs =>
    match levels, cs with
    | 0, '[' :: _ | 0, '{' :: _ => none
    | levels + 1, '[' :: rest =>
      (items? bound levels rest).map fun (items, rest) => (.list items, rest)
    | levels + 1, '{' :: rest =>
      match dropGaps rest with
      | '}' :: rest => some (.table [], rest)
      | rest =>
        (entries? bound levels [] rest).map fun (entries, rest) =>
          (.table (closeEntries entries), rest)
    | _, _ => scalar? cs

/-- The items of a list up to its closing bracket, a comma behind each of them but the last one,
where it may be left out. -/
def items? : Nat → Nat → List Char → Option (List Value × List Char)
  | 0, _, _ => none
  | bound + 1, levels, cs =>
    match dropLines cs.length cs with
    | ']' :: rest => some ([], rest)
    | cs => do
      let (item, rest) ← value? bound levels cs
      match dropLines rest.length rest with
      | ']' :: rest => return ([item], rest)
      | ',' :: rest =>
        let (items, rest) ← items? bound levels rest
        return (item :: items, rest)
      | _ => none

/-- The entries of a table in braces on top of those there are, and what follows it. -/
def entries? : Nat → Nat → Entries → List Char → Option (Entries × List Char)
  | 0, _, _, _ => none
  | bound + 1, levels, entries, cs => do
    let (parts, rest) ← keySign? cs
    let (v, rest) ← value? bound levels (dropGaps rest)
    let entries ← entries.set? v parts
    match dropGaps rest with
    | '}' :: rest => return (entries, rest)
    | ',' :: rest => entries? bound levels entries rest
    | _ => none

end

end AuditTrail.Toml
