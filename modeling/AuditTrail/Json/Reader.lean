import AuditTrail.CoreInstances
import AuditTrail.Decimal.Literal
import AuditTrail.Decimal.Stepwise
import AuditTrail.Json.Basic
/-!
# Reading JSON

A text is read as far as it is JSON. The result is always a tree: where the text stops being JSON
the tree has the leaf `malformed`, and nothing after it, so that whoever walks the tree in order
meets the faults of a text in the order in which the text has them.

Levels are counted down while reading; an array or object with no level left is read but unusable.
-/

namespace AuditTrail.Json

open scoped CoreInstances

open Decimal (digitsValue isDigit)

/-- The four characters that may stand between the parts of a text. -/
def isSpace (c : Char) : Bool := c == ' ' || c == '\n' || c == '\t' || c == '\r'

/-- The text from its first character that is no space. -/
def skipSpace (cs : List Char) : List Char := cs.dropWhile isSpace

/-- The value of a hexadecimal digit in either case. -/
def hexValue? (c : Char) : Option Nat :=
  if '0' ≤ c ∧ c ≤ '9' then some (c.toNat - 48)
  else if 'a' ≤ c ∧ c ≤ 'f' then some (c.toNat - 87)
  else if 'A' ≤ c ∧ c ≤ 'F' then some (c.toNat - 55)
  else none

/-- The code unit written by four hexadecimal digits. -/
def codeUnit? (a b c d : Char) : Option Nat := do
  return (← hexValue? a) * 4096 + (← hexValue? b) * 256 + (← hexValue? c) * 16 + (← hexValue? d)

/-- What is left of a text behind a string. -/
structure Scan where
  /-- The characters of the string. -/
  chars : List Char
  /-- Every escape stands for a character. -/
  isClean : Bool
  /-- What follows the closing quote. -/
  rest : List Char

/-- The scan with one more character in front. -/
def Scan.push (c : Char) (s : Scan) : Scan := { s with chars := c :: s.chars }

/-- The scan of a string that has an escape without a character. -/
def Scan.spoil (s : Scan) : Scan := { s with isClean := false }

/-- The character that a one-letter escape stands for. -/
def shortEscape? (c : Char) : Option Char :=
  if c = '"' then some '"'
  else if c = '\\' then some '\\'
  else if c = '/' then some '/'
  else if c = 'b' then some (Char.ofNat 8)
  else if c = 'f' then some (Char.ofNat 12)
  else if c = 'n' then some '\n'
  else if c = 'r' then some '\r'
  else if c = 't' then some '\t'
  else none

/-- The scan behind a first half of a surrogate pair that no second half followed. -/
def Scan.settle (pending : Option Nat) (s : Scan) : Scan :=
  if pending.isSome then s.spoil else s

/-- The code unit is the first half of a surrogate pair. -/
def isHighHalf (unit : Nat) : Bool := decide (0xD800 ≤ unit ∧ unit < 0xDC00)

/-- The code unit is the second half of a surrogate pair. -/
def isLowHalf (unit : Nat) : Bool := decide (0xDC00 ≤ unit ∧ unit < 0xE000)

/-- The character that two halves stand for. -/
def pairedChar (high low : Nat) : Char :=
  Char.ofNat (0x10000 + (high - 0xD800) * 1024 + (low - 0xDC00))

/-- The rest of a string behind its opening quote, or nothing if it is no string. The first half of
a surrogate pair is pending until the next character shows whether the second one follows. -/
def scanString : Option Nat → List Char → Option Scan
  | _, [] => none
  | pending, '"' :: rest => some ⟨[], pending.isNone, rest⟩
  | pending, '\\' :: 'u' :: a :: b :: c :: d :: rest =>
    match codeUnit? a b c d with
    | none => none
    | some unit =>
      if isHighHalf unit then (scanString (some unit) rest).map (Scan.settle pending)
      else if isLowHalf unit then
        match pending with
        | some high => (scanString none rest).map (Scan.push (pairedChar high unit))
        | none => (scanString none rest).map Scan.spoil
      else (scanString none rest).map fun s => (s.push (Char.ofNat unit)).settle pending
  | pending, '\\' :: c :: rest =>
    match shortEscape? c with
    | none => none
    | some e => (scanString none rest).map fun s => (s.push e).settle pending
  | pending, c :: rest =>
    if c = '\\' ∨ c.toNat < 32 then none
    else (scanString none rest).map fun s => (s.push c).settle pending

/-- The number that a sign, digits before the point, digits behind it and an exponent write: an
integer as long as it has neither point nor exponent and fits, else the double that the quick way
gives. -/
def numberOf (negative : Bool) (whole : List Char) (part : Option (List Char))
    (exponent : Option Int) : Json :=
  let asDouble : Json :=
    match Decimal.stepwise? negative whole (part.getD []) (exponent.getD 0) with
    | some x => .number (.double x)
    | none => .flawed .unusable
  let n := digitsValue whole
  if part.isSome || exponent.isSome then asDouble
  else if negative then
    if n = 0 ∨ 2 ^ (63 : Nat) < n then asDouble else .number (.negative (UInt64.ofNat n))
  else if n < 2 ^ (64 : Nat) then .number (.natural (UInt64.ofNat n))
  else asDouble

/-- The digits behind a point, if there is a point; a point needs a digit behind it. -/
def scanPart : List Char → Option (Option (List Char) × List Char)
  | '.' :: rest =>
    let ds := rest.takeWhile isDigit
    if ds.isEmpty then none else some (some ds, rest.dropWhile isDigit)
  | cs => some (none, cs)

/-- The exponent, if there is one; its letter needs a digit behind it. -/
def scanExponent : List Char → Option (Option Int × List Char)
  | [] => some (none, [])
  | c :: rest =>
    if c = 'e' ∨ c = 'E' then
      let (negative, rest) := Decimal.splitSign rest
      let ds := rest.takeWhile isDigit
      if ds.isEmpty then none
      else some (some (if negative then -(digitsValue ds : Int) else digitsValue ds),
        rest.dropWhile isDigit)
    else some (none, c :: rest)

/-- A number and what follows it. -/
def scanNumber (cs : List Char) : Option (Json × List Char) :=
  let (negative, unsigned) := match cs with
    | '-' :: rest => (true, rest)
    | _ => (false, cs)
  let whole := unsigned.takeWhile isDigit
  if whole.isEmpty || (whole.head? == some '0' && 1 < whole.length) then none
  else
    match scanPart (unsigned.dropWhile isDigit) with
    | none => none
    | some (part, afterPart) =>
      match scanExponent afterPart with
      | none => none
      | some (exponent, rest) => some (numberOf negative whole part exponent, rest)

/-- The place from which on a text is no JSON. -/
def broken : Json × List Char := (.flawed .malformed, [])

/-- An array or object that has no level of its own left. -/
def tooDeep (j : Json) : Json :=
  if j.isSkippable then .flawed .unusable else .flawed .malformed

/-- A member with a key and a value. A key that cannot be held leaves the value none either. -/
def keyed (key : Scan) (j : Json) : String × Json :=
  if key.isClean then (String.ofList key.chars, j)
  else ("", .flawed (if j.isSkippable then .keyless else .malformed))

mutual

/-- A value with at most so many levels, and what follows it. -/
def readValue : Nat → Nat → List Char → Json × List Char
  | 0, _, _ => broken
  | fuel + 1, levels, cs =>
    match skipSpace cs with
    | [] => broken
    | '"' :: rest =>
      match scanString none rest with
      | none => broken
      | some s => (if s.isClean then .string (String.ofList s.chars) else .flawed .unusable, s.rest)
    | '[' :: rest =>
      let (items, rest) := readItems fuel (levels - 1) rest
      (if levels = 0 then tooDeep (.array items) else .array items, rest)
    | '{' :: rest =>
      let (members, rest) := readMembers fuel (levels - 1) rest
      (if levels = 0 then tooDeep (.object members) else .object members, rest)
    | 'n' :: 'u' :: 'l' :: 'l' :: rest => (.null, rest)
    | 't' :: 'r' :: 'u' :: 'e' :: rest => (.bool true, rest)
    | 'f' :: 'a' :: 'l' :: 's' :: 'e' :: rest => (.bool false, rest)
    | c :: rest => (scanNumber (c :: rest)).getD broken

/-- The items of an array behind its opening bracket, and what follows the closing one. -/
def readItems : Nat → Nat → List Char → List Json × List Char
  | 0, _, _ => ([.flawed .malformed], [])
  | fuel + 1, levels, cs =>
    match skipSpace cs with
    | ']' :: rest => ([], rest)
    | _ =>
      let (j, rest) := readValue fuel levels cs
      let (more, rest) := readMoreItems fuel levels rest
      (j :: more, rest)

/-- The items of an array behind its first one, and what follows the closing bracket. -/
def readMoreItems : Nat → Nat → List Char → List Json × List Char
  | 0, _, _ => ([.flawed .malformed], [])
  | fuel + 1, levels, cs =>
    match skipSpace cs with
    | ']' :: rest => ([], rest)
    | ',' :: rest =>
      let (j, rest) := readValue fuel levels rest
      let (more, rest) := readMoreItems fuel levels rest
      (j :: more, rest)
    | _ => ([.flawed .malformed], [])

/-- The members of an object behind its opening brace, and what follows the closing one. -/
def readMembers : Nat → Nat → List Char → List (String × Json) × List Char
  | 0, _, _ => ([("", .flawed .malformed)], [])
  | fuel + 1, levels, cs =>
    match skipSpace cs with
    | '}' :: rest => ([], rest)
    | _ =>
      let (m, rest) := readMember fuel levels cs
      let (more, rest) := readMoreMembers fuel levels rest
      (m :: more, rest)

/-- The members of an object behind its first one, and what follows the closing brace. -/
def readMoreMembers : Nat → Nat → List Char → List (String × Json) × List Char
  | 0, _, _ => ([("", .flawed .malformed)], [])
  | fuel + 1, levels, cs =>
    match skipSpace cs with
    | '}' :: rest => ([], rest)
    | ',' :: rest =>
      let (m, rest) := readMember fuel levels rest
      let (more, rest) := readMoreMembers fuel levels rest
      (m :: more, rest)
    | _ => ([("", .flawed .malformed)], [])

/-- A member: a key, a colon and a value. The key counts also where no colon follows it. -/
def readMember : Nat → Nat → List Char → (String × Json) × List Char
  | 0, _, _ => (("", .flawed .malformed), [])
  | fuel + 1, levels, cs =>
    match skipSpace cs with
    | '"' :: rest =>
      match scanString none rest with
      | none => (("", .flawed .malformed), [])
      | some key =>
        match skipSpace key.rest with
        | ':' :: rest =>
          let (j, rest) := readValue fuel levels rest
          (keyed key j, rest)
        | _ => (keyed key (.flawed .malformed), [])
    | _ => (("", .flawed .malformed), [])

end

/-- The most levels that a text may nest. -/
def maxLevels : Nat := 127

/-- The value at the front of a text, and what follows it. Every call of the readers that does not
take a character is followed by one that does, which bounds their number. -/
def readFront (cs : List Char) : Json × List Char :=
  readValue (3 * cs.length + 3) maxLevels cs

/-- The value that a whole text writes. -/
def read (s : String) : Json :=
  let (j, rest) := readFront s.toList
  if (skipSpace rest).isEmpty then j else .flawed .malformed

end AuditTrail.Json
