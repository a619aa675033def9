import AuditTrail.Decimal.Shortest
import AuditTrail.Json.Basic
/-!
# Writing JSON

The compact form: no blanks, members in the order in which the object holds them. Inside a string
only quotes, backslashes and control characters are escaped, those with a short form by it and the
others by four digits.
-/

namespace AuditTrail

open Decimal (Binary64 Layout)

namespace Json

/-- The lower-case hexadecimal digit of a number below sixteen. -/
def hexDigit (n : Nat) : Char :=
  if n < 10 then Char.ofNat (48 + n) else Char.ofNat (87 + n)

/-- A character as it stands inside a string. -/
def escape (c : Char) : List Char :=
  if c = '"' then ['\\', '"']
  else if c = '\\' then ['\\', '\\']
  else if c = '\n' then ['\\', 'n']
  else if c = '\r' then ['\\', 'r']
  else if c = '\t' then ['\\', 't']
  else if c.toNat = 8 then ['\\', 'b']
  else if c.toNat = 12 then ['\\', 'f']
  else if c.toNat < 32 then ['\\', 'u', '0', '0', hexDigit (c.toNat / 16), hexDigit (c.toNat % 16)]
  else [c]

/-- A string with its quotes. -/
def writeString (s : String) : List Char :=
  '"' :: s.toList.flatMap escape ++ ['"']

/-- A number: an integer by its digits, a double by its shortest decimal. -/
def writeNumber : Number → List Char
  | .natural n => Nat.toDigits 10 n.toNat
  | .negative n => '-' :: Nat.toDigits 10 n.toNat
  | .double x => x.write Layout.json

mutual

def write : Json → List Char
  | .null => ['n', 'u', 'l', 'l']
  | .bool true => ['t', 'r', 'u', 'e']
  | .bool false => ['f', 'a', 'l', 's', 'e']
  | .number n => writeNumber n
  | .string s => writeString s
  | .array items => '[' :: writeItems items
  | .object members => '{' :: writeMembers members
  | .flawed _ => []

/-- The items of an array and its closing bracket. -/
def writeItems : List Json → List Char
  | [] => [']']
  | j :: rest => write j ++ writeMoreItems rest

/-- The items of an array after its first one, each behind a comma, and the closing bracket. -/
def writeMoreItems : List Json → List Char
  | [] => [']']
  | j :: rest => ',' :: write j ++ writeMoreItems rest

/-- The members of an object and its closing brace. -/
def writeMembers : List (String × Json) → List Char
  | [] => ['}']
  | (k, j) :: rest => writeString k ++ ':' :: write j ++ writeMoreMembers rest

/-- The members of an object after its first one, each behind a comma, and the closing brace. -/
def writeMoreMembers : List (String × Json) → List Char
  | [] => ['}']
  | (k, j) :: rest => ',' :: writeString k ++ ':' :: write j ++ writeMoreMembers rest

end

/-- The compact text of a value. -/
def render (j : Json) : String := String.ofList j.write

end Json

end AuditTrail
