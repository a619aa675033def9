import AuditTrail.Decimal.Literal
import AuditTrail.Text.Split
/-!
# Names of settings

The name of a setting tells a place: a key of the outermost table, and behind it further keys, each
after a dot, and places in lists, each a number between square brackets. A name that is not written
like this is one key. Capitals count as small letters.
-/

namespace AuditTrail

/-- A step to a place among settings. -/
inductive SettingStep where
  /-- To the entry of a table. -/
  | key (name : String)
  /-- To an item of a list; a negative number counts from the end. -/
  | item (index : Int)
deriving DecidableEq, Repr

namespace SettingStep

def isKeyChar (c : Char) : Bool := c.isAlphanum || c == '_' || c == '-' || c == ' '

/-- The key that stands in front, and what follows it. -/
def takeKey? (cs : List Char) : Option (SettingStep × List Char) :=
  let name := cs.takeWhile isKeyChar
  if name.isEmpty then none else some (.key (String.ofList name), cs.drop name.length)

/-- The text without spaces and tabs in front. -/
def dropGaps (cs : List Char) : List Char := cs.dropWhile fun c => c == ' ' || c == '\t'

/-- The number in brackets that stands in front, and what follows the closing bracket. -/
def takeItem? (cs : List Char) : Option (SettingStep × List Char) := do
  let cs := dropGaps cs
  let sign := if cs.head? == some '-' then 1 else 0
  let digits := (cs.drop sign).takeWhile Decimal.isDigit
  let index ← Decimal.int64? (cs.take sign ++ digits)
  match dropGaps (cs.drop (sign + digits.length)) with
  | ']' :: rest => return (.item index, rest)
  | _ => none

/-- The steps that follow the first key; the number bounds how many there are. -/
def takeMore? : Nat → List Char → Option (List SettingStep)
  | _, [] => some []
  | 0, _ :: _ => none
  | bound + 1, c :: rest => do
    let (step, rest) ← if c = '.' then takeKey? rest else if c = '[' then takeItem? rest else none
    return step :: (← takeMore? bound rest)

/-- The steps that a name tells. -/
def ofName (name : String) : List SettingStep :=
  let small := Text.small name
  let steps := do
    let (step, rest) ← takeKey? small.toList
    return step :: (← takeMore? rest.length rest)
  steps.getD [.key small]

end SettingStep

end AuditTrail
