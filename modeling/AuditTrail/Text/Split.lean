/-!
# Splitting text

A row of characters cut at every place where a separator stands. There is always one piece more than
there are separators.
-/

namespace AuditTrail.Text

/-- The pieces of a row between the separators. -/
def splitAt (separator : Char) : List Char → List (List Char)
  | [] => [[]]
  | c :: cs =>
    if c = separator then [] :: splitAt separator cs
    else
      match splitAt separator cs with
      | [] => [[c]]
      | piece :: rest => (c :: piece) :: rest

/-- The pieces of a text between the separators. -/
def split (separator : Char) (s : String) : List String :=
  (splitAt separator s.toList).map String.ofList

/-- A row cut in two at the first separator, if there is one. -/
def cutAt (separator : Char) (cs : List Char) : Option (List Char × List Char) :=
  match cs.dropWhile (· != separator) with
  | [] => none
  | _ :: rest => some (cs.takeWhile (· != separator), rest)

/-- A text with its ASCII capitals made small. -/
def lowered (s : String) : String := String.ofList (s.toList.map Char.toLower)

/-- The small letter for a capital. Of the letters beyond ASCII only the sign for kelvin has an
ASCII letter for its small one, so names that are compared with ASCII names need no others. -/
def smallLetter (c : Char) : Char := if c = '\u212a' then 'k' else c.toLower

/-- A text with its capitals made small. -/
def small (s : String) : String := String.ofList (s.toList.map smallLetter)

end AuditTrail.Text
