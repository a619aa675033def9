import AuditTrail.CoreInstances
import AuditTrail.Decimal.Literal
import AuditTrail.Json.Decode
import AuditTrail.Text.Blank
import AuditTrail.Time.Instant
/-!
# Reading instants

The relaxed form of a date and time: blanks may stand before numbers and separators, month to second
may have one digit, a year with a sign may have any number of digits, and the offset may name
universal time or give hours and minutes. The result is brought to universal time.
-/

namespace AuditTrail

open scoped CoreInstances

open Decimal (digitsValue isDigit)
open Text (dropBlanks isBlank)

/-- The digits at the front of a text, at most `width` of them, and what follows them. -/
def splitDigits : Nat → List Char → List Char × List Char
  | 0, cs => ([], cs)
  | _ + 1, [] => ([], [])
  | width + 1, c :: cs =>
    if isDigit c then
      let (ds, rest) := splitDigits width cs
      (c :: ds, rest)
    else ([], c :: cs)

/-- A number of one to `width` digits behind blanks. -/
def readNumber (width : Nat) (cs : List Char) : Option (Nat × List Char) :=
  let (ds, rest) := splitDigits width (dropBlanks cs)
  if ds.isEmpty then none else some (digitsValue ds, rest)

/-- A number of any length; there is no blank in front of it. -/
def readLongNumber (cs : List Char) : Option (Nat × List Char) :=
  let ds := cs.takeWhile isDigit
  if ds.isEmpty then none else some (digitsValue ds, cs.dropWhile isDigit)

/-- A year behind blanks: up to four digits, or a sign and any number of digits. -/
def readYear (cs : List Char) : Option (Int × List Char) :=
  match dropBlanks cs with
  | '-' :: rest => (readLongNumber rest).map fun (n, rest) => (-(n : Int), rest)
  | '+' :: rest => (readLongNumber rest).map fun (n, rest) => ((n : Int), rest)
  | rest => (readNumber 4 rest).map fun (n, rest) => ((n : Int), rest)

/-- A character behind blanks. -/
def readMark (mark : Char) (cs : List Char) : Option (List Char) :=
  match dropBlanks cs with
  | c :: rest => if c = mark then some rest else none
  | [] => none

def readDate (cs : List Char) : Option (Date × List Char) := do
  let (year, cs) ← readYear cs
  let cs ← readMark '-' cs
  let (month, cs) ← readNumber 2 cs
  let cs ← readMark '-' cs
  let (day, cs) ← readNumber 2 cs
  let date ← Date.ofParts? year month day
  return (date, cs)

/-- The nanoseconds that the first nine digits of a fraction write. -/
def nanosOf (ds : List Char) : Nat :=
  let kept := ds.take 9
  digitsValue kept * 10 ^ (9 - kept.length)

/-- A fraction, if there is one; a point needs a digit behind it. -/
def readFraction : List Char → Option (Nat × List Char)
  | '.' :: rest =>
    let ds := rest.takeWhile isDigit
    if ds.isEmpty then none else some (nanosOf ds, rest.dropWhile isDigit)
  | cs => some (0, cs)

/-- A time of day as second and nanoseconds; second sixty is a leap second. -/
def readClock (cs : List Char) : Option ((Nat × Nat) × List Char) := do
  let (hour, cs) ← readNumber 2 cs
  let cs ← readMark ':' cs
  let (minute, cs) ← readNumber 2 cs
  let cs ← readMark ':' cs
  let (second, cs) ← readNumber 2 cs
  let (nano, cs) ← readFraction cs
  if 23 < hour ∨ 59 < minute ∨ 60 < second then none
  else
    let base := hour * 3600 + minute * 60
    if second = 60 then return ((base + 59, nano + 1000000000), cs)
    else return ((base + second, nano), cs)

/-- Colons and blanks cut off the front. -/
def dropColons (cs : List Char) : List Char :=
  cs.dropWhile fun c => c == ':' || isBlank c

/-- An offset of hours and minutes behind its sign, in minutes. -/
def readOffsetDigits : List Char → Option (Nat × List Char)
  | h₁ :: h₂ :: rest =>
    if isDigit h₁ && isDigit h₂ then
      match dropColons rest with
      | m₁ :: m₂ :: rest =>
        if isDigit m₁ && isDigit m₂ && decide (m₁ < '6') then
          some (digitsValue [h₁, h₂] * 60 + digitsValue [m₁, m₂], rest)
        else none
      | _ => none
    else none
  | _ => none

/-- The offset of a time from universal time, in minutes. -/
def readOffset : List Char → Option (Int × List Char)
  | c :: rest =>
    match (c :: rest).take 3 |>.map Char.toLower with
    | ['u', 't', 'c'] => some (0, (c :: rest).drop 3)
    | _ =>
      if c = 'Z' ∨ c = 'z' then some (0, rest)
      else if c = '+' then (readOffsetDigits rest).map fun (n, rest) => ((n : Int), rest)
      else if c = '-' ∨ c = '\u2212' then
        (readOffsetDigits rest).map fun (n, rest) => (-(n : Int), rest)
      else none
  | [] => none

/-- The moment of universal time that a date and time with an offset below a day stand for. -/
def Instant.ofLocal? (date : Date) (second nano : Nat) (offset : Int) : Option Instant :=
  if 1440 ≤ offset.natAbs then none
  else
    let moved : Int := second - offset * 60
    if moved < 0 then
      date.previous?.bind fun d => Instant.ofParts? d (moved + 86400).toNat nano
    else if 86400 ≤ moved then
      date.next?.bind fun d => Instant.ofParts? d (moved - 86400).toNat nano
    else Instant.ofParts? date moved.toNat nano

/-- The moment that a text of characters names. -/
def Instant.ofChars? (cs : List Char) : Option Instant := do
  let (date, cs) ← readDate cs
  match cs with
  | c :: cs =>
    if c = 'T' ∨ c = 't' ∨ c = ' ' then
      let ((second, nano), cs) ← readClock cs
      let (offset, cs) ← readOffset (dropBlanks cs)
      if (dropBlanks cs).isEmpty then Instant.ofLocal? date second nano offset else none
    else none
  | [] => none

/-- The moment that a text names. -/
def Instant.read? (s : String) : Option Instant := Instant.ofChars? s.toList

/-- A date in its plain form: year, month and day with hyphens between them. -/
def Date.read? (s : String) : Option Date :=
  match readDate s.toList with
  | some (date, []) => some date
  | _ => none

/-- A moment inside JSON is a text. -/
def Json.asInstant : Decoder Instant
  | .string s =>
    match Instant.read? s with
    | some t => .ok t
    | none => .error .mismatch
  | j => .error j.faultOf

end AuditTrail
