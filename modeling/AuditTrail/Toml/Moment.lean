import AuditTrail.CoreInstances
import AuditTrail.Decimal.Literal
import AuditTrail.Time.Printer
/-!
# Dates and times in TOML

A date, a time of day, or both, in which case the distance from universal time may follow. Numbers
have a fixed width; a fraction counts up to its ninth digit. Read strictly, a time lies within a
day; read loosely it may have an hour 24, and a distance may be anything up to a day.
-/

namespace AuditTrail.Toml

open scoped CoreInstances

open Decimal (digitsValue isDigit)

/-- A time of day. -/
structure Clock where
  hour : Nat
  minute : Nat
  second : Nat
  nano : Nat
deriving DecidableEq, Repr

/-- A distance from universal time. -/
inductive ZoneOffset where
  | universal
  | minutes (isNegative : Bool) (count : Nat)
deriving DecidableEq, Repr

/-- A date, a time or both. -/
structure Moment where
  date : Option Date
  clock : Option Clock
  zone : Option ZoneOffset

/-! ## Writing -/

/-- A fraction of a second without zeros at its end, and nothing for none. -/
def writeFraction (nano : Nat) : List Char :=
  if nano = 0 then []
  else '.' :: ((lastDigits 9 nano).reverse.dropWhile (· == '0')).reverse

/-- The text of a time of day. -/
def Clock.write (t : Clock) : List Char :=
  lastDigits 2 t.hour ++ ':' :: lastDigits 2 t.minute ++ ':' :: lastDigits 2 t.second ++
    writeFraction t.nano

/-- The text of a distance from universal time; none at all is a positive one. -/
def ZoneOffset.write : ZoneOffset → List Char
  | .universal => ['Z']
  | .minutes isNegative count =>
    (if isNegative && count != 0 then '-' else '+') :: lastDigits 2 (count / 60) ++
      ':' :: lastDigits 2 (count % 60)

namespace Moment

/-- The text of a date, a time or both. -/
def write (m : Moment) : List Char :=
  (m.date.map Date.write).getD [] ++ (if m.date.isSome && m.clock.isSome then ['T'] else []) ++
    (m.clock.map Clock.write).getD [] ++ (m.zone.map ZoneOffset.write).getD []

/-! ## Reading -/

/-- A number of a fixed width. -/
def number? (width : Nat) (cs : List Char) : Option (Nat × List Char) :=
  let ds := cs.take width
  if ds.length = width ∧ ds.all isDigit then some (digitsValue ds, cs.drop width) else none

/-- What follows a mark. -/
def mark? (mark : Char) : List Char → Option (List Char)
  | c :: rest => if c = mark then some rest else none
  | [] => none

/-- The text starts with digits and a mark behind them. -/
def startsWith (width : Nat) (mark : Char) (cs : List Char) : Bool :=
  (number? width cs).any fun found => found.2.head? == some mark

def startsDate (cs : List Char) : Bool := startsWith 4 '-' cs

/-- The text starts like a time. -/
def startsClock (cs : List Char) : Bool := startsWith 2 ':' cs

def date? (cs : List Char) : Option (Date × List Char) := do
  let (year, cs) ← number? 4 cs
  let (month, cs) ← number? 2 (← mark? '-' cs)
  let (day, cs) ← number? 2 (← mark? '-' cs)
  return (← Date.ofParts? year month day, cs)

/-- A fraction of a second, if a point stands in front. -/
def fraction? : List Char → Option (Nat × List Char)
  | '.' :: rest =>
    let ds := rest.takeWhile isDigit
    let kept := ds.take 9
    if ds.isEmpty then none
    else some (digitsValue kept * 10 ^ (9 - kept.length), rest.drop ds.length)
  | cs => some (0, cs)

/-- A time of day. -/
def clock? (isStrict : Bool) (cs : List Char) : Option (Clock × List Char) := do
  let (hour, cs) ← number? 2 cs
  let (minute, cs) ← number? 2 (← mark? ':' cs)
  let (second, cs) ← number? 2 (← mark? ':' cs)
  let (nano, cs) ← fraction? cs
  let lastHour := if isStrict then 23 else 24
  if hour ≤ lastHour ∧ minute ≤ 59 ∧ second ≤ 60 then
    return (⟨hour, minute, second, nano⟩, cs)
  else none

/-- The distance from universal time that hours and minutes write. -/
def offset? (isStrict isNegative : Bool) (cs : List Char) : Option (ZoneOffset × List Char) := do
  let (hours, cs) ← number? 2 cs
  let (minutes, cs) ← number? 2 (← mark? ':' cs)
  let count := 60 * hours + minutes
  if if isStrict then hours ≤ 23 ∧ minutes ≤ 59 else count ≤ 24 * 60 then
    return (.minutes isNegative count, cs)
  else none

/-- A distance from universal time, if one stands in front. -/
def zone? (isStrict : Bool) : List Char → Option (Option ZoneOffset × List Char)
  | 'Z' :: rest | 'z' :: rest => some (some .universal, rest)
  | '+' :: rest => (offset? isStrict false rest).map fun (zone, rest) => (some zone, rest)
  | '-' :: rest => (offset? isStrict true rest).map fun (zone, rest) => (some zone, rest)
  | cs => some (none, cs)

/-- The time behind a date, if there is one. -/
def clockBehind (cs : List Char) : Option (List Char) :=
  match cs with
  | c :: rest =>
    if (c == 'T' || c == 't' || c == ' ') && startsClock rest then some rest else none
  | [] => none

/-- A date, a time or both, and what follows them. -/
def read? (isStrict : Bool) (cs : List Char) : Option (Moment × List Char) :=
  if startsDate cs then do
    let (date, cs) ← date? cs
    match clockBehind cs with
    | none => return (⟨some date, none, none⟩, cs)
    | some rest =>
      let (clock, rest) ← clock? isStrict rest
      let (zone, rest) ← zone? isStrict rest
      return (⟨some date, some clock, zone⟩, rest)
  else (clock? isStrict cs).map fun (clock, rest) => (⟨none, some clock, none⟩, rest)

end Moment

end AuditTrail.Toml
