import AuditTrail.Time.Instant
/-!
# Writing instants

One form with three choices: what stands between date and time, how many digits the fraction has,
and how universal time is named. A year from 0 to 9999 has four digits; any other has a sign and at
least four.
-/

namespace AuditTrail

/-- The digit of a number below ten. -/
def decimalDigit (n : Nat) : Char := Char.ofNat (48 + n % 10)

/-- The last `width` digits of a number. -/
def lastDigits : Nat → Nat → List Char
  | 0, _ => []
  | width + 1, n => lastDigits width (n / 10) ++ [decimalDigit n]

/-- A number with zeros in front up to four digits. -/
def atLeastFour (n : Nat) : List Char :=
  if n < 10000 then lastDigits 4 n else Nat.toDigits 10 n

def writeYear (year : Int) : List Char :=
  if 0 ≤ year ∧ year ≤ 9999 then lastDigits 4 year.toNat
  else (if year < 0 then '-' else '+') :: atLeastFour year.natAbs

/-- Year, month and day with hyphens between them. -/
def Date.write (d : Date) : List Char :=
  writeYear d.year ++ '-' :: lastDigits 2 d.month ++ '-' :: lastDigits 2 d.day

def Date.text (d : Date) : String := String.ofList d.write

namespace Instant

/-- Hours, minutes and seconds with colons between them. -/
def writeClock (t : Instant) : List Char :=
  lastDigits 2 t.hour ++ ':' :: lastDigits 2 t.minute ++ ':' :: lastDigits 2 t.shownSecond

/-- All nine digits of the fraction. -/
def fullFraction (t : Instant) : List Char := '.' :: lastDigits 9 t.shownNano

/-- The fraction with the fewest of 0, 3, 6 and 9 digits that is exact. -/
def briefFraction (t : Instant) : List Char :=
  let n := t.shownNano
  if n = 0 then []
  else if n % 1000000 = 0 then '.' :: lastDigits 3 (n / 1000000)
  else if n % 1000 = 0 then '.' :: lastDigits 6 (n / 1000)
  else '.' :: lastDigits 9 n

/-- The form that is hashed and signed: nine digits of fraction, always. -/
def writeCanonical (t : Instant) : List Char :=
  t.date.write ++ 'T' :: t.writeClock ++ t.fullFraction ++ ['Z']

/-- The form that is hashed and signed. -/
def canonical (t : Instant) : String := String.ofList t.writeCanonical

/-- The form that records hold. -/
def write (t : Instant) : List Char :=
  t.date.write ++ 'T' :: t.writeClock ++ t.briefFraction ++ ['Z']

/-- The form that records hold. -/
def text (t : Instant) : String := String.ofList t.write

/-- The form with a numeric offset, for messages. -/
def offsetText (t : Instant) : String :=
  String.ofList
    (t.date.write ++ 'T' :: t.writeClock ++ t.briefFraction ++ ['+', '0', '0', ':', '0', '0'])

/-- The form with blanks, for listings. -/
def plainText (t : Instant) : String :=
  String.ofList (t.date.write ++ ' ' :: t.writeClock ++ t.briefFraction ++ [' ', 'U', 'T', 'C'])

end Instant

end AuditTrail
