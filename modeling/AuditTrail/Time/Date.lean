/-!
# Calendar dates

Dates of the Gregorian calendar, carried back before its introduction, in the years from -262143 to
262142. A date is kept as year, month and day; `dayNumber` counts days, for differences and for
dates a number of days later.
-/

namespace AuditTrail

/-- A year of 366 days. -/
def isLeapYear (year : Int) : Bool :=
  year % 4 == 0 && (year % 100 != 0 || year % 400 == 0)

/-- How many days a month has. -/
def daysInMonth (year : Int) (month : Nat) : Nat :=
  if month = 2 then (if isLeapYear year then 29 else 28)
  else if month = 4 ∨ month = 6 ∨ month = 9 ∨ month = 11 then 30
  else 31

def firstYear : Int := -262143

def lastYear : Int := 262142

/-- Year, month and day name a date. -/
def isDate (year : Int) (month day : Nat) : Bool :=
  decide (firstYear ≤ year ∧ year ≤ lastYear ∧ 1 ≤ month ∧ month ≤ 12 ∧ 1 ≤ day ∧
    day ≤ daysInMonth year month)

/-- A day of the calendar. -/
structure Date where
  year : Int
  month : Nat
  day : Nat
  valid : isDate year month day = true
deriving DecidableEq

namespace Date

def ofParts? (year : Int) (month day : Nat) : Option Date :=
  if h : isDate year month day = true then some ⟨year, month, day, h⟩ else none

/-- A number that grows with the date. -/
def key (d : Date) : Int := (d.year * 16 + d.month) * 32 + d.day

instance : LT Date := ⟨fun a b => a.key < b.key⟩
instance : LE Date := ⟨fun a b => a.key ≤ b.key⟩
instance (a b : Date) : Decidable (a < b) := inferInstanceAs (Decidable (a.key < b.key))
instance (a b : Date) : Decidable (a ≤ b) := inferInstanceAs (Decidable (a.key ≤ b.key))

/-- The days from 1970-01-01 to the date. Years are counted from March, so that the leap day comes
last, in blocks of 400 years of 146097 days each. -/
def dayNumber (d : Date) : Int :=
  let year := if d.month ≤ 2 then d.year - 1 else d.year
  let block := year / 400
  let yearOfBlock := year % 400
  let month : Int := if d.month ≤ 2 then d.month + 9 else d.month - 3
  let dayOfYear := (153 * month + 2) / 5 + d.day - 1
  let dayOfBlock := yearOfBlock * 365 + yearOfBlock / 4 - yearOfBlock / 100 + dayOfYear
  block * 146097 + dayOfBlock - 719468

/-- The date so many days after 1970-01-01, if it is in the calendar. -/
def ofDayNumber? (n : Int) : Option Date :=
  let n := n + 719468
  let block := n / 146097
  let dayOfBlock := n % 146097
  let yearOfBlock :=
    (dayOfBlock - dayOfBlock / 1460 + dayOfBlock / 36524 - dayOfBlock / 146096) / 365
  let dayOfYear := dayOfBlock - (365 * yearOfBlock + yearOfBlock / 4 - yearOfBlock / 100)
  let shifted := (5 * dayOfYear + 2) / 153
  let day := dayOfYear - (153 * shifted + 2) / 5 + 1
  let month := if shifted < 10 then shifted + 3 else shifted - 9
  let year := yearOfBlock + block * 400
  ofParts? (if month ≤ 2 then year + 1 else year) month.toNat day.toNat

/-- The day after, if it is in the calendar. -/
def next? (d : Date) : Option Date :=
  if d.day < daysInMonth d.year d.month then ofParts? d.year d.month (d.day + 1)
  else if d.month < 12 then ofParts? d.year (d.month + 1) 1
  else ofParts? (d.year + 1) 1 1

/-- The day before, if it is in the calendar. -/
def previous? (d : Date) : Option Date :=
  if 1 < d.day then ofParts? d.year d.month (d.day - 1)
  else if 1 < d.month then ofParts? d.year (d.month - 1) (daysInMonth d.year (d.month - 1))
  else ofParts? (d.year - 1) 12 31

end Date

end AuditTrail
