import AuditTrail.Time.Date
/-!
# Instants

A moment of universal time: a date, a second of the day, and nanoseconds. A leap second shares its
second with the one before it and has nanoseconds from `10 ^ 9` on; it ends a minute. Instants are
ordered by date, second and nanoseconds.
-/

namespace AuditTrail

/-- Seconds and nanoseconds name a moment of a day. -/
def isTimeOfDay (second nano : Nat) : Bool :=
  decide (second < 86400 ∧ nano < 2000000000 ∧ (1000000000 ≤ nano → second % 60 = 59))

/-- A moment of universal time. -/
structure Instant where
  date : Date
  /-- The second of the day. -/
  second : Nat
  /-- Nanoseconds within the second, from `10 ^ 9` on within a leap second. -/
  nano : Nat
  valid : isTimeOfDay second nano = true
deriving DecidableEq

namespace Instant

/-- The moment with these parts, if there is one. -/
def ofParts? (date : Date) (second nano : Nat) : Option Instant :=
  if h : isTimeOfDay second nano = true then some ⟨date, second, nano, h⟩ else none

/-- A number that grows with the moment. -/
def key (t : Instant) : Int := (t.date.key * 86400 + t.second) * 2000000000 + t.nano

instance : LT Instant := ⟨fun a b => a.key < b.key⟩
instance : LE Instant := ⟨fun a b => a.key ≤ b.key⟩
instance (a b : Instant) : Decidable (a < b) := inferInstanceAs (Decidable (a.key < b.key))
instance (a b : Instant) : Decidable (a ≤ b) := inferInstanceAs (Decidable (a.key ≤ b.key))

/-- The later of two moments. -/
def later (a b : Instant) : Instant := if a < b then b else a

/-- The hour of the day. -/
def hour (t : Instant) : Nat := t.second / 3600

/-- The minute of the hour. -/
def minute (t : Instant) : Nat := t.second / 60 % 60

/-- The second of the minute as it is written: sixty within a leap second. -/
def shownSecond (t : Instant) : Nat := t.second % 60 + t.nano / 1000000000

/-- The nanoseconds as they are written. -/
def shownNano (t : Instant) : Nat := t.nano % 1000000000

/-- The first moment of a date. -/
def startOf (d : Date) : Instant := ⟨d, 0, 0, by decide⟩

/-- Midnight of the first day of the year 1, the moment that stands for none. -/
def unset : Instant := startOf ⟨1, 1, 1, by decide⟩

/-- Nanoseconds from an earlier moment to a later one. A leap second that lies between the two
counts as one second of its own. -/
def nanosSince (later earlier : Instant) : Int :=
  let days := later.date.dayNumber - earlier.date.dayNumber
  let seconds : Int := (later.second : Int) - earlier.second
  let between : Int :=
    if earlier.second < later.second ∧ 1000000000 ≤ earlier.nano then 1
    else if later.second < earlier.second ∧ 1000000000 ≤ later.nano then -1
    else 0
  (days * 86400 + seconds + between) * 1000000000 + ((later.nano : Int) - earlier.nano)

/-- The nanoseconds of the second that a leap second shares. -/
def settledNano (t : Instant) : Nat := if t.nano < 1000000000 then t.nano else t.nano - 1000000000

theorem isTimeOfDay_settledNano (t : Instant) : isTimeOfDay t.second t.settledNano = true := by
  have h := t.valid
  simp only [isTimeOfDay, decide_eq_true_eq] at h ⊢
  unfold settledNano
  split <;> omega

/-- The same time of day so many days later, if the calendar reaches that far. A leap second gives
way to the second that it shares. -/
def addDays? (t : Instant) (days : Nat) : Option Instant :=
  (Date.ofDayNumber? (t.date.dayNumber + days)).map fun d =>
    if days = 0 then t else ⟨d, t.second, t.settledNano, t.isTimeOfDay_settledNano⟩

end Instant

end AuditTrail
