/-!
# Identifiers

Entries, alerts and reports are named by sixteen hexadecimal digits behind a prefix that says what
is named. The digits come from a supply; drawing one moves the supply on, whatever the prefix.
-/

namespace AuditTrail

/-- What a name is given to. -/
inductive NameKind where
  | entry
  | alert
  | report
deriving DecidableEq, Repr

/-- The prefix that stands in front of the digits. -/
def NameKind.lead : NameKind → String
  | .entry => "AE-"
  | .alert => "CA-"
  | .report => "CR-"

/-- A supply of names: the digits of each draw, and how many draws there have been. -/
structure IdSupply where
  /-- The digits of the draw with this number, the first one being number zero. -/
  digits : Nat → String
  drawn : Nat

namespace IdSupply

/-- The name that the next draw gives. -/
def next (ids : IdSupply) (kind : NameKind) : String := kind.lead ++ ids.digits ids.drawn

/-- The supply after some draws. -/
def skip (ids : IdSupply) (count : Nat) : IdSupply := { ids with drawn := ids.drawn + count }

/-- The sixteen digits of a number, the thirteenth of them replaced by the mark of random names. -/
def marked (digits : List Char) : String := String.ofList (digits.set 12 '4')

end IdSupply

end AuditTrail
