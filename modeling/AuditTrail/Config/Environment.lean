import AuditTrail.Config.Setting
/-!
# Settings from the environment

A variable is a setting when its name begins with the prefix, in either case. Two underscores in the
rest of the name stand for a dot between keys. A value that looks like a truth value, an integer or
a double is one; any other value is a text.
-/

namespace AuditTrail.Environment

/-- What the names of settings begin with, in small letters. -/
def lead : List Char := ['c', 'o', 'm', 'p', 'l', 'i', 'a', 'n', 'c', 'e', '_', '_']

/-- A name with a dot for every two underscores. -/
def dotted : List Char → List Char
  | '_' :: '_' :: rest => '.' :: dotted rest
  | c :: rest => c :: dotted rest
  | [] => []

/-- The dotted name of the setting that a variable stands for. -/
def settingName? (name : String) : Option String :=
  let small := name.toList.map Text.smallLetter
  if lead.isPrefixOf small then some (String.ofList (dotted (small.drop lead.length))) else none

/-- The setting that a value looks like. -/
def ofValue (value : String) : Setting :=
  if Text.lowered value = "true" then .flag true
  else if Text.lowered value = "false" then .flag false
  else
    match Decimal.int64? value.toList with
    | some n => .integer n
    | none =>
      match Decimal.double? value.toList with
      | some x => .double x
      | none => .text value

/-- The settings among some variables. -/
def settings (environment : List (String × String)) : List (String × Setting) :=
  environment.filterMap fun v => (settingName? v.1).map fun name => (name, ofValue v.2)

end AuditTrail.Environment
