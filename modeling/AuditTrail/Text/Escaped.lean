import AuditTrail.Text.Extending
import AuditTrail.Text.Unprintable
/-!
# Escaped text

Text shown inside quotes to an operator: backslashes, the kind of quote that stands around it, and
characters that show nothing or only change the one before them are written as escapes. Everything
else stands as it is.
-/

namespace AuditTrail.Text

/-- The lower-case hexadecimal digits of a number, without leading zeros. -/
def codePointDigits (n : Nat) : List Char :=
  Nat.toDigits 16 n

/-- A character as it is shown between two quotes of a kind. -/
def escapedWithin (quote c : Char) : List Char :=
  if c = '\x00' then ['\\', '0']
  else if c = '\t' then ['\\', 't']
  else if c = '\n' then ['\\', 'n']
  else if c = '\r' then ['\\', 'r']
  else if c = quote then ['\\', quote]
  else if c = '\\' then ['\\', '\\']
  else if isExtending c || isUnprintable c then
    ['\\', 'u', '{'] ++ codePointDigits c.toNat ++ ['}']
  else [c]

/-- A character as it is shown between single quotes. -/
def escapedChar (c : Char) : List Char := escapedWithin '\'' c

/-- A text in double quotes with its special characters escaped. -/
def quoted (s : String) : String :=
  String.ofList (['"'] ++ s.toList.flatMap (escapedWithin '"') ++ ['"'])

end AuditTrail.Text
