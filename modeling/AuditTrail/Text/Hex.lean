import AuditTrail.Text.Escaped
/-!
# Hexadecimal text

Two digits a byte, lower case when written, either case when read. Reading names the first fault it
meets: an odd number of digits before any digit is looked at, then the first byte that is no digit.
-/

namespace AuditTrail.Text.Hex

/-- The lower-case digit of a value below sixteen. -/
def digit (n : Nat) : Char :=
  if n < 10 then Char.ofNat (48 + n) else Char.ofNat (87 + n)

/-- The value of a digit in either case. -/
def digitValue? (n : Nat) : Option Nat :=
  if 48 ≤ n ∧ n ≤ 57 then some (n - 48)
  else if 97 ≤ n ∧ n ≤ 102 then some (n - 87)
  else if 65 ≤ n ∧ n ≤ 70 then some (n - 55)
  else none

/-- Two digits for each byte, the high half first. -/
def encodeChars (bytes : List UInt8) : List Char :=
  bytes.flatMap fun b => [digit (b.toNat / 16), digit (b.toNat % 16)]

/-- The hexadecimal text of some bytes. -/
def encode (bytes : List UInt8) : String :=
  String.ofList (encodeChars bytes)

/-- Why a text is not hexadecimal. -/
inductive Fault where
  /-- Its bytes cannot be taken in pairs. -/
  | oddLength
  /-- The byte at this position is no digit. -/
  | badDigit (byte : UInt8) (position : Nat)
deriving DecidableEq, Repr

/-- The wording of a fault; the offending byte is shown as the character of that code point. -/
def Fault.message : Fault → String
  | .oddLength => "Odd number of digits"
  | .badDigit byte position =>
    "Invalid character '" ++ String.ofList (escapedChar (Char.ofNat byte.toNat)) ++
      "' at position " ++ toString position

/-- The bytes written by pairs of digits, the first of them at the given position. -/
def decodePairs : Nat → List UInt8 → Except Fault (List UInt8)
  | _, [] => .ok []
  | _, [_] => .error .oddLength
  | position, a :: b :: rest =>
    match digitValue? a.toNat, digitValue? b.toNat with
    | none, _ => .error (.badDigit a position)
    | some _, none => .error (.badDigit b (position + 1))
    | some high, some low =>
      match decodePairs (position + 2) rest with
      | .error fault => .error fault
      | .ok bytes => .ok (UInt8.ofNat (16 * high + low) :: bytes)

/-- The bytes that a text of digits stands for. -/
def decode (s : String) : Except Fault (List UInt8) :=
  let bytes := s.toUTF8.toList
  if bytes.length % 2 = 1 then .error .oddLength else decodePairs 0 bytes

/-- The bytes that some characters stand for, if they are digits in pairs. -/
def bytes? : List Char → Option (List UInt8)
  | [] => some []
  | [_] => none
  | a :: b :: rest =>
    match digitValue? a.toNat, digitValue? b.toNat, bytes? rest with
    | some high, some low, some bytes => some (UInt8.ofNat (16 * high + low) :: bytes)
    | _, _, _ => none

/-- The number that some bytes write in base 256, the most significant byte first. -/
def toNat (bytes : List UInt8) : Nat :=
  bytes.foldl (fun n b => 256 * n + b.toNat) 0

/-- The last `count` base-256 digits of a number, the most significant first. -/
def ofNat : Nat → Nat → List UInt8
  | 0, _ => []
  | count + 1, n => ofNat count (n / 256) ++ [UInt8.ofNat (n % 256)]

end AuditTrail.Text.Hex
