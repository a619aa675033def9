import AuditTrail.CoreInstances
import AuditTrail.Text.Hex
import AuditTrail.Text.Split
/-!
# Percent encoding and forms

A percent sign and two hexadecimal digits stand for a byte. In a form, fields are joined by
ampersands, a plus sign stands for a space, and bytes that are no text are shown by a replacement
character.
-/

namespace AuditTrail.Http

open scoped CoreInstances

/-- The bytes that some characters stand for; a percent sign without two digits stands for
itself. -/
def percentDecode : List UInt8 → List UInt8
  | 37 :: a :: b :: rest =>
    match Text.Hex.digitValue? a.toNat, Text.Hex.digitValue? b.toNat with
    | some high, some low => UInt8.ofNat (16 * high + low) :: percentDecode rest
    | _, _ => 37 :: percentDecode (a :: b :: rest)
  | b :: rest => b :: percentDecode rest
  | [] => []
termination_by bytes => bytes.length

def bytesOf (cs : List Char) : List UInt8 := (String.ofList cs).toUTF8.toList

/-- A part of a path decoded; nothing if its bytes are no text. -/
def decodeSegment? (cs : List Char) : Option String :=
  String.fromUTF8? ⟨(percentDecode (bytesOf cs)).toArray⟩

/-! ## Text from any bytes -/

/-- The byte continues a character. -/
def isContinuation (b : UInt8) : Bool := 0x80 ≤ b && b < 0xC0

/-- For the first byte of a character of more than one byte: how many bytes continue it, and the
bounds of the first of them. -/
def leadShape? (b : UInt8) : Option (Nat × UInt8 × UInt8) :=
  if 0xC2 ≤ b && b ≤ 0xDF then some (1, 0x80, 0xBF)
  else if b == 0xE0 then some (2, 0xA0, 0xBF)
  else if b == 0xED then some (2, 0x80, 0x9F)
  else if 0xE1 ≤ b && b ≤ 0xEF then some (2, 0x80, 0xBF)
  else if b == 0xF0 then some (3, 0x90, 0xBF)
  else if 0xF1 ≤ b && b ≤ 0xF3 then some (3, 0x80, 0xBF)
  else if b == 0xF4 then some (3, 0x80, 0x8F)
  else none

/-- The bytes at the front that can belong to a character of this shape. -/
def continuations (shape : Nat × UInt8 × UInt8) : List UInt8 → List UInt8
  | [] => []
  | b :: rest =>
    if shape.2.1 ≤ b && b ≤ shape.2.2 then
      b :: (rest.takeWhile isContinuation).take (shape.1 - 1)
    else []

/-- The code point that the payload bits of a character's bytes write. -/
def codePoint (first : UInt8) (others : List UInt8) : Nat :=
  others.foldl (fun n b => n * 64 + b.toNat % 64) (first.toNat % 2 ^ (6 - others.length))

/-- The characters of some bytes; each longest row of bytes that only begins a character, and each
other byte that belongs to none, gives a replacement character. -/
def lossyChars : List UInt8 → List Char
  | [] => []
  | b :: rest =>
    if b < 0x80 then Char.ofNat b.toNat :: lossyChars rest
    else
      match leadShape? b with
      | none => '\ufffd' :: lossyChars rest
      | some shape =>
        let others := continuations shape rest
        (if others.length = shape.1 then Char.ofNat (codePoint b others) else '\ufffd') ::
          lossyChars (rest.drop others.length)
termination_by bytes => bytes.length
decreasing_by all_goals (simp only [List.length_cons, List.length_drop]; omega)

def decodeFormPart (cs : List Char) : String :=
  let spaced := cs.map fun c => if c = '+' then ' ' else c
  String.ofList (lossyChars (percentDecode (bytesOf spaced)))

/-- The fields of a form, each with its name and value; empty pieces are skipped. -/
def formFields (cs : List Char) : List (String × String) :=
  ((Text.splitAt '&' cs).filter fun piece => !piece.isEmpty).map fun piece =>
    match Text.cutAt '=' piece with
    | some (name, value) => (decodeFormPart name, decodeFormPart value)
    | none => (decodeFormPart piece, "")

/-- The value of a field, if it is there; refused when it is there more than once. -/
def fieldOnce? (name : String) (fields : List (String × String)) : Option (Option String) :=
  match fields.filter fun field => field.1 == name with
  | [] => some none
  | [field] => some (some field.2)
  | _ => none

end AuditTrail.Http
