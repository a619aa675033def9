import AuditTrail.Json.Reader
/-!
# Reading JSON from bytes

Bytes are read without asking first whether they are text. A byte that belongs to no character is no
JSON where it stands outside a string; a string that holds one is read to its end, but cannot be
held.
-/

namespace AuditTrail.Json

/-- What a byte that belongs to no character counts as. No JSON goes on with a question mark outside a
string or behind a backslash, and inside a string an escape follows that has no character, whatever
stands in front of it. -/
def strayMark : List Char := ['?', '\\', 'u', 'd', 'c', '0', '0']

/-- The characters of some bytes, with a mark for each byte that belongs to none. -/
def charsOf : List UInt8 → List Char
  | [] => []
  | b :: rest =>
    match ((b :: rest).take 4).toByteArray.utf8DecodeChar? 0 with
    | some c => c :: charsOf (rest.drop (c.utf8Size - 1))
    | none => strayMark ++ charsOf rest
termination_by bytes => bytes.length

/-- The value at the front of some bytes. -/
def readBytes (bytes : ByteArray) : Json := (readFront (charsOf bytes.data.toList)).1

end AuditTrail.Json
