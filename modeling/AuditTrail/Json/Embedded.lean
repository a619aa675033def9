import AuditTrail.Json.Decode
import AuditTrail.Json.Reader
/-!
# JSON inside JSON

In a free-form value an object whose first member has a certain key stands for a text in JSON: it
has no other member, its value is the text, and what the text writes takes its place.
-/

namespace AuditTrail.Json

/-- The key of the one member of an object that stands for a text. -/
def embeddedKey : String := "$serde_json::private::RawValue"

mutual

/-- The value with every text inside it replaced by what `inner` makes of it; nothing if it makes
nothing of one. -/
def expandWith (inner : String → Option Json) : Json → Option Json
  | .array items => (expandItems inner items).map .array
  | .object members =>
    match members with
    | (key, j) :: rest =>
      if key = embeddedKey then
        match j, rest with
        | .string s, [] => inner s
        | _, _ => none
      else (expandMembers inner ((key, j) :: rest)).map .object
    | [] => some (.object [])
  | .null => some .null
  | .bool b => some (.bool b)
  | .number n => some (.number n)
  | .string s => some (.string s)
  | .flawed flaw => some (.flawed flaw)

/-- Every item with the texts inside it replaced. -/
def expandItems (inner : String → Option Json) : List Json → Option (List Json)
  | [] => some []
  | j :: rest => do return (← expandWith inner j) :: (← expandItems inner rest)

/-- Every member with the texts inside its value replaced. -/
def expandMembers (inner : String → Option Json) :
    List (String × Json) → Option (List (String × Json))
  | [] => some []
  | (key, j) :: rest => do return (key, ← expandWith inner j) :: (← expandMembers inner rest)

end

/-- The value that a text writes, if it is sound, with the texts inside it replaced. The number bounds
how many texts may lie inside each other. -/
def readEmbedded : Nat → String → Option Json
  | 0, _ => none
  | bound + 1, s =>
    let j := read s
    if j.isSound then expandWith (readEmbedded bound) j else none

/-- What takes the place of a text. A text inside another one is shorter, so no more lie inside each
other than the outermost has characters. -/
def embedded (s : String) : Option Json := readEmbedded (s.length + 1) s

/-- The members of a free-form object. -/
def asFreeFields : Decoder FreeFields
  | .object members =>
    match expandMembers embedded members with
    | none => .error .mismatch
    | some members =>
      match FreeFields.ofMembers? members with
      | some fields => .ok fields
      | none => .error .malformed
  | j => .error j.faultOf

end AuditTrail.Json
