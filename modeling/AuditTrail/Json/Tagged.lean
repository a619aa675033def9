import AuditTrail.Json.Decode
/-!
# Tagged records

A value of one of several shapes, written as a record that names its shape in one of its members.
The name may stand anywhere among the members, once; all other members are held until it is known,
so each of them must be sound. In place of an object an array may stand that names the shape first.
-/

namespace AuditTrail.Json

/-- The value that a text names. -/
def asTag {κ : Type} (words : List (String × κ)) : Decoder κ
  | .string s =>
    match words.lookup s with
    | some kind => .ok kind
    | none => .error .mismatch
  | j => .error j.faultOf

/-- The shape that the member `tag` names, and the other members. -/
def splitTag {κ : Type} (tag : String) (words : List (String × κ)) :
    Option κ → List (String × Json) → Except Fault (κ × List (String × Json))
  | none, [] => .error .mismatch
  | some kind, [] => .ok (kind, [])
  | found, (name, j) :: rest =>
    if name = tag then
      if found.isSome then .error .mismatch
      else
        match asTag words j with
        | .error fault => .error fault
        | .ok kind => splitTag tag words (some kind) rest
    else if isSound j then
      match splitTag tag words found rest with
      | .error fault => .error fault
      | .ok (kind, others) => .ok (kind, (name, j) :: others)
    else .error .malformed

/-- How the values of a type are told apart and taken from the members of their records. -/
structure Tagging (κ α : Type) where
  /-- The member that names the shape. -/
  tag : String
  words : List (String × κ)
  fields : κ → List Field
  build : κ → List (String × Json) → Except Fault α

/-- The value of a shape from a tree that is known to be sound. -/
def Tagging.content {κ α : Type} (tagging : Tagging κ α) (kind : κ) (j : Json) : Except Fault α :=
  match record (tagging.fields kind) j with
  | .error _ => .error .mismatch
  | .ok members => tagging.build kind members

/-- The value that a tree stands for. -/
def asTagged {κ α : Type} (tagging : Tagging κ α) : Decoder α
  | .object members =>
    match splitTag tagging.tag tagging.words none members with
    | .error fault => .error fault
    | .ok (kind, others) => tagging.content kind (.object others)
  | .array [] => .error .mismatch
  | .array (j :: rest) =>
    match asTag tagging.words j with
    | .error fault => .error fault
    | .ok kind =>
      if rest.all isSound then tagging.content kind (.array rest) else .error .malformed
  | j => .error j.faultOf

end AuditTrail.Json
