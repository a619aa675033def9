import AuditTrail.CoreInstances
import AuditTrail.Json.Embedded
import AuditTrail.Json.Printer
import AuditTrail.Json.Tagged
import AuditTrail.Time.Printer
import AuditTrail.Time.Reader
/-!
# Event details

The facts that an event brings along. The three events of the takedown procedure have facts of a
fixed shape; any other event has a free-form object. As JSON, details name their shape in the member
`kind`.
-/

namespace AuditTrail

open scoped CoreInstances

/-- The facts of an event. -/
inductive EventDetails where
  /-- A demand to take a work down. -/
  | takedown (takedownId requestor work framework : String)
  /-- An objection to a takedown. -/
  | counterNotice (noticeId : String) (reinstatement : Instant) (framework : String)
      (waitingDays : UInt32)
  /-- The work is back. -/
  | reinstatement (reason framework manner : String)
  /-- Facts without a shape of their own. -/
  | generic (fields : FreeFields)

namespace EventDetails

/-- No facts. -/
def none : EventDetails := .generic .empty

/-- Who demanded a takedown, if the demand says so. -/
def requestor? : EventDetails → Option String
  | .takedown _ requestor _ _ => if requestor = "" then Option.none else some requestor
  | _ => Option.none

def toJson : EventDetails → Json
  | .takedown takedownId requestor work framework => .object
    [("kind", .string "takedown"), ("takedown_id", .string takedownId),
     ("requestor_email", .string requestor), ("copyright_work", .string work),
     ("legal_framework", .string framework)]
  | .counterNotice noticeId date framework waitingDays => .object
    [("kind", .string "counter_notice"), ("counter_notice_id", .string noticeId),
     ("reinstatement_date", .string date.text), ("legal_framework", .string framework),
     ("waiting_period_days", .nat waitingDays.toNat)]
  | .reinstatement reason framework manner => .object
    [("kind", .string "reinstatement"), ("reason", .string reason),
     ("legal_framework", .string framework), ("reinstatement_type", .string manner)]
  | .generic fields => .object [("kind", .string "generic"), ("fields", .object fields.members)]

/-! ## Reading -/

/-- The shapes that `kind` tells apart. -/
inductive Kind where
  | takedown
  | counterNotice
  | reinstatement
  | generic
deriving DecidableEq

/-- The names of the shapes. -/
def Kind.words : List (String × Kind) :=
  [("takedown", .takedown), ("counter_notice", .counterNotice),
   ("reinstatement", .reinstatement), ("generic", .generic)]

/-- A number of days. -/
def asDays (j : Json) : Except Fault UInt32 :=
  match j.asNatBelow (2 ^ (32 : Nat)) with
  | .ok n => .ok (UInt32.ofNat n)
  | .error fault => .error fault

/-- The fields of a shape. -/
def Kind.fields : Kind → List Json.Field
  | .takedown =>
    [.of "takedown_id" Json.asString, .of "requestor_email" Json.asString,
     .of "copyright_work" Json.asString, .of "legal_framework" Json.asString]
  | .counterNotice =>
    [.of "counter_notice_id" Json.asString, .of "reinstatement_date" Json.asInstant,
     .of "legal_framework" Json.asString, .of "waiting_period_days" asDays]
  | .reinstatement =>
    [.of "reason" Json.asString, .of "legal_framework" Json.asString,
     .of "reinstatement_type" Json.asString]
  | .generic => [.defaulted "fields" Json.asFreeFields]

/-- The details of a shape from the members of a record. -/
def Kind.build (members : List (String × Json)) : Kind → Except Fault EventDetails
  | .takedown => do
    return .takedown (← Json.required "takedown_id" Json.asString members)
      (← Json.required "requestor_email" Json.asString members)
      (← Json.required "copyright_work" Json.asString members)
      (← Json.required "legal_framework" Json.asString members)
  | .counterNotice => do
    return .counterNotice (← Json.required "counter_notice_id" Json.asString members)
      (← Json.required "reinstatement_date" Json.asInstant members)
      (← Json.required "legal_framework" Json.asString members)
      (← Json.required "waiting_period_days" asDays members)
  | .reinstatement => do
    return .reinstatement (← Json.required "reason" Json.asString members)
      (← Json.required "legal_framework" Json.asString members)
      (← Json.required "reinstatement_type" Json.asString members)
  | .generic => do
    return .generic (← Json.withDefault "fields" Json.asFreeFields .empty members)

/-- How details name their shape. -/
def tagging : Json.Tagging Kind EventDetails :=
  ⟨"kind", Kind.words, Kind.fields, fun kind members => kind.build members⟩

/-- The details that a tree stands for: an object that names its shape among its members, or an
array that names it first. -/
def ofJson : Decoder EventDetails := Json.asTagged tagging

end EventDetails

end AuditTrail
