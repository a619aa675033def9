import AuditTrail.Entry.Basic
import AuditTrail.Json.Reader
/-!
# Entries as JSON

The record form of an entry: every member in a fixed order, except that a processing time, a hold
status and a case number are left out when there is none. Reading takes members in any order.
-/

namespace AuditTrail

namespace LegalContext

/-- The context as JSON. -/
def toJson (c : LegalContext) : Json := .object
  ([("jurisdiction", .string c.jurisdiction), ("applicable_laws", Json.strings c.applicableLaws),
    ("legal_basis", .string c.legalBasis), ("compliance_reason", .string c.complianceReason)] ++
   Json.memberIfSome "legal_hold_status" .string c.legalHoldStatus ++
   Json.memberIfSome "case_number" .string c.caseNumber)

/-- The fields of a context. -/
def fields : List Json.Field :=
  [.of "jurisdiction" Json.asString, .of "applicable_laws" (Json.asList Json.asString),
   .of "legal_basis" Json.asString, .of "compliance_reason" Json.asString,
   .optional "legal_hold_status" Json.asString, .optional "case_number" Json.asString]

/-- The context that a tree stands for. -/
def ofJson (j : Json) : Except Fault LegalContext := do
  let m ← Json.record fields j
  return {
    jurisdiction := ← Json.required "jurisdiction" Json.asString m
    applicableLaws := ← Json.required "applicable_laws" (Json.asList Json.asString) m
    legalBasis := ← Json.required "legal_basis" Json.asString m
    complianceReason := ← Json.required "compliance_reason" Json.asString m
    legalHoldStatus := ← Json.optional "legal_hold_status" Json.asString m
    caseNumber := ← Json.optional "case_number" Json.asString m }

end LegalContext

namespace Retention

/-- The retention as JSON. -/
def toJson (r : Retention) : Json := .object
  [("retention_days", .nat r.days.toNat), ("retention_reason", .string r.reason),
   ("destruction_date", Json.orNull (fun t => .string t.text) r.destruction),
   ("legal_hold", .bool r.legalHold), ("compliance_class", .string r.complianceClass)]

/-- The fields of a retention. -/
def fields : List Json.Field :=
  [.of "retention_days" EventDetails.asDays, .of "retention_reason" Json.asString,
   .nullable "destruction_date" Json.asInstant, .of "legal_hold" Json.asBool,
   .of "compliance_class" Json.asString]

/-- The retention that a tree stands for. -/
def ofJson (j : Json) : Except Fault Retention := do
  let m ← Json.record fields j
  return {
    days := ← Json.required "retention_days" EventDetails.asDays m
    reason := ← Json.required "retention_reason" Json.asString m
    destruction := ← Json.optional "destruction_date" Json.asInstant m
    legalHold := ← Json.required "legal_hold" Json.asBool m
    complianceClass := ← Json.required "compliance_class" Json.asString m }

end Retention

namespace Entry

/-- The entry as JSON. -/
def toJson (e : Entry) : Json := .object
  ([("entry_id", .string e.id), ("timestamp", .string e.time.text),
    ("sequence_number", .word e.sequence), ("event_type", .string e.eventType),
    ("event_category", .string e.category.name), ("severity", .string e.severity.name),
    ("actor_id", .string e.actor), ("target_id", .string e.target),
    ("target_type", .string e.targetKind.name), ("action", .string e.action),
    ("action_details", e.details.toJson), ("result", .string e.result),
    ("legal_context", Json.orNull LegalContext.toJson e.legal),
    ("compliance_notes", .string e.notes),
    ("data_retention", Json.orNull Retention.toJson e.retention),
    ("previous_hash", .string e.previousHash), ("entry_hash", .string e.hash),
    ("signature", .string e.signature), ("system_version", .string e.systemVersion)] ++
   Json.memberIfSome "processing_time_ms" .word e.processingMs ++
   [("tags", Json.strings e.tags)])

/-- The fields of an entry. -/
def fields : List Json.Field :=
  [.of "entry_id" Json.asString, .of "timestamp" Json.asInstant, .of "sequence_number" Json.asWord,
   .of "event_type" Json.asString, .of "event_category" (Json.asWordOf Category.words),
   .of "severity" (Json.asWordOf Severity.words), .of "actor_id" Json.asString,
   .of "target_id" Json.asString, .of "target_type" (Json.asWordOf TargetKind.words),
   .of "action" Json.asString, .of "action_details" EventDetails.ofJson,
   .of "result" Json.asString, .nullable "legal_context" LegalContext.ofJson,
   .of "compliance_notes" Json.asString, .nullable "data_retention" Retention.ofJson,
   .of "previous_hash" Json.asString, .of "entry_hash" Json.asString,
   .of "signature" Json.asString, .of "system_version" Json.asString,
   .optional "processing_time_ms" Json.asWord, .defaulted "tags" (Json.asList Json.asString)]

/-- The entry that a tree stands for. -/
def ofJson (j : Json) : Except Fault Entry := do
  let m ← Json.record fields j
  return {
    id := ← Json.required "entry_id" Json.asString m
    time := ← Json.required "timestamp" Json.asInstant m
    sequence := ← Json.required "sequence_number" Json.asWord m
    eventType := ← Json.required "event_type" Json.asString m
    category := ← Json.required "event_category" (Json.asWordOf Category.words) m
    severity := ← Json.required "severity" (Json.asWordOf Severity.words) m
    actor := ← Json.required "actor_id" Json.asString m
    target := ← Json.required "target_id" Json.asString m
    targetKind := ← Json.required "target_type" (Json.asWordOf TargetKind.words) m
    action := ← Json.required "action" Json.asString m
    details := ← Json.required "action_details" EventDetails.ofJson m
    result := ← Json.required "result" Json.asString m
    legal := ← Json.optional "legal_context" LegalContext.ofJson m
    notes := ← Json.required "compliance_notes" Json.asString m
    retention := ← Json.optional "data_retention" Retention.ofJson m
    previousHash := ← Json.required "previous_hash" Json.asString m
    hash := ← Json.required "entry_hash" Json.asString m
    signature := ← Json.required "signature" Json.asString m
    systemVersion := ← Json.required "system_version" Json.asString m
    processingMs := ← Json.optional "processing_time_ms" Json.asWord m
    tags := ← Json.withDefault "tags" (Json.asList Json.asString) [] m }

/-- The characters of an entry as a line of a ledger file. -/
def write (e : Entry) : List Char := e.toJson.write

/-- The text of an entry. -/
def render (e : Entry) : String := String.ofList e.write

/-- The entry that a text writes. -/
def read? (s : String) : Option Entry := (ofJson (Json.read s)).toOption

end Entry

end AuditTrail
