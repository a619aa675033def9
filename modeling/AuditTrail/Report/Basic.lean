import AuditTrail.Report.Takedowns
import AuditTrail.Text.Blank
import AuditTrail.Verification
/-!
# Reports

A report covers the entries of a window of time. Its kind decides which sections it has.
-/

namespace AuditTrail

inductive ReportKind where
  | comprehensive
  | dmca
  | integrity
deriving DecidableEq, Repr

namespace ReportKind

/-- The name of a kind. -/
def name : ReportKind → String
  | .comprehensive => "comprehensive"
  | .dmca => "dmca"
  | .integrity => "integrity"

/-- The kind has the sections on the takedown procedure. -/
def hasTakedowns : ReportKind → Bool
  | .comprehensive | .dmca => true
  | .integrity => false

/-- The kind has the section on integrity. -/
def hasIntegrity : ReportKind → Bool
  | .comprehensive | .integrity => true
  | .dmca => false

/-- The kind that a text names in either case, blanks at its ends aside. -/
def read (text : String) : Except AuditError ReportKind :=
  match [comprehensive, dmca, integrity].find? fun kind =>
      kind.name.toList == (Text.trimmed text.toList).map Char.toLower with
  | some kind => .ok kind
  | none => .error (.unknownReport text)

end ReportKind

structure Report where
  id : String
  kind : ReportKind
  start : Instant
  finish : Instant
  time : Instant
  systemVersion : String
  statistics : Statistics
  takedowns : Option TakedownAnalysis
  assessment : Option (Assessment Float)
  advice : List Advice
  legalSummary : Option String
  integrity : Option Verification
  activeAlerts : List Alert

namespace Report

/-- What a report says about the law, for a number of events. -/
def legalText (count : Nat) : String :=
  "Legal compliance summary: " ++ toString count ++
    " compliance events recorded under a hash-chained, signed audit trail. Takedowns follow " ++
    "DMCA 512(c) safe harbor procedures and counter-notices are handled per DMCA 512(g). " ++
    "Legal framework: DMCA 17 USC 512, with additional privacy protections."

/-- The report of a kind on some entries of a window, made at `now`. -/
def make (config : Config) (id : String) (now : Instant) (kind : ReportKind)
    (start finish : Instant) (entries : List Entry) (integrity : Option Verification)
    (activeAlerts : List Alert) : Report where
  id := id
  kind := kind
  start := start
  finish := finish
  time := now
  systemVersion := config.systemVersion
  statistics := Statistics.of entries
  takedowns := if kind.hasTakedowns then some (TakedownAnalysis.of config.scoring entries) else none
  assessment := if kind.hasTakedowns then some ((Scorer.of config).assess entries) else none
  advice := if kind.hasTakedowns then Advice.of config entries else []
  legalSummary := if kind = .comprehensive then some (legalText entries.length) else none
  integrity := if kind.hasIntegrity then integrity else none
  activeAlerts := activeAlerts

/-- The same, with a name from the supply; a window has to start before it ends. -/
def generate (config : Config) (ids : IdSupply) (now : Instant) (kind : ReportKind)
    (start finish : Instant) (entries : List Entry) (integrity : Option Verification)
    (activeAlerts : List Alert) : Except AuditError (Report × IdSupply) :=
  if start < finish then
    .ok (make config (ids.next .report) now kind start finish entries integrity activeAlerts,
      ids.skip 1)
  else .error (.timeRange start finish)

/-- The report as JSON. -/
def toJson (r : Report) : Json := .object
  ([("report_id", .string r.id), ("report_type", .string r.kind.name),
    ("start_date", .string r.start.text), ("end_date", .string r.finish.text),
    ("generated_at", .string r.time.text), ("system_version", .string r.systemVersion),
    ("statistics", r.statistics.toJson)] ++
   Json.memberIfSome "dmca_analysis" TakedownAnalysis.toJson r.takedowns ++
   Json.memberIfSome "compliance_assessment" Assessment.toJson r.assessment ++
   [("recommendations", Json.strings (r.advice.map Advice.text))] ++
   Json.memberIfSome "legal_summary" .string r.legalSummary ++
   Json.memberIfSome "integrity_verification" Verification.toJson r.integrity ++
   [("active_alerts", .array (r.activeAlerts.map Alert.toJson))])

end Report

end AuditTrail
