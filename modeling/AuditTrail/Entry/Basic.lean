import AuditTrail.Entry.Details
import AuditTrail.Text.Inclusion
/-!
# Entries

An entry of the ledger, and how an event is classified: by category, severity, kind of target and
legal basis. The rules look at the texts of an event type and a target only.
-/

namespace AuditTrail

/-- The area an event belongs to. -/
inductive Category where
  | dmca
  | user
  | system
  | legal
deriving DecidableEq, Repr

/-- The names of the categories. -/
def Category.words : List (String × Category) :=
  [("dmca", .dmca), ("user", .user), ("system", .system), ("legal", .legal)]

def Category.name : Category → String
  | .dmca => "dmca"
  | .user => "user"
  | .system => "system"
  | .legal => "legal"

/-- The category of an event type: the first of three words that it includes. -/
def Category.classify (eventType : String) : Category :=
  if Text.includes eventType "dmca" then .dmca
  else if Text.includes eventType "user" then .user
  else if Text.includes eventType "system" then .system
  else .legal

/-- The weight of an event. -/
inductive Severity where
  | info
  | warning
  | critical
  | legal
deriving DecidableEq, Repr

/-- The names of the severities. -/
def Severity.words : List (String × Severity) :=
  [("info", .info), ("warning", .warning), ("critical", .critical), ("legal", .legal)]

def Severity.name : Severity → String
  | .info => "info"
  | .warning => "warning"
  | .critical => "critical"
  | .legal => "legal"

/-- The severity of an event type. -/
def Severity.classify (eventType : String) : Severity :=
  if eventType = "dmca_takedown" ∨ eventType = "dmca_reinstatement" then .legal
  else if eventType = "system_error" ∨ eventType = "integrity_breach" then .critical
  else if eventType = "processing_delay" then .warning
  else .info

/-- What an event is about. -/
inductive TargetKind where
  | descriptor
  | notice
  | user
deriving DecidableEq, Repr

def TargetKind.words : List (String × TargetKind) :=
  [("descriptor", .descriptor), ("notice", .notice), ("user", .user)]

def TargetKind.name : TargetKind → String
  | .descriptor => "descriptor"
  | .notice => "notice"
  | .user => "user"

/-- The kind of a target, by how its name begins. -/
def TargetKind.classify (target : String) : TargetKind :=
  if Text.beginsWith target "DMCA-" then .notice
  else if Text.beginsWith target "user-" then .user
  else .descriptor

/-- The legal ground on which an event of a type is recorded. -/
def legalBasisOf (eventType : String) : String :=
  if Text.includes eventType "dmca" then "DMCA 17 USC 512"
  else if Text.includes eventType "privacy" then "Privacy Act compliance"
  else "General legal compliance"

/-- The legal frame of an entry. -/
structure LegalContext where
  jurisdiction : String
  applicableLaws : List String
  legalBasis : String
  complianceReason : String
  legalHoldStatus : Option String
  caseNumber : Option String
deriving DecidableEq

/-- How long an entry has to be kept. -/
structure Retention where
  days : UInt32
  reason : String
  /-- When it may be destroyed; nothing while it is held. -/
  destruction : Option Instant
  legalHold : Bool
  complianceClass : String
deriving DecidableEq

/-- An entry of the ledger. -/
structure Entry where
  id : String
  time : Instant
  /-- Its place in the ledger, from one. -/
  sequence : UInt64
  eventType : String
  category : Category
  severity : Severity
  actor : String
  target : String
  targetKind : TargetKind
  action : String
  details : EventDetails
  result : String
  legal : Option LegalContext
  notes : String
  retention : Option Retention
  /-- The hash of the entry before it, empty for the first. -/
  previousHash : String
  /-- The hash of its own facts. -/
  hash : String
  signature : String
  systemVersion : String
  /-- How long the event took to process. -/
  processingMs : Option UInt64
  tags : List String

namespace Entry

/-- The entry records an event of the takedown procedure. -/
def isDmca (e : Entry) : Bool := Text.includes e.eventType "dmca"

/-- Events of the takedown procedure and legal events need a legal basis. -/
def needsLegalBasis (e : Entry) : Bool :=
  Text.includes e.eventType "dmca" || Text.includes e.eventType "legal"

/-- The entry names a legal basis. -/
def hasLegalBasis (e : Entry) : Bool :=
  match e.legal with
  | some context => context.legalBasis != ""
  | none => false

/-- The entry has a time of its own, after the moment that stands for none. -/
def hasTime (e : Entry) : Bool := decide (Instant.unset < e.time)

/-- The entry was processed in a measured time above zero. -/
def processingTime? (e : Entry) : Option UInt64 := e.processingMs.filter fun ms => decide (0 < ms)

theorem processingTime?_eq_some_iff {e : Entry} {ms : UInt64} :
    e.processingTime? = some ms ↔ e.processingMs = some ms ∧ 0 < ms := by
  simp [processingTime?, Option.filter_eq_some_iff]

/-- A line about the entry for people to read. -/
def summary (e : Entry) : String :=
  "#" ++ toString e.sequence.toNat ++ " " ++ e.id ++ " " ++ e.eventType ++ ": " ++ e.action ++
    " -> " ++ e.target ++ " (" ++ e.result ++ ")"

end Entry

end AuditTrail
