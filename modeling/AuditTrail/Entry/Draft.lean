import AuditTrail.Config.Spans
import AuditTrail.CoreInstances
import AuditTrail.Entry.Basic
/-!
# Drafting entries

An event becomes an entry when the ledger gives it an id, a time and a place. The draft has all that
follows from the event and the configuration: classification, legal frame, retention, notes and
tags. Hashes and signature are left empty.
-/

namespace AuditTrail

open scoped CoreInstances

/-- An event as it is reported. -/
structure Event where
  eventType : String
  actor : String
  target : String
  action : String
  details : EventDetails
  /-- How it ended; a success if nothing is said. -/
  result : Option String
  /-- How long it took, in nanoseconds. -/
  elapsed : Option Int

namespace Event

/-- An event of which neither result nor duration is known. -/
def plain (eventType actor target action : String) (details : EventDetails) : Event :=
  ⟨eventType, actor, target, action, details, none, none⟩

/-- The demand to take a work down. -/
def takedown (takedownId target requestor work : String) : Event :=
  plain "dmca_takedown" "" target "descriptor_blacklisted"
    (.takedown takedownId requestor work "DMCA 512(c)")

/-- The waiting period after an objection. -/
def waitingDays : UInt32 := 14

/-- An objection to a takedown. -/
def counterNotice (noticeId target user : String) (date : Instant) : Event :=
  plain "dmca_counter_notice" user target "counter_notice_submitted"
    (.counterNotice noticeId date "DMCA 512(g)" waitingDays)

/-- The return of a work. -/
def reinstatement (target user reason : String) : Event :=
  plain "dmca_reinstatement" user target "descriptor_reinstated"
    (.reinstatement reason "DMCA 512(g)" "automatic")

/-- The whole milliseconds of a duration, unless it is negative. -/
def wholeMillis (nanos : Int) : Option UInt64 :=
  let millis := Int.tdiv nanos 1000000
  if 0 ≤ millis ∧ millis < 2 ^ (64 : Nat) then some (UInt64.ofNat millis.toNat) else none

/-- The duration as an entry records it. -/
def processingMs (event : Event) : Option UInt64 := event.elapsed.bind wholeMillis

def recordedResult (event : Event) : String := event.result.getD "success"

/-- The remark that every recorded event gets. -/
def notes (event : Event) : String :=
  "Automated compliance logging for " ++ event.eventType ++ " action: " ++ event.action

/-- The tags of an event. -/
def tags (event : Event) : List String :=
  ["compliance", event.eventType] ++
    (if Text.includes event.action "takedown" then ["takedown"] else []) ++
    (if Text.includes event.action "reinstate" then ["reinstatement"] else [])

end Event

/-- The laws that every entry is recorded under. -/
def applicableLaws : List String := ["DMCA 17 USC 512", "CFAA", "Privacy Act"]

/-- The legal frame of an event. -/
def LegalContext.of (config : Config) (event : Event) : LegalContext where
  jurisdiction := config.jurisdiction
  applicableLaws := AuditTrail.applicableLaws
  legalBasis := legalBasisOf event.eventType
  complianceReason := "DMCA safe harbor compliance"
  legalHoldStatus := if config.legalHold then some "held" else none
  caseNumber := none

/-- The retention of an entry made at some moment. -/
def Retention.of (config : Config) (time : Instant) : Retention where
  days := config.retentionDays
  reason := "Legal compliance and audit requirements"
  destruction := if config.legalHold then none else time.addDays? config.retentionSpan.wholeDays
  legalHold := config.legalHold
  complianceClass := "dmca"

/-- The entry of an event, without hashes and signature. -/
def Entry.draft (config : Config) (id : String) (time : Instant) (sequence : UInt64)
    (event : Event) : Entry where
  id := id
  time := time
  sequence := sequence
  eventType := event.eventType
  category := Category.classify event.eventType
  severity := Severity.classify event.eventType
  actor := event.actor
  target := event.target
  targetKind := TargetKind.classify event.target
  action := event.action
  details := event.details
  result := event.recordedResult
  legal := some (LegalContext.of config event)
  notes := event.notes
  retention := some (Retention.of config time)
  previousHash := ""
  hash := ""
  signature := ""
  systemVersion := config.systemVersion
  processingMs := event.processingMs
  tags := event.tags

end AuditTrail
