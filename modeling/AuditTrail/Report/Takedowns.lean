import AuditTrail.Report.Statistics
/-!
# Analysis of takedowns

How many takedowns, objections and reinstatements there were, who asked for takedowns, what went
wrong, and what should be done about it.
-/

namespace AuditTrail

structure RequestorShare where
  requestor : String
  requests : Nat
  /-- How many of them ended well. -/
  succeeded : Nat
deriving DecidableEq, Repr

namespace RequestorShare

/-- One more request of a requestor. -/
def add (requestor : String) (success : Bool) : List RequestorShare → List RequestorShare
  | [] => [⟨requestor, 1, success.toNat⟩]
  | r :: rest =>
    if r.requestor = requestor then
      ⟨requestor, r.requests + 1, r.succeeded + success.toNat⟩ :: rest
    else r :: add requestor success rest

/-- More requests come first, and of as many requests the smaller name. -/
def isBusier (a b : RequestorShare) : Bool :=
  decide (b.requests < a.requests) ||
    (a.requests == b.requests && decide (a.requestor ≤ b.requestor))

/-- The share of requests that ended well. -/
def successRate (r : RequestorShare) : Float := ScoreNumber.quotient r.succeeded r.requests

/-- The share as JSON. -/
def toJson (r : RequestorShare) : Json := .object
  [("requestor_email", .string r.requestor), ("total_requests", .nat r.requests),
   ("successful_takedowns", .nat r.succeeded), ("success_rate", .real r.successRate)]

end RequestorShare

namespace Entry

/-- The entry records a takedown. -/
def isTakedown (e : Entry) : Bool := e.eventType == "dmca_takedown"

/-- The entry records an objection. -/
def isCounterNotice (e : Entry) : Bool := e.eventType == "dmca_counter_notice"

/-- The entry records a reinstatement. -/
def isReinstatement (e : Entry) : Bool := e.eventType == "dmca_reinstatement"

def takedownRequestor? (e : Entry) : Option String :=
  if e.isTakedown then e.details.requestor? else none

/-- What went wrong with an event of the takedown procedure. -/
def issues (e : Entry) : List String :=
  if e.isDmca then
    let event := "DMCA event " ++ e.id ++ " (" ++ e.eventType ++ ") "
    (if e.isFailure then [event ++ "ended with result '" ++ e.result ++ "'"] else []) ++
      (if e.hasLegalBasis then [] else [event ++ "has no recorded legal basis"])
  else []

end Entry

def requestorShares (entries : List Entry) : List RequestorShare :=
  entries.foldl
    (fun shares e =>
      match e.takedownRequestor? with
      | some requestor => RequestorShare.add requestor e.isSuccess shares
      | none => shares)
    []

/-- The quotient of two counts, zero when there is nothing to divide by. -/
def ratio (part whole : Nat) : Float :=
  if whole = 0 then ScoreNumber.ofCount 0 else ScoreNumber.quotient part whole

inductive LegalRisk where
  | objections
  | volume
  | normal
deriving DecidableEq, Repr

def LegalRisk.text : LegalRisk → String
  | .objections => "Medium risk - high counter-notice ratio may indicate over-broad takedowns"
  | .volume => "Medium risk - high volume requires careful monitoring"
  | .normal => "Low risk - normal compliance patterns observed"

/-- The legal risk of a number of takedowns with a share of objections. -/
def LegalRisk.of (parameters : ScoringParameters Float) (takedowns : Nat) (objections : Float) :
    LegalRisk :=
  if ScoreNumber.lt parameters.highCounterNoticeRatio objections then .objections
  else if parameters.highTakedownVolume.toNat < takedowns then .volume
  else .normal

structure TakedownAnalysis where
  takedowns : Nat
  counterNotices : Nat
  reinstatements : Nat
  counterNoticeRatio : Float
  meanProcessing : Option UInt64
  requestors : List RequestorShare
  issues : List String
  risk : LegalRisk

namespace TakedownAnalysis

/-- The analysis of some entries. -/
def of (parameters : ScoringParameters Float) (entries : List Entry) : TakedownAnalysis :=
  let takedowns := entries.countP Entry.isTakedown
  let counterNotices := entries.countP Entry.isCounterNotice
  let counterNoticeRatio := ratio counterNotices takedowns
  { takedowns, counterNotices, counterNoticeRatio
    reinstatements := entries.countP Entry.isReinstatement
    meanProcessing := AuditTrail.meanProcessing (entries.filter Entry.isDmca)
    requestors := (requestorShares entries).mergeSort RequestorShare.isBusier
    issues := entries.flatMap Entry.issues
    risk := LegalRisk.of parameters takedowns counterNoticeRatio }

/-- The analysis as JSON. -/
def toJson (a : TakedownAnalysis) : Json := .object
  [("total_takedowns", .nat a.takedowns), ("total_counter_notices", .nat a.counterNotices),
   ("total_reinstatements", .nat a.reinstatements),
   ("counter_notice_ratio", .real a.counterNoticeRatio),
   ("average_processing_time_ms", Json.orNull .word a.meanProcessing),
   ("top_requestors", .array (a.requestors.map RequestorShare.toJson)),
   ("compliance_issues", Json.strings a.issues), ("legal_risk_assessment", .string a.risk.text)]

end TakedownAnalysis

/-! ## Advice -/

/-- What should be done. -/
inductive Advice where
  | reviewTakedowns
  | tellUsers
  | keepLogs
  | trainStaff
  | automate
deriving DecidableEq, Repr

namespace Advice

/-- The wording of an advice. -/
def text : Advice → String
  | .reviewTakedowns => "High counter-notice ratio detected - review takedown validation procedures"
  | .tellUsers => "Low counter-notice ratio - ensure users are aware of counter-notice rights"
  | .keepLogs => "Continue maintaining comprehensive audit logs for legal protection"
  | .trainStaff => "Regular compliance training for staff handling DMCA notices"
  | .automate => "Consider implementing automated compliance monitoring alerts"

/-- A smaller share of objections is low. -/
def lowRatio : Float := ScoreNumber.quotient 1 10

/-- The advice that the share of objections calls for, given the share above which it is high. -/
def onRatio (highRatio share : Float) : List Advice :=
  (if ScoreNumber.lt highRatio share then [reviewTakedowns] else []) ++
    (if ScoreNumber.lt share lowRatio then [tellUsers] else [])

/-- The advice for some entries. -/
def of (config : Config) (entries : List Entry) : List Advice :=
  let takedowns := entries.countP Entry.isTakedown
  let counterNotices := entries.countP Entry.isCounterNotice
  (if takedowns = 0 then []
    else onRatio config.alerts.counterNoticeRatio (ratio counterNotices takedowns)) ++
    [keepLogs, trainStaff, automate]

end Advice

end AuditTrail
