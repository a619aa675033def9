import AuditTrail.Json.Basic
import AuditTrail.Time.Printer
/-!
# Alerts

An alert says what crossed which threshold, and which entry made it do so. It stays on record for
ever; resolving it only adds how and when that was done.
-/

namespace AuditTrail

/-- What an alert is about. -/
inductive AlertCause where
  /-- Processing took longer than the threshold, in milliseconds. -/
  | processingDelay (millis threshold : UInt64)
  | criticalEvent (eventType target : String)
  /-- More takedowns in a day than the threshold. -/
  | takedownVolume (count : Nat) (threshold : UInt64)
  /-- More takedowns in a day than one requestor may ask for. -/
  | requestorVolume (requestor : String) (count : Nat) (threshold : UInt64)
deriving DecidableEq

namespace AlertCause

def kindName : AlertCause → String
  | .takedownVolume _ _ => "high_takedown_volume"
  | .requestorVolume _ _ _ => "requestor_volume"
  | .processingDelay _ _ => "processing_delay"
  | .criticalEvent _ _ => "critical_event"

/-- The alert is about a critical event. -/
def isCritical : AlertCause → Bool
  | .criticalEvent _ _ => true
  | .processingDelay _ _ | .takedownVolume _ _ | .requestorVolume _ _ _ => false

def isDelay : AlertCause → Bool
  | .processingDelay _ _ => true
  | .criticalEvent _ _ | .takedownVolume _ _ | .requestorVolume _ _ _ => false

/-- The weight of the alert. -/
def severityName (cause : AlertCause) : String := if cause.isCritical then "critical" else "warning"

/-- What happened, for people to read. -/
def text : AlertCause → String
  | .processingDelay millis threshold =>
    "Processing time " ++ toString millis.toNat ++ "ms exceeded threshold of " ++
      toString threshold.toNat ++ "ms"
  | .criticalEvent eventType _ => "Critical event recorded: " ++ eventType
  | .takedownVolume count _ => "Daily takedowns exceeded threshold: " ++ toString count
  | .requestorVolume requestor count _ =>
    "Requestor " ++ requestor ++ " exceeded daily takedown threshold: " ++ toString count

/-- The figures of the alert, sorted by name. -/
def figures : AlertCause → List (String × Json)
  | .processingDelay millis threshold =>
    [("processing_time_ms", .word millis), ("threshold_ms", .word threshold)]
  | .criticalEvent eventType target =>
    [("event_type", .string eventType), ("target_id", .string target)]
  | .takedownVolume count threshold =>
    [("current_count", .nat count), ("threshold", .word threshold)]
  | .requestorVolume requestor count threshold =>
    [("current_count", .nat count), ("requestor_email", .string requestor),
     ("threshold", .word threshold)]

end AlertCause

structure Resolution where
  text : String
  time : Instant
deriving DecidableEq

structure Alert where
  id : String
  cause : AlertCause
  time : Instant
  entryId : String
  resolution : Option Resolution
deriving DecidableEq

namespace Alert

def isResolved (alert : Alert) : Bool := alert.resolution.isSome

def toJson (alert : Alert) : Json := .object
  ([("alert_id", .string alert.id), ("alert_type", .string alert.cause.kindName),
    ("severity", .string alert.cause.severityName), ("timestamp", .string alert.time.text),
    ("condition", .string alert.cause.text), ("details", .object alert.cause.figures),
    ("triggered_by", .string alert.entryId), ("resolved", .bool alert.isResolved)] ++
   Json.memberIfSome "resolution" (fun r => .string r.text) alert.resolution ++
   Json.memberIfSome "resolved_at" (fun r => .string r.time.text) alert.resolution)

end Alert

end AuditTrail
