import AuditTrail.CoreInstances
import AuditTrail.Monitor
import AuditTrail.Score.Scorer
/-!
# Statistics

How many entries there are of each type, severity and day, and how long processing took on average.
-/

namespace AuditTrail

open scoped CoreInstances

/-- A table of counts, sorted by key. -/
abbrev Counts : Type := List (String × Nat)

namespace Counts

/-- The table with one more of a key. -/
def increment (key : String) : Counts → Counts
  | [] => [(key, 1)]
  | (k, n) :: rest =>
    if key < k then (key, 1) :: (k, n) :: rest
    else if key = k then (k, n + 1) :: rest
    else (k, n) :: increment key rest

/-- How often each key occurs. -/
def of (keys : List String) : Counts := keys.foldr increment []

/-- The count of a key. -/
def count (counts : Counts) (key : String) : Nat := (counts.lookup key).getD 0

/-- All counts together. -/
def total (counts : Counts) : Nat := (counts.map Prod.snd).sum

/-- The table as JSON. -/
def toJson (counts : Counts) : Json := .object (counts.map fun entry => (entry.1, .nat entry.2))

end Counts

/-- The mean processing time of some entries in whole milliseconds, entries without one aside. -/
def meanProcessing (entries : List Entry) : Option UInt64 :=
  let times := entries.filterMap Entry.processingTime?
  meanMillis (times.map UInt64.toNat).sum times.length

/-- The figures of some entries. -/
structure Statistics where
  total : Nat
  byType : Counts
  bySeverity : Counts
  meanProcessing : Option UInt64
  score : Float
  byDay : Counts

namespace Statistics

/-- The figures of some entries. -/
def of (entries : List Entry) : Statistics where
  total := entries.length
  byType := Counts.of (entries.map Entry.eventType)
  bySeverity := Counts.of (entries.map fun e => e.severity.name)
  meanProcessing := AuditTrail.meanProcessing entries
  score := Scorer.overallScore entries
  byDay := Counts.of (entries.map fun e => e.time.date.text)

/-- The figures as JSON. -/
def toJson (s : Statistics) : Json := .object
  [("total_events", .nat s.total), ("events_by_type", s.byType.toJson),
   ("events_by_severity", s.bySeverity.toJson),
   ("average_processing_time_ms", Json.orNull .word s.meanProcessing),
   ("compliance_score", .real s.score), ("events_per_day", s.byDay.toJson)]

end Statistics

end AuditTrail
