import AuditTrail.Alert
import AuditTrail.AuditError
import AuditTrail.CoreInstances
import AuditTrail.Entry.Basic
import AuditTrail.Ids
/-!
# The monitor

Watches the stream of entries. It counts the takedowns and objections of the latest day it has seen,
sums up processing times, and raises alerts. Entries of an earlier day count for nothing but the
processing times; a later day starts all counts of a day anew. A volume alert is raised at most once
a day for each subject.
-/

namespace AuditTrail

open scoped CoreInstances

structure RequestorCount where
  requestor : String
  count : Nat
  /-- The time of the last of them. -/
  last : Instant
deriving DecidableEq

inductive VolumeRule where
  | allTakedowns
  | takedownsOf (requestor : String)
deriving DecidableEq, Repr

/-- The text that stands for the rule where it is noted that the rule has fired. -/
def VolumeRule.key : VolumeRule → String
  | .allTakedowns => "high_takedown_volume"
  | .takedownsOf requestor => "requestor_volume:" ++ requestor

structure DayCounts where
  takedowns : Nat
  counterNotices : Nat
  requestors : List RequestorCount
  /-- The keys of the rules that have raised an alert. -/
  fired : List String

/-- No counts. -/
def DayCounts.none : DayCounts := ⟨0, 0, [], []⟩

structure Monitor where
  thresholds : AlertThresholds
  /-- The processing threshold in milliseconds. -/
  threshold : UInt64
  /-- The latest day seen. -/
  day : Option Date
  counts : DayCounts
  /-- How many entries had a processing time. -/
  processed : Nat
  /-- The sum of the processing times in milliseconds. -/
  totalMillis : Nat
  lastUpdated : Option Instant
  /-- All alerts, oldest first. -/
  alerts : List Alert

/-- The mean of some numbers of 64 bits, from their sum and count. -/
def meanMillis (total count : Nat) : Option UInt64 :=
  if count = 0 then none
  else if total / count < 2 ^ (64 : Nat) then some (UInt64.ofNat (total / count))
  else some 0xFFFFFFFFFFFFFFFF

namespace Monitor

/-- The monitor of a configuration before any entry. -/
def of (config : Config) : Monitor where
  thresholds := config.alerts
  threshold := config.processingThreshold
  day := none
  counts := .none
  processed := 0
  totalMillis := 0
  lastUpdated := none
  alerts := []

theorem threshold_of (config : Config) :
    (Monitor.of config).threshold = config.processingThreshold := by
  rw [Monitor.of]

/-! ## Observing an entry -/

/-- The processing time of an entry taken into the sum. -/
def addTime (monitor : Monitor) (e : Entry) : Monitor :=
  match e.processingTime? with
  | some ms =>
    { monitor with
      processed := monitor.processed + 1, totalMillis := monitor.totalMillis + ms.toNat }
  | none => monitor

/-- The alert about the processing time of an entry. -/
def delayCauses (threshold : UInt64) (e : Entry) : List AlertCause :=
  match e.processingTime? with
  | some ms => if threshold < ms then [.processingDelay ms threshold] else []
  | none => []

/-- The alert about the severity of an entry. -/
def severityCauses (e : Entry) : List AlertCause :=
  if e.severity = .critical then [.criticalEvent e.eventType e.target] else []

/-- The monitor moved on to a day if it is later than all days seen. -/
def rollTo (monitor : Monitor) (day : Date) : Monitor :=
  match monitor.day with
  | some current =>
    if current < day then { monitor with day := some day, counts := .none } else monitor
  | none => { monitor with day := some day, counts := .none }

/-- The requests counted so far with one more of a requestor. -/
def addRequest (requestor : String) (time : Instant) : List RequestorCount → List RequestorCount
  | [] => [⟨requestor, 1, time⟩]
  | r :: rest =>
    if r.requestor = requestor then ⟨requestor, r.count + 1, time⟩ :: rest
    else r :: addRequest requestor time rest

/-- How many requests of a requestor are counted. -/
def requestsOf (requestor : String) (counts : List RequestorCount) : Nat :=
  match counts.find? fun r => r.requestor == requestor with
  | some r => r.count
  | none => 0

/-- The alert of a rule when a count is above its threshold, unless the rule has fired. -/
def fire (rule : VolumeRule) (count : Nat) (threshold : UInt64) (cause : AlertCause)
    (counts : DayCounts) : DayCounts × List AlertCause :=
  if threshold.toNat < count ∧ rule.key ∉ counts.fired then
    ({ counts with fired := rule.key :: counts.fired }, [cause])
  else (counts, [])

/-- One more takedown. -/
def countTakedown (thresholds : AlertThresholds) (counts : DayCounts) :
    DayCounts × List AlertCause :=
  let count := counts.takedowns + 1
  fire .allTakedowns count thresholds.takedownsPerDay
    (.takedownVolume count thresholds.takedownsPerDay) { counts with takedowns := count }

def countRequest (thresholds : AlertThresholds) (requestor : String) (time : Instant)
    (counts : DayCounts) : DayCounts × List AlertCause :=
  let requestors := addRequest requestor time counts.requestors
  let count := requestsOf requestor requestors
  fire (.takedownsOf requestor) count thresholds.takedownsPerRequestor
    (.requestorVolume requestor count thresholds.takedownsPerRequestor)
    { counts with requestors }

/-- The counts of a day with an entry of that day, and the alerts it raises. -/
def countEntry (thresholds : AlertThresholds) (e : Entry) (counts : DayCounts) :
    DayCounts × List AlertCause :=
  if e.eventType = "dmca_takedown" then
    let (counts, daily) := countTakedown thresholds counts
    match e.details.requestor? with
    | some requestor =>
      let (counts, own) := countRequest thresholds requestor e.time counts
      (counts, daily ++ own)
    | none => (counts, daily)
  else if e.eventType = "dmca_counter_notice" then
    ({ counts with counterNotices := counts.counterNotices + 1 }, [])
  else (counts, [])

/-- The monitor with an entry counted for its day, and the alerts about volumes. Entries of an
earlier day are not counted. -/
def countVolume (monitor : Monitor) (e : Entry) : Monitor × List AlertCause :=
  let monitor := monitor.rollTo e.time.date
  if monitor.day = some e.time.date then
    let (counts, causes) := countEntry monitor.thresholds e monitor.counts
    ({ monitor with counts }, causes)
  else (monitor, [])

/-- Alerts with names from the supply. -/
def raiseAll (ids : IdSupply) (now : Instant) (entryId : String) : List AlertCause → List Alert
  | [] => []
  | cause :: rest =>
    ⟨ids.next .alert, cause, now, entryId, none⟩ :: raiseAll (ids.skip 1) now entryId rest

/-- The monitor after an entry, and the causes of the alerts it raises. -/
def take (monitor : Monitor) (e : Entry) : Monitor × List AlertCause :=
  let (after, volume) := (monitor.addTime e).countVolume e
  (after, delayCauses monitor.threshold e ++ severityCauses e ++ volume)

/-- The monitor after an entry, the alerts it raises, and the supply that their names were drawn
from. -/
def observe (monitor : Monitor) (ids : IdSupply) (now : Instant) (e : Entry) :
    Monitor × List Alert × IdSupply :=
  let (after, causes) := monitor.take e
  let raised := raiseAll ids now e.id causes
  ({ after with lastUpdated := some now, alerts := after.alerts ++ raised }, raised,
    ids.skip causes.length)

/-- The monitor after some entries, each observed at its own moment, the alerts they raise, and the
supply that their names were drawn from. -/
def observeAll (monitor : Monitor) (ids : IdSupply) :
    List (Instant × Entry) → Monitor × List Alert × IdSupply
  | [] => (monitor, [], ids)
  | (now, e) :: rest =>
    let (monitor, raised, ids) := monitor.observe ids now e
    let (monitor, more, ids) := monitor.observeAll ids rest
    (monitor, raised ++ more, ids)

/-! ## Alerts -/

/-- The alerts that have not been resolved. -/
def activeAlerts (monitor : Monitor) : List Alert := monitor.alerts.filter fun a => !a.isResolved

/-- The alerts with the first one of an id resolved. -/
def resolveFirst (id : String) (resolution : Resolution) : List Alert → List Alert
  | [] => []
  | alert :: rest =>
    if alert.id = id then { alert with resolution := some resolution } :: rest
    else alert :: resolveFirst id resolution rest

/-- Resolves the alert with an id, unless there is none or it is resolved already. -/
def resolve (monitor : Monitor) (now : Instant) (id text : String) :
    Except AuditError (Alert × Monitor) :=
  match monitor.alerts.find? fun alert => alert.id == id with
  | none => .error (.alertNotFound id)
  | some alert =>
    if alert.isResolved then .error (.alertResolved id)
    else
      let resolution : Resolution := ⟨text, now⟩
      .ok ({ alert with resolution := some resolution },
        { monitor with alerts := resolveFirst id resolution monitor.alerts })

/-! ## Metrics -/

/-- More requests come first, and of as many requests the smaller name. -/
def isBusier (a b : RequestorCount) : Bool :=
  decide (b.count < a.count) || (a.count == b.count && decide (a.requestor ≤ b.requestor))

/-- How many requestors are listed. -/
def maxListed : Nat := 10

/-- The counts of the latest day seen; none if the monitor has seen no entry since some day
began. -/
def countsAt (monitor : Monitor) (today : Date) : DayCounts :=
  match monitor.day with
  | some day => if day < today then .none else monitor.counts
  | none => .none

/-- The day that counts are shown for. -/
def dayAt (monitor : Monitor) (today : Date) : Date :=
  match monitor.day with
  | some day => if day < today then today else day
  | none => today

end Monitor

/-- What the monitor shows on a day. -/
structure Metrics where
  day : Date
  takedowns : Nat
  counterNotices : Nat
  processed : Nat
  meanMillis : Option UInt64
  topRequestors : List RequestorCount
  lastUpdated : Option Instant

/-- What the monitor shows on a day. -/
def Monitor.metricsAt (monitor : Monitor) (today : Date) : Metrics :=
  let counts := monitor.countsAt today
  { day := monitor.dayAt today
    takedowns := counts.takedowns
    counterNotices := counts.counterNotices
    processed := monitor.processed
    meanMillis := AuditTrail.meanMillis monitor.totalMillis monitor.processed
    topRequestors := (counts.requestors.mergeSort Monitor.isBusier).take Monitor.maxListed
    lastUpdated := monitor.lastUpdated }

def RequestorCount.toJson (r : RequestorCount) : Json := .object
  [("requestor_email", .string r.requestor), ("takedown_count", .nat r.count),
   ("last_activity", .string r.last.text)]

def Metrics.toJson (m : Metrics) : Json := .object
  [("day", .string m.day.text), ("takedowns_today", .nat m.takedowns),
   ("counter_notices_today", .nat m.counterNotices), ("processed_entries", .nat m.processed),
   ("average_processing_time_ms", Json.orNull .word m.meanMillis),
   ("top_requestors", .array (m.topRequestors.map RequestorCount.toJson)),
   ("last_updated", Json.orNull (fun t => .string t.text) m.lastUpdated)]

end AuditTrail
