import AuditTrail.CoreInstances
import AuditTrail.Entry.Fingerprint
/-!
# Tallies

The counts that scores are made of. Each is a number of entries with some property, so none depends
on the order of the entries.
-/

namespace AuditTrail

open scoped CoreInstances

def successResults : List String := ["success", "processed", "blacklisted", "reinstated"]

def failureResults : List String := ["failed", "rejected", "error"]

namespace Entry

/-- The event ended well. -/
def isSuccess (e : Entry) : Bool := successResults.contains e.result

/-- The event ended badly. A result may be neither. -/
def isFailure (e : Entry) : Bool := failureResults.contains e.result

/-- The processing took longer than a number of milliseconds. -/
def isSlowerThan (millis : Nat) (e : Entry) : Bool :=
  e.processingTime?.any fun ms => decide (millis < ms.toNat)

/-- One of the fields that every entry needs is empty. -/
def lacksField (e : Entry) : Bool :=
  e.id == "" || !e.hasTime || e.eventType == "" || e.action == ""

/-- The entry needs a legal basis and has none. -/
def lacksBasis (e : Entry) : Bool := e.needsLegalBasis && !e.hasLegalBasis

/-- Hash or signature is empty. -/
def lacksProof (e : Entry) : Bool := e.hash == "" || e.signature == ""

/-- There is a hash, but not the one that the facts ask for. -/
def hasWrongHash (e : Entry) : Bool := e.hash != "" && !e.isIntact

end Entry

/-- The counts over the takedown procedure. -/
structure OutcomeTally where
  events : Nat
  succeeded : Nat
  failed : Nat
deriving DecidableEq, Repr

/-- How the events of the takedown procedure ended. -/
def OutcomeTally.of (entries : List Entry) : OutcomeTally :=
  let dmca := entries.filter Entry.isDmca
  { events := dmca.length
    succeeded := dmca.countP Entry.isSuccess
    failed := dmca.countP fun e => !e.isSuccess && e.isFailure }

/-- The counts over processing times. -/
structure DelayTally where
  timed : Nat
  timely : Nat
  severe : Nat
deriving DecidableEq, Repr

/-- Twice a number, or the largest word if that is less. -/
def doubled (n : UInt64) : Nat := min (2 * n.toNat) (2 ^ (64 : Nat) - 1)

/-- How the processing times compare to a threshold in milliseconds and to twice the threshold. -/
def DelayTally.of (threshold : UInt64) (entries : List Entry) : DelayTally :=
  let times := entries.filterMap Entry.processingTime?
  { timed := times.length
    timely := times.countP fun ms => decide (ms ≤ threshold)
    severe := times.countP fun ms => decide (doubled threshold < ms.toNat) }

/-- The counts over the completeness of entries. -/
structure CompletenessTally where
  total : Nat
  complete : Nat
  /-- How often a proof is missing or wrong. -/
  unproven : Nat
  /-- How often a field is missing. -/
  missing : Nat
deriving DecidableEq, Repr

/-- How often proof is missing from an entry, when proof is asked for. -/
def Entry.unprovenCount (requireProof : Bool) (e : Entry) : Nat :=
  if requireProof then e.lacksProof.toNat + e.hasWrongHash.toNat else 0

/-- How often a field is missing from an entry. -/
def Entry.missingCount (e : Entry) : Nat := e.lacksField.toNat + e.lacksBasis.toNat

/-- Nothing is missing from an entry. -/
def Entry.isComplete (requireProof : Bool) (e : Entry) : Bool :=
  e.unprovenCount requireProof == 0 && e.missingCount == 0

/-- How complete the entries are. -/
def CompletenessTally.of (requireProof : Bool) (entries : List Entry) : CompletenessTally where
  total := entries.length
  complete := entries.countP (Entry.isComplete requireProof)
  unproven := (entries.map (Entry.unprovenCount requireProof)).sum
  missing := (entries.map Entry.missingCount).sum

/-- The counts over severities. -/
structure SeverityTally where
  critical : Nat
  warning : Nat
deriving DecidableEq, Repr

/-- How many entries are critical and how many are warnings. -/
def SeverityTally.of (entries : List Entry) : SeverityTally where
  critical := entries.countP fun e => e.severity == .critical
  warning := entries.countP fun e => e.severity == .warning

end AuditTrail
