import AuditTrail.CoreInstances
import AuditTrail.Score.Number
/-!
# Configuration

What an operator sets: how long entries are kept, when alerts are raised, how scores are computed,
and where keys and exports lie. The parameters of scores are stated over any kind of number.
-/

namespace AuditTrail

open scoped CoreInstances

/-- Penalties and thresholds of the scores. -/
structure ScoringParameters (R : Type) where
  /-- Deducted for each failed takedown event. -/
  failurePenalty : R
  /-- The processing threshold where no alert threshold is set. -/
  defaultProcessingSecs : UInt64
  /-- Deducted for each entry that took more than twice the threshold. -/
  severeDelayPenalty : R
  /-- Deducted for each entry that is not cryptographically sound. -/
  integrityPenalty : R
  /-- Deducted for each missing field. -/
  missingFieldPenalty : R
  /-- Risk is low from this score on. -/
  lowRiskThreshold : R
  /-- Risk is medium from this score on. -/
  mediumRiskThreshold : R
  /-- More takedowns than this need careful monitoring. -/
  highTakedownVolume : UInt64
  /-- A larger share of counter-notices hints at takedowns that go too far. -/
  highCounterNoticeRatio : R
  /-- A score from here on is a strength. -/
  strengthThreshold : R

/-- When alerts are raised. -/
structure AlertThresholds where
  takedownsPerDay : UInt64
  takedownsPerRequestor : UInt64
  /-- A larger share of counter-notices calls for a review. -/
  counterNoticeRatio : Float
  /-- How long processing may take; nothing and zero leave it to the scoring parameters. -/
  processingSecs : Option UInt64

/-- The configuration. -/
structure Config where
  /-- How many days entries are kept. -/
  retentionDays : UInt32
  /-- Entries are kept without end. -/
  legalHold : Bool
  /-- An entry counts as complete only with hash and signature. -/
  requireProof : Bool
  systemVersion : String
  jurisdiction : String
  /-- A file with the secret key. -/
  keyPath : Option String
  /-- A file that every entry is copied to. -/
  exportPath : Option String
  serverHost : String
  serverPort : UInt16
  alerts : AlertThresholds
  scoring : ScoringParameters Float

/-- The scoring parameters that hold where nothing else is set. -/
def ScoringParameters.standard : ScoringParameters Float where
  failurePenalty := 0.1
  defaultProcessingSecs := 86400
  severeDelayPenalty := 0.05
  integrityPenalty := 0.15
  missingFieldPenalty := 0.05
  lowRiskThreshold := 0.9
  mediumRiskThreshold := 0.7
  highTakedownVolume := 1000
  highCounterNoticeRatio := 0.5
  strengthThreshold := 0.9

/-- The alert thresholds that hold where nothing else is set. -/
def AlertThresholds.standard : AlertThresholds where
  takedownsPerDay := 100
  takedownsPerRequestor := 20
  counterNoticeRatio := 0.3
  processingSecs := some 86400

/-- The configuration that holds where nothing else is set. -/
def Config.standard : Config where
  retentionDays := 2555
  legalHold := true
  requireProof := true
  systemVersion := "noisefs-1.0"
  jurisdiction := "US"
  keyPath := none
  exportPath := none
  serverHost := "0.0.0.0"
  serverPort := 3000
  alerts := .standard
  scoring := .standard

end AuditTrail
