import AuditTrail.Config.Spans
import AuditTrail.Score.Tally
/-!
# Scores

Four scores between zero and one, each a share of entries less penalties. Where there is nothing to
judge the score is one. The scores decide the risk level and the findings of an assessment.
-/

namespace AuditTrail

/-- What a score is computed with. -/
structure Scorer (R : Type) where
  parameters : ScoringParameters R
  /-- The processing threshold in milliseconds. -/
  threshold : UInt64
  /-- Entries count as complete only with hash and signature. -/
  requireProof : Bool

/-- How great the risk is. -/
inductive RiskLevel where
  | low
  | medium
  | high
deriving DecidableEq, Repr

def RiskLevel.name : RiskLevel → String
  | .low => "low"
  | .medium => "medium"
  | .high => "high"

/-- The scorer of a configuration. -/
def Scorer.of (config : Config) : Scorer Float :=
  ⟨config.scoring, config.processingThreshold, config.requireProof⟩

theorem Scorer.threshold_of (config : Config) :
    (Scorer.of config).threshold = config.processingThreshold := by
  rw [Scorer.of]

section Scores

open ScoreNumber

variable {R : Type} [ScoreNumber R]

/-- A penalty for each of some occurrences; no occurrence costs nothing, whatever the penalty. -/
def penalty (count : Nat) (each : R) : R :=
  if count = 0 then ofCount 0 else mul (ofCount count) each

/-- Deducted for each critical entry. -/
def criticalPenalty : R := quotient 1 10

/-- Deducted for each warning. -/
def warningPenalty : R := quotient 1 50

namespace Scorer

def scoreOutcomes (scorer : Scorer R) (t : OutcomeTally) : R :=
  if t.events = 0 then ofCount 1
  else
    clamp (sub (quotient t.succeeded t.events) (penalty t.failed scorer.parameters.failurePenalty))

/-- The share of takedown events that ended well, less a penalty for each that ended badly. -/
def outcomeScore (scorer : Scorer R) (entries : List Entry) : R :=
  scorer.scoreOutcomes (OutcomeTally.of entries)

def scoreDelays (scorer : Scorer R) (t : DelayTally) : R :=
  if t.timed = 0 then ofCount 1
  else
    clamp (sub (quotient t.timely t.timed) (penalty t.severe scorer.parameters.severeDelayPenalty))

/-- The share of timed entries within the threshold, less a penalty for each beyond its double. -/
def delayScore (scorer : Scorer R) (entries : List Entry) : R :=
  scorer.scoreDelays (DelayTally.of scorer.threshold entries)

def scoreCompleteness (scorer : Scorer R) (t : CompletenessTally) : R :=
  if t.total = 0 then ofCount 1
  else
    clamp
      (sub
        (sub (quotient t.complete t.total)
          (penalty t.unproven scorer.parameters.integrityPenalty))
        (penalty t.missing scorer.parameters.missingFieldPenalty))

/-- The share of complete entries, less penalties for missing proofs and missing fields. -/
def completenessScore (scorer : Scorer R) (entries : List Entry) : R :=
  scorer.scoreCompleteness (CompletenessTally.of scorer.requireProof entries)

def scoreSeverities (t : SeverityTally) : R :=
  clamp (sub (sub (ofCount 1) (penalty t.critical criticalPenalty))
    (penalty t.warning warningPenalty))

/-- One, less a penalty for each critical entry and each warning. -/
def overallScore (entries : List Entry) : R := scoreSeverities (SeverityTally.of entries)

/-- The risk that an overall score stands for. -/
def riskLevel (scorer : Scorer R) (score : R) : RiskLevel :=
  if le scorer.parameters.lowRiskThreshold score then .low
  else if le scorer.parameters.mediumRiskThreshold score then .medium
  else .high

end Scorer

end Scores

/-! ## Assessments -/

/-- The scores of some entries and what they tell. -/
structure Assessment (R : Type) where
  overall : R
  outcomes : R
  delays : R
  completeness : R
  risk : RiskLevel
  strengths : List String
  improvements : List String

/-- What is said about a score that is strong, and about one that is not. -/
structure Finding where
  strength : String
  improvement : String

/-- What is said about the outcomes. -/
def Finding.outcomes : Finding :=
  ⟨"Strong DMCA compliance procedures", "Improve DMCA processing efficiency"⟩

/-- What is said about delays. -/
def Finding.delays : Finding :=
  ⟨"Timely processing of compliance requests", "Reduce processing delays for compliance requests"⟩

/-- What is said about completeness. -/
def Finding.completeness : Finding :=
  ⟨"Excellent audit trail maintenance", "Enhance audit logging completeness"⟩

/-- The assessment of some entries. -/
def Scorer.assess {R : Type} [ScoreNumber R] (scorer : Scorer R) (entries : List Entry) :
    Assessment R :=
  let overall : R := Scorer.overallScore entries
  let outcomes := scorer.outcomeScore entries
  let delays := scorer.delayScore entries
  let completeness := scorer.completenessScore entries
  let findings := [(outcomes, Finding.outcomes), (delays, Finding.delays),
    (completeness, Finding.completeness)]
  let isStrong := fun score => ScoreNumber.le scorer.parameters.strengthThreshold score
  { overall, outcomes, delays, completeness
    risk := scorer.riskLevel overall
    strengths := (findings.filter fun f => isStrong f.1).map fun f => f.2.strength
    improvements := (findings.filter fun f => !isStrong f.1).map fun f => f.2.improvement }

def Assessment.toJson (a : Assessment Float) : Json := .object
  [("overall_score", .real a.overall), ("dmca_compliance", .real a.outcomes),
   ("processing_compliance", .real a.delays), ("audit_compliance", .real a.completeness),
   ("risk_level", .string a.risk.name), ("strengths", Json.strings a.strengths),
   ("improvement_areas", Json.strings a.improvements)]

end AuditTrail
