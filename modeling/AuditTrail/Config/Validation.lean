import AuditTrail.Config.Spans
import AuditTrail.Decimal.Shortest
import AuditTrail.Text.Blank
/-!
# Validating a configuration

The checks that a configuration has to pass, in the order in which they are made; the first that
fails is the one that is reported.
-/

namespace AuditTrail

open Decimal (Binary64)

/-- Why a setting is refused. A setting is named by its place, values stand as they were given. -/
inductive SettingFault (R : Type) where
  | zero (setting : String)
  | retentionTooLong
  | blank (setting : String)
  /-- A penalty that is negative or not finite. -/
  | penalty (setting : String) (value : R)
  /-- A share that does not lie between zero and one. -/
  | share (setting : String) (value : R)
  /-- The threshold of medium risk lies above the one of low risk. -/
  | thresholdsCross (medium low : R)

/-- The wording of a fault. -/
def SettingFault.message : SettingFault Float → String
  | .zero setting => setting ++ " must be greater than zero"
  | .retentionTooLong => "retention_days must not exceed 36500"
  | .blank setting => setting ++ " must not be empty"
  | .penalty setting value =>
    setting ++ " (" ++ (Binary64.ofFloat value).messageText ++
      ") must be a finite, non-negative number"
  | .share setting value =>
    setting ++ " (" ++ (Binary64.ofFloat value).messageText ++ ") must be between 0.0 and 1.0"
  | .thresholdsCross medium low =>
    "scoring.medium_risk_threshold (" ++ (Binary64.ofFloat medium).messageText ++
      ") must not exceed scoring.low_risk_threshold (" ++ (Binary64.ofFloat low).messageText ++ ")"

/-- The longest retention in days, a hundred years. -/
def maxRetentionDays : UInt32 := 36500

/-- Passes when the condition holds. -/
def requireThat {R : Type} (condition : Bool) (fault : SettingFault R) :
    Except (SettingFault R) Unit :=
  if condition then .ok () else .error fault

theorem requireThat_eq_ok_iff {R : Type} {condition : Bool} {fault : SettingFault R} :
    requireThat condition fault = .ok () ↔ condition = true := by
  cases condition <;> simp [requireThat]

/-- Two checks pass one after the other when both pass. -/
theorem bind_check_eq_ok_iff {R : Type} {first second : Except (SettingFault R) Unit} :
    (first >>= fun _ => second) = .ok () ↔ first = .ok () ∧ second = .ok () := by
  cases first <;> simp [bind, Except.bind]

namespace ScoringParameters

variable {R : Type} [ScoreNumber R]

/-- A penalty is finite and not negative. -/
def checkPenalty (setting : String) (value : R) : Except (SettingFault R) Unit :=
  requireThat (ScoreNumber.isFinite value && ScoreNumber.le (ScoreNumber.ofCount 0) value)
    (.penalty setting value)

/-- A share lies between zero and one. -/
def checkShare (setting : String) (value : R) : Except (SettingFault R) Unit :=
  requireThat (ScoreNumber.inUnit value) (.share setting value)

/-- The checks of the scoring parameters. -/
def check (p : ScoringParameters R) : Except (SettingFault R) Unit := do
  checkPenalty "scoring.dmca_failure_penalty" p.failurePenalty
  checkPenalty "scoring.severe_delay_penalty" p.severeDelayPenalty
  checkPenalty "scoring.integrity_issue_penalty" p.integrityPenalty
  checkPenalty "scoring.missing_field_penalty" p.missingFieldPenalty
  checkShare "scoring.low_risk_threshold" p.lowRiskThreshold
  checkShare "scoring.medium_risk_threshold" p.mediumRiskThreshold
  checkShare "scoring.high_counter_notice_ratio" p.highCounterNoticeRatio
  checkShare "scoring.compliance_strength_threshold" p.strengthThreshold
  requireThat (!ScoreNumber.lt p.lowRiskThreshold p.mediumRiskThreshold)
    (.thresholdsCross p.mediumRiskThreshold p.lowRiskThreshold)
  requireThat (p.defaultProcessingSecs != 0) (.zero "scoring.default_processing_threshold_secs")

end ScoringParameters

def AlertThresholds.check (t : AlertThresholds) : Except (SettingFault Float) Unit := do
  requireThat (t.takedownsPerDay != 0) (.zero "alert_thresholds.takedowns_per_day")
  requireThat (t.takedownsPerRequestor != 0) (.zero "alert_thresholds.takedowns_per_requestor")
  ScoringParameters.checkShare "alert_thresholds.counter_notice_ratio" t.counterNoticeRatio

namespace Config

/-- The checks that come before the one of the processing threshold. -/
def checkSettings (config : Config) : Except (SettingFault Float) Unit := do
  requireThat (config.retentionDays != 0) (.zero "retention_days")
  requireThat (decide (config.retentionDays ≤ maxRetentionDays)) .retentionTooLong
  requireThat (!Text.isAllBlank config.systemVersion) (.blank "system_version")
  requireThat (!Text.isAllBlank config.jurisdiction) (.blank "jurisdiction")
  config.alerts.check
  config.scoring.check

/-- All checks of a configuration. -/
def check (config : Config) : Except (SettingFault Float) Unit := do
  config.checkSettings
  requireThat (decide (0 < config.processingSpan.seconds)) (.zero "processing threshold")

end Config

end AuditTrail
