import AuditTrail.Config.Basic
import AuditTrail.Config.Setting
import AuditTrail.CoreInstances
/-!
# Configurations from settings

The configuration that a table of settings gives. What is not set has its standard value; what is
set has to fit.
-/

namespace AuditTrail

open scoped CoreInstances

def Setting.asWord? (s : Setting) : Option UInt64 := s.asNat?.map UInt64.ofNat

def ScoringParameters.ofSetting? (s : Setting) : Option (ScoringParameters Float) := do
  guard s.isRecord
  let d := standard
  return {
    failurePenalty := ← s.fieldOr? 0 "dmca_failure_penalty" Setting.asFloat? d.failurePenalty
    defaultProcessingSecs :=
      ← s.fieldOr? 1 "default_processing_threshold_secs" Setting.asWord? d.defaultProcessingSecs
    severeDelayPenalty :=
      ← s.fieldOr? 2 "severe_delay_penalty" Setting.asFloat? d.severeDelayPenalty
    integrityPenalty :=
      ← s.fieldOr? 3 "integrity_issue_penalty" Setting.asFloat? d.integrityPenalty
    missingFieldPenalty :=
      ← s.fieldOr? 4 "missing_field_penalty" Setting.asFloat? d.missingFieldPenalty
    lowRiskThreshold := ← s.fieldOr? 5 "low_risk_threshold" Setting.asFloat? d.lowRiskThreshold
    mediumRiskThreshold :=
      ← s.fieldOr? 6 "medium_risk_threshold" Setting.asFloat? d.mediumRiskThreshold
    highTakedownVolume :=
      ← s.fieldOr? 7 "high_takedown_volume" Setting.asWord? d.highTakedownVolume
    highCounterNoticeRatio :=
      ← s.fieldOr? 8 "high_counter_notice_ratio" Setting.asFloat? d.highCounterNoticeRatio
    strengthThreshold :=
      ← s.fieldOr? 9 "compliance_strength_threshold" Setting.asFloat? d.strengthThreshold }

def AlertThresholds.ofSetting? (s : Setting) : Option AlertThresholds := do
  guard s.isRecord
  let d := standard
  return {
    takedownsPerDay := ← s.fieldOr? 0 "takedowns_per_day" Setting.asWord? d.takedownsPerDay
    takedownsPerRequestor :=
      ← s.fieldOr? 1 "takedowns_per_requestor" Setting.asWord? d.takedownsPerRequestor
    counterNoticeRatio :=
      ← s.fieldOr? 2 "counter_notice_ratio" Setting.asFloat? d.counterNoticeRatio
    processingSecs :=
      ← s.fieldOr? 3 "processing_time_threshold_secs" (Setting.asOption? Setting.asWord?)
        d.processingSecs }

namespace Config

def settingWord32? (s : Setting) : Option UInt32 :=
  (s.asNatBelow? (2 ^ (32 : Nat))).map UInt32.ofNat

def settingWord16? (s : Setting) : Option UInt16 :=
  (s.asNatBelow? (2 ^ (16 : Nat))).map UInt16.ofNat

/-- The configuration that a setting gives. -/
def ofSetting? (s : Setting) : Option Config := do
  guard s.isRecord
  let d := standard
  return {
    retentionDays := ← s.fieldOr? 0 "retention_days" settingWord32? d.retentionDays
    legalHold := ← s.fieldOr? 1 "legal_hold_enabled" Setting.asBool? d.legalHold
    requireProof := ← s.fieldOr? 2 "require_cryptographic_proof" Setting.asBool? d.requireProof
    systemVersion := ← s.fieldOr? 3 "system_version" Setting.asText? d.systemVersion
    jurisdiction := ← s.fieldOr? 4 "jurisdiction" Setting.asText? d.jurisdiction
    keyPath := ← s.fieldOr? 5 "signing_key_path" (Setting.asOption? Setting.asText?) d.keyPath
    exportPath := ← s.fieldOr? 6 "export_path" (Setting.asOption? Setting.asText?) d.exportPath
    serverHost := ← s.fieldOr? 7 "server_host" Setting.asText? d.serverHost
    serverPort := ← s.fieldOr? 8 "server_port" settingWord16? d.serverPort
    alerts := ← s.fieldOr? 9 "alert_thresholds" AlertThresholds.ofSetting? d.alerts
    scoring := ← s.fieldOr? 10 "scoring" ScoringParameters.ofSetting? d.scoring }

end Config

end AuditTrail
