import AuditTrail.Config.Basic
import AuditTrail.CoreInstances
import AuditTrail.Json.Decode
/-!
# Configurations as JSON

A configuration names what it sets; everything else has its standard value.
-/

namespace AuditTrail

open scoped CoreInstances

namespace ScoringParameters

/-- The fields of the scoring parameters. -/
def fields : List Json.Field :=
  [.defaulted "dmca_failure_penalty" Json.asFloat,
   .defaulted "default_processing_threshold_secs" Json.asWord,
   .defaulted "severe_delay_penalty" Json.asFloat,
   .defaulted "integrity_issue_penalty" Json.asFloat,
   .defaulted "missing_field_penalty" Json.asFloat,
   .defaulted "low_risk_threshold" Json.asFloat,
   .defaulted "medium_risk_threshold" Json.asFloat,
   .defaulted "high_takedown_volume" Json.asWord,
   .defaulted "high_counter_notice_ratio" Json.asFloat,
   .defaulted "compliance_strength_threshold" Json.asFloat]

/-- The scoring parameters that a tree stands for. -/
def ofJson (j : Json) : Except Fault (ScoringParameters Float) := do
  let m ← Json.record fields j
  let d := standard
  return {
    failurePenalty := ← Json.withDefault "dmca_failure_penalty" Json.asFloat d.failurePenalty m
    defaultProcessingSecs :=
      ← Json.withDefault "default_processing_threshold_secs" Json.asWord d.defaultProcessingSecs m
    severeDelayPenalty :=
      ← Json.withDefault "severe_delay_penalty" Json.asFloat d.severeDelayPenalty m
    integrityPenalty :=
      ← Json.withDefault "integrity_issue_penalty" Json.asFloat d.integrityPenalty m
    missingFieldPenalty :=
      ← Json.withDefault "missing_field_penalty" Json.asFloat d.missingFieldPenalty m
    lowRiskThreshold := ← Json.withDefault "low_risk_threshold" Json.asFloat d.lowRiskThreshold m
    mediumRiskThreshold :=
      ← Json.withDefault "medium_risk_threshold" Json.asFloat d.mediumRiskThreshold m
    highTakedownVolume :=
      ← Json.withDefault "high_takedown_volume" Json.asWord d.highTakedownVolume m
    highCounterNoticeRatio :=
      ← Json.withDefault "high_counter_notice_ratio" Json.asFloat d.highCounterNoticeRatio m
    strengthThreshold :=
      ← Json.withDefault "compliance_strength_threshold" Json.asFloat d.strengthThreshold m }

/-- The scoring parameters as JSON. -/
def toJson (p : ScoringParameters Float) : Json := .object
  [("dmca_failure_penalty", .real p.failurePenalty),
   ("default_processing_threshold_secs", .word p.defaultProcessingSecs),
   ("severe_delay_penalty", .real p.severeDelayPenalty),
   ("integrity_issue_penalty", .real p.integrityPenalty),
   ("missing_field_penalty", .real p.missingFieldPenalty),
   ("low_risk_threshold", .real p.lowRiskThreshold),
   ("medium_risk_threshold", .real p.mediumRiskThreshold),
   ("high_takedown_volume", .word p.highTakedownVolume),
   ("high_counter_notice_ratio", .real p.highCounterNoticeRatio),
   ("compliance_strength_threshold", .real p.strengthThreshold)]

end ScoringParameters

namespace AlertThresholds

/-- The fields of the alert thresholds. -/
def fields : List Json.Field :=
  [.defaulted "takedowns_per_day" Json.asWord, .defaulted "takedowns_per_requestor" Json.asWord,
   .defaulted "counter_notice_ratio" Json.asFloat,
   .optional "processing_time_threshold_secs" Json.asWord]

/-- The alert thresholds that a tree stands for. -/
def ofJson (j : Json) : Except Fault AlertThresholds := do
  let m ← Json.record fields j
  let d := standard
  return {
    takedownsPerDay := ← Json.withDefault "takedowns_per_day" Json.asWord d.takedownsPerDay m
    takedownsPerRequestor :=
      ← Json.withDefault "takedowns_per_requestor" Json.asWord d.takedownsPerRequestor m
    counterNoticeRatio :=
      ← Json.withDefault "counter_notice_ratio" Json.asFloat d.counterNoticeRatio m
    processingSecs :=
      ← Json.withDefault "processing_time_threshold_secs" (Json.asOption Json.asWord)
        d.processingSecs m }

/-- The alert thresholds as JSON. -/
def toJson (t : AlertThresholds) : Json := .object
  [("takedowns_per_day", .word t.takedownsPerDay),
   ("takedowns_per_requestor", .word t.takedownsPerRequestor),
   ("counter_notice_ratio", .real t.counterNoticeRatio),
   ("processing_time_threshold_secs", Json.orNull .word t.processingSecs)]

end AlertThresholds

namespace Config

/-- A number of 32 bits. -/
def asWord32 (j : Json) : Except Fault UInt32 := (j.asNatBelow (2 ^ (32 : Nat))).map UInt32.ofNat

/-- A number of 16 bits. -/
def asWord16 (j : Json) : Except Fault UInt16 := (j.asNatBelow (2 ^ (16 : Nat))).map UInt16.ofNat

/-- The fields of a configuration. -/
def fields : List Json.Field :=
  [.defaulted "retention_days" asWord32, .defaulted "legal_hold_enabled" Json.asBool,
   .defaulted "require_cryptographic_proof" Json.asBool, .defaulted "system_version" Json.asString,
   .defaulted "jurisdiction" Json.asString, .optional "signing_key_path" Json.asString,
   .optional "export_path" Json.asString, .defaulted "server_host" Json.asString,
   .defaulted "server_port" asWord16, .defaulted "alert_thresholds" AlertThresholds.ofJson,
   .defaulted "scoring" ScoringParameters.ofJson]

/-- The configuration that a tree stands for. -/
def ofJson (j : Json) : Except Fault Config := do
  let m ← Json.record fields j
  let d := standard
  return {
    retentionDays := ← Json.withDefault "retention_days" asWord32 d.retentionDays m
    legalHold := ← Json.withDefault "legal_hold_enabled" Json.asBool d.legalHold m
    requireProof := ← Json.withDefault "require_cryptographic_proof" Json.asBool d.requireProof m
    systemVersion := ← Json.withDefault "system_version" Json.asString d.systemVersion m
    jurisdiction := ← Json.withDefault "jurisdiction" Json.asString d.jurisdiction m
    keyPath := ← Json.optional "signing_key_path" Json.asString m
    exportPath := ← Json.optional "export_path" Json.asString m
    serverHost := ← Json.withDefault "server_host" Json.asString d.serverHost m
    serverPort := ← Json.withDefault "server_port" asWord16 d.serverPort m
    alerts := ← Json.withDefault "alert_thresholds" AlertThresholds.ofJson d.alerts m
    scoring := ← Json.withDefault "scoring" ScoringParameters.ofJson d.scoring m }

/-- The configuration as JSON. -/
def toJson (config : Config) : Json := .object
  [("retention_days", .nat config.retentionDays.toNat),
   ("legal_hold_enabled", .bool config.legalHold),
   ("require_cryptographic_proof", .bool config.requireProof),
   ("system_version", .string config.systemVersion), ("jurisdiction", .string config.jurisdiction),
   ("signing_key_path", Json.orNull .string config.keyPath),
   ("export_path", Json.orNull .string config.exportPath),
   ("server_host", .string config.serverHost), ("server_port", .nat config.serverPort.toNat),
   ("alert_thresholds", config.alerts.toJson), ("scoring", config.scoring.toJson)]

end Config

end AuditTrail
