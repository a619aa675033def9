import Mathlib.Tactic.Tauto
import AuditTrail.Config.Validation
import AuditTrail.Monitor
import AuditTrail.Score.Scorer
/-! # The spans of a configuration are exact

Every configuration, whether it passes its checks or not, makes its two spans. Neither the days of the
retention nor the milliseconds of the threshold wrap around, so the scores and the monitor hold the
threshold that was set, cut where it is too long (`Config.spans_fit`). -/

namespace AuditTrail
set_option autoImplicit false

open scoped CoreInstances

/-- The milliseconds of a span do not wrap around. -/
theorem Span.toInt_millis (span : Span) : span.millis.toInt = span.seconds.toInt * 1000 := by
  have hvalid := (isSpan_iff span.seconds).mp span.valid
  have hthousand : (1000 : Int64).toInt = 1000 := rfl
  rw [millis, Int64.toInt_mul, hthousand]
  exact Int.bmod_eq_of_le (by omega) (by omega)

theorem unsignedWord?_of_nonneg {n : Int64} (h : 0 ≤ n.toInt) :
    ∃ word, unsignedWord? n = some word ∧ (word.toNat : Int) = n.toInt := by
  have hle : 0 ≤ n := Int64.le_iff_toInt_le.mpr h
  refine ⟨n.toUInt64, if_pos hle, ?_⟩
  rw [Int64.toNat_toUInt64_of_le hle, Int64.cast_toNatClampNeg n hle]

namespace Config

/-! ## The retention -/

theorem ofDays?_retention (config : Config) :
    Span.ofDays? (Int64.ofNat config.retentionDays.toNat) = some config.retentionSpan :=
  (Option.some_get _).symm

theorem seconds_retentionSpan (config : Config) :
    config.retentionSpan.seconds.toInt = config.retentionDays.toNat * 86400 := by
  obtain ⟨span, hspan, hseconds⟩ := exists_ofDays?_word config.retentionDays
  rw [ofDays?_retention] at hspan
  rw [Option.some.inj hspan]
  exact hseconds

/-! ## The threshold -/

/-- The seconds that processing may take as they are set: those of the alerts, or those of the scores
where the alerts have none or zero. -/
inductive IsThreshold (config : Config) : UInt64 → Prop where
  | alerts (secs : UInt64) (hset : config.alerts.processingSecs = some secs) (hpos : secs ≠ 0) :
    IsThreshold config secs
  | scores (hunset : ∀ secs, config.alerts.processingSecs = some secs → secs = 0) :
    IsThreshold config config.scoring.defaultProcessingSecs

theorem isThreshold_chosen (config : Config) : config.IsThreshold config.chosenProcessingSecs := by
  unfold chosenProcessingSecs
  split
  · rename_i secs hset
    split
    · rename_i hpos
      exact .alerts secs hset (UInt64.pos_iff_ne_zero.mp hpos)
    · rename_i hzero
      refine .scores fun other hother => ?_
      rw [hset] at hother
      rw [← Option.some.inj hother]
      exact Classical.not_not.mp fun hne => hzero (UInt64.pos_iff_ne_zero.mpr hne)
  · rename_i hunset
    refine .scores fun secs hset => ?_
    rw [hunset] at hset
    cases hset

theorem ofSeconds?_threshold (config : Config) :
    Span.ofSeconds? (cappedSecs config.chosenProcessingSecs) = some config.processingSpan :=
  (Option.some_get _).symm

theorem seconds_processingSpan (config : Config) : config.processingSpan.seconds.toInt =
    min (config.chosenProcessingSecs.toNat : Int) ((2 ^ (63 : Nat) - 1) / 1000) := by
  have hspan := ofSeconds?_threshold config
  rw [Span.ofSeconds?_eq (isSpan_cappedSecs _)] at hspan
  rw [← Option.some.inj hspan, toInt_cappedSecs]

theorem unsignedWord?_threshold (config : Config) :
    unsignedWord? config.processingSpan.millis = some config.processingThreshold ∧
    (config.processingThreshold.toNat : Int) = config.processingSpan.millis.toInt := by
  have hnonneg : 0 ≤ config.processingSpan.millis.toInt := by
    rw [Span.toInt_millis, seconds_processingSpan]
    omega
  obtain ⟨word, hword, hvalue⟩ := unsignedWord?_of_nonneg hnonneg
  have hthreshold : config.processingThreshold = word := by
    rw [processingThreshold, hword, Option.getD_some]
  rw [hthreshold]
  exact ⟨hword, hvalue⟩

/-! ## Checks -/

theorem defaultProcessingSecs_of_check {p : ScoringParameters Float} (h : p.check = .ok ()) :
    p.defaultProcessingSecs ≠ 0 := by
  simp only [ScoringParameters.check, bind_check_eq_ok_iff, requireThat_eq_ok_iff, bne_iff_ne] at h
  tauto

theorem scoring_check_of_checkSettings {config : Config} (h : config.checkSettings = .ok ()) :
    config.scoring.check = .ok () := by
  simp only [checkSettings, bind_check_eq_ok_iff] at h
  tauto

theorem IsThreshold.ne_zero {config : Config} {secs : UInt64} (h : config.IsThreshold secs)
    (hchecked : config.checkSettings = .ok ()) : secs ≠ 0 := by
  cases h with
  | alerts _ _ hpos => exact hpos
  | scores _ => exact defaultProcessingSecs_of_check (scoring_check_of_checkSettings hchecked)

/-- Nothing is left for the last check to find. -/
theorem check_of_checkSettings {config : Config} (h : config.checkSettings = .ok ()) :
    config.check = .ok () := by
  have hsecs : 0 < config.chosenProcessingSecs.toNat :=
    UInt64.lt_iff_toNat_lt.mp (UInt64.pos_iff_ne_zero.mpr (config.isThreshold_chosen.ne_zero h))
  have hpos : 0 < config.processingSpan.seconds := by
    rw [Int64.lt_iff_toInt_lt, seconds_processingSpan]
    exact Int.lt_min.mpr ⟨Int.natCast_pos.mpr hsecs, by decide⟩
  rw [check, h, decide_eq_true hpos]
  rfl

/-- **The spans of a configuration are exact.** Of any configuration, whether it passes its checks or
not, the days of retention are a span. So are the seconds that processing may take: those of the alerts
where these have some other than zero, and else those of the scores, cut at the most whose milliseconds
fit a signed word. Their milliseconds do not wrap around and are an unsigned word, which scores and
monitor both hold. A configuration that passes the checks before the last one passes the last one. -/
theorem spans_fit (config : Config) :
    (Span.ofDays? (Int64.ofNat config.retentionDays.toNat) = some config.retentionSpan ∧
      config.retentionSpan.seconds.toInt = config.retentionDays.toNat * 86400 ∧
      config.retentionSpan.millis.toInt = config.retentionDays.toNat * 86400000) ∧
    (∃ secs, config.IsThreshold secs ∧
      Span.ofSeconds? (cappedSecs secs) = some config.processingSpan ∧
      config.processingSpan.seconds.toInt = min (secs.toNat : Int) ((2 ^ (63 : Nat) - 1) / 1000)) ∧
    (∃ word, unsignedWord? config.processingSpan.millis = some word ∧
      (word.toNat : Int) = config.processingSpan.seconds.toInt * 1000 ∧
      (Scorer.of config).threshold = word ∧ (Monitor.of config).threshold = word) ∧
    (config.checkSettings = .ok () → config.check = .ok ()) := by
  obtain ⟨hword, hvalue⟩ := config.unsignedWord?_threshold
  refine ⟨⟨config.ofDays?_retention, config.seconds_retentionSpan, ?_⟩,
    ⟨_, config.isThreshold_chosen, config.ofSeconds?_threshold, config.seconds_processingSpan⟩,
    ⟨_, hword, ?_, Scorer.threshold_of config, Monitor.threshold_of config⟩,
    check_of_checkSettings⟩
  · rw [Span.toInt_millis, seconds_retentionSpan]
    omega
  · rw [hvalue, Span.toInt_millis]

/-- The alerts leave the threshold to the scores, which have the largest word for it. -/
def patient : Config :=
  { Config.standard with
    retentionDays := maxRetentionDays
    alerts := { AlertThresholds.standard with processingSecs := some 0 }
    scoring := { ScoringParameters.standard with defaultProcessingSecs := 0xFFFFFFFFFFFFFFFF } }

/-- The threshold of the largest word is cut, and the configuration passes its checks. -/
theorem spans_fit_patient : patient.checkSettings = .ok () ∧ patient.check = .ok () ∧
    (Scorer.of patient).threshold = 9223372036854775000 ∧
    (Monitor.of patient).threshold = 9223372036854775000 := by
  have hchecked : patient.checkSettings = .ok () := rfl
  have hmillis : unsignedWord? patient.processingSpan.millis = some 9223372036854775000 := by
    decide +kernel
  obtain ⟨-, -, ⟨word, hword, -, hscorer, hmonitor⟩, hcheck⟩ := spans_fit patient
  rw [hmillis] at hword
  rw [← Option.some.inj hword] at hscorer hmonitor
  exact ⟨hchecked, hcheck hchecked, hscorer, hmonitor⟩

end Config

end AuditTrail
