import AuditTrail.Config.Basic
import AuditTrail.Time.Span
/-!
# Spans of a configuration

How long entries are kept and how long processing may take. Both are set as unsigned words; every
value makes a span, since a threshold is cut before one is made of it.
-/

namespace AuditTrail.Config

open scoped CoreInstances

/-! ## The processing threshold -/

/-- The processing threshold as it is set: the alert threshold unless it is missing or zero. -/
def chosenProcessingSecs (config : Config) : UInt64 :=
  match config.alerts.processingSecs with
  | some secs => if 0 < secs then secs else config.scoring.defaultProcessingSecs
  | none => config.scoring.defaultProcessingSecs

/-- The most seconds that a threshold comes to. -/
def maxThresholdSecs : Int64 := Int64.maxValue / 1000

/-- Some seconds, cut where they are too many for a threshold. -/
def cappedSecs (secs : UInt64) : Int64 :=
  min ((signedWord? secs).getD Int64.maxValue) maxThresholdSecs

theorem toInt_cappedSecs (secs : UInt64) :
    (cappedSecs secs).toInt = min (secs.toNat : Int) ((2 ^ (63 : Nat) - 1) / 1000) := by
  have hmin (a b : Int64) : (min a b).toInt = min a.toInt b.toInt := by
    rw [show min a b = if a ≤ b then a else b from rfl]
    split
    · rename_i hle
      exact (Int.min_eq_left (Int64.le_iff_toInt_le.mp hle)).symm
    · rename_i hlt
      rw [Int64.le_iff_toInt_le] at hlt
      exact (Int.min_eq_right (by omega)).symm
  have hmost : maxThresholdSecs.toInt = (2 ^ (63 : Nat) - 1) / 1000 := rfl
  have hlargest : Int64.maxValue.toInt = 2 ^ (63 : Nat) - 1 := rfl
  rw [cappedSecs, hmin, hmost, signedWord?]
  split
  · rename_i hlt
    rw [Option.getD_some, Int64.toInt_ofNat_of_lt hlt]
  · rw [Option.getD_none, hlargest]
    omega

theorem isSpan_cappedSecs (secs : UInt64) : isSpan (cappedSecs secs) = true := by
  rw [isSpan_iff, toInt_cappedSecs]
  omega

/-- How long processing may take. -/
def processingSpan (config : Config) : Span :=
  (Span.ofSeconds? (cappedSecs config.chosenProcessingSecs)).get
    (by rw [Span.ofSeconds?_eq (isSpan_cappedSecs _)]; rfl)

/-- The processing threshold in milliseconds, or zero if they were no unsigned word. -/
def processingThreshold (config : Config) : UInt64 :=
  (unsignedWord? config.processingSpan.millis).getD 0

/-! ## The retention -/

theorem exists_ofDays?_word (days : UInt32) :
    ∃ span, Span.ofDays? (Int64.ofNat days.toNat) = some span ∧
      span.seconds.toInt = days.toNat * 86400 := by
  have hlt := days.toNat_lt
  have hdays : (Int64.ofNat days.toNat).toInt = days.toNat := Int64.toInt_ofNat_of_lt (by omega)
  rw [← hdays]
  exact Span.exists_ofDays? (by omega)

/-- How long entries are kept. -/
def retentionSpan (config : Config) : Span :=
  (Span.ofDays? (Int64.ofNat config.retentionDays.toNat)).get
    (by obtain ⟨span, hspan, -⟩ := exists_ofDays?_word config.retentionDays; rw [hspan]; rfl)

end AuditTrail.Config
