import AuditTrail.Proofs.Report.Counts
import AuditTrail.Proofs.Report.Issues
import AuditTrail.Proofs.Score.Double
/-! # The sections of a report agree

The analysis of takedowns, the statistics, the scores and the advice of a report each look at the
entries for themselves: by the exact type, by a word in the type, or by the result. What they say of
the same entries fits together (`Report.sections_agree`). -/

namespace AuditTrail
set_option autoImplicit false

/-! ## Events -/

namespace Entry

/-- An entry is an event of one of the three types at most, and each of them names the procedure. -/
theorem toNat_types_le (e : Entry) :
    e.isTakedown.toNat + e.isCounterNotice.toNat + e.isReinstatement.toNat ≤ e.isDmca.toNat := by
  by_cases ht : e.eventType = "dmca_takedown"
  · simp only [isTakedown, isCounterNotice, isReinstatement, isDmca, ht]
    decide
  by_cases hc : e.eventType = "dmca_counter_notice"
  · simp only [isTakedown, isCounterNotice, isReinstatement, isDmca, hc]
    decide
  by_cases hr : e.eventType = "dmca_reinstatement"
  · simp only [isTakedown, isCounterNotice, isReinstatement, isDmca, hr]
    decide
  have hnone : e.isTakedown = false ∧ e.isCounterNotice = false ∧ e.isReinstatement = false := by
    simp [isTakedown, isCounterNotice, isReinstatement, ht, hc, hr]
  rw [hnone.1, hnone.2.1, hnone.2.2]
  exact Nat.zero_le _

/-- No result is both good and bad. -/
theorem isSuccess_of_isFailure {e : Entry} (h : e.isFailure = true) : e.isSuccess = false := by
  rw [isFailure_iff] at h
  have hbad : ∀ result ∈ failureResults, successResults.contains result = false := by decide
  exact hbad e.result h

end Entry

theorem countP_types_le (entries : List Entry) :
    entries.countP Entry.isTakedown + entries.countP Entry.isCounterNotice +
      entries.countP Entry.isReinstatement ≤ entries.countP Entry.isDmca := by
  induction entries with
  | nil => exact Nat.le_refl 0
  | cons e rest ih =>
    have hone := e.toNat_types_le
    simp only [Bool.toNat, Bool.cond_eq_ite] at hone
    rw [List.countP_cons, List.countP_cons, List.countP_cons, List.countP_cons]
    omega

theorem OutcomeTally.failed_eq (entries : List Entry) : (OutcomeTally.of entries).failed =
    ((entries.filter Entry.isDmca).filter Entry.isFailure).length := by
  rw [← List.countP_eq_length_filter]
  refine List.countP_congr ?_
  intro e _
  rw [Bool.and_eq_true, Bool.not_eq_true']
  exact ⟨fun h => h.2, fun h => ⟨Entry.isSuccess_of_isFailure h, h⟩⟩

theorem Statistics.count_byType (entries : List Entry) (eventType : String) :
    Counts.count (Statistics.of entries).byType eventType =
      entries.countP fun e => e.eventType == eventType := by
  show Counts.count (Counts.of (entries.map Entry.eventType)) eventType = _
  rw [Counts.count_of, List.count_eq_countP, List.countP_map]
  rfl

/-! ## Advice -/

namespace Advice

theorem text_injective {a b : Advice} (h : a.text = b.text) : a = b := by
  revert h
  cases a <;> cases b <;> decide

theorem text_mem_iff {a : Advice} {advice : List Advice} :
    a.text ∈ advice.map text ↔ a ∈ advice := by
  constructor
  · intro h
    obtain ⟨b, hb, htext⟩ := List.mem_map.mp h
    exact text_injective htext ▸ hb
  · exact List.mem_map_of_mem

theorem lowRatio_eq : lowRatio = 0.1 := by decide +kernel

/-- What is said of the share of objections, and only where there are takedowns. -/
theorem mem_of_iff (config : Config) (entries : List Entry) {a : Advice}
    (ha : a ∉ [keepLogs, trainStaff, automate]) :
    a ∈ Advice.of config entries ↔ 0 < entries.countP Entry.isTakedown ∧
      a ∈ onRatio config.alerts.counterNoticeRatio
        (ratio (entries.countP Entry.isCounterNotice) (entries.countP Entry.isTakedown)) := by
  simp only [Advice.of, List.mem_append, ha, or_false]
  by_cases hnone : entries.countP Entry.isTakedown = 0
  · simp [hnone]
  · simp [hnone, Nat.pos_of_ne_zero hnone]

theorem reviewTakedowns_mem_iff (high share : Float) :
    reviewTakedowns ∈ onRatio high share ↔ high < share := by
  rw [← Double.scoreNumber_lt_iff]
  cases hhigh : ScoreNumber.lt high share <;> cases hlow : ScoreNumber.lt share lowRatio <;>
    simp [onRatio, hhigh, hlow]

theorem tellUsers_mem_iff (high share : Float) : tellUsers ∈ onRatio high share ↔ share < 0.1 := by
  rw [← lowRatio_eq, ← Double.scoreNumber_lt_iff]
  cases hhigh : ScoreNumber.lt high share <;> cases hlow : ScoreNumber.lt share lowRatio <;>
    simp [onRatio, hhigh, hlow]

end Advice

/-- **The sections agree.** Let a report be made of any entries under any configuration. Its issues are
those of its events of the takedown procedure, in order; as many of them tell of a failure as the score
of the outcomes is reduced for. The takedowns, objections and reinstatements are counted in the table
of types and are no more than the events that the score is a share of. The advice on the share of
objections is given exactly where the share calls for it, and the score of the statistics is the
overall one. -/
theorem Report.sections_agree (config : Config) (entries : List Entry) :
    let statistics := Statistics.of entries
    let analysis := TakedownAnalysis.of config.scoring entries
    let assessment := (Scorer.of config).assess entries
    let advice := (Advice.of config entries).map Advice.text
    let tally := OutcomeTally.of entries
    let failures := analysis.issues.filter tellsOfFailure
    analysis.issues = (entries.filter Entry.isDmca).flatMap Entry.issuesInOrder ∧
    failures = ((entries.filter Entry.isDmca).filter Entry.isFailure).map Entry.failureIssue ∧
    failures.length = tally.failed ∧
    assessment.outcomes =
      (Scorer.of config).scoreOutcomes { tally with failed := failures.length } ∧
    analysis.takedowns + analysis.counterNotices + analysis.reinstatements ≤ tally.events ∧
    analysis.takedowns = Counts.count statistics.byType "dmca_takedown" ∧
    analysis.counterNotices = Counts.count statistics.byType "dmca_counter_notice" ∧
    analysis.reinstatements = Counts.count statistics.byType "dmca_reinstatement" ∧
    (Advice.reviewTakedowns.text ∈ advice ↔ 0 < analysis.takedowns ∧
      config.alerts.counterNoticeRatio < analysis.counterNoticeRatio) ∧
    (Advice.tellUsers.text ∈ advice ↔ 0 < analysis.takedowns ∧
      analysis.counterNoticeRatio < 0.1) ∧
    statistics.score = assessment.overall := by
  intro statistics analysis assessment advice tally failures
  have hfailures : failures =
      ((entries.filter Entry.isDmca).filter Entry.isFailure).map Entry.failureIssue :=
    filter_flatMap_issues entries
  have hcount : failures.length = tally.failed := by
    rw [hfailures, List.length_map, OutcomeTally.failed_eq]
  refine ⟨flatMap_issues entries, hfailures, hcount, ?_, ?_, ?_, ?_, ?_, ?_, ?_, rfl⟩
  · rw [hcount]
    rfl
  · show _ ≤ (entries.filter Entry.isDmca).length
    rw [← List.countP_eq_length_filter]
    exact countP_types_le entries
  · exact (Statistics.count_byType entries "dmca_takedown").symm
  · exact (Statistics.count_byType entries "dmca_counter_notice").symm
  · exact (Statistics.count_byType entries "dmca_reinstatement").symm
  · rw [Advice.text_mem_iff, Advice.mem_of_iff config entries (by decide),
      Advice.reviewTakedowns_mem_iff]
    rfl
  · rw [Advice.text_mem_iff, Advice.mem_of_iff config entries (by decide), Advice.tellUsers_mem_iff]
    rfl

end AuditTrail
