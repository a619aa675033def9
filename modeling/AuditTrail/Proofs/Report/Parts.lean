import AuditTrail.Proofs.Report.Counts
import AuditTrail.Report.Takedowns
/-! # The figures of a whole and of its parts

Each table of the statistics counts every entry once. Where some entries are followed by others, the
counts over all of them are the sums of the counts over the two parts, and what went wrong is listed
for the one part and then for the other. -/

namespace AuditTrail
set_option autoImplicit false

namespace Statistics

/-- Each of the three tables counts every entry once. -/
structure CountsEach (s : Statistics) : Prop where
  byType : Counts.total s.byType = s.total
  bySeverity : Counts.total s.bySeverity = s.total
  byDay : Counts.total s.byDay = s.total

/-- The counts of a whole are the sums of those of two parts, in the tables key by key. -/
structure IsSumOf (whole first second : Statistics) : Prop where
  total : whole.total = first.total + second.total
  byType : Counts.IsSumOf whole.byType first.byType second.byType
  bySeverity : Counts.IsSumOf whole.bySeverity first.bySeverity second.bySeverity
  byDay : Counts.IsSumOf whole.byDay first.byDay second.byDay

theorem countsEach (entries : List Entry) : (Statistics.of entries).CountsEach := by
  have htable : ∀ key : Entry → String,
      Counts.total (Counts.of (entries.map key)) = entries.length := by
    intro key
    rw [Counts.total_of, List.length_map]
  exact ⟨htable _, htable _, htable _⟩

theorem isSumOf_append (first second : List Entry) :
    (Statistics.of (first ++ second)).IsSumOf (Statistics.of first) (Statistics.of second) := by
  have htable : ∀ key : Entry → String, Counts.IsSumOf (Counts.of ((first ++ second).map key))
      (Counts.of (first.map key)) (Counts.of (second.map key)) := by
    intro key
    rw [List.map_append]
    exact Counts.isSumOf_append _ _
  exact ⟨List.length_append, htable _, htable _, htable _⟩

end Statistics

namespace TakedownAnalysis

/-- The totals of a whole are the sums of those of two parts, and the issues of the first part stand
before those of the second. -/
structure IsSumOf (whole first second : TakedownAnalysis) : Prop where
  takedowns : whole.takedowns = first.takedowns + second.takedowns
  counterNotices : whole.counterNotices = first.counterNotices + second.counterNotices
  reinstatements : whole.reinstatements = first.reinstatements + second.reinstatements
  issues : whole.issues = first.issues ++ second.issues

theorem isSumOf_append (parameters : ScoringParameters Float) (first second : List Entry) :
    (TakedownAnalysis.of parameters (first ++ second)).IsSumOf
      (TakedownAnalysis.of parameters first) (TakedownAnalysis.of parameters second) :=
  ⟨List.countP_append, List.countP_append, List.countP_append, List.flatMap_append⟩

end TakedownAnalysis

end AuditTrail
