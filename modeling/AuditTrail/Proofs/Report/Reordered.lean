import AuditTrail.Proofs.Report.Counts
import AuditTrail.Proofs.Report.Requestors
/-! # The order of the entries

Scores are made of counts of entries, and so are the statistics and the advice, so none of them tells
in what order the entries stand. The analysis of takedowns tells it by the order of the issues alone:
the requestors are sorted, and two of them that are tied go by name. -/

namespace AuditTrail
set_option autoImplicit false

variable {entries reordered : List Entry}

/-! ## Tallies and scores -/

theorem OutcomeTally.of_perm (reorder : entries.Perm reordered) :
    OutcomeTally.of entries = OutcomeTally.of reordered := by
  have hdmca : (entries.filter Entry.isDmca).Perm (reordered.filter Entry.isDmca) :=
    reorder.filter _
  simp only [OutcomeTally.of, hdmca.length_eq, hdmca.countP_eq]

theorem DelayTally.of_perm (threshold : UInt64) (reorder : entries.Perm reordered) :
    DelayTally.of threshold entries = DelayTally.of threshold reordered := by
  have htimes : (entries.filterMap Entry.processingTime?).Perm
      (reordered.filterMap Entry.processingTime?) :=
    reorder.filterMap _
  simp only [DelayTally.of, htimes.length_eq, htimes.countP_eq]

theorem CompletenessTally.of_perm (requireProof : Bool) (reorder : entries.Perm reordered) :
    CompletenessTally.of requireProof entries = CompletenessTally.of requireProof reordered := by
  have hsum : ∀ count : Entry → Nat, (entries.map count).sum = (reordered.map count).sum := by
    intro count
    exact (reorder.map count).sum_nat
  simp only [CompletenessTally.of, reorder.length_eq, reorder.countP_eq, hsum]

theorem SeverityTally.of_perm (reorder : entries.Perm reordered) :
    SeverityTally.of entries = SeverityTally.of reordered := by
  simp only [SeverityTally.of, reorder.countP_eq]

/-- An assessment is made of the four tallies. -/
theorem Scorer.assess_of_perm {R : Type} [ScoreNumber R] (scorer : Scorer R)
    (reorder : entries.Perm reordered) : scorer.assess entries = scorer.assess reordered := by
  simp only [Scorer.assess, Scorer.overallScore, Scorer.outcomeScore, Scorer.delayScore,
    Scorer.completenessScore, OutcomeTally.of_perm reorder, DelayTally.of_perm _ reorder,
    CompletenessTally.of_perm _ reorder, SeverityTally.of_perm reorder]

/-! ## The figures of a report -/

theorem meanProcessing_of_perm (reorder : entries.Perm reordered) :
    meanProcessing entries = meanProcessing reordered := by
  have htimes : (entries.filterMap Entry.processingTime?).Perm
      (reordered.filterMap Entry.processingTime?) :=
    reorder.filterMap _
  simp only [meanProcessing, (htimes.map UInt64.toNat).sum_nat, htimes.length_eq]

theorem Statistics.of_perm (reorder : entries.Perm reordered) :
    Statistics.of entries = Statistics.of reordered := by
  have htable : ∀ key : Entry → String,
      Counts.of (entries.map key) = Counts.of (reordered.map key) := by
    intro key
    exact Counts.of_perm (reorder.map key)
  simp only [Statistics.of, htable, reorder.length_eq, meanProcessing_of_perm reorder,
    Scorer.overallScore, SeverityTally.of_perm reorder]

theorem Advice.of_perm (config : Config) (reorder : entries.Perm reordered) :
    Advice.of config entries = Advice.of config reordered := by
  simp only [Advice.of, reorder.countP_eq]

namespace TakedownAnalysis

/-- Two analyses differ in nothing but the order of the issues. -/
structure SameButIssues (a b : TakedownAnalysis) : Prop where
  takedowns : a.takedowns = b.takedowns
  counterNotices : a.counterNotices = b.counterNotices
  reinstatements : a.reinstatements = b.reinstatements
  counterNoticeRatio : a.counterNoticeRatio = b.counterNoticeRatio
  meanProcessing : a.meanProcessing = b.meanProcessing
  requestors : a.requestors = b.requestors
  issues : a.issues.Perm b.issues
  risk : a.risk = b.risk

theorem sameButIssues_of_perm (parameters : ScoringParameters Float)
    (reorder : entries.Perm reordered) :
    (of parameters entries).SameButIssues (of parameters reordered) where
  takedowns := reorder.countP_eq _
  counterNotices := reorder.countP_eq _
  reinstatements := reorder.countP_eq _
  counterNoticeRatio := by simp only [of, reorder.countP_eq]
  meanProcessing := meanProcessing_of_perm (reorder.filter _)
  requestors := RequestorShare.mergeSort_eq_of_perm
    (RequestorShare.areOf_requestorShares entries).distinct (requestorShares_perm reorder)
  issues := reorder.flatMap_right _
  risk := by simp only [of, reorder.countP_eq]

end TakedownAnalysis

/-- The order of the entries shows in the order of the issues alone, however the rows that have been
gathered for the requestors are enumerated before they are sorted. -/
theorem figures_of_perm (config : Config) (entries reordered : List Entry)
    (reorder : entries.Perm reordered) :
    (Scorer.of config).assess entries = (Scorer.of config).assess reordered ∧
    Statistics.of entries = Statistics.of reordered ∧
    Advice.of config entries = Advice.of config reordered ∧
    (TakedownAnalysis.of config.scoring entries).SameButIssues
      (TakedownAnalysis.of config.scoring reordered) ∧
    ∀ rows : List RequestorShare, rows.Perm (requestorShares entries) →
      rows.mergeSort RequestorShare.isBusier =
        (TakedownAnalysis.of config.scoring reordered).requestors := by
  refine ⟨(Scorer.of config).assess_of_perm reorder, Statistics.of_perm reorder,
    Advice.of_perm config reorder, TakedownAnalysis.sameButIssues_of_perm config.scoring reorder, ?_⟩
  intro rows enumerated
  have hdistinct : (rows.map RequestorShare.requestor).Nodup :=
    ((enumerated.map _).nodup_iff).mpr (RequestorShare.areOf_requestorShares entries).distinct
  exact RequestorShare.mergeSort_eq_of_perm hdistinct
    (enumerated.trans (requestorShares_perm reorder))

/-- Two requestors with one takedown each, of which one failed and one has no legal basis: the one that
comes first by name is listed first, wherever it stands among the rows and the entries. -/
theorem figures_of_perm_tied :
    let now : Instant := .startOf ⟨2024, 3, 1, by decide⟩
    let failed : Entry := { Entry.draft .standard "AE-1" now 1
      (.takedown "TD-1" "cid" "b@x.example" "Work") with result := "failed" }
    let baseless : Entry := { Entry.draft .standard "AE-2" now 2
      (.takedown "TD-2" "cid" "a@x.example" "Work") with legal := none }
    let rows : List RequestorShare := [⟨"a@x.example", 1, 1⟩, ⟨"b@x.example", 1, 0⟩]
    let analysis := TakedownAnalysis.of Config.standard.scoring [failed, baseless]
    let reordered := TakedownAnalysis.of Config.standard.scoring [baseless, failed]
    [failed, baseless].Perm [baseless, failed] ∧
    rows.Perm (requestorShares [failed, baseless]) ∧ rows ≠ requestorShares [failed, baseless] ∧
    reordered.requestors = rows ∧ analysis.requestors = rows ∧
    analysis.issues ≠ reordered.issues ∧ analysis.SameButIssues reordered := by
  intro now failed baseless rows analysis reordered
  have reorder : [failed, baseless].Perm [baseless, failed] := List.Perm.swap _ _ _
  have hshares : requestorShares [failed, baseless] =
      [⟨"b@x.example", 1, 0⟩, ⟨"a@x.example", 1, 1⟩] := by decide
  have enumerated : rows.Perm (requestorShares [failed, baseless]) := by
    rw [hshares]
    exact List.Perm.swap _ _ _
  have hsorted : rows.mergeSort RequestorShare.isBusier = rows :=
    List.mergeSort_of_pairwise (by decide)
  obtain ⟨-, -, -, hsame, hrequestors⟩ :=
    figures_of_perm .standard [failed, baseless] [baseless, failed] reorder
  have hrows : reordered.requestors = rows := (hrequestors rows enumerated).symm.trans hsorted
  exact ⟨reorder, enumerated, by rw [hshares]; decide, hrows, hsame.requestors.trans hrows,
    by decide, hsame⟩

end AuditTrail
