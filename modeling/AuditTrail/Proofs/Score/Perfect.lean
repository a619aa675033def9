import AuditTrail.Config.Validation
import AuditTrail.Proofs.Report.Sections
import AuditTrail.Proofs.Score.Completeness
import AuditTrail.Proofs.Service.AlertTallies
import Mathlib.Algebra.Order.Field.Basic
import Mathlib.Data.Rat.Cast.Order
import Mathlib.Tactic.Linarith
import Mathlib.Tactic.NormNum
import Mathlib.Tactic.Positivity
/-! # What a perfect score means

Over exact fractions three of the scores are a share of a whole less a loss, and the fourth is one less
a loss; each is moved to the nearest number between zero and one (`Score.less`). Parameters that pass
their checks make no loss negative. So a score is one exactly when its share is whole and nothing is
taken off, and a share that is whole leaves nothing to take off: no penalty, however small or large,
makes up for a defect or spoils a faultless list (`Scorer.perfect_iff`). -/

namespace AuditTrail
set_option autoImplicit false

/-! ## Parameters that pass their checks -/

namespace ScoringParameters

/-- No penalty is negative. -/
structure IsFair (p : ScoringParameters Rat) : Prop where
  failure : 0 ≤ p.failurePenalty
  severeDelay : 0 ≤ p.severeDelayPenalty
  integrity : 0 ≤ p.integrityPenalty
  missingField : 0 ≤ p.missingFieldPenalty

theorem nonneg_of_checkPenalty {setting : String} {value : Rat}
    (h : checkPenalty setting value = .ok ()) : 0 ≤ value := by
  rw [checkPenalty, requireThat_eq_ok_iff, Bool.and_eq_true] at h
  exact of_decide_eq_true h.2

theorem isFair_of_check {p : ScoringParameters Rat} (h : p.check = .ok ()) : p.IsFair := by
  simp only [check, bind_check_eq_ok_iff] at h
  obtain ⟨hfailure, hdelay, hintegrity, hmissing, -⟩ := h
  exact ⟨nonneg_of_checkPenalty hfailure, nonneg_of_checkPenalty hdelay,
    nonneg_of_checkPenalty hintegrity, nonneg_of_checkPenalty hmissing⟩

end ScoringParameters

/-! ## A number less a loss -/

theorem penalty_eq (count : Nat) (each : Rat) : penalty count each = count * each := by
  unfold penalty
  split
  · rename_i hzero
    rw [hzero, Nat.cast_zero, zero_mul]
    rfl
  · rfl

namespace Score

/-- A number less a loss, or the nearest number between zero and one. -/
def less (number loss : Rat) : Rat := ScoreNumber.clamp (number - loss)

variable {number loss number' loss' : Rat}

theorem less_eq (number loss : Rat) : less number loss = max 0 (min 1 (number - loss)) := by
  show (if number - loss < 0 then 0 else if 1 < number - loss then 1 else number - loss) = _
  split
  · rw [min_eq_right (by linarith), max_eq_left (by linarith)]
  · split
    · rw [min_eq_left (by linarith), max_eq_right (by linarith)]
    · rw [min_eq_right (by linarith), max_eq_right (by linarith)]

theorem less_mem_unit (number loss : Rat) : 0 ≤ less number loss ∧ less number loss ≤ 1 := by
  rw [less_eq]
  exact ⟨le_max_left _ _, max_le zero_le_one (min_le_left _ _)⟩

theorem less_mono (hnumber : number ≤ number') (hloss : loss' ≤ loss) :
    less number loss ≤ less number' loss' := by
  rw [less_eq, less_eq]
  exact max_le_max_left _ (min_le_min_left _ (sub_le_sub hnumber hloss))

theorem less_eq_one_iff (hnumber : number ≤ 1) (hloss : 0 ≤ loss) :
    less number loss = 1 ↔ number = 1 ∧ loss = 0 := by
  rw [less_eq]
  constructor
  · intro h
    have hwhole : 1 ≤ number - loss := by
      by_contra hless
      rw [not_le] at hless
      have hlow : max 0 (min 1 (number - loss)) < 1 :=
        max_lt zero_lt_one ((min_le_right _ _).trans_lt hless)
      exact absurd h (ne_of_lt hlow)
    exact ⟨by linarith, by linarith⟩
  · rintro ⟨rfl, rfl⟩
    norm_num

/-! ## A share less a loss -/

/-- A share of a whole less a loss; one where there is nothing to judge. -/
def ofShare (part whole : Nat) (loss : Rat) : Rat :=
  if whole = 0 then 1 else less (part / whole) loss

variable {part whole part' : Nat}

theorem ofShare_mem_unit (part whole : Nat) (loss : Rat) :
    0 ≤ ofShare part whole loss ∧ ofShare part whole loss ≤ 1 := by
  unfold ofShare
  split
  · exact ⟨zero_le_one, le_refl 1⟩
  · exact less_mem_unit _ _

theorem ofShare_mono (hpart : part ≤ part') (hloss : loss' ≤ loss) :
    ofShare part whole loss ≤ ofShare part' whole loss' := by
  unfold ofShare
  split
  · exact le_refl 1
  · refine less_mono ?_ hloss
    gcongr

/-- A share of which nothing is lost when it is whole scores one exactly when it is whole. -/
theorem ofShare_eq_one_iff (hpart : part ≤ whole) (hloss : 0 ≤ loss)
    (hwhole : part = whole → loss = 0) : ofShare part whole loss = 1 ↔ part = whole := by
  unfold ofShare
  split
  · rename_i hzero
    exact iff_of_true rfl (by omega)
  · rename_i hsome
    have hpos : (0 : Rat) < whole := by exact_mod_cast Nat.pos_of_ne_zero hsome
    have hshare : (part : Rat) / whole = 1 ↔ part = whole := by
      rw [div_eq_one_iff_eq (ne_of_gt hpos), Nat.cast_inj]
    rw [less_eq_one_iff ((div_le_one hpos).mpr (by exact_mod_cast hpart)) hloss, hshare]
    exact ⟨fun h => h.1, fun h => ⟨h, hwhole h⟩⟩

end Score

/-! ## Tallies without a defect -/

theorem Entry.isSuccess_iff {e : Entry} : e.isSuccess = true ↔ e.result ∈ successResults :=
  List.contains_iff_mem

theorem OutcomeTally.succeeded_eq_iff (entries : List Entry) :
    (OutcomeTally.of entries).succeeded = (OutcomeTally.of entries).events ↔
      ∀ e ∈ entries, e.isDmca = true → e.result ∈ successResults := by
  simp only [OutcomeTally.of, List.countP_eq_length, List.mem_filter, and_imp, Entry.isSuccess_iff]

theorem OutcomeTally.failed_of_succeeded {entries : List Entry}
    (h : (OutcomeTally.of entries).succeeded = (OutcomeTally.of entries).events) :
    (OutcomeTally.of entries).failed = 0 := by
  rw [succeeded_eq_iff] at h
  rw [OutcomeTally.of, List.countP_eq_zero]
  intro e he
  obtain ⟨hmem, hdmca⟩ := List.mem_filter.mp he
  simp [Entry.isSuccess_iff.mpr (h e hmem hdmca)]

/-- A takedown event that ended badly and is replaced by one that ended well moves from one count to
the other. -/
theorem OutcomeTally.of_replaced {e e' : Entry} (hdmca : e.isDmca = true)
    (hdmca' : e'.isDmca = true) (hbad : e.isFailure = true) (hgood : e'.isSuccess = true)
    (front back : List Entry) :
    let before := OutcomeTally.of (front ++ e :: back)
    let after := OutcomeTally.of (front ++ e' :: back)
    after.events = before.events ∧ after.succeeded = before.succeeded + 1 ∧
      before.failed = after.failed + 1 := by
  have hnot : e.isSuccess = false := Entry.isSuccess_of_isFailure hbad
  simp only [OutcomeTally.of, List.filter_append, List.filter_cons_of_pos hdmca,
    List.filter_cons_of_pos hdmca', List.length_append, List.length_cons, List.countP_append,
    List.countP_cons, hbad, hnot, hgood, Bool.not_true, Bool.not_false, Bool.false_and,
    Bool.and_self, Bool.false_eq_true, if_true, if_false]
  refine ⟨trivial, ?_, ?_⟩
  · omega
  · omega

theorem DelayTally.timely_eq_iff (threshold : UInt64) (entries : List Entry) :
    (DelayTally.of threshold entries).timely = (DelayTally.of threshold entries).timed ↔
      ∀ e ∈ entries, ∀ ms, e.processingMs = some ms → 0 < ms → ms ≤ threshold := by
  simp only [DelayTally.of, List.countP_eq_length, List.mem_filterMap, decide_eq_true_eq,
    Entry.processingTime?_eq_some_iff]
  constructor
  · exact fun h e he ms hms hpos => h ms ⟨e, he, hms, hpos⟩
  · rintro h ms ⟨e, he, hms, hpos⟩
    exact h e he ms hms hpos

theorem CompletenessTally.complete_eq_iff (requireProof : Bool) (entries : List Entry) :
    (CompletenessTally.of requireProof entries).complete =
        (CompletenessTally.of requireProof entries).total ↔
      ∀ e ∈ entries, e.Meets requireProof := by
  simp only [CompletenessTally.of, List.countP_eq_length, Entry.isComplete_iff]

theorem SeverityTally.eq_zero_iff (entries : List Entry) :
    (SeverityTally.of entries).critical = 0 ∧ (SeverityTally.of entries).warning = 0 ↔
      ∀ e ∈ entries, e.severity ≠ .critical ∧ e.severity ≠ .warning := by
  simp only [SeverityTally.of, List.countP_eq_zero, beq_iff_eq, ← forall_and]

/-! ## The scores -/

namespace Scorer
variable {scorer : Scorer Rat}

theorem outcomeScore_eq (scorer : Scorer Rat) (entries : List Entry) :
    scorer.outcomeScore entries = Score.ofShare (OutcomeTally.of entries).succeeded
      (OutcomeTally.of entries).events
      ((OutcomeTally.of entries).failed * scorer.parameters.failurePenalty) := by
  rw [← penalty_eq]
  rfl

theorem delayScore_eq (scorer : Scorer Rat) (entries : List Entry) :
    scorer.delayScore entries = Score.ofShare (DelayTally.of scorer.threshold entries).timely
      (DelayTally.of scorer.threshold entries).timed
      ((DelayTally.of scorer.threshold entries).severe * scorer.parameters.severeDelayPenalty) := by
  rw [← penalty_eq]
  rfl

theorem completenessScore_eq (scorer : Scorer Rat) (entries : List Entry) :
    scorer.completenessScore entries =
      Score.ofShare (CompletenessTally.of scorer.requireProof entries).complete
        (CompletenessTally.of scorer.requireProof entries).total
        ((CompletenessTally.of scorer.requireProof entries).unproven *
            scorer.parameters.integrityPenalty +
          (CompletenessTally.of scorer.requireProof entries).missing *
            scorer.parameters.missingFieldPenalty) := by
  rw [← penalty_eq, ← penalty_eq, Score.ofShare, Score.less, ← sub_sub]
  rfl

theorem overallScore_eq (entries : List Entry) : (overallScore entries : Rat) =
    Score.less 1 ((SeverityTally.of entries).critical * (1 / 10) +
      (SeverityTally.of entries).warning * (1 / 50)) := by
  rw [Score.less, ← sub_sub]
  have htenth : (criticalPenalty : Rat) = 1 / 10 := rfl
  have hfiftieth : (warningPenalty : Rat) = 1 / 50 := rfl
  rw [← htenth, ← hfiftieth, ← penalty_eq, ← penalty_eq]
  rfl

section Perfect
variable (scorer : Scorer Rat) (fair : scorer.parameters.IsFair) (entries : List Entry)
include fair

theorem outcomeScore_eq_one_iff : scorer.outcomeScore entries = 1 ↔
    ∀ e ∈ entries, e.isDmca = true → e.result ∈ successResults := by
  rw [outcomeScore_eq, ← OutcomeTally.succeeded_eq_iff]
  refine Score.ofShare_eq_one_iff List.countP_le_length
    (mul_nonneg (Nat.cast_nonneg _) fair.failure) ?_
  intro hwhole
  rw [OutcomeTally.failed_of_succeeded hwhole, Nat.cast_zero, zero_mul]

theorem delayScore_eq_one_iff : scorer.delayScore entries = 1 ↔
    ∀ e ∈ entries, ∀ ms, e.processingMs = some ms → 0 < ms → ms ≤ scorer.threshold := by
  have hsevere := DelayTally.severe_add_timely_le scorer.threshold entries
  rw [delayScore_eq, ← DelayTally.timely_eq_iff]
  refine Score.ofShare_eq_one_iff (by omega) (mul_nonneg (Nat.cast_nonneg _) fair.severeDelay) ?_
  intro hwhole
  have hnone : (DelayTally.of scorer.threshold entries).severe = 0 := by omega
  rw [hnone, Nat.cast_zero, zero_mul]

theorem completenessScore_eq_one_iff : scorer.completenessScore entries = 1 ↔
    ∀ e ∈ entries, e.Meets scorer.requireProof := by
  rw [completenessScore_eq, ← CompletenessTally.complete_eq_iff]
  refine Score.ofShare_eq_one_iff List.countP_le_length
    (add_nonneg (mul_nonneg (Nat.cast_nonneg _) fair.integrity)
      (mul_nonneg (Nat.cast_nonneg _) fair.missingField)) ?_
  intro hwhole
  rw [CompletenessTally.complete_eq_iff] at hwhole
  rw [CompletenessTally.of_meets hwhole, Nat.cast_zero, zero_mul, zero_mul, add_zero]

theorem outcomeScore_le_of_replaced {e e' : Entry} (hdmca : e.isDmca = true)
    (hdmca' : e'.isDmca = true) (hbad : e.isFailure = true) (hgood : e'.isSuccess = true)
    (front back : List Entry) :
    scorer.outcomeScore (front ++ e :: back) ≤ scorer.outcomeScore (front ++ e' :: back) := by
  obtain ⟨hevents, hsucceeded, hfailed⟩ :=
    OutcomeTally.of_replaced hdmca hdmca' hbad hgood front back
  rw [outcomeScore_eq, outcomeScore_eq, hevents]
  refine Score.ofShare_mono (by omega) (mul_le_mul_of_nonneg_right ?_ fair.failure)
  exact_mod_cast (by omega)

end Perfect

theorem overallScore_eq_one_iff (entries : List Entry) : (overallScore entries : Rat) = 1 ↔
    ∀ e ∈ entries, e.severity ≠ .critical ∧ e.severity ≠ .warning := by
  have hcritical : (0 : Rat) ≤ (SeverityTally.of entries).critical * (1 / 10) := by positivity
  have hwarning : (0 : Rat) ≤ (SeverityTally.of entries).warning * (1 / 50) := by positivity
  rw [overallScore_eq, Score.less_eq_one_iff le_rfl (add_nonneg hcritical hwarning),
    add_eq_zero_iff_of_nonneg hcritical hwarning, ← SeverityTally.eq_zero_iff]
  norm_num

theorem overallScore_concat_le (entries : List Entry) (e : Entry) :
    (overallScore (entries ++ [e]) : Rat) ≤ overallScore entries := by
  have hcount : ∀ p : Entry → Bool, entries.countP p ≤ (entries ++ [e]).countP p := by
    intro p
    rw [List.countP_append]
    exact Nat.le_add_right _ _
  rw [overallScore_eq, overallScore_eq]
  refine Score.less_mono le_rfl (add_le_add ?_ ?_)
  · exact mul_le_mul_of_nonneg_right (by exact_mod_cast hcount _) (by norm_num)
  · exact mul_le_mul_of_nonneg_right (by exact_mod_cast hcount _) (by norm_num)

/-- **A perfect score means exactly that nothing is wrong.** Over exact fractions and with parameters
that pass their checks, all scores lie between zero and one. The score of outcomes is one exactly when
every takedown event has a result that counts as a success, that of delays when no time that was
measured is above the threshold, that of completeness when every entry has all that is asked for, and
the overall score when no entry is critical or a warning. A takedown event that succeeds instead of
failing never lowers the score of outcomes, and one more critical entry or warning never raises the
overall score. -/
theorem perfect_iff (scorer : Scorer Rat) (valid : scorer.parameters.check = .ok ())
    (entries : List Entry) :
    (∀ score ∈ [scorer.outcomeScore entries, scorer.delayScore entries,
      scorer.completenessScore entries, overallScore entries], 0 ≤ score ∧ score ≤ 1) ∧
    (scorer.outcomeScore entries = 1 ↔
      ∀ e ∈ entries, Text.includes e.eventType "dmca" = true → e.result ∈ successResults) ∧
    (scorer.delayScore entries = 1 ↔
      ∀ e ∈ entries, ∀ ms, e.processingMs = some ms → 0 < ms → ms ≤ scorer.threshold) ∧
    (scorer.completenessScore entries = 1 ↔ ∀ e ∈ entries, e.Meets scorer.requireProof) ∧
    ((overallScore entries : Rat) = 1 ↔
      ∀ e ∈ entries, e.severity ≠ .critical ∧ e.severity ≠ .warning) ∧
    (∀ (front back : List Entry) (e : Entry) (result : String), entries = front ++ e :: back →
      Text.includes e.eventType "dmca" = true → e.result ∈ failureResults →
      result ∈ successResults →
      scorer.outcomeScore entries ≤ scorer.outcomeScore (front ++ { e with result } :: back)) ∧
    ∀ e : Entry, e.severity = .critical ∨ e.severity = .warning →
      (overallScore (entries ++ [e]) : Rat) ≤ overallScore entries := by
  have fair := ScoringParameters.isFair_of_check valid
  refine ⟨?_, scorer.outcomeScore_eq_one_iff fair entries, scorer.delayScore_eq_one_iff fair entries,
    scorer.completenessScore_eq_one_iff fair entries, overallScore_eq_one_iff entries, ?_, ?_⟩
  · simp only [List.forall_mem_cons, List.not_mem_nil, false_imp_iff, implies_true, and_true]
    rw [outcomeScore_eq, delayScore_eq, completenessScore_eq, overallScore_eq]
    exact ⟨Score.ofShare_mem_unit _ _ _, Score.ofShare_mem_unit _ _ _, Score.ofShare_mem_unit _ _ _,
      Score.less_mem_unit _ _⟩
  · rintro front back e result rfl hdmca hbad hgood
    have hafter : ({ e with result } : Entry).isDmca = true := hdmca
    exact scorer.outcomeScore_le_of_replaced fair hdmca hafter (Entry.isFailure_iff.mpr hbad)
      (Entry.isSuccess_iff.mpr hgood) front back
  · exact fun e _ => overallScore_concat_le entries e

/-- Where no penalty costs anything, a takedown that is still pending keeps the score of outcomes from
one, and a time just at the threshold leaves the score of delays at one. -/
theorem perfect_iff_pending :
    let parameters : ScoringParameters Rat :=
      ⟨0, 86400, 0, 0, 0, 9 / 10, 7 / 10, 1000, 1 / 2, 9 / 10⟩
    let scorer : Scorer Rat := ⟨parameters, 1000, false⟩
    let pending : Entry :=
      { Entry.draft .standard "AE-1" .unset 1 (.takedown "TD-1" "cid" "a@x.example" "Work") with
        result := "pending", processingMs := some 1000 }
    parameters.check = .ok () ∧ scorer.outcomeScore [pending] ≠ 1 ∧
      scorer.delayScore [pending] = 1 := by
  intro parameters scorer pending
  have hpasses : parameters.check.isOk = true := by decide +kernel
  have valid : parameters.check = .ok () := by
    cases hcheck : parameters.check with
    | ok => rfl
    | error fault =>
      rw [hcheck] at hpasses
      cases hpasses
  obtain ⟨-, houtcome, hdelay, -⟩ := perfect_iff scorer valid [pending]
  refine ⟨valid, ?_, hdelay.mpr ?_⟩
  · intro hone
    have hgood := houtcome.mp hone pending List.mem_cons_self (by decide)
    exact absurd hgood (by decide)
  · intro e he ms hms _
    rw [List.mem_singleton.mp he] at hms
    obtain rfl := Option.some.inj hms
    exact UInt64.le_refl _

end Scorer

end AuditTrail
