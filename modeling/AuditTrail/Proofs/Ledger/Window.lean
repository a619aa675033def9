import AuditTrail.Proofs.Ledger.Chain
/-! # Windows of time

Times never decrease along a chain. So once its last entry is too late for a window, whatever is
recorded behind it is too late as well, and the snapshot of the window stays as it is
(`IsChain.snapshot_eq_of_prefix`). For the same reason a window is one piece of the ledger, and two
windows of which the second starts where the first ends are one (`IsOrdered.window_append_window`). -/

namespace AuditTrail.Ledger
set_option autoImplicit false

variable {start finish : Instant}

theorem window_append (entries more : List Entry) :
    window start finish (entries ++ more) =
      window start finish entries ++ window start finish more :=
  List.filter_append ..

theorem window_eq_nil {entries : List Entry} (h : ∀ e ∈ entries, finish ≤ e.time) :
    window start finish entries = [] := by
  rw [window, List.filter_eq_nil_iff]
  intro e he
  have hlate : ¬ e.time < finish := Instant.not_lt.mpr (h e he)
  simp [hlate]

theorem IsChain.le_time_of_behind {ledger : Ledger} {readings : List Instant}
    (h : ledger.IsChain readings) {earlier more : List Entry} {last e : Entry}
    (hsplit : ledger.entries = earlier ++ more) (hlast : earlier.getLast? = some last)
    (he : e ∈ more) : last.time ≤ e.time := by
  obtain ⟨j, hj⟩ := List.getElem?_of_mem he
  have hne : earlier ≠ [] := by
    rintro rfl
    cases hlast
  have hpos : 0 < earlier.length := List.length_pos_iff.mpr hne
  rw [List.getLast?_eq_getElem?] at hlast
  refine h.ordered (earlier.length - 1) (earlier.length + j) last e (by omega) ?_ ?_
  · rw [hsplit, List.getElem?_append_left (by omega)]
    exact hlast
  · rw [hsplit, List.getElem?_append_right (by omega), Nat.add_sub_cancel_left]
    exact hj

/-- **A snapshot of a closed window does not change.** -/
theorem IsChain.snapshot_eq_of_prefix {earlier ledger : Ledger} {readings : List Instant}
    (h : ledger.IsChain readings) (hfront : earlier.entries <+: ledger.entries) {last : Entry}
    (hlast : earlier.entries.getLast? = some last) (closed : finish ≤ last.time) (start : Instant) :
    ledger.snapshot start finish = earlier.snapshot start finish := by
  obtain ⟨more, hsplit⟩ := hfront
  have hlate : ∀ e ∈ more, finish ≤ e.time := by
    intro e he
    exact Instant.le_trans closed (h.le_time_of_behind hsplit.symm hlast he)
  rw [snapshot, snapshot, ← hsplit, window_append, window_eq_nil hlate, List.append_nil]

/-! ## Windows of ordered entries -/

/-- No entry is stamped before an earlier one. -/
def IsOrdered (entries : List Entry) : Prop := entries.Pairwise fun before e => before.time ≤ e.time

theorem IsChain.isOrdered {ledger : Ledger} {readings : List Instant} (h : ledger.IsChain readings) :
    IsOrdered ledger.entries := by
  rw [IsOrdered, List.pairwise_iff_getElem]
  intro i j hi hj hij
  exact h.ordered i j _ _ (Nat.le_of_lt hij) (List.getElem?_eq_getElem hi)
    (List.getElem?_eq_getElem hj)

/-- Ordered entries are those before a moment, followed by those from it on. -/
theorem IsOrdered.split {entries : List Entry} (h : IsOrdered entries) (t : Instant) :
    entries.filter (fun e => decide (e.time < t)) ++ entries.filter (fun e => decide (t ≤ e.time)) =
      entries := by
  induction entries with
  | nil => rfl
  | cons first rest ih =>
    obtain ⟨hfirst, hrest⟩ := List.pairwise_cons.mp h
    by_cases hbefore : first.time < t
    · have hnot : ¬ t ≤ first.time := fun hle => Instant.not_lt.mpr hle hbefore
      simp only [List.filter_cons, hbefore, hnot, decide_true, decide_false, if_true,
        Bool.false_eq_true, if_false, List.cons_append, ih hrest]
    · -- Behind an entry that is not before the moment there is none before it.
      have hfrom := Instant.not_lt.mp hbefore
      have hlate : ∀ e ∈ first :: rest, t ≤ e.time := by
        intro e he
        rcases List.mem_cons.mp he with rfl | he
        · exact hfrom
        · exact Instant.le_trans hfrom (hfirst e he)
      have hnone : (first :: rest).filter (fun e => decide (e.time < t)) = [] := by
        rw [List.filter_eq_nil_iff]
        intro e he
        have hnot := Instant.not_lt.mpr (hlate e he)
        simp [hnot]
      rw [hnone, List.nil_append, List.filter_eq_self]
      exact fun e he => decide_eq_true (hlate e he)

theorem IsOrdered.le_last {entries : List Entry} (h : IsOrdered entries) {last e : Entry}
    (hlast : entries.getLast? = some last) (he : e ∈ entries) : e.time ≤ last.time := by
  obtain ⟨before, rfl⟩ := List.getLast?_eq_some_iff.mp hlast
  rcases List.mem_append.mp he with hbefore | hsame
  · exact (List.pairwise_append.mp h).2.2 e hbefore last List.mem_cons_self
  · rw [List.mem_singleton.mp hsame]
    exact Instant.le_refl last.time

theorem IsOrdered.filter {entries : List Entry} (h : IsOrdered entries) (p : Entry → Bool) :
    IsOrdered (entries.filter p) := List.Pairwise.filter p h

section Adjoining
variable {a b c : Instant} {entries : List Entry}

theorem filter_before_window (hbc : b ≤ c) :
    (window a c entries).filter (fun e => decide (e.time < b)) = window a b entries := by
  rw [window, List.filter_filter, window]
  apply List.filter_congr
  intro e _
  by_cases hb : e.time < b
  · simp [hb, Instant.lt_of_lt_of_le hb hbc]
  · simp [hb]

theorem filter_from_window (hab : a ≤ b) :
    (window a c entries).filter (fun e => decide (b ≤ e.time)) = window b c entries := by
  rw [window, List.filter_filter, window]
  apply List.filter_congr
  intro e _
  by_cases hb : b ≤ e.time
  · simp [hb, Instant.le_trans hab hb]
  · simp [hb]

/-- **Adjoining windows.** A window is a first part of it, followed by the rest. -/
theorem IsOrdered.window_append_window (h : IsOrdered entries) (hab : a ≤ b) (hbc : b ≤ c) :
    window a c entries = window a b entries ++ window b c entries := by
  have hordered : IsOrdered (window a c entries) := h.filter _
  have hsplit := hordered.split b
  rw [filter_before_window hbc, filter_from_window hab] at hsplit
  exact hsplit.symm

theorem IsOrdered.window_isInfix (h : IsOrdered entries) : window a c entries <:+: entries := by
  have hfrom := h.split a
  have hlate : IsOrdered (entries.filter fun e => decide (a ≤ e.time)) := h.filter _
  have hsplit := hlate.split c
  have hwindow : (entries.filter fun e => decide (a ≤ e.time)).filter
      (fun e => decide (e.time < c)) = window a c entries := by
    rw [List.filter_filter, window]
    exact List.filter_congr fun e _ => Bool.and_comm ..
  rw [hwindow] at hsplit
  rw [← hsplit, ← List.append_assoc] at hfrom
  exact ⟨_, _, hfrom⟩

end Adjoining

end AuditTrail.Ledger
