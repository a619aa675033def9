import AuditTrail.Proofs.Monitor.Metrics
import AuditTrail.Report.Takedowns
/-! # Who has asked for takedowns

`RequestorShare.AreOf` says which rows stand for some entries: one for each requestor that occurs, with
the number of its demands and of those that ended well. In what order the rows stand is left open.
Rows of the same entries are the same up to order, and no two of them have one name, so there is only
one way to sort them (`RequestorShare.mergeSort_eq_of_perm`). -/

namespace AuditTrail
set_option autoImplicit false

/-- The entry is a takedown that a requestor has demanded. -/
def Entry.isRequestOf (requestor : String) (e : Entry) : Bool :=
  decide (e.takedownRequestor? = some requestor)

namespace RequestorShare

/-- The demands of a requestor and those that ended well, as some rows have them. -/
def totals (requestor : String) (rows : List RequestorShare) : Nat × Nat :=
  match rows.find? fun r => r.requestor = requestor with
  | some r => (r.requests, r.succeeded)
  | none => (0, 0)

/-- One row for each requestor of some entries, with the numbers of its demands. -/
structure AreOf (entries : List Entry) (rows : List RequestorShare) : Prop where
  distinct : (rows.map requestor).Nodup
  positive : ∀ r ∈ rows, 0 < r.requests
  totals_eq : ∀ requestor, totals requestor rows =
    (entries.countP (Entry.isRequestOf requestor),
      entries.countP fun e => e.isRequestOf requestor && e.isSuccess)

/-! ## One more demand -/

theorem totals_add (asked requestor : String) (success : Bool) (rows : List RequestorShare) :
    totals asked (add requestor success rows) =
      ((totals asked rows).1 + (if asked = requestor then 1 else 0),
        (totals asked rows).2 + (if asked = requestor then success.toNat else 0)) := by
  induction rows with
  | nil =>
    by_cases h : requestor = asked
    · simp [add, totals, h]
    · simp [add, totals, h, Ne.symm h]
  | cons r rest ih =>
    by_cases hr : r.requestor = requestor
    · subst hr
      by_cases h : r.requestor = asked
      · simp [add, totals, h]
      · simp [add, totals, h, Ne.symm h]
    · by_cases h : r.requestor = asked
      · subst h
        simp [add, totals, hr]
      · simp only [totals] at ih
        simp [add, totals, hr, h, ih]

theorem map_requestor_add (requestor : String) (success : Bool) (rows : List RequestorShare) :
    (add requestor success rows).map RequestorShare.requestor =
      if requestor ∈ rows.map RequestorShare.requestor then rows.map RequestorShare.requestor
      else rows.map RequestorShare.requestor ++ [requestor] := by
  induction rows with
  | nil => rfl
  | cons r rest ih =>
    rw [add]
    split
    case isTrue heq => simp [heq]
    case isFalse hne =>
      rw [List.map_cons, ih]
      by_cases hmem : requestor ∈ rest.map RequestorShare.requestor
      · simp only [hmem, if_true, List.map_cons, List.mem_cons, or_true]
      · simp only [hmem, if_false, List.map_cons, List.mem_cons, Ne.symm hne, or_false,
          List.cons_append]

theorem positive_of_mem_add {requestor : String} {success : Bool} {rows : List RequestorShare}
    (h : ∀ r ∈ rows, 0 < r.requests) {r : RequestorShare} (hr : r ∈ add requestor success rows) :
    0 < r.requests := by
  induction rows with
  | nil =>
    rw [add, List.mem_singleton] at hr
    rw [hr]
    exact Nat.one_pos
  | cons first rest ih =>
    have hrest := fun r hr => h r (List.mem_cons_of_mem first hr)
    rw [add] at hr
    split at hr
    · rcases List.mem_cons.mp hr with rfl | hr
      · exact Nat.succ_pos _
      · exact hrest r hr
    · rcases List.mem_cons.mp hr with rfl | hr
      · exact h r List.mem_cons_self
      · exact ih hrest hr

/-! ## The rows of some entries -/

theorem AreOf.nil : AreOf [] [] := ⟨List.Pairwise.nil, by simp, fun _ => rfl⟩

theorem AreOf.concat_of_some {entries : List Entry} {rows : List RequestorShare}
    (h : AreOf entries rows) {e : Entry} {requestor : String}
    (hdemand : e.takedownRequestor? = some requestor) :
    AreOf (entries ++ [e]) (add requestor e.isSuccess rows) where
  distinct := by
    rw [map_requestor_add]
    split
    · exact h.distinct
    case isFalse hnew => exact List.nodup_append.mpr ⟨h.distinct, by simp, by
        intro a ha b hb
        rw [List.mem_singleton.mp hb]
        rintro rfl
        exact hnew ha⟩
  positive := fun _ => positive_of_mem_add h.positive
  totals_eq := by
    intro asked
    rw [totals_add, h.totals_eq, List.countP_append, List.countP_append, List.countP_singleton,
      List.countP_singleton]
    by_cases hasked : asked = requestor
    · subst hasked
      cases e.isSuccess <;> simp [Entry.isRequestOf, hdemand]
    · simp [Entry.isRequestOf, hdemand, hasked, Ne.symm hasked]

theorem AreOf.concat_of_none {entries : List Entry} {rows : List RequestorShare}
    (h : AreOf entries rows) {e : Entry} (hnone : e.takedownRequestor? = none) :
    AreOf (entries ++ [e]) rows where
  distinct := h.distinct
  positive := h.positive
  totals_eq := by
    intro asked
    rw [h.totals_eq, List.countP_append, List.countP_append, List.countP_singleton,
      List.countP_singleton]
    simp [Entry.isRequestOf, hnone]

/-- The rows that are gathered are those of the entries. -/
theorem areOf_requestorShares (entries : List Entry) : AreOf entries (requestorShares entries) := by
  induction entries using List.reverseRecOn with
  | nil => exact AreOf.nil
  | append_singleton earlier e ih =>
    rw [requestorShares, List.foldl_append, List.foldl_cons, List.foldl_nil, ← requestorShares]
    cases hdemand : e.takedownRequestor? with
    | some requestor => exact ih.concat_of_some hdemand
    | none => exact ih.concat_of_none hdemand

/-! ## Other orders -/

theorem totals_of_mem {rows : List RequestorShare} (distinct : (rows.map requestor).Nodup)
    {r : RequestorShare} (hr : r ∈ rows) : totals r.requestor rows = (r.requests, r.succeeded) := by
  induction rows with
  | nil => cases hr
  | cons first rest ih =>
    rw [List.map_cons, List.nodup_cons] at distinct
    rcases List.mem_cons.mp hr with rfl | hrest
    · simp [totals]
    · have hne : first.requestor ≠ r.requestor := by
        intro heq
        exact distinct.1 (heq ▸ List.mem_map_of_mem hrest)
      have hih := ih distinct.2 hrest
      simp only [totals] at hih ⊢
      rw [List.find?_cons_of_neg (by simpa using hne), hih]

theorem AreOf.mem_iff {entries : List Entry} {rows : List RequestorShare} (h : AreOf entries rows)
    (r : RequestorShare) :
    r ∈ rows ↔ 0 < r.requests ∧ r.requests = entries.countP (Entry.isRequestOf r.requestor) ∧
      r.succeeded = entries.countP fun e => e.isRequestOf r.requestor && e.isSuccess := by
  have hentries := h.totals_eq r.requestor
  constructor
  · intro hr
    rw [totals_of_mem h.distinct hr, Prod.mk.injEq] at hentries
    exact ⟨h.positive r hr, hentries.1, hentries.2⟩
  · rintro ⟨hpositive, hrequests, hsucceeded⟩
    rw [← hrequests, ← hsucceeded, totals] at hentries
    cases hfind : rows.find? fun row => row.requestor = r.requestor with
    | none =>
      rw [hfind, Prod.mk.injEq] at hentries
      exact absurd hentries.1 (Nat.ne_of_lt hpositive)
    | some row =>
      rw [hfind, Prod.mk.injEq] at hentries
      have hname : row.requestor = r.requestor := by simpa using List.find?_some hfind
      have hrow : row = r :=
        (RequestorShare.mk.injEq _ _ _ _ _ _).mpr ⟨hname, hentries.1, hentries.2⟩
      exact hrow ▸ List.mem_of_find?_eq_some hfind

/-- The rows of the same entries are the same up to order, in whatever order these stand. -/
theorem AreOf.perm {entries reordered : List Entry} {rows rows' : List RequestorShare}
    (h : AreOf entries rows) (h' : AreOf reordered rows') (reorder : entries.Perm reordered) :
    rows.Perm rows' := by
  rw [List.perm_ext_iff_of_nodup (List.Nodup.of_map _ h.distinct) (List.Nodup.of_map _ h'.distinct)]
  intro r
  rw [h.mem_iff, h'.mem_iff, reorder.countP_eq, reorder.countP_eq]

theorem eq_of_isBusier {a b : RequestorShare} {rows : List RequestorShare}
    (distinct : (rows.map requestor).Nodup) (ha : a ∈ rows) (hb : b ∈ rows)
    (hab : isBusier a b = true) (hba : isBusier b a = true) : a = b := by
  have hrow : (a.requestor, a.requests) = (b.requestor, b.requests) :=
    RequestorCount.isBusierRow_antisymm hab hba
  exact List.inj_on_of_nodup_map distinct ha hb (congrArg Prod.fst hrow)

/-- In whatever order rows stand, they are sorted in one way: those that are tied go by name. -/
theorem mergeSort_eq_of_perm {rows rows' : List RequestorShare}
    (distinct : (rows.map requestor).Nodup) (reorder : rows.Perm rows') :
    rows.mergeSort isBusier = rows'.mergeSort isBusier := by
  have hsorted : ∀ shares : List RequestorShare,
      (shares.mergeSort isBusier).Pairwise fun a b => isBusier a b = true :=
    List.pairwise_mergeSort
      (fun a b c => RequestorCount.isBusierRow_trans (a.requestor, a.requests)
        (b.requestor, b.requests) (c.requestor, c.requests))
      (fun a b => RequestorCount.isBusierRow_total (a.requestor, a.requests)
        (b.requestor, b.requests))
  refine List.Perm.eq_of_pairwise ?_ (hsorted rows) (hsorted rows')
    ((List.mergeSort_perm rows _).trans (reorder.trans (List.mergeSort_perm rows' _).symm))
  intro a b ha hb hab hba
  exact eq_of_isBusier distinct (List.mem_mergeSort.mp ha)
    (reorder.mem_iff.mpr (List.mem_mergeSort.mp hb)) hab hba

end RequestorShare

theorem requestorShares_perm {entries reordered : List Entry} (reorder : entries.Perm reordered) :
    (requestorShares entries).Perm (requestorShares reordered) :=
  (RequestorShare.areOf_requestorShares entries).perm
    (RequestorShare.areOf_requestorShares reordered) reorder

end AuditTrail
