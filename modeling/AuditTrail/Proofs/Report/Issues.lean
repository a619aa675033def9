import AuditTrail.Report.Takedowns
/-! # Issues

An event of the takedown procedure has up to two issues: that it ended badly, and that it names no
legal basis. Their texts differ at the end, whatever stands in the entry, so the issues of either kind
can be told from a report and counted. -/

namespace AuditTrail
set_option autoImplicit false

namespace Entry

/-- The issue of an event that ended badly. -/
def failureIssue (e : Entry) : String :=
  "DMCA event " ++ e.id ++ " (" ++ e.eventType ++ ") " ++ "ended with result '" ++ e.result ++ "'"

/-- The issue of an event without a legal basis. -/
def basisIssue (e : Entry) : String :=
  "DMCA event " ++ e.id ++ " (" ++ e.eventType ++ ") " ++ "has no recorded legal basis"

/-- The issue of an entry, if it ended badly, and then the other one, if it has no legal basis. -/
def issuesInOrder (e : Entry) : List String :=
  (if e.result ∈ failureResults then [e.failureIssue] else []) ++
    if e.hasLegalBasis then [] else [e.basisIssue]

theorem isFailure_iff {e : Entry} : e.isFailure = true ↔ e.result ∈ failureResults :=
  List.contains_iff_mem

theorem issues_eq (e : Entry) : e.issues = if e.isDmca then e.issuesInOrder else [] := by
  simp only [issues, issuesInOrder, isFailure_iff]
  rfl

end Entry

/-- The text says that an event ended badly: it ends with the quoted result. -/
def tellsOfFailure (issue : String) : Bool := issue.toList.getLast? == some '\''

theorem tellsOfFailure_append (lead tail : String) (c : Char)
    (h : tail.toList.getLast? = some c) : tellsOfFailure (lead ++ tail) = (c == '\'') := by
  rw [tellsOfFailure, String.toList_append, List.getLast?_append, h]
  rfl

namespace Entry

theorem tellsOfFailure_failureIssue (e : Entry) : tellsOfFailure e.failureIssue = true :=
  tellsOfFailure_append _ "'" '\'' (by decide)

theorem tellsOfFailure_basisIssue (e : Entry) : tellsOfFailure e.basisIssue = false :=
  tellsOfFailure_append _ "has no recorded legal basis" 's' (by decide)

theorem filter_issuesInOrder (e : Entry) :
    e.issuesInOrder.filter tellsOfFailure = if e.isFailure then [e.failureIssue] else [] := by
  simp only [issuesInOrder, ← isFailure_iff, List.filter_append]
  by_cases hfailure : e.isFailure = true <;> by_cases hbasis : e.hasLegalBasis = true <;>
    simp [hfailure, hbasis, tellsOfFailure_failureIssue, tellsOfFailure_basisIssue]

/-- An event with a legal basis has no other issue than that it ended badly. -/
theorem tellsOfFailure_of_mem_issues {e : Entry} (h : e.hasLegalBasis = true) {issue : String}
    (hissue : issue ∈ e.issues) : tellsOfFailure issue = true := by
  rw [issues_eq] at hissue
  split at hissue
  · rw [issuesInOrder, if_pos h, List.append_nil] at hissue
    split at hissue
    · rw [List.mem_singleton.mp hissue]
      exact e.tellsOfFailure_failureIssue
    · cases hissue
  · cases hissue

end Entry

/-! ## The issues of some entries -/

theorem flatMap_ite {α β : Type} (p : α → Bool) (f : α → List β) (as : List α) :
    as.flatMap (fun a => if p a then f a else []) = (as.filter p).flatMap f := by
  induction as with
  | nil => rfl
  | cons a rest ih =>
    rw [List.flatMap_cons, ih, List.filter_cons]
    split <;> rfl

theorem flatMap_issues (entries : List Entry) :
    entries.flatMap Entry.issues = (entries.filter Entry.isDmca).flatMap Entry.issuesInOrder := by
  rw [← flatMap_ite]
  exact congrArg (entries.flatMap ·) (funext Entry.issues_eq)

/-- The issues that tell of a failure are one for each event of the takedown procedure that ended
badly. -/
theorem filter_flatMap_issues (entries : List Entry) :
    (entries.flatMap Entry.issues).filter tellsOfFailure =
      ((entries.filter Entry.isDmca).filter Entry.isFailure).map Entry.failureIssue := by
  rw [flatMap_issues, List.filter_flatMap, List.map_eq_flatMap,
    ← flatMap_ite Entry.isFailure]
  exact congrArg ((entries.filter Entry.isDmca).flatMap ·) (funext Entry.filter_issuesInOrder)

theorem basisIssue_not_mem {entries : List Entry} (h : ∀ e ∈ entries, e.hasLegalBasis = true)
    (e : Entry) : e.basisIssue ∉ entries.flatMap Entry.issues := by
  intro hmem
  obtain ⟨other, hother, hissue⟩ := List.mem_flatMap.mp hmem
  have htells := Entry.tellsOfFailure_of_mem_issues (h other hother) hissue
  rw [Entry.tellsOfFailure_basisIssue] at htells
  cases htells

end AuditTrail
