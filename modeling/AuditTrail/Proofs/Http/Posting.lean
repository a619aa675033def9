import AuditTrail.Proofs.Http.Requests
/-! # Posted events

A row of requests leaves behind what a run of the service leaves. Where every request posts an event,
that run records at most one event for each, and each of these has a type and an action
(`Http.answerAll_posted`). -/

namespace AuditTrail
set_option autoImplicit false

/-- Every recording of the operations is of an event with a type and an action. -/
def AreNamed (ops : List (Instant × Operation)) : Prop :=
  ∀ now event, (now, Operation.record event) ∈ ops → event.eventType ≠ "" ∧ event.action ≠ ""

namespace Http

/-- What a row of requests leaves behind, each answered at its own reading of the clock. -/
def answerAll (site : Site) : List (Instant × Request) → Site
  | [] => site
  | (now, request) :: rest => answerAll (answer site now request).2 rest

/-- The request is to record an event. -/
def Request.IsPosting (request : Request) : Prop :=
  request.method = "POST" ∧ Route.ofPath? (pathOf request.target) = some .events

theorem EventRequest.IsRecordable.isNamed {r : EventRequest} (h : r.IsRecordable) :
    r.event.eventType ≠ "" ∧ r.event.action ≠ "" := by
  have hne : ∀ text : String, (∃ c ∈ text.toList, Text.isBlank c = false) → text ≠ "" := by
    rintro text ⟨c, hc, -⟩ rfl
    cases hc
  exact ⟨hne _ h.eventType, hne _ h.action⟩

/-- A posted event is recorded, or nothing is done. -/
theorem answer_posting (site : Site) (now : Instant) {request : Request} (h : request.IsPosting) :
    (answer site now request).2 = site ∨
    ∃ event : Event, (event.eventType ≠ "" ∧ event.action ≠ "") ∧
      (answer site now request).2 = (site.perform now (.record event)).2 := by
  rw [answer_post site now h.1 h.2 rfl]
  simp only [answerRoute]
  split
  · exact Or.inl rfl
  · rename_i r _
    rcases answerEvent_outcome site now r with ⟨hr, e, -, -, -, heq⟩ | ⟨-, response, -, heq⟩
    · rw [heq]
      exact Or.inr ⟨r.event, hr.isNamed, rfl⟩
    · rw [heq]
      exact Or.inl rfl

/-- Posted events come to a run that records events with a type and an action, at readings at which
they were posted. -/
theorem answerAll_posting (site : Site) (requests : List (Instant × Request))
    (h : ∀ posted ∈ requests, posted.2.IsPosting) :
    ∃ ops, answerAll site requests = site.run ops ∧ AreNamed ops ∧
      recordTimes ops ⊆ requests.map Prod.fst := by
  induction requests generalizing site with
  | nil =>
    have hnone : AreNamed [] := by
      intro now event hmem
      cases hmem
    exact ⟨[], rfl, hnone, List.nil_subset _⟩
  | cons first rest ih =>
    obtain ⟨now, request⟩ := first
    have hrest := fun posted hposted => h posted (List.mem_cons_of_mem _ hposted)
    obtain ⟨ops, hrun, hnamed, htimes⟩ := ih (answer site now request).2 hrest
    rcases answer_posting site now (h _ List.mem_cons_self) with hidle | ⟨event, hevent, hrecord⟩
    -- A request that does nothing has no operation in the run.
    · rw [hidle] at hrun
      refine ⟨ops, ?_, hnamed, fun t ht => List.mem_cons_of_mem now (htimes ht)⟩
      rw [answerAll, hidle, hrun]
    · rw [hrecord] at hrun
      refine ⟨(now, .record event) :: ops, ?_, ?_, List.cons_subset_cons now htimes⟩
      · rw [answerAll, hrecord, hrun]
        rfl
      · intro t other hmem
        rcases List.mem_cons.mp hmem with heq | hmem
        · cases heq
          exact hevent
        · exact hnamed t other hmem

end Http

end AuditTrail
