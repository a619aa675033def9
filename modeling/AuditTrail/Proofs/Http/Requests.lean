import AuditTrail.Http.Router
import AuditTrail.Proofs.Json.Bytes
import AuditTrail.Proofs.Service.Alerts
/-! # Requests

A request comes to nothing or to one operation of the service, and those that change something are
posted and answered with success (`Http.answer_outcome`). So a request that is not fulfilled changes
nothing. What becomes of an event and of a resolution is told by the two handlers
(`Http.answerEvent_outcome`, `Http.answerResolution_outcome`), and `Http.answer_all_or_nothing` puts
both together. -/

namespace AuditTrail
set_option autoImplicit false

open scoped CoreInstances

/-- Whole milliseconds are recorded as they are. -/
theorem Event.wholeMillis_mul (ms : UInt64) : wholeMillis (ms.toNat * 1000000) = some ms := by
  have hdiv : Int.tdiv (ms.toNat * 1000000) 1000000 = ms.toNat :=
    Int.mul_tdiv_cancel _ (by decide)
  have hbound : ms.toNat < 2 ^ (64 : Nat) := ms.toNat_lt
  have hfits : (0 : Int) ≤ ms.toNat ∧ (ms.toNat : Int) < 2 ^ (64 : Nat) := by omega
  simp only [wholeMillis, hdiv, if_pos hfits, Int.toNat_natCast, UInt64.ofNat_toNat]

namespace Http

/-! ## Requests to record an event -/

namespace EventRequest

/-- Event type and action are not blank, and the processing time fits 63 bits. -/
structure IsRecordable (r : EventRequest) : Prop where
  eventType : ∃ c ∈ r.eventType.toList, Text.isBlank c = false
  action : ∃ c ∈ r.action.toList, Text.isBlank c = false
  processingMs : ∀ ms, r.processingMs = some ms → ms.toNat ≤ 2 ^ (63 : Nat) - 1

/-- The event that a request tells of. -/
def event (r : EventRequest) : Event where
  eventType := r.eventType
  actor := r.actor
  target := r.target
  action := r.action
  details := r.details
  result := r.result
  elapsed := r.processingMs.map fun ms => (ms.toNat * 1000000 : Int)

/-- An entry tells what a request told. -/
structure IsToldBy (r : EventRequest) (e : Entry) : Prop where
  eventType : e.eventType = r.eventType
  actor : e.actor = r.actor
  target : e.target = r.target
  action : e.action = r.action
  details : e.details = r.details
  result : e.result = r.result.getD "success"
  processingMs : e.processingMs = r.processingMs

theorem isToldBy_entryOf (r : EventRequest) (ledger : Ledger) (config : Config) (signer : Signer)
    (now : Instant) (id : String) :
    r.IsToldBy (ledger.entryOf config signer now id r.event) := by
  have hms : r.event.processingMs = r.processingMs := by
    rw [Event.processingMs, event]
    cases r.processingMs with
    | none => rfl
    | some ms => rw [Option.map_some, Option.bind_some, Event.wholeMillis_mul]
  exact ⟨rfl, rfl, rfl, rfl, rfl, rfl, hms⟩

theorem exists_isBlank_eq_false_iff (s : String) :
    (∃ c ∈ s.toList, Text.isBlank c = false) ↔ Text.isAllBlank s = false := by
  simp [Text.isAllBlank]

theorem toEvent_of_isRecordable {r : EventRequest} (h : r.IsRecordable) :
    r.toEvent = .ok r.event := by
  have htype := (exists_isBlank_eq_false_iff _).mp h.eventType
  have haction := (exists_isBlank_eq_false_iff _).mp h.action
  have hfits := h.processingMs
  simp only [toEvent, htype, haction, event, Bool.false_eq_true, if_false]
  cases hms : r.processingMs with
  | none => rfl
  | some ms =>
    have hms : ms.toNat < 2 ^ (63 : Nat) := by
      have := hfits ms hms
      omega
    simp only [if_pos hms, Option.map_some]

theorem toEvent_of_not_isRecordable {r : EventRequest} (h : ¬ r.IsRecordable) :
    ∃ e, r.toEvent = .error e ∧ statusOf e = 400 := by
  unfold toEvent
  split
  · exact ⟨_, rfl, rfl⟩
  · rename_i htype
    split
    · exact ⟨_, rfl, rfl⟩
    · rename_i haction
      simp only [Bool.not_eq_true, ← exists_isBlank_eq_false_iff] at htype haction
      cases hms : r.processingMs with
      | none => exact absurd ⟨htype, haction, by simp [hms]⟩ h
      | some ms =>
        have hlong : ¬ ms.toNat < 2 ^ (63 : Nat) := by
          intro hshort
          refine h ⟨htype, haction, ?_⟩
          intro ms' hms'
          obtain rfl : ms = ms' := Option.some.inj (hms.symm.trans hms')
          omega
        simp only [if_neg hlong]
        exact ⟨_, rfl, rfl⟩

end EventRequest

/-- Recording what can be recorded adds one entry, which the response shows; else the request is
refused. -/
theorem answerEvent_outcome (site : Site) (now : Instant) (r : EventRequest) :
    (r.IsRecordable ∧ ∃ e, r.IsToldBy e ∧
      (site.perform now (.record r.event)).1 = .entry e ∧
      (site.perform now (.record r.event)).2.service.ledger = site.service.ledger.push e ∧
      answerEvent site now r = (succeed 201 e.toJson, (site.perform now (.record r.event)).2)) ∨
    (¬ r.IsRecordable ∧ ∃ response, response.status = 400 ∧
      answerEvent site now r = (response, site)) := by
  unfold answerEvent
  by_cases h : r.IsRecordable
  · rw [EventRequest.toEvent_of_isRecordable h]
    exact Or.inl ⟨h, _, r.isToldBy_entryOf .., rfl, rfl, rfl⟩
  · obtain ⟨e, he, hstatus⟩ := EventRequest.toEvent_of_not_isRecordable h
    rw [he]
    exact Or.inr ⟨h, failure e, hstatus, rfl⟩

/-! ## Requests to resolve an alert -/

/-- The response tells how the service resolves the id, and what is left behind is what the service
leaves. -/
theorem answerResolution_outcome (site : Site) (now : Instant) (id text : String) :
    let resolved := site.perform now (.resolve id text)
    (∃ alert, resolved.1 = .alert alert ∧
      answerResolution site now id text = (succeed 200 alert.toJson, resolved.2)) ∨
    (∃ e response, resolved.1 = .refusal e ∧ answerResolution site now id text = (response, site) ∧
      resolved.2 = site ∧
      (e = .alertNotFound id ∧ response.status = 404 ∨
        e = .alertResolved id ∧ response.status = 409)) := by
  have houtcome := site.service.monitor.resolve_outcome now id text
  simp only [answerResolution, Service.resolve, Site.perform_resolve]
  generalize site.service.monitor.resolve now id text = result at houtcome
  cases houtcome with
  | missing hnone => exact Or.inr ⟨_, _, rfl, rfl, rfl, Or.inl ⟨rfl, rfl⟩⟩
  | repeated alert hmem hid hresolved => exact Or.inr ⟨_, _, rfl, rfl, rfl, Or.inr ⟨rfl, rfl⟩⟩
  | done front back alert hsplit hid hopen => exact Or.inl ⟨_, rfl, rfl⟩

/-- The status of a resolution goes by the first alert of the id. -/
theorem answerResolution_status (site : Site) (now : Instant) (id text : String) :
    let status := (answerResolution site now id text).1.status
    let first := site.alerts.find? fun alert => alert.id == id
    (status = 200 ↔ ∃ alert, first = some alert ∧ alert.isResolved = false) ∧
    (status = 404 ↔ ∀ alert ∈ site.alerts, alert.id ≠ id) ∧
    (status = 409 ↔ ∃ alert, first = some alert ∧ alert.isResolved = true) := by
  intro status first
  have hnone : first = none ↔ ∀ alert ∈ site.alerts, alert.id ≠ id := by
    simp [first, List.find?_eq_none]
  rw [← hnone]
  cases hfirst : first with
  | none =>
    have hstatus : status = 404 := by
      simp only [first, Site.alerts] at hfirst
      simp only [status, answerResolution, Service.resolve, Monitor.resolve, hfirst]
      rfl
    simp [hstatus]
  | some alert =>
    have hstatus : status = if alert.isResolved then 409 else 200 := by
      simp only [first, Site.alerts] at hfirst
      simp only [status, answerResolution, Service.resolve, Monitor.resolve, hfirst]
      cases alert.isResolved <;> rfl
    cases hresolved : alert.isResolved <;> simp [hstatus, hresolved]

/-! ## Bodies -/

theorem readBody_toUTF8 {α : Type} {method target contentType text : String} {read : Decoder α}
    {a : α} (htype : isJsonType contentType = true) (hsize : text.utf8ByteSize ≤ maxBodyBytes)
    (hread : read (Json.readFront text.toList).1 = .ok a) :
    readBody ⟨method, target, some contentType, text.toUTF8⟩ read = .ok a := by
  have hfits : ¬ maxBodyBytes < text.toUTF8.size := Nat.not_lt.mpr hsize
  rw [readBody, if_pos (by exact htype), if_neg hfits, Json.readBytes_toUTF8, hread]

/-! ## Any request -/

/-- The status is one of success. -/
def Response.isSuccess (response : Response) : Bool :=
  decide (200 ≤ response.status) && decide (response.status < 300)

@[simp] theorem withoutBody_status (method : String) (response : Response) :
    (withoutBody method response).status = response.status := by
  unfold withoutBody
  split <;> rfl

/-- What a request of a method comes to. Only posting records and resolves, and only with success. -/
inductive Outcome (site : Site) (now : Instant) (method : String) : Response × Site → Prop where
  | idle (response : Response) : Outcome site now method (response, site)
  | reported (response : Response) (start finish : Instant) (kindText : String)
      (hmethod : method ≠ "POST") :
    Outcome site now method (response, (site.perform now (.report start finish kindText)).2)
  | recorded (response : Response) (r : EventRequest) (hmethod : method = "POST")
      (hstatus : response.isSuccess = true) :
    Outcome site now method (response, (site.perform now (.record r.event)).2)
  | resolved (response : Response) (id text : String) (hmethod : method = "POST")
      (hstatus : response.isSuccess = true) :
    Outcome site now method (response, (site.perform now (.resolve id text)).2)

theorem Outcome.withoutBody {site : Site} {now : Instant} {method : String} {response : Response}
    {after : Site} (h : Outcome site now method (response, after)) :
    Outcome site now method (withoutBody method response, after) := by
  cases h with
  | idle => exact .idle _
  | reported _ start finish kindText hmethod => exact .reported _ start finish kindText hmethod
  | recorded _ r hmethod hstatus =>
    exact .recorded _ r hmethod (by simpa [Response.isSuccess] using hstatus)
  | resolved _ id text hmethod hstatus =>
    exact .resolved _ id text hmethod (by simpa [Response.isSuccess] using hstatus)

theorem answerReport_outcome (site : Site) (now : Instant) (query : ReportQuery) :
    ∃ response, answerReport site now query =
      (response, (site.perform now (.report query.start query.finish query.kindText)).2) := by
  simp only [answerReport, Site.perform]
  cases site.service.report site.around now query.start query.finish query.kindText with
  | error e => exact ⟨_, rfl⟩
  | ok made => exact ⟨_, rfl⟩

theorem answerRoute_outcome (site : Site) (now : Instant) (request : Request) (route : Route)
    (h : route.takes request.method = true) :
    Outcome site now request.method (answerRoute site now request route) := by
  have hmethod : request.method = "POST" ↔ route.isPost = true := by
    unfold Route.takes at h
    split at h
    case isTrue hpost => simpa [hpost] using h
    case isFalse hpost =>
      simp only [Bool.or_eq_true, beq_iff_eq] at h
      rcases h with h | h <;> simp [hpost, h]
  cases route with
  | health => exact .idle _
  | events =>
    simp only [answerRoute]
    split
    · exact .idle _
    · rename_i r _
      rcases answerEvent_outcome site now r with ⟨-, e, -, -, -, heq⟩ | ⟨-, response, -, heq⟩
      · rw [heq]
        exact .recorded _ r (hmethod.mpr rfl) rfl
      · rw [heq]
        exact .idle _
  | reports =>
    simp only [answerRoute]
    split
    · exact .idle _
    · rename_i query _
      obtain ⟨response, heq⟩ := answerReport_outcome site now query
      rw [heq]
      exact .reported _ _ _ _ (mt hmethod.mp (by decide))
  | integrity => exact .idle _
  | alerts =>
    simp only [answerRoute]
    split <;> exact .idle _
  | resolution segment =>
    simp only [answerRoute]
    split
    · exact .idle _
    · rename_i id _
      split
      · exact .idle _
      · rename_i text _
        rcases answerResolution_outcome site now id text with
          ⟨alert, -, heq⟩ | ⟨e, response, -, heq, -, -⟩
        · rw [heq]
          exact .resolved _ id text (hmethod.mpr rfl) rfl
        · rw [heq]
          exact .idle _
  | metrics => exact .idle _

theorem answer_outcome (site : Site) (now : Instant) (request : Request) :
    Outcome site now request.method (answer site now request) := by
  unfold answer
  split
  · exact .idle _
  · rename_i route _
    split
    · rename_i htakes
      exact (answerRoute_outcome site now request route htakes).withoutBody
    · exact .idle _

/-- A request that is not fulfilled, or that posts nothing, leaves service and files alone. -/
theorem Outcome.keeps {site : Site} {now : Instant} {method : String} {result : Response × Site}
    (h : Outcome site now method result)
    (hkeeps : result.1.isSuccess = false ∨ method ≠ "POST") :
    result.2.service = site.service ∧ result.2.around.files = site.around.files := by
  cases h with
  | idle => exact ⟨rfl, rfl⟩
  | reported _ start finish kindText _ =>
    obtain ⟨ids, hafter⟩ := site.perform_report_ids now start finish kindText
    simp only [hafter, and_self]
  | recorded _ r hmethod hstatus => simp [hmethod, hstatus] at hkeeps
  | resolved _ id text hmethod hstatus => simp [hmethod, hstatus] at hkeeps

theorem answer_post (site : Site) (now : Instant) {request : Request} {route : Route}
    (hmethod : request.method = "POST") (hroute : Route.ofPath? (pathOf request.target) = some route)
    (hpost : route.isPost = true) :
    answer site now request = answerRoute site now request route := by
  simp [answer, hroute, Route.takes, hpost, hmethod, withoutBody]

/-- **Requests are fulfilled as a whole or not at all.** A request that is not fulfilled leaves the
service and the files as they were, and so does one that posts nothing. An event that is posted is
recorded exactly when it can be, by the one entry that the response shows. The status of a posted
resolution tells whether the first alert of the id is open, missing or resolved already, and what the
service does with it. -/
theorem answer_all_or_nothing (site : Site) (now : Instant) (request : Request) :
    let response := (answer site now request).1
    let after := (answer site now request).2
    let route := Route.ofPath? (pathOf request.target)
    (response.isSuccess = false ∨ request.method ≠ "POST" →
      after.service = site.service ∧ after.around.files = site.around.files) ∧
    (∀ r, request.method = "POST" → route = some .events →
      readBody request EventRequest.ofJson = .ok r →
      (response.status = 201 ↔ r.IsRecordable) ∧
      (response.status ≠ 201 → response.status = 400) ∧
      (response.status = 201 → ∃ e, response.body = some e.toJson ∧
        after.service.ledger.entries = site.service.ledger.entries ++ [e] ∧ r.IsToldBy e)) ∧
    (∀ segment text, request.method = "POST" → route = some (.resolution segment) →
      readBody request resolutionText = .ok text →
      match decodeSegment? segment.toList with
      | none => response.status = 400
      | some id =>
        let resolved := site.perform now (.resolve id text)
        let first := site.alerts.find? fun alert => alert.id == id
        after = resolved.2 ∧
        (response.status = 200 ↔ ∃ alert, first = some alert ∧ alert.isResolved = false) ∧
        (response.status = 404 ↔ ∀ alert ∈ site.alerts, alert.id ≠ id) ∧
        (response.status = 409 ↔ ∃ alert, first = some alert ∧ alert.isResolved = true) ∧
        (response.status = 200 ↔ ∃ alert, resolved.1 = .alert alert) ∧
        (response.status = 404 ↔ resolved.1 = .refusal (.alertNotFound id)) ∧
        (response.status = 409 ↔ resolved.1 = .refusal (.alertResolved id)) ∧
        (response.status = 200 ∨ response.status = 404 ∨ response.status = 409)) := by
  have houtcome := answer_outcome site now request
  have hposted := @answer_post site now request
  generalize answer site now request = result at houtcome hposted
  intro response after route
  refine ⟨houtcome.keeps, ?_, ?_⟩
  · intro r hmethod hroute hbody
    have hresult : result = answerEvent site now r := by
      rw [hposted hmethod hroute rfl, answerRoute, hbody]
    rcases answerEvent_outcome site now r with
      ⟨hr, e, htold, -, hledger, heq⟩ | ⟨hr, refusal, hstatus, heq⟩
    · have hcreated : response.status = 201 := by
        simp only [response, hresult, heq, succeed]
      have hentries : after.service.ledger.entries = site.service.ledger.entries ++ [e] := by
        simp only [after, hresult, heq, hledger, Ledger.push]
      have hshown : response.body = some e.toJson := by
        simp only [response, hresult, heq, succeed]
      exact ⟨iff_of_true hcreated hr, absurd hcreated, fun _ => ⟨e, hshown, hentries, htold⟩⟩
    · have hrefused : response.status = 400 := by
        simp only [response, hresult, heq, hstatus]
      simp [hrefused, hr]
  · intro segment text hmethod hroute hbody
    have hposted := hposted hmethod hroute rfl
    cases hid : decodeSegment? segment.toList with
    | none => simp only [response, hposted, answerRoute, hid, refuse]
    | some id =>
      have hresult : result = answerResolution site now id text := by
        rw [hposted, answerRoute, hid, hbody]
      have hstatus := answerResolution_status site now id text
      rw [← hresult] at hstatus
      obtain ⟨hopen, hmissing, hrepeated⟩ := hstatus
      refine ⟨?_, hopen, hmissing, hrepeated, ?_⟩
      · rcases answerResolution_outcome site now id text with
          ⟨alert, -, heq⟩ | ⟨e, refusal, -, heq, hafter, -⟩
        · simp only [after, hresult, heq]
        · simp only [after, hresult, heq, hafter]
      · simp only [response, hresult]
        rcases answerResolution_outcome site now id text with
          ⟨alert, hresolved, heq⟩ | ⟨e, refusal, hresolved, heq, -, hcase⟩
        · rw [heq, hresolved]
          simp [succeed]
        · rw [heq, hresolved]
          rcases hcase with ⟨rfl, hrefused⟩ | ⟨rfl, hrefused⟩
          · simp [hrefused]
          · simp [hrefused]

/-- An event with the longest processing time is posted, and the resolution of an alert that there is
none of. -/
theorem answer_all_or_nothing_posted :
    let now : Instant := .startOf ⟨2024, 3, 1, by decide⟩
    let site := Site.mk .bare .bare
    let event : Request := ⟨"POST", "/events", some "application/json",
      ("\x7b\"event_type\":\"user_report\",\"target_id\":\"cid\",\"action\":\" x\"," ++
        "\"processing_time_ms\":9223372036854775807\x7d").toUTF8⟩
    let told : EventRequest :=
      ⟨"user_report", "", "cid", " x", .none, none, some 9223372036854775807⟩
    let resolution : Request := ⟨"POST", "/alerts/CA-1/resolve", some "application/json",
      "\x7b\"resolution\":\"seen\"\x7d".toUTF8⟩
    Route.ofPath? (pathOf event.target) = some .events ∧
    readBody event EventRequest.ofJson = .ok told ∧ told.IsRecordable ∧
    (answer site now event).1.status = 201 ∧
    (∃ e, (answer site now event).2.service.ledger.entries = [e] ∧ told.IsToldBy e) ∧
    Route.ofPath? (pathOf resolution.target) = some (.resolution "CA-1") ∧
    readBody resolution resolutionText = .ok "seen" ∧
    (answer site now resolution).1.status = 404 ∧
    (answer site now resolution).2.service = site.service := by
  intro now site event told resolution
  have hevent : Route.ofPath? (pathOf event.target) = some .events := by decide +kernel
  have htold : readBody event EventRequest.ofJson = .ok told :=
    readBody_toUTF8 rfl (by decide +kernel) (by simp only [told]; with_unfolding_all rfl)
  have htype : Text.isAllBlank "user_report" = false := by decide +kernel
  have haction : Text.isAllBlank " x" = false := by decide +kernel
  rw [← EventRequest.exists_isBlank_eq_false_iff] at htype haction
  have hrecordable : told.IsRecordable := by
    refine ⟨htype, haction, ?_⟩
    intro ms hms
    obtain rfl : 9223372036854775807 = ms := Option.some.inj hms
    decide
  have hresolution : Route.ofPath? (pathOf resolution.target) = some (.resolution "CA-1") := by
    decide +kernel
  have htext : readBody resolution resolutionText = .ok "seen" :=
    readBody_toUTF8 rfl (by decide +kernel) (by with_unfolding_all rfl)
  have hid : decodeSegment? "CA-1".toList = some "CA-1" := by decide +kernel
  obtain ⟨-, hevents, -⟩ := answer_all_or_nothing site now event
  obtain ⟨hstatus, -, hentry⟩ := hevents told rfl hevent htold
  have hcreated := hstatus.mpr hrecordable
  obtain ⟨e, -, hentries, hcarried⟩ := hentry hcreated
  obtain ⟨hkept, -, hresolutions⟩ := answer_all_or_nothing site now resolution
  have houtcome := hresolutions "CA-1" "seen" rfl hresolution htext
  rw [hid] at houtcome
  have hmissing : (answer site now resolution).1.status = 404 :=
    houtcome.2.2.1.mpr (List.forall_mem_nil _)
  have hrefused : (answer site now resolution).1.isSuccess = false := by
    rw [Response.isSuccess, hmissing]
    rfl
  exact ⟨hevent, htold, hrecordable, hcreated, ⟨e, hentries, hcarried⟩, hresolution, htext, hmissing,
    (hkept (Or.inl hrefused)).1⟩

end Http

end AuditTrail
