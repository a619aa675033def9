import AuditTrail.CoreInstances
import AuditTrail.Http.Encoding
import AuditTrail.Http.MediaType
import AuditTrail.Json.Bytes
import AuditTrail.Service
/-!
# The HTTP interface

What a request asks of the service, and the response to it. A request is refused before the service
sees it when no route has its path, when the route does not take its method, or when its query, path
or body cannot be read. The body of a refused request's response is no JSON and left out here.
-/

namespace AuditTrail.Http

open scoped CoreInstances

structure Request where
  method : String
  /-- Path and query, perhaps behind a scheme and a host. -/
  target : String
  /-- Nothing where the header is missing or no text. -/
  contentType : Option String
  /-- Bytes that need not be a text. -/
  body : ByteArray

structure Response where
  status : Nat
  body : Option Json

inductive Route where
  | health
  | events
  | reports
  | integrity
  | alerts
  /-- The resolution of an alert, whose id stands in the path as it was sent. -/
  | resolution (segment : String)
  | metrics
deriving DecidableEq, Repr

def Route.ofPath? (path : String) : Option Route :=
  match Text.split '/' path with
  | ["", "health"] => some .health
  | ["", "events"] => some .events
  | ["", "reports"] => some .reports
  | ["", "integrity"] => some .integrity
  | ["", "alerts"] => some .alerts
  | ["", "alerts", segment, "resolve"] => some (.resolution segment)
  | ["", "metrics"] => some .metrics
  | _ => none

/-- The route changes something and takes a body. -/
def Route.isPost : Route → Bool
  | .events | .resolution _ => true
  | .health | .reports | .integrity | .alerts | .metrics => false

def Route.takes (route : Route) (method : String) : Bool :=
  if route.isPost then method == "POST" else method == "GET" || method == "HEAD"

/-- A target without the scheme and the host that may stand in front of its path. What has neither a
path nor a scheme asks for nothing here. -/
def localPart (target : String) : List Char :=
  let cs := target.toList
  if cs.head? = some '/' then cs
  else
    match cs.dropWhile fun c => c != ':' && c != '/' && c != '?' && c != '#' with
    | ':' :: '/' :: '/' :: rest => rest.dropWhile fun c => c != '/' && c != '?' && c != '#'
    | _ => []

/-- The path of a target. -/
def pathOf (target : String) : String :=
  String.ofList ((localPart target).takeWhile fun c => c != '?' && c != '#')

/-- The query of a target, empty if there is none. -/
def queryOf (target : String) : List Char :=
  match ((localPart target).takeWhile (· != '#')).dropWhile (· != '?') with
  | [] => []
  | _ :: query => query

/-! ## What requests carry -/

/-- What a request to record an event carries. -/
structure EventRequest where
  eventType : String
  actor : String
  target : String
  action : String
  details : EventDetails
  result : Option String
  processingMs : Option UInt64

namespace EventRequest

/-- The fields of such a request. -/
def fields : List Json.Field :=
  [.of "event_type" Json.asString, .defaulted "actor_id" Json.asString,
   .of "target_id" Json.asString, .of "action" Json.asString,
   .defaulted "details" EventDetails.ofJson, .nullable "result" Json.asString,
   .nullable "processing_time_ms" Json.asWord]

/-- The request that a tree stands for. -/
def ofJson (j : Json) : Except Fault EventRequest := do
  let m ← Json.record fields j
  return {
    eventType := ← Json.required "event_type" Json.asString m
    actor := ← Json.withDefault "actor_id" Json.asString "" m
    target := ← Json.required "target_id" Json.asString m
    action := ← Json.required "action" Json.asString m
    details := ← Json.withDefault "details" EventDetails.ofJson .none m
    result := ← Json.optional "result" Json.asString m
    processingMs := ← Json.optional "processing_time_ms" Json.asWord m }

/-- The event of a request. Event type and action must not be blank, and the duration has to fit 63
bits. -/
def toEvent (request : EventRequest) : Except AuditError Event :=
  if Text.isAllBlank request.eventType then .error (.blankField "event_type")
  else if Text.isAllBlank request.action then .error (.blankField "action")
  else
    let event : Event :=
      ⟨request.eventType, request.actor, request.target, request.action, request.details,
        request.result, none⟩
    match request.processingMs with
    | none => .ok event
    | some ms =>
      if ms.toNat < 2 ^ (63 : Nat) then .ok { event with elapsed := some (ms.toNat * 1000000) }
      else .error (.durationTooLong ms)

end EventRequest

/-- What a request to resolve an alert carries. -/
def resolutionText (j : Json) : Except Fault String := do
  let m ← Json.record [.of "resolution" Json.asString] j
  Json.required "resolution" Json.asString m

/-- What a request for a report carries in its query. -/
structure ReportQuery where
  start : Instant
  finish : Instant
  kindText : String

/-- The query for a report; start and end are needed. -/
def ReportQuery.ofFields? (fields : List (String × String)) : Option ReportQuery := do
  let start ← (← fieldOnce? "start" fields).bind Instant.read?
  let finish ← (← fieldOnce? "end" fields).bind Instant.read?
  let kindText ← fieldOnce? "type" fields
  return ⟨start, finish, kindText.getD "comprehensive"⟩

/-- The query for alerts: only active ones, or all. -/
def activeOnly? (fields : List (String × String)) : Option Bool :=
  match fieldOnce? "active" fields with
  | some none => some false
  | some (some "true") => some true
  | some (some "false") => some false
  | _ => none

/-! ## Responses -/

def refuse (status : Nat) : Response := ⟨status, none⟩

/-- A success with a value to show. -/
def succeed (status : Nat) (j : Json) : Response := ⟨status, some j⟩

/-- The status of an error. -/
def statusOf (e : AuditError) : Nat :=
  match e.family with
  | .alertNotFound => 404
  | .alertResolved => 409
  | .timeRange | .unknownReport | .validation => 400
  | .configuration | .exporting => 500

/-- The response to a request that the service could not fulfil. -/
def failure (e : AuditError) : Response :=
  succeed (statusOf e) (.object [("status", .string "error"), ("error", .string e.message)])

/-- The longest body that is read, in bytes. -/
def maxBodyBytes : Nat := 2097152

/-- The value that a body stands for; otherwise the status of the refusal. -/
def readBody {α : Type} (request : Request) (read : Decoder α) : Except Nat α :=
  if request.contentType.any isJsonType then
    if maxBodyBytes < request.body.size then .error 413
    else
      match read (Json.readBytes request.body) with
      | .ok a => .ok a
      | .error .malformed => .error 400
      | .error .mismatch => .error 422
  else .error 415

/-- How the service fares. -/
def healthJson (service : Service) (now : Instant) : Json := .object
  [("status", .string "healthy"), ("service", .string "compliance-audit"),
   ("timestamp", .string now.text), ("system_version", .string service.config.systemVersion),
   ("entries", .nat service.ledger.entries.length),
   ("signing_mode", .string service.signer.mode.name)]

/-- The response to a request to record an event. -/
def answerEvent (site : Site) (now : Instant) (request : EventRequest) : Response × Site :=
  match request.toEvent with
  | .error e => (failure e, site)
  | .ok event =>
    let (e, service, around) := site.service.record site.around now event
    (succeed 201 e.toJson, ⟨service, around⟩)

/-- The response to a request for a report. -/
def answerReport (site : Site) (now : Instant) (query : ReportQuery) : Response × Site :=
  match site.service.report site.around now query.start query.finish query.kindText with
  | .error e => (failure e, site)
  | .ok (report, around) => (succeed 200 report.toJson, { site with around })

/-- The response to a request to resolve an alert. -/
def answerResolution (site : Site) (now : Instant) (id text : String) : Response × Site :=
  match site.service.resolve now id text with
  | .error e => (failure e, site)
  | .ok (alert, service) => (succeed 200 alert.toJson, { site with service })

/-- The response to a request on a route that takes its method. -/
def answerRoute (site : Site) (now : Instant) (request : Request) : Route → Response × Site
  | .health => (succeed 200 (healthJson site.service now), site)
  | .events =>
    match readBody request EventRequest.ofJson with
    | .error status => (refuse status, site)
    | .ok event => answerEvent site now event
  | .reports =>
    match ReportQuery.ofFields? (formFields (queryOf request.target)) with
    | none => (refuse 400, site)
    | some query => answerReport site now query
  | .integrity => (succeed 200 (site.service.verify now).toJson, site)
  | .alerts =>
    match activeOnly? (formFields (queryOf request.target)) with
    | none => (refuse 400, site)
    | some active =>
      let alerts :=
        if active then site.service.monitor.activeAlerts else site.service.monitor.alerts
      (succeed 200 (.array (alerts.map Alert.toJson)), site)
  | .resolution segment =>
    match decodeSegment? segment.toList with
    | none => (refuse 400, site)
    | some id =>
      match readBody request resolutionText with
      | .error status => (refuse status, site)
      | .ok text => answerResolution site now id text
  | .metrics => (succeed 200 (site.service.metrics now).toJson, site)

/-- A response to a request that wants no body. -/
def withoutBody (method : String) (response : Response) : Response :=
  if method = "HEAD" then { response with body := none } else response

/-- The response to a request, and what it leaves behind. -/
def answer (site : Site) (now : Instant) (request : Request) : Response × Site :=
  match Route.ofPath? (pathOf request.target) with
  | none => (refuse 404, site)
  | some route =>
    if route.takes request.method then
      let (response, site) := answerRoute site now request route
      (withoutBody request.method response, site)
    else (refuse 405, site)

end AuditTrail.Http
