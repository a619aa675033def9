import AuditTrail.Monitor
/-! # Resolving alerts

Resolving an id ends in one of three ways (`Monitor.resolve_outcome`): there is no such alert, it is
resolved already, or it is resolved now and all other alerts stay as they are. -/

namespace AuditTrail
set_option autoImplicit false

/-! ## The resolution of one alert -/

namespace Alert

/-- The alert as it was raised. -/
def asRaised (alert : Alert) : Alert := { alert with resolution := none }

def withResolution (alert : Alert) (resolution : Resolution) : Alert :=
  { alert with resolution := some resolution }

@[simp] theorem asRaised_id (alert : Alert) : alert.asRaised.id = alert.id := rfl

@[simp] theorem withResolution_id (alert : Alert) (r : Resolution) :
    (alert.withResolution r).id = alert.id := rfl

@[simp] theorem withResolution_resolution (alert : Alert) (r : Resolution) :
    (alert.withResolution r).resolution = some r := rfl

@[simp] theorem asRaised_withResolution (alert : Alert) (r : Resolution) :
    (alert.withResolution r).asRaised = alert.asRaised := rfl

theorem asRaised_of_open {alert : Alert} (h : alert.resolution = none) : alert.asRaised = alert := by
  rw [asRaised, ← h]

theorem map_asRaised_of_open {alerts : List Alert} (h : ∀ a ∈ alerts, a.resolution = none) :
    alerts.map asRaised = alerts :=
  (List.map_congr_left fun a ha => asRaised_of_open (h a ha)).trans (List.map_id alerts)

theorem ext_asRaised {a b : Alert} (hraised : a.asRaised = b.asRaised)
    (hresolution : a.resolution = b.resolution) : a = b := by
  cases a
  cases b
  simp_all [asRaised]

end Alert

/-! ## The outcome -/

namespace Monitor

theorem resolveFirst_append {id : String} {resolution : Resolution} {front back : List Alert}
    {alert : Alert} (hfront : ∀ a ∈ front, a.id ≠ id) (hid : alert.id = id) :
    resolveFirst id resolution (front ++ alert :: back) =
      front ++ alert.withResolution resolution :: back := by
  induction front with
  | nil =>
    rw [List.nil_append, resolveFirst, if_pos hid]
    rfl
  | cons a rest ih =>
    have hrest := ih fun b hb => hfront b (List.mem_cons_of_mem a hb)
    rw [List.cons_append, resolveFirst, if_neg (hfront a List.mem_cons_self), hrest]
    rfl

/-- The ways in which the resolution of an id ends. -/
inductive ResolveOutcome (monitor : Monitor) (now : Instant) (id text : String) :
    Except AuditError (Alert × Monitor) → Prop where
  | missing (h : ∀ a ∈ monitor.alerts, a.id ≠ id) :
    ResolveOutcome monitor now id text (.error (.alertNotFound id))
  | repeated (alert : Alert) (hmem : alert ∈ monitor.alerts) (hid : alert.id = id)
      (hresolved : alert.isResolved = true) :
    ResolveOutcome monitor now id text (.error (.alertResolved id))
  | done (front back : List Alert) (alert : Alert) (hsplit : monitor.alerts = front ++ alert :: back)
      (hid : alert.id = id) (hopen : alert.resolution = none) :
    ResolveOutcome monitor now id text
      (.ok (alert.withResolution ⟨text, now⟩,
        { monitor with alerts := front ++ alert.withResolution ⟨text, now⟩ :: back }))

theorem resolve_outcome (monitor : Monitor) (now : Instant) (id text : String) :
    ResolveOutcome monitor now id text (monitor.resolve now id text) := by
  unfold resolve
  cases hfind : monitor.alerts.find? fun alert => alert.id == id with
  | none =>
    rw [List.find?_eq_none] at hfind
    exact .missing fun a ha => by simpa using hfind a ha
  | some alert =>
    obtain ⟨hid, front, back, hsplit, hfront⟩ := List.find?_eq_some_iff_append.mp hfind
    have hid : alert.id = id := by simpa using hid
    have hfront : ∀ a ∈ front, a.id ≠ id := fun a ha => by simpa using hfront a ha
    simp only [hsplit, resolveFirst_append hfront hid]
    split
    case isTrue hresolved =>
      exact .repeated alert (List.mem_of_find?_eq_some hfind) hid hresolved
    case isFalse hresolved =>
      have hopen : alert.resolution = none := by simpa [Alert.isResolved] using hresolved
      exact .done front back alert hsplit hid hopen

end Monitor

end AuditTrail
