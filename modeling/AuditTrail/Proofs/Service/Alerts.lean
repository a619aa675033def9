import AuditTrail.Proofs.Monitor.Resolution
import AuditTrail.Proofs.Monitor.VolumeAlerts
import AuditTrail.Proofs.Service.Run
import Mathlib.Data.List.Nodup
/-! # The alerts of a run

Two histories tell all about the alerts of a run: the alerts that its recordings raise, and the
resolutions that succeed. An alert stays where it was raised, and with distinct ids its resolution is
the one that its id was given (`Site.settled_run`). So the alerts only grow, resolutions are for good,
and what resolving an id does can be read off the alerts (`Site.alerts_of_run`). -/

namespace AuditTrail
set_option autoImplicit false

theorem Monitor.resolution_of_mem_raiseAll {ids : IdSupply} {now : Instant} {entryId : String}
    {causes : List AlertCause} {alert : Alert} (h : alert ∈ raiseAll ids now entryId causes) :
    alert.resolution = none := by
  induction causes generalizing ids with
  | nil => cases h
  | cons cause rest ih =>
    rw [raiseAll] at h
    rcases List.mem_cons.mp h with rfl | hrest
    · rfl
    · exact ih hrest

/-- Surroundings without any file, in which names differ. -/
def Surroundings.numbered : Surroundings :=
  { Surroundings.bare with ids := ⟨fun n => "000000000000400" ++ toString n, 0⟩ }

namespace Site

def alerts (site : Site) : List Alert := site.service.monitor.alerts

/-- The site with other alerts and else the same. -/
def withAlerts (site : Site) (alerts : List Alert) : Site :=
  { site with service := { site.service with monitor := { site.service.monitor with alerts } } }

/-- The alerts that an operation raises. -/
def raisedBy (site : Site) (now : Instant) : Operation → List Alert
  | .record event =>
    (site.service.monitor.observe (site.around.ids.skip 1) now
      (site.service.ledger.entryOf site.service.config site.service.signer now
        (site.around.ids.next .entry) event)).2.1
  | .report _ _ _ => []
  | .verify => []
  | .resolve _ _ => []
  | .metrics => []

/-- The resolution that an operation achieves, behind the id that it is asked for. -/
def resolvedBy (site : Site) (now : Instant) (operation : Operation) : List (String × Resolution) :=
  match operation, (site.perform now operation).1 with
  | .resolve id text, .alert _ => [(id, ⟨text, now⟩)]
  | _, _ => []

/-- What the operations of a run give, one after the other. -/
def gathered {α : Type} (give : Site → Instant → Operation → List α) (site : Site) :
    List (Instant × Operation) → List α
  | [] => []
  | (now, operation) :: rest =>
    give site now operation ++ gathered give (site.perform now operation).2 rest

/-- The alerts that a run raises. -/
def raised (site : Site) (ops : List (Instant × Operation)) : List Alert :=
  gathered raisedBy site ops

/-- The resolutions that succeed in a run. -/
def resolved (site : Site) (ops : List (Instant × Operation)) : List (String × Resolution) :=
  gathered resolvedBy site ops

theorem gathered_append {α : Type} (give : Site → Instant → Operation → List α) (site : Site)
    (earlier later : List (Instant × Operation)) :
    gathered give site (earlier ++ later) =
      gathered give site earlier ++ gathered give (site.run earlier) later := by
  induction earlier generalizing site with
  | nil => rfl
  | cons first rest ih =>
    obtain ⟨now, operation⟩ := first
    rw [List.cons_append, gathered, gathered, ih, List.append_assoc]
    rfl

/-! ## One operation -/

theorem resolution_of_mem_raisedBy {site : Site} {now : Instant} {operation : Operation}
    {alert : Alert} (h : alert ∈ site.raisedBy now operation) : alert.resolution = none := by
  cases operation with
  | record event => exact Monitor.resolution_of_mem_raiseAll h
  | report start finish kindText => cases h
  | verify => cases h
  | resolve id text => cases h
  | metrics => cases h

theorem perform_resolve (site : Site) (now : Instant) (id text : String) :
    site.perform now (.resolve id text) =
      match site.service.monitor.resolve now id text with
      | .error e => (.refusal e, site)
      | .ok (alert, monitor) =>
        (.alert alert, { site with service := { site.service with monitor } }) := by
  simp only [perform, Service.resolve]
  cases site.service.monitor.resolve now id text with
  | error e => rfl
  | ok r => rfl

/-- What an operation does to the alerts: it adds those that it raises, or resolves one that was
open. -/
theorem perform_alerts (site : Site) (now : Instant) (operation : Operation) :
    (site.resolvedBy now operation = [] ∧
      (site.perform now operation).2.alerts = site.alerts ++ site.raisedBy now operation) ∨
    (∃ front back old r, site.raisedBy now operation = [] ∧
      site.resolvedBy now operation = [(old.id, r)] ∧ site.alerts = front ++ old :: back ∧
      old.resolution = none ∧
      (site.perform now operation).2.alerts = front ++ old.withResolution r :: back) := by
  cases operation with
  | record event => exact Or.inl ⟨rfl, Monitor.alerts_observe ..⟩
  | report start finish kindText =>
    obtain ⟨ids, hafter⟩ := site.perform_report_ids now start finish kindText
    rw [hafter]
    exact Or.inl ⟨rfl, (List.append_nil _).symm⟩
  | verify => exact Or.inl ⟨rfl, (List.append_nil _).symm⟩
  | resolve id text =>
    have houtcome := site.service.monitor.resolve_outcome now id text
    simp only [resolvedBy, perform_resolve]
    generalize site.service.monitor.resolve now id text = result at houtcome
    cases houtcome with
    | missing hnone => exact Or.inl ⟨rfl, (List.append_nil _).symm⟩
    | repeated alert hmem hid hresolved => exact Or.inl ⟨rfl, (List.append_nil _).symm⟩
    | done front back alert hsplit hid hopen =>
      refine Or.inr ⟨front, back, alert, ⟨text, now⟩, rfl, ?_, hsplit, hopen, rfl⟩
      rw [hid]
  | metrics => exact Or.inl ⟨rfl, (List.append_nil _).symm⟩

theorem asRaised_perform (site : Site) (now : Instant) (operation : Operation) :
    (site.perform now operation).2.alerts.map Alert.asRaised =
      site.alerts.map Alert.asRaised ++ site.raisedBy now operation := by
  rcases site.perform_alerts now operation with
    ⟨-, hafter⟩ | ⟨front, back, old, r, hraised, -, hbefore, -, hafter⟩
  · rw [hafter, List.map_append,
      Alert.map_asRaised_of_open fun a ha => resolution_of_mem_raisedBy ha]
  · simp [hafter, hbefore, hraised]

/-- What an operation does to ledger and monitor: a recording adds an entry and lets the monitor
observe it, any other operation raises nothing and leaves the ledger and the counts alone. -/
theorem perform_raised (site : Site) (now : Instant) (operation : Operation) :
    (∃ ids e, (site.perform now operation).2.service.ledger = site.service.ledger.push e ∧
      (site.perform now operation).2.service.monitor = (site.service.monitor.observe ids now e).1 ∧
      site.raisedBy now operation = (site.service.monitor.observe ids now e).2.1) ∨
    ((site.perform now operation).2.service.ledger = site.service.ledger ∧
      (∃ alerts, (site.perform now operation).2.service.monitor =
        { site.service.monitor with alerts }) ∧
      site.raisedBy now operation = []) := by
  cases operation with
  | record event => exact Or.inl ⟨_, _, rfl, rfl, rfl⟩
  | report start finish kindText =>
    obtain ⟨ids, hafter⟩ := site.perform_report_ids now start finish kindText
    exact Or.inr ⟨by rw [hafter], ⟨_, by rw [hafter]⟩, rfl⟩
  | verify => exact Or.inr ⟨rfl, ⟨_, rfl⟩, rfl⟩
  | resolve id text =>
    obtain ⟨alerts, hafter⟩ := site.perform_resolve_alerts now id text
    exact Or.inr ⟨by rw [hafter], ⟨_, by rw [hafter]⟩, rfl⟩
  | metrics => exact Or.inr ⟨rfl, ⟨_, rfl⟩, rfl⟩

/-- An operation keeps the counts of the monitor a recount of the ledger. -/
theorem recounts_perform {site : Site}
    (h : site.service.monitor.Recounts site.service.ledger.entries) (now : Instant)
    (operation : Operation) : (site.perform now operation).2.service.monitor.Recounts
      (site.perform now operation).2.service.ledger.entries := by
  rcases site.perform_raised now operation with ⟨ids, e, hl, hm, -⟩ | ⟨hl, ⟨alerts, hm⟩, -⟩
  · rw [hl, hm]
    exact h.observe ids now e
  · rw [hl, hm]
    exact h.congr rfl rfl rfl

/-! ## The histories -/

theorem asRaised_run (site : Site) (ops : List (Instant × Operation)) :
    (site.run ops).alerts.map Alert.asRaised =
      site.alerts.map Alert.asRaised ++ site.raised ops := by
  induction ops generalizing site with
  | nil => exact (List.append_nil _).symm
  | cons first rest ih =>
    obtain ⟨now, operation⟩ := first
    rw [run, ih, asRaised_perform, raised, raised, gathered, List.append_assoc]

theorem map_id_run (site : Site) (ops : List (Instant × Operation)) :
    (site.run ops).alerts.map Alert.id =
      site.alerts.map Alert.id ++ (site.raised ops).map Alert.id := by
  have hids := congrArg (List.map Alert.id) (site.asRaised_run ops)
  simpa [Function.comp_def] using hids

/-! ## Alerts and resolutions -/

/-- The resolution of every alert is the one that its id was given, and ids were only resolved that
alerts have. -/
structure Settled (alerts : List Alert) (resolved : List (String × Resolution)) : Prop where
  resolution : ∀ a ∈ alerts, a.resolution = resolved.lookup a.id
  named : ∀ x ∈ resolved, x.1 ∈ alerts.map Alert.id

namespace Settled
variable {alerts : List Alert} {resolved : List (String × Resolution)}

theorem append (h : Settled alerts resolved) {new : List Alert}
    (hopen : ∀ a ∈ new, a.resolution = none) (distinct : ((alerts ++ new).map Alert.id).Nodup) :
    Settled (alerts ++ new) resolved where
  resolution := by
    rw [List.map_append, List.nodup_append'] at distinct
    intro a ha
    rcases List.mem_append.mp ha with hold | hnew
    · exact h.resolution a hold
    · have hnone : resolved.lookup a.id = none := by
        rw [List.lookup_eq_none_iff]
        intro x hx
        have hne := distinct.2.2 (h.named x hx)
        have hmem : a.id ∈ new.map Alert.id := List.mem_map_of_mem hnew
        simp only [bne_iff_ne, ne_eq]
        intro heq
        exact hne (heq ▸ hmem)
      rw [hopen a hnew, hnone]
  named := by
    intro x hx
    rw [List.map_append]
    exact List.mem_append_left _ (h.named x hx)

theorem resolve {front back : List Alert} {old : Alert} (h : Settled (front ++ old :: back) resolved)
    (hopen : old.resolution = none) (distinct : ((front ++ old :: back).map Alert.id).Nodup)
    (r : Resolution) :
    Settled (front ++ old.withResolution r :: back) (resolved ++ [(old.id, r)]) where
  resolution := by
    rw [List.map_append, List.map_cons, List.nodup_middle, List.nodup_cons, ← List.map_append]
      at distinct
    have hother : ∀ a ∈ front ++ back, a.resolution = (resolved ++ [(old.id, r)]).lookup a.id := by
      intro a ha
      have hne : a.id ≠ old.id := fun heq => distinct.1 (heq ▸ List.mem_map_of_mem ha)
      have hmem : a ∈ front ++ old :: back := by
        rcases List.mem_append.mp ha with hf | hb
        · exact List.mem_append_left _ hf
        · exact List.mem_append_right _ (List.mem_cons_of_mem _ hb)
      have hbeq : (a.id == old.id) = false := beq_eq_false_iff_ne.mpr hne
      simp [List.lookup_append, List.lookup_cons, hbeq, h.resolution a hmem]
    have hnone : resolved.lookup old.id = none := by
      rw [← h.resolution old (by simp), hopen]
    intro a ha
    rcases List.mem_append.mp ha with hf | hb
    · exact hother a (List.mem_append_left _ hf)
    · rcases List.mem_cons.mp hb with rfl | hb
      · simp [List.lookup_append, hnone]
      · exact hother a (List.mem_append_right _ hb)
  named := by
    intro x hx
    rcases List.mem_append.mp hx with hold | hnew
    · simpa using h.named x hold
    · rw [List.mem_singleton.mp hnew]
      simp

/-- What is resolved stays as it is while further alerts are raised and resolved. -/
theorem getElem?_of_resolved (h : Settled alerts resolved) {later new : List Alert}
    {more : List (String × Resolution)} (hlater : Settled later (resolved ++ more))
    (hraised : later.map Alert.asRaised = alerts.map Alert.asRaised ++ new) {i : Nat} {a : Alert}
    (ha : alerts[i]? = some a) (hresolved : a.isResolved = true) : later[i]? = some a := by
  obtain ⟨hi, -⟩ := List.getElem?_eq_some_iff.mp ha
  have hplace : (later.map Alert.asRaised)[i]? = some a.asRaised := by
    rw [hraised, List.getElem?_append_left (by simpa using hi), List.getElem?_map, ha]
    rfl
  rw [List.getElem?_map] at hplace
  obtain ⟨b, hb, hsame⟩ := Option.map_eq_some_iff.mp hplace
  obtain ⟨r, hr⟩ := Option.isSome_iff_exists.mp hresolved
  have hid : b.id = a.id := by simpa using congrArg Alert.id hsame
  have hlookup : resolved.lookup a.id = some r := by
    rw [← h.resolution a (List.mem_of_getElem? ha), hr]
  have hresolution : b.resolution = a.resolution := by
    rw [hlater.resolution b (List.mem_of_getElem? hb), hid, List.lookup_append, hlookup, hr]
    rfl
  rw [hb, Alert.ext_asRaised hsame hresolution]

/-- The open alerts are those whose ids have not been resolved. -/
theorem filter_open (h : Settled alerts resolved) :
    alerts.filter (fun a => !a.isResolved) =
      (alerts.map Alert.asRaised).filter fun a => decide (a.id ∉ resolved.map Prod.fst) := by
  have hopen : ∀ a ∈ alerts, (!a.isResolved) = decide (a.asRaised.id ∉ resolved.map Prod.fst) := by
    intro a ha
    have hsome : a.isResolved = true ↔ a.id ∈ resolved.map Prod.fst := by
      rw [Alert.isResolved, h.resolution a ha, List.lookup_isSome_iff]
      simp only [List.mem_map, beq_iff_eq, @eq_comm _ a.id]
    by_cases hmem : a.id ∈ resolved.map Prod.fst
    · simp [hmem, hsome.mpr hmem]
    · simp [hmem, mt hsome.mp hmem]
  rw [List.filter_map, Function.comp_def, ← List.filter_congr hopen, Alert.map_asRaised_of_open]
  intro a ha
  simpa [Alert.isResolved] using (List.mem_filter.mp ha).2

end Settled

theorem settled_run (site : Site) (history : List (String × Resolution))
    (h : Settled site.alerts history) (ops : List (Instant × Operation))
    (distinct : ((site.run ops).alerts.map Alert.id).Nodup) :
    Settled (site.run ops).alerts (history ++ site.resolved ops) := by
  induction ops generalizing site history with
  | nil =>
    rw [resolved, gathered, List.append_nil]
    exact h
  | cons first rest ih =>
    obtain ⟨now, operation⟩ := first
    have hbefore := distinct
    have hafter := distinct
    rw [map_id_run] at hbefore
    rw [run, map_id_run] at hafter
    have hstep : Settled (site.perform now operation).2.alerts
        (history ++ site.resolvedBy now operation) := by
      rcases site.perform_alerts now operation with
        ⟨hresolved, halerts⟩ | ⟨front, back, old, r, -, hresolved, hsplit, hopen, halerts⟩
      · rw [halerts] at hafter
        rw [halerts, hresolved, List.append_nil]
        exact h.append (fun a ha => resolution_of_mem_raisedBy ha) hafter.of_append_left
      · rw [hsplit] at h hbefore
        rw [halerts, hresolved]
        exact h.resolve hopen hbefore.of_append_left r
    rw [resolved, gathered, ← List.append_assoc]
    exact ih _ _ hstep distinct

/-! ## Resolving an id -/

/-- What resolving an id does, told by the alerts there are. -/
structure ResolvesOnce (site : Site) (now : Instant) (id text : String) : Prop where
  succeeds_iff : (∃ a, (site.perform now (.resolve id text)).1 = .alert a) ↔
    ∃ a ∈ site.alerts, a.id = id ∧ a.isResolved = false
  missing_iff : (site.perform now (.resolve id text)).1 = .refusal (.alertNotFound id) ↔
    ∀ a ∈ site.alerts, a.id ≠ id
  repeated_iff : (site.perform now (.resolve id text)).1 = .refusal (.alertResolved id) ↔
    ∃ a ∈ site.alerts, a.id = id ∧ a.isResolved = true
  /-- A success answers with the alert of the id, now resolved, and changes nothing else. -/
  success : ∀ a, (site.perform now (.resolve id text)).1 = .alert a →
    ∃ front old back, site.alerts = front ++ old :: back ∧ old.id = id ∧
      a = old.withResolution ⟨text, now⟩ ∧
      (site.perform now (.resolve id text)).2 = site.withAlerts (front ++ a :: back)
  /-- A refusal changes nothing. -/
  failure : ∀ e, (site.perform now (.resolve id text)).1 = .refusal e →
    (site.perform now (.resolve id text)).2 = site

theorem resolvesOnce (site : Site) (distinct : (site.alerts.map Alert.id).Nodup) (now : Instant)
    (id text : String) : site.ResolvesOnce now id text := by
  have hunique : ∀ a ∈ site.alerts, ∀ b ∈ site.alerts, a.id = b.id → a = b :=
    fun a ha b hb => List.inj_on_of_nodup_map distinct ha hb
  have houtcome := site.service.monitor.resolve_outcome now id text
  have hperform := site.perform_resolve now id text
  generalize site.service.monitor.resolve now id text = result at houtcome hperform
  cases houtcome with
  | missing hnone =>
    have hno : ∀ a ∈ site.alerts, a.id ≠ id := hnone
    constructor <;> rw [hperform]
    case succeeds_iff => simpa using fun a ha hid => absurd hid (hno a ha)
    case missing_iff => simpa using hno
    case repeated_iff => simpa using fun a ha hid => absurd hid (hno a ha)
    case success => simp
    case failure => simp
  | repeated alert hmem hid hresolved =>
    have hmem : alert ∈ site.alerts := hmem
    have hall : ∀ a ∈ site.alerts, a.id = id → a.isResolved = true := by
      intro a ha haid
      rw [hunique a ha alert hmem (haid.trans hid.symm), hresolved]
    constructor <;> rw [hperform]
    case succeeds_iff => simpa using hall
    case missing_iff => simpa using ⟨alert, hmem, hid⟩
    case repeated_iff => simpa using ⟨alert, hmem, hid, hresolved⟩
    case success => simp
    case failure => simp
  | done front back alert hsplit hid hopen =>
    have hsplit : site.alerts = front ++ alert :: back := hsplit
    have hmem : alert ∈ site.alerts := by simp [hsplit]
    have hnot : alert.isResolved = false := by simp [Alert.isResolved, hopen]
    have hall : ∀ a ∈ site.alerts, a.id = id → a.isResolved = false := by
      intro a ha haid
      rw [hunique a ha alert hmem (haid.trans hid.symm), hnot]
    constructor <;> rw [hperform]
    case succeeds_iff => simpa using ⟨alert, hmem, hid, hnot⟩
    case missing_iff => simpa using ⟨alert, hmem, hid⟩
    case repeated_iff => simpa using hall
    case success =>
      intro a ha
      obtain rfl : alert.withResolution ⟨text, now⟩ = a := by simpa using ha
      exact ⟨front, alert, back, hsplit, hid, rfl, rfl⟩
    case failure => simp

/-! ## Runs of a service that has started -/

/-- **Alerts are on record for good and resolved at most once.** In a run of a service that has
started, let the alerts have distinct ids. At every point the alerts are those that have been raised,
each with the resolution that its id was given; what is resolved stays as it is; resolving an id does
what the alerts at that point say; and the active ones are those whose ids have not been resolved, in
the order in which they were raised. -/
theorem alerts_of_run (config : Config) (signer : Signer) (around around' : Surroundings)
    (service : Service) (started : Service.start config signer around = .ok (service, around'))
    (ops : List (Instant × Operation))
    (distinct : (((Site.mk service around').raised ops).map Alert.id).Nodup) :
    let start := Site.mk service around'
    let site (n : Nat) := start.run (ops.take n)
    (∀ n, (site n).alerts.map Alert.asRaised = start.raised (ops.take n) ∧
      ∀ a ∈ (site n).alerts, a.resolution = (start.resolved (ops.take n)).lookup a.id) ∧
    (∀ m n, m ≤ n →
      (site m).alerts.map Alert.asRaised <+: (site n).alerts.map Alert.asRaised ∧
      ∀ (i : Nat) (a : Alert), (site m).alerts[i]? = some a → a.isResolved = true →
        (site n).alerts[i]? = some a) ∧
    (∀ n now id text, (site n).ResolvesOnce now id text) ∧
    (∀ n, (site n).service.monitor.activeAlerts =
      (start.raised (ops.take n)).filter fun a =>
        decide (a.id ∉ (start.resolved (ops.take n)).map Prod.fst)) := by
  intro start site
  have hnone : start.alerts = [] := by
    obtain ⟨exportPlace, files, -, hservice, -⟩ := Service.start_eq started
    simp only [start, alerts, hservice]
    rfl
  have hraised : ∀ n, (site n).alerts.map Alert.asRaised = start.raised (ops.take n) := by
    intro n
    rw [asRaised_run, hnone]
    rfl
  have hdistinct : ∀ n, ((site n).alerts.map Alert.id).Nodup := by
    intro n
    rw [← List.take_append_drop n ops, raised, gathered_append, List.map_append] at distinct
    rw [map_id_run, hnone]
    exact distinct.of_append_left
  have hsettled : ∀ n, Settled (site n).alerts (start.resolved (ops.take n)) := by
    intro n
    have hempty : Settled start.alerts [] := by
      rw [hnone]
      constructor <;> simp
    exact settled_run start [] hempty _ (hdistinct n)
  refine ⟨fun n => ⟨hraised n, (hsettled n).resolution⟩, ?_,
    fun n now id text => resolvesOnce _ (hdistinct n) now id text, ?_⟩
  · intro m n hmn
    obtain ⟨more, hmore⟩ : ops.take m <+: ops.take n := List.take_prefix_take_left hmn
    have hgrown := asRaised_run (site m) more
    rw [← run_append, hmore] at hgrown
    have hlater := hsettled n
    rw [← hmore, resolved, gathered_append] at hlater
    refine ⟨hgrown ▸ List.prefix_append _ _, ?_⟩
    intro i a ha hresolved
    exact (hsettled m).getElem?_of_resolved hlater hgrown ha hresolved
  · intro n
    rw [← hraised n]
    exact (hsettled n).filter_open

/-- Two critical events, of which the alert about the second one is resolved twice. -/
theorem alerts_of_run_resolved_twice :
    let now : Instant := .startOf ⟨2024, 3, 1, by decide⟩
    let start := Site.mk .bare .numbered
    let ops : List (Instant × Operation) :=
      [(now, .record (.plain "system_error" "" "cid" "act" .none)),
       (now, .record (.plain "integrity_breach" "" "cid" "act" .none)),
       (now, .resolve "CA-0000000000004003" "seen"),
       (now, .resolve "CA-0000000000004003" "seen again")]
    let after := start.run ops
    Service.start .standard (.keyless .secp256k1) .numbered = .ok (.bare, .numbered) ∧
    ((start.raised ops).map Alert.id).Nodup ∧
    (start.raised ops).map Alert.id = ["CA-0000000000004001", "CA-0000000000004003"] ∧
    start.resolved ops = [("CA-0000000000004003", ⟨"seen", now⟩)] ∧
    after.alerts.map Alert.asRaised = start.raised ops ∧
    after.service.monitor.activeAlerts.map Alert.id = ["CA-0000000000004001"] ∧
    after.ResolvesOnce now "CA-0000000000004003" "seen once more" := by
  intro now start ops after
  have started : Service.start .standard (.keyless .secp256k1) .numbered = .ok (.bare, .numbered) :=
    rfl
  have hids : (start.raised ops).map Alert.id =
      ["CA-0000000000004001", "CA-0000000000004003"] := by decide +kernel
  have hresolved : start.resolved ops = [("CA-0000000000004003", ⟨"seen", now⟩)] := by
    decide +kernel
  have distinct : ((start.raised ops).map Alert.id).Nodup := by
    rw [hids]
    decide
  obtain ⟨hhistory, -, honce, hactive⟩ := alerts_of_run .standard (.keyless .secp256k1) .numbered
    .numbered .bare started ops distinct
  have hraised := (hhistory 4).1
  have hopen := congrArg (List.map Alert.id) (hactive 4)
  have hagain := honce 4 now "CA-0000000000004003" "seen once more"
  simp only [show ops.take 4 = ops from rfl] at hraised hopen hagain
  rw [show after = (Site.mk .bare .numbered).run ops from rfl]
  exact ⟨started, distinct, hids, hresolved, hraised, hopen.trans (by decide +kernel), hagain⟩

end Site

end AuditTrail
