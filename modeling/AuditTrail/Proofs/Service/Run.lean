import AuditTrail.Proofs.Ledger.Chain
import AuditTrail.Service
/-! # Runs of the service

`Site.perform_cases` says once what an operation does to the ledger. From it follows what a run
leaves behind: the configuration and the signer it began with, and a chain of one entry for each
recording, stamped by the readings of the clock at the recordings (`Site.run_from_start_isChain`). -/

namespace AuditTrail
set_option autoImplicit false

/-- The readings of the clock at which a run records an event. -/
def recordTimes : List (Instant × Operation) → List Instant
  | [] => []
  | (now, .record _) :: rest => now :: recordTimes rest
  | (_, .report _ _ _) :: rest => recordTimes rest
  | (_, .verify) :: rest => recordTimes rest
  | (_, .resolve _ _) :: rest => recordTimes rest
  | (_, .metrics) :: rest => recordTimes rest

/-- Surroundings without any file, in which all names are alike. -/
def Surroundings.bare : Surroundings where
  ids := ⟨fun _ => "0000000000004000", 0⟩
  files := ⟨[], [], fun _ => none, 0⟩

namespace Service

/-- The service of the standard configuration without a key, before anything is recorded. -/
def bare : Service := ⟨.standard, .keyless .secp256k1, .empty, .of .standard, none⟩

theorem start_eq {config : Config} {signer : Signer} {around around' : Surroundings}
    {service : Service} (h : Service.start config signer around = .ok (service, around')) :
    ∃ exportPlace files, openExport config around.files = .ok (exportPlace, files) ∧
      service = ⟨config, signer, .empty, .of config, exportPlace⟩ ∧
      around' = { around with files } := by
  unfold start at h
  split at h
  · cases h
  · split at h
    · cases h
    · rename_i exportPlace files ho
      cases h
      exact ⟨exportPlace, files, ho, rfl, rfl⟩

end Service

namespace Site

/-! ## One operation -/

/-- A report draws names and changes nothing else. -/
theorem perform_report_ids (site : Site) (now start finish : Instant) (kindText : String) :
    ∃ ids, (site.perform now (.report start finish kindText)).2 =
      { site with around := { site.around with ids } } := by
  simp only [perform, Service.report]
  cases ReportKind.read kindText with
  | error e => exact ⟨_, rfl⟩
  | ok kind =>
    simp only
    cases Report.generate site.service.config site.around.ids now kind start finish
      (site.service.ledger.snapshot start finish)
      (if kind.hasIntegrity then some (site.service.verify now) else none)
      site.service.monitor.activeAlerts with
    | error e => exact ⟨_, rfl⟩
    | ok made => exact ⟨_, rfl⟩

/-- Resolving changes the alerts and nothing else. -/
theorem perform_resolve_alerts (site : Site) (now : Instant) (id text : String) :
    ∃ alerts, (site.perform now (.resolve id text)).2 =
      { site with
        service := { site.service with monitor := { site.service.monitor with alerts } } } := by
  simp only [perform, Service.resolve, Monitor.resolve]
  cases site.service.monitor.alerts.find? fun alert => alert.id == id with
  | none => exact ⟨_, rfl⟩
  | some alert =>
    simp only
    cases alert.isResolved with
    | true => exact ⟨_, rfl⟩
    | false => exact ⟨_, rfl⟩

/-- An operation leaves configuration, signer and open file as they are. -/
theorem perform_config (site : Site) (now : Instant) (operation : Operation) :
    (site.perform now operation).2.service.config = site.service.config ∧
    (site.perform now operation).2.service.signer = site.service.signer ∧
    (site.perform now operation).2.service.exportPlace = site.service.exportPlace := by
  cases operation with
  | record event => exact ⟨rfl, rfl, rfl⟩
  | report start finish kindText =>
    obtain ⟨ids, hafter⟩ := site.perform_report_ids now start finish kindText
    simp only [hafter, and_self]
  | verify => exact ⟨rfl, rfl, rfl⟩
  | resolve id text =>
    obtain ⟨alerts, hafter⟩ := site.perform_resolve_alerts now id text
    simp only [hafter, and_self]
  | metrics => exact ⟨rfl, rfl, rfl⟩

/-- What an operation does to ledger and files: a recording adds the entry of its event and copies
it, any other operation leaves both alone. -/
theorem perform_cases (site : Site) (now : Instant) (operation : Operation) :
    (∃ event e, operation = .record event ∧
      e = site.service.ledger.entryOf site.service.config site.service.signer now
        (site.around.ids.next .entry) event ∧
      (site.perform now operation).2.service.ledger = site.service.ledger.push e ∧
      (site.perform now operation).2.around.files =
        Service.copyEntry site.service.exportPlace e site.around.files) ∨
    ((∀ rest, recordTimes ((now, operation) :: rest) = recordTimes rest) ∧
      (site.perform now operation).2.service.ledger = site.service.ledger ∧
      (site.perform now operation).2.around.files = site.around.files) := by
  cases operation with
  | record event => exact Or.inl ⟨event, _, rfl, rfl, rfl, rfl⟩
  | report start finish kindText =>
    obtain ⟨ids, hafter⟩ := site.perform_report_ids now start finish kindText
    exact Or.inr ⟨fun _ => rfl, by rw [hafter], by rw [hafter]⟩
  | verify => exact Or.inr ⟨fun _ => rfl, rfl, rfl⟩
  | resolve id text =>
    obtain ⟨alerts, hafter⟩ := site.perform_resolve_alerts now id text
    exact Or.inr ⟨fun _ => rfl, by rw [hafter], by rw [hafter]⟩
  | metrics => exact Or.inr ⟨fun _ => rfl, rfl, rfl⟩

/-! ## Runs -/

theorem run_append (site : Site) (earlier later : List (Instant × Operation)) :
    site.run (earlier ++ later) = (site.run earlier).run later := by
  induction earlier generalizing site with
  | nil => rfl
  | cons first rest ih =>
    obtain ⟨now, operation⟩ := first
    exact ih _

theorem run_config (site : Site) (ops : List (Instant × Operation)) :
    (site.run ops).service.config = site.service.config ∧
    (site.run ops).service.signer = site.service.signer ∧
    (site.run ops).service.exportPlace = site.service.exportPlace := by
  induction ops generalizing site with
  | nil => exact ⟨rfl, rfl, rfl⟩
  | cons first rest ih =>
    obtain ⟨now, operation⟩ := first
    obtain ⟨hc, hs, hp⟩ := site.perform_config now operation
    obtain ⟨hc', hs', hp'⟩ := ih (site.perform now operation).2
    exact ⟨hc'.trans hc, hs'.trans hs, hp'.trans hp⟩

theorem isChain_run (site : Site) (readings : List Instant)
    (h : site.service.ledger.IsChain readings) (ops : List (Instant × Operation)) :
    (site.run ops).service.ledger.IsChain (readings ++ recordTimes ops) := by
  induction ops generalizing site readings with
  | nil =>
    rw [recordTimes, List.append_nil]
    exact h
  | cons first rest ih =>
    obtain ⟨now, operation⟩ := first
    rcases site.perform_cases now operation with ⟨event, e, ho, he, hl, -⟩ | ⟨ht, hl, -⟩
    · have hstep : (site.perform now operation).2.service.ledger.IsChain (readings ++ [now]) := by
        rw [hl, he]
        exact h.push _ _ now _ event
      have hrun := ih _ _ hstep
      rw [List.append_assoc] at hrun
      rw [ho] at hrun ⊢
      exact hrun
    · have hstep : (site.perform now operation).2.service.ledger.IsChain readings := by
        rw [hl]
        exact h
      rw [ht rest]
      exact ih _ _ hstep

theorem recorded_run (site : Site) (config : Config) (signer : Signer)
    (hc : site.service.config = config) (hs : site.service.signer = signer)
    (h : site.service.ledger.Recorded config signer) (ops : List (Instant × Operation)) :
    (site.run ops).service.ledger.Recorded config signer := by
  induction ops generalizing site with
  | nil => exact h
  | cons first rest ih =>
    obtain ⟨now, operation⟩ := first
    obtain ⟨hc', hs', -⟩ := site.perform_config now operation
    refine ih _ (hc'.trans hc) (hs'.trans hs) ?_
    rcases site.perform_cases now operation with ⟨event, e, -, he, hl, -⟩ | ⟨-, hl, -⟩
    · rw [hl, he, hc, hs]
      exact h.push now _ event
    · rw [hl]
      exact h

theorem entries_prefix_run (site : Site) (ops : List (Instant × Operation)) :
    site.service.ledger.entries <+: (site.run ops).service.ledger.entries := by
  induction ops generalizing site with
  | nil => exact List.prefix_refl _
  | cons first rest ih =>
    obtain ⟨now, operation⟩ := first
    have hstep : site.service.ledger.entries <+:
        (site.perform now operation).2.service.ledger.entries := by
      rcases site.perform_cases now operation with ⟨event, e, -, -, hl, -⟩ | ⟨-, hl, -⟩
      · rw [hl]
        exact List.prefix_append _ _
      · simp only [hl, List.prefix_rfl]
    exact hstep.trans (ih _)

/-! ## Runs of a service that has started -/

section Started
variable {config : Config} {signer : Signer} {around around' : Surroundings} {service : Service}

theorem signer_of_start (started : Service.start config signer around = .ok (service, around'))
    (ops : List (Instant × Operation)) :
    ((Site.mk service around').run ops).service.signer = signer := by
  obtain ⟨exportPlace, files, -, hservice, -⟩ := Service.start_eq started
  rw [(run_config (Site.mk service around') ops).2.1, hservice]

theorem isChain_of_start (started : Service.start config signer around = .ok (service, around'))
    (ops : List (Instant × Operation)) :
    ((Site.mk service around').run ops).service.ledger.IsChain (recordTimes ops) := by
  obtain ⟨exportPlace, files, -, hservice, -⟩ := Service.start_eq started
  have hempty : (Site.mk service around').service.ledger.IsChain [] := by
    rw [hservice]
    exact Ledger.IsChain.empty
  exact isChain_run _ [] hempty ops

theorem recorded_of_start (started : Service.start config signer around = .ok (service, around'))
    (ops : List (Instant × Operation)) :
    ((Site.mk service around').run ops).service.ledger.Recorded config signer := by
  obtain ⟨exportPlace, files, -, hservice, -⟩ := Service.start_eq started
  apply recorded_run
  · rw [hservice]
  · rw [hservice]
  · rw [hservice]
    exact Ledger.Recorded.empty config signer

end Started

/-- **The ledger of a run.** Whatever is asked of a service that has started, at whatever readings of
the clock, its ledger is the chain of what has been recorded, and the ledger at any earlier point of
the run is the front of it. -/
theorem run_from_start_isChain (config : Config) (signer : Signer) (around around' : Surroundings)
    (service : Service) (started : Service.start config signer around = .ok (service, around'))
    (ops : List (Instant × Operation)) :
    ((Site.mk service around').run ops).service.ledger.IsChain (recordTimes ops) ∧
    ∀ n, ((Site.mk service around').run (ops.take n)).service.ledger.entries <+:
      ((Site.mk service around').run ops).service.ledger.entries := by
  refine ⟨isChain_of_start started ops, ?_⟩
  intro n
  have hsplit := run_append (Site.mk service around') (ops.take n) (ops.drop n)
  rw [List.take_append_drop] at hsplit
  rw [hsplit]
  exact entries_prefix_run _ _

/-- Two recordings, the second at an earlier reading, with a failing report and a verification
between them. -/
theorem run_from_start_isChain_clock_back :
    let ops : List (Instant × Operation) :=
      [(.startOf ⟨2024, 3, 1, by decide⟩, .record (.takedown "TD-1" "cid" "a@x.example" "Work")),
       (.startOf ⟨2024, 3, 2, by decide⟩, .report .unset .unset "none"),
       (.startOf ⟨2024, 3, 2, by decide⟩, .verify),
       (.startOf ⟨2024, 2, 1, by decide⟩, .record (.reinstatement "cid" "user-1" "reason"))]
    Service.start .standard (.keyless .secp256k1) .bare = .ok (.bare, .bare) ∧
    ((Site.mk .bare .bare).run ops).service.ledger.IsChain (recordTimes ops) ∧
    ∀ n, ((Site.mk .bare .bare).run (ops.take n)).service.ledger.entries <+:
      ((Site.mk .bare .bare).run ops).service.ledger.entries := by
  intro ops
  have hstart : Service.start .standard (.keyless .secp256k1) .bare = .ok (.bare, .bare) := rfl
  exact ⟨hstart, run_from_start_isChain _ _ _ _ _ hstart ops⟩

end Site

end AuditTrail
