import AuditTrail.Proofs.Service.Export
/-! # Failures of the export

Nothing that is asked of the service reads the files that entries are copied to. So two sites that
differ in these files alone, and in the settings about them, give the same answers for ever
(`Site.AlikeButExport.run`). In particular a run is, but for the files, the run of a service that
copies nothing, whichever writes fail (`Site.run_withoutExport`). -/

namespace AuditTrail
set_option autoImplicit false

/-! ## What does not read the setting -/

def Config.withoutExport (config : Config) : Config := { config with exportPath := none }

theorem Config.check_withoutExport (config : Config) : config.withoutExport.check = config.check :=
  rfl

theorem Ledger.entryOf_withoutExport (ledger : Ledger) (config : Config) :
    ledger.entryOf config.withoutExport = ledger.entryOf config := rfl

theorem Report.generate_withoutExport (config : Config) :
    generate config.withoutExport = generate config := rfl

section Congr
variable {config other : Config} (h : config.withoutExport = other.withoutExport)
include h

theorem Ledger.entryOf_congr (ledger : Ledger) : ledger.entryOf config = ledger.entryOf other := by
  rw [← entryOf_withoutExport, h, entryOf_withoutExport]

theorem Report.generate_congr : generate config = generate other := by
  rw [← generate_withoutExport, h, generate_withoutExport]

end Congr

/-- The service that copies nothing and else is the same. -/
def Service.withoutExport (service : Service) : Service :=
  { service with config := service.config.withoutExport, exportPlace := none }

theorem Service.start_withoutExport {config : Config} {signer : Signer}
    {around around' : Surroundings} {service : Service}
    (started : Service.start config signer around = .ok (service, around')) :
    Service.start config.withoutExport signer around = .ok (service.withoutExport, around) := by
  obtain ⟨exportPlace, files, -, rfl, -⟩ := Service.start_eq started
  unfold Service.start at started ⊢
  rw [config.check_withoutExport]
  split at started
  · cases started
  · rfl

namespace Site

theorem answers_cons (site : Site) (now : Instant) (operation : Operation)
    (rest : List (Instant × Operation)) :
    site.answers ((now, operation) :: rest) =
      (site.perform now operation).1 :: (site.perform now operation).2.answers rest := rfl

/-! ## Two sites -/

/-- Two sites that differ at most in where entries are copied to and in the files. -/
structure AlikeButExport (a b : Site) : Prop where
  config : a.service.config.withoutExport = b.service.config.withoutExport
  signer : a.service.signer = b.service.signer
  ledger : a.service.ledger = b.service.ledger
  monitor : a.service.monitor = b.service.monitor
  ids : a.around.ids = b.around.ids

namespace AlikeButExport
variable {a b : Site}

/-- **Step.** An operation gives the same answer at both sites and leaves them alike. -/
theorem perform (h : AlikeButExport a b) (now : Instant) (operation : Operation) :
    (a.perform now operation).1 = (b.perform now operation).1 ∧
      AlikeButExport (a.perform now operation).2 (b.perform now operation).2 := by
  obtain ⟨⟨config, signer, ledger, monitor, place⟩, ⟨ids, files⟩⟩ := a
  obtain ⟨⟨other, _, _, _, place'⟩, ⟨_, files'⟩⟩ := b
  obtain ⟨hconfig, rfl, rfl, rfl, rfl⟩ := h
  cases operation with
  | record event =>
    simp only [Site.perform, Service.record, Ledger.entryOf_congr hconfig, true_and]
    exact ⟨hconfig, rfl, rfl, rfl, rfl⟩
  | report start finish kindText =>
    simp only [Site.perform, Service.report, Service.verify, Report.generate_congr hconfig]
    cases ReportKind.read kindText with
    | error e => exact ⟨rfl, hconfig, rfl, rfl, rfl, rfl⟩
    | ok kind =>
      simp only
      cases Report.generate other ids now kind start finish (ledger.snapshot start finish)
        (if kind.hasIntegrity then some (Verification.of (some signer) now ledger.entries) else none)
        monitor.activeAlerts with
      | error e => exact ⟨rfl, hconfig, rfl, rfl, rfl, rfl⟩
      | ok made => exact ⟨rfl, hconfig, rfl, rfl, rfl, rfl⟩
  | verify => exact ⟨rfl, hconfig, rfl, rfl, rfl, rfl⟩
  | resolve id text =>
    simp only [Site.perform, Service.resolve]
    cases monitor.resolve now id text with
    | error e => exact ⟨rfl, hconfig, rfl, rfl, rfl, rfl⟩
    | ok made => exact ⟨rfl, hconfig, rfl, rfl, rfl, rfl⟩
  | metrics => exact ⟨rfl, hconfig, rfl, rfl, rfl, rfl⟩

theorem run (h : AlikeButExport a b) (ops : List (Instant × Operation)) :
    a.answers ops = b.answers ops ∧ AlikeButExport (a.run ops) (b.run ops) := by
  induction ops generalizing a b with
  | nil => exact ⟨rfl, h⟩
  | cons first rest ih =>
    obtain ⟨now, operation⟩ := first
    obtain ⟨hanswer, hstep⟩ := h.perform now operation
    obtain ⟨hanswers, hrun⟩ := ih hstep
    refine ⟨?_, hrun⟩
    rw [answers_cons, answers_cons, hanswer, hanswers]

end AlikeButExport

/-- **Failures of the export change nothing else.** A service that has started could also have started
without an export. Whatever becomes of the files, and whichever writes fail, both give the same
answers in every run, and have the same ledger, alerts and metrics behind it. -/
theorem run_withoutExport (config : Config) (signer : Signer) (around around' : Surroundings)
    (service : Service) (started : Service.start config signer around = .ok (service, around')) :
    Service.start config.withoutExport signer around = .ok (service.withoutExport, around) ∧
    ∀ (files : FileStore) (ops : List (Instant × Operation)),
      let copying := Site.mk service { around' with files }
      let plain := Site.mk service.withoutExport around
      copying.answers ops = plain.answers ops ∧
      (copying.run ops).service.ledger = (plain.run ops).service.ledger ∧
      (copying.run ops).service.monitor = (plain.run ops).service.monitor ∧
      ∀ now, (copying.run ops).service.metrics now = (plain.run ops).service.metrics now := by
  refine ⟨Service.start_withoutExport started, ?_⟩
  intro files ops copying plain
  have halike : AlikeButExport copying plain := by
    obtain ⟨exportPlace, opened, -, -, haround⟩ := Service.start_eq started
    simp only [copying, haround]
    exact ⟨rfl, rfl, rfl, rfl, rfl⟩
  obtain ⟨hanswers, hrun⟩ := halike.run ops
  refine ⟨hanswers, hrun.ledger, hrun.monitor, ?_⟩
  intro now
  rw [Service.metrics, Service.metrics, hrun.monitor]

/-- Two critical events and a resolution, where the first write of the copy fails after three
bytes. -/
theorem run_withoutExport_failing :
    let signer : Signer := .keyless .secp256k1
    let now : Instant := .startOf ⟨2024, 3, 1, by decide⟩
    let files := { Surroundings.copying.files with
      failures := fun k => if k = 0 then some 3 else none }
    let ops : List (Instant × Operation) :=
      [(now, .record (.plain "system_error" "" "cid" "act" .none)),
       (now, .record (.plain "system_error" "" "cid" "act" .none)),
       (now, .resolve "CA-0000000000004000" "seen")]
    let copying := Site.mk (.copying signer) ⟨Surroundings.copying.ids, files⟩
    let plain := Site.mk (Service.copying signer).withoutExport .bare
    Service.start .copying signer .bare = .ok (.copying signer, .copying) ∧
    Service.start Config.copying.withoutExport signer .bare = .ok (plain.service, .bare) ∧
    files.failures files.writes = some 3 ∧
    copying.answers ops = plain.answers ops ∧
    (copying.run ops).service.ledger = (plain.run ops).service.ledger ∧
    (copying.run ops).service.metrics now = (plain.run ops).service.metrics now := by
  intro signer now files ops copying plain
  have started := Service.start_copying signer
  obtain ⟨hplain, hruns⟩ :=
    run_withoutExport .copying signer .bare .copying (.copying signer) started
  obtain ⟨hanswers, hledger, -, hmetrics⟩ := hruns files ops
  have hnow := hmetrics now
  rw [show copying = Site.mk (.copying signer) ⟨Surroundings.copying.ids, files⟩ from rfl,
    show plain = Site.mk (Service.copying signer).withoutExport .bare from rfl]
  exact ⟨started, hplain, rfl, hanswers, hledger, hnow⟩

end Site

end AuditTrail
