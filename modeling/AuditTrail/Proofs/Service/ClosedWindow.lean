import AuditTrail.Proofs.Ledger.Window
import AuditTrail.Proofs.Service.Run
/-! # Reports on closed windows

What a report finds about its window hangs on the configuration and on the snapshot alone
(`Report.make_sameFindings`). The configuration never changes and neither does the snapshot of a
window that is closed, so the report on such a window finds the same at any later time
(`Site.report_of_closed_window`). -/

namespace AuditTrail
set_option autoImplicit false

/-- Two reports find the same about the entries of their windows. They may differ in name and time,
in the integrity of the whole ledger, and in the alerts that are active. -/
structure Report.SameFindings (r r' : Report) : Prop where
  statistics : r.statistics = r'.statistics
  takedowns : r.takedowns = r'.takedowns
  assessment : r.assessment = r'.assessment
  advice : r.advice = r'.advice
  legalSummary : r.legalSummary = r'.legalSummary

theorem Report.make_sameFindings (config : Config) (id id' : String) (now now' : Instant)
    (kind : ReportKind) (start finish : Instant) (entries : List Entry)
    (integrity integrity' : Option Verification) (active active' : List Alert) :
    (make config id now kind start finish entries integrity active).SameFindings
      (make config id' now' kind start finish entries integrity' active') :=
  ⟨rfl, rfl, rfl, rfl, rfl⟩

namespace Site

/-- The answer to the demand for a report of a kind that there is, on a window that starts before it
ends. -/
theorem perform_report {start finish : Instant} (hwindow : start < finish) {kindText : String}
    {kind : ReportKind} (hkind : ReportKind.read kindText = .ok kind) (site : Site)
    (now : Instant) :
    (site.perform now (.report start finish kindText)).1 =
      .report (Report.make site.service.config (site.around.ids.next .report) now kind start finish
        (site.service.ledger.snapshot start finish)
        (if kind.hasIntegrity then some (site.service.verify now) else none)
        site.service.monitor.activeAlerts) := by
  simp only [perform, Service.report, Report.generate, hkind, if_pos hwindow]

section Started
variable {config : Config} {signer : Signer} {around around' : Surroundings} {service : Service}

theorem snapshot_of_closed_window
    (started : Service.start config signer around = .ok (service, around'))
    (earlier later : List (Instant × Operation)) {last : Entry}
    (hlast : ((Site.mk service around').run earlier).service.ledger.entries.getLast? = some last)
    {finish : Instant} (closed : finish ≤ last.time) (start : Instant) :
    (((Site.mk service around').run earlier).run later).service.ledger.snapshot start finish =
      ((Site.mk service around').run earlier).service.ledger.snapshot start finish := by
  have hchain := isChain_of_start started (earlier ++ later)
  rw [run_append] at hchain
  exact hchain.snapshot_eq_of_prefix (entries_prefix_run _ later) hlast closed start

end Started

/-- **Reports on closed windows.** In a run of a service that has started, let the last entry be
stamped at or after the end of a window. Then a report of any kind on that window finds the same
before and after any further operations, whatever the readings of the clock. -/
theorem report_of_closed_window (config : Config) (signer : Signer) (around around' : Surroundings)
    (service : Service) (started : Service.start config signer around = .ok (service, around'))
    (earlier later : List (Instant × Operation)) (last : Entry)
    (hlast : ((Site.mk service around').run earlier).service.ledger.entries.getLast? = some last)
    (start finish : Instant) (hwindow : start < finish) (closed : finish ≤ last.time)
    (kindText : String) (kind : ReportKind) (hkind : ReportKind.read kindText = .ok kind)
    (now now' : Instant) :
    let before := (Site.mk service around').run earlier
    let after := before.run later
    ∃ r r', (before.perform now (.report start finish kindText)).1 = .report r ∧
      (after.perform now' (.report start finish kindText)).1 = .report r' ∧ r.SameFindings r' := by
  intro before after
  have hconfig : after.service.config = before.service.config := (run_config before later).1
  have hsnapshot : after.service.ledger.snapshot start finish =
      before.service.ledger.snapshot start finish :=
    snapshot_of_closed_window started earlier later hlast closed start
  have hafter := perform_report hwindow hkind after now'
  rw [hconfig, hsnapshot] at hafter
  exact ⟨_, _, perform_report hwindow hkind before now, hafter, Report.make_sameFindings ..⟩

/-- A takedown of the second day closes the first day. An objection is recorded when the clock has
gone back to that day, and both reports on it are made. -/
theorem report_of_closed_window_clock_back :
    let first : Instant := .startOf ⟨2024, 3, 1, by decide⟩
    let second : Instant := .startOf ⟨2024, 3, 2, by decide⟩
    let earlier : List (Instant × Operation) :=
      [(first, .record (.takedown "TD-1" "cid" "a@x.example" "Work")),
       (second, .record (.takedown "TD-2" "cid" "a@x.example" "Work"))]
    let later : List (Instant × Operation) :=
      [(first, .record (.counterNotice "CN-1" "cid" "user-1" second)), (first, .verify)]
    let before := (Site.mk .bare .bare).run earlier
    let after := before.run later
    Service.start .standard (.keyless .secp256k1) .bare = .ok (.bare, .bare) ∧
    before.service.ledger.entries.getLast?.map Entry.time = some second ∧
    first < second ∧ ReportKind.read " DMCA" = .ok .dmca ∧
    ∃ r r', (before.perform second (.report first second " DMCA")).1 = .report r ∧
      (after.perform first (.report first second " DMCA")).1 = .report r' ∧ r.SameFindings r' := by
  intro first second earlier later before after
  have started : Service.start .standard (.keyless .secp256k1) .bare = .ok (.bare, .bare) := rfl
  have hwindow : first < second := by decide
  have hkind : ReportKind.read " DMCA" = .ok .dmca := by rfl
  have hstamp : before.service.ledger.entries.getLast?.map Entry.time = some second := by
    decide +kernel
  obtain ⟨last, hlast, htime⟩ := Option.map_eq_some_iff.mp hstamp
  have closed : second ≤ last.time := htime ▸ Instant.le_refl last.time
  rw [show before = (Site.mk .bare .bare).run earlier from rfl] at hlast
  refine ⟨started, hstamp, hwindow, hkind, ?_⟩
  exact report_of_closed_window .standard (.keyless .secp256k1) .bare .bare .bare started earlier
    later last hlast first second hwindow closed " DMCA" .dmca hkind second first

end Site

end AuditTrail
