import AuditTrail.Proofs.Ledger.Window
import AuditTrail.Proofs.Report.Parts
import AuditTrail.Proofs.Service.Run
/-! # Reports on adjoining windows

The ledger of a run is in order of time, whatever the clock has read. So two adjoining windows share no
entry and miss none, and what a report counts over both is the sum of what it counts over each
(`Site.windows_adjoin`). -/

namespace AuditTrail.Site
set_option autoImplicit false

/-- **Adjoining windows.** In a run of a service that has started, let a moment divide a window. The
snapshot of the window is one piece of the ledger, made of the snapshots of its two parts, and its
counts are the sums of theirs. Of any entries each table counts every one of them once. -/
theorem windows_adjoin (config : Config) (signer : Signer) (around around' : Surroundings)
    (service : Service) (started : Service.start config signer around = .ok (service, around'))
    (ops : List (Instant × Operation)) (a b c : Instant) (hab : a ≤ b) (hbc : b ≤ c) :
    let ledger := ((Site.mk service around').run ops).service.ledger
    let whole := ledger.snapshot a c
    let first := ledger.snapshot a b
    let second := ledger.snapshot b c
    whole = first ++ second ∧ whole <:+: ledger.entries ∧
    (Statistics.of whole).IsSumOf (Statistics.of first) (Statistics.of second) ∧
    (TakedownAnalysis.of config.scoring whole).IsSumOf (TakedownAnalysis.of config.scoring first)
      (TakedownAnalysis.of config.scoring second) ∧
    ∀ entries, (Statistics.of entries).CountsEach := by
  intro ledger whole first second
  have hordered : Ledger.IsOrdered ledger.entries := (isChain_of_start started ops).isOrdered
  have hsplit : whole = first ++ second := hordered.window_append_window hab hbc
  rw [hsplit]
  refine ⟨rfl, ?_, Statistics.isSumOf_append first second,
    TakedownAnalysis.isSumOf_append config.scoring first second, Statistics.countsEach⟩
  rw [← hsplit]
  exact hordered.window_isInfix

/-- Two takedowns of the first day, one of the second, and one recorded when the clock has gone back to
the first: it is stamped on the second day like the one before, which starts the second part. -/
theorem windows_adjoin_clock_back :
    let first : Instant := .startOf ⟨2024, 3, 1, by decide⟩
    let second : Instant := .startOf ⟨2024, 3, 2, by decide⟩
    let third : Instant := .startOf ⟨2024, 3, 3, by decide⟩
    let takedown : Operation := .record (.takedown "TD-1" "cid" "a@x.example" "Work")
    let ops := [(first, takedown), (first, takedown), (second, takedown), (first, takedown)]
    let ledger := ((Site.mk .bare .bare).run ops).service.ledger
    Service.start .standard (.keyless .secp256k1) .bare = .ok (.bare, .bare) ∧
    first ≤ second ∧ second ≤ third ∧
    (ledger.snapshot first second).length = 2 ∧ (ledger.snapshot second third).length = 2 ∧
    (Statistics.of (ledger.snapshot first third)).total = 4 ∧
    (TakedownAnalysis.of Config.standard.scoring (ledger.snapshot first third)).takedowns = 4 := by
  intro first second third takedown ops ledger
  have started : Service.start .standard (.keyless .secp256k1) .bare = .ok (.bare, .bare) := rfl
  have hab : first ≤ second := by decide
  have hbc : second ≤ third := by decide
  have hfirst : (ledger.snapshot first second).length = 2 := by decide +kernel
  have hsecond : (ledger.snapshot second third).length = 2 := by decide +kernel
  obtain ⟨-, -, hcounts, htotals, -⟩ := windows_adjoin .standard (.keyless .secp256k1) .bare .bare
    .bare started ops first second third hab hbc
  have htotal := hcounts.total
  have htakedowns := htotals.takedowns
  refine ⟨started, hab, hbc, hfirst, hsecond, ?_, ?_⟩
  · rw [htotal]
    decide +kernel
  · rw [htakedowns]
    decide +kernel

end AuditTrail.Site
