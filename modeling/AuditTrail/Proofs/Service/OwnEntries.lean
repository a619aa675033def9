import AuditTrail.Proofs.Http.Posting
import AuditTrail.Proofs.Report.Issues
import AuditTrail.Proofs.Score.Completeness
import AuditTrail.Proofs.Score.Double
/-! # The service's own entries are complete

An entry that the service records is sealed, has an id, and names a legal basis; it is stamped no
earlier than the clock reads. So an event with a type and an action becomes a complete entry whenever
the clock has a time to show (`Ledger.isSound_entryOf`), whoever signs. Of a run of such recordings every
window scores one, and no report finds an event without a legal basis (`Site.own_entries_complete`). -/

namespace AuditTrail
set_option autoImplicit false

open scoped CoreInstances

/-! ## One recording -/

theorem legalBasisOf_ne_empty (eventType : String) : legalBasisOf eventType ≠ "" := by
  unfold legalBasisOf
  split
  · decide
  · split <;> decide

theorem IdSupply.next_ne_empty (ids : IdSupply) (kind : NameKind) : ids.next kind ≠ "" := by
  intro hempty
  have hlead := congrArg String.toList hempty
  rw [next, String.toList_append] at hlead
  cases kind <;> cases hlead

theorem Ledger.le_stamp (ledger : Ledger) (now : Instant) : now ≤ ledger.stamp now := by
  unfold stamp
  split
  · exact Instant.le_later_left now _
  · exact Instant.le_refl now

/-- All that is asked of an entry, and a legal basis even where none is asked for. -/
structure Entry.IsSound (requireProof : Bool) (e : Entry) : Prop where
  meets : e.Meets requireProof
  hasLegalBasis : e.hasLegalBasis = true

theorem Ledger.isSound_entryOf (ledger : Ledger) (config : Config) (signer : Signer) {now : Instant}
    (hnow : Instant.unset < now) (ids : IdSupply) {event : Event}
    (hevent : event.eventType ≠ "" ∧ event.action ≠ "") (requireProof : Bool) :
    (ledger.entryOf config signer now (ids.next .entry) event).IsSound requireProof := by
  have hbasis : (ledger.entryOf config signer now (ids.next .entry) event).hasLegalBasis = true :=
    bne_iff_ne.mpr (legalBasisOf_ne_empty event.eventType)
  refine ⟨⟨fun _ => Entry.isProven_seal signer _ _, ?_, fun _ => hbasis⟩, hbasis⟩
  exact ⟨ids.next_ne_empty .entry, Instant.lt_of_lt_of_le hnow (ledger.le_stamp now), hevent.1,
    hevent.2⟩

/-! ## Runs of recordings -/

namespace Site

/-- What holds of the entries so far, and of every entry that a recording of the run may make, holds of
all entries that the run leaves behind. -/
theorem forall_mem_entries_run {P : Entry → Prop} (site : Site) (config : Config) (signer : Signer)
    (hconfig : site.service.config = config) (hsigner : site.service.signer = signer)
    (hsofar : ∀ e ∈ site.service.ledger.entries, P e) (ops : List (Instant × Operation))
    (hstep : ∀ now event, (now, Operation.record event) ∈ ops → ∀ (ledger : Ledger) (ids : IdSupply),
      P (ledger.entryOf config signer now (ids.next .entry) event)) :
    ∀ e ∈ (site.run ops).service.ledger.entries, P e := by
  induction ops generalizing site with
  | nil => exact hsofar
  | cons first rest ih =>
    obtain ⟨now, operation⟩ := first
    obtain ⟨hconfig', hsigner', -⟩ := site.perform_config now operation
    refine ih _ (hconfig'.trans hconfig) (hsigner'.trans hsigner) ?_
      (fun t event hmem => hstep t event (List.mem_cons_of_mem _ hmem))
    -- Only a recording adds an entry; the configuration and the signer are those of the start.
    rcases site.perform_cases now operation with
      ⟨event, made, hop, hmade, hledger, -⟩ | ⟨-, hledger, -⟩
    · rw [hledger]
      intro e he
      rcases List.mem_append.mp he with hold | hnew
      · exact hsofar e hold
      · rw [List.mem_singleton.mp hnew, hmade, hconfig, hsigner]
        exact hstep now event (hop ▸ List.mem_cons_self) _ _
    · rw [hledger]
      exact hsofar

end Site

theorem mem_recordTimes {ops : List (Instant × Operation)} {now : Instant} {event : Event}
    (h : (now, Operation.record event) ∈ ops) : now ∈ recordTimes ops := by
  induction ops with
  | nil => cases h
  | cons first rest ih =>
    obtain ⟨t, operation⟩ := first
    rcases List.mem_cons.mp h with heq | hrest
    · cases heq
      exact List.mem_cons_self
    · have hmem := ih hrest
      cases operation with
      | record => exact List.mem_cons_of_mem t hmem
      | report => exact hmem
      | verify => exact hmem
      | resolve => exact hmem
      | metrics => exact hmem

/-! ## What is found about complete entries -/

/-- Where every entry is complete, the share is one and nothing is taken off. -/
theorem Scorer.scoreCompleteness_eq_one (scorer : Scorer Float) {total : Nat}
    (hfits : total < 2 ^ (1023 : Nat)) : scorer.scoreCompleteness ⟨total, total, 0, 0⟩ = 1 := by
  unfold scoreCompleteness
  split
  · rfl
  · rename_i hpos
    rw [Double.quotient_self (Nat.pos_of_ne_zero hpos) hfits, penalty, if_pos rfl, penalty,
      if_pos rfl]
    decide +kernel

/-- **The service's own entries are complete.** Let a service have started with any signer, and let
every recording of a run be of an event with a type and an action, at a reading of the clock after the
moment that stands for none. Then in every window all entries are complete, none is unproven and no
field is missing; the completeness score is one, as long as their number is within the doubles; and no
report on them finds an event without a legal basis. A row of requests that all post events comes to
such a run if the clock has such readings. -/
theorem Site.own_entries_complete (config : Config) (signer : Signer)
    (around around' : Surroundings) (service : Service)
    (started : Service.start config signer around = .ok (service, around')) :
    (∀ ops : List (Instant × Operation), AreNamed ops →
      (∀ now ∈ recordTimes ops, Instant.unset < now) → ∀ start finish : Instant,
        let entries := ((Site.mk service around').run ops).service.ledger.snapshot start finish
        let tally := CompletenessTally.of config.requireProof entries
        tally.complete = tally.total ∧ tally.unproven = 0 ∧ tally.missing = 0 ∧
        (entries.length < 2 ^ (1023 : Nat) → (Scorer.of config).completenessScore entries = 1) ∧
        ∀ e : Entry, e.basisIssue ∉ (TakedownAnalysis.of config.scoring entries).issues) ∧
    ∀ requests : List (Instant × Http.Request), (∀ posted ∈ requests, posted.2.IsPosting) →
      ∃ ops, Http.answerAll ⟨service, around'⟩ requests = (Site.mk service around').run ops ∧
        AreNamed ops ∧ recordTimes ops ⊆ requests.map Prod.fst := by
  refine ⟨?_, Http.answerAll_posting _⟩
  intro ops hnamed hclock start finish entries tally
  obtain ⟨exportPlace, files, -, hservice, -⟩ := Service.start_eq started
  have hsound : ∀ e ∈ ((Site.mk service around').run ops).service.ledger.entries,
      e.IsSound config.requireProof := by
    refine forall_mem_entries_run _ config signer (by rw [hservice]) (by rw [hservice]) ?_ ops ?_
    · rw [hservice]
      intro e he
      cases he
    · intro now event hmem ledger ids
      exact ledger.isSound_entryOf config signer (hclock now (mem_recordTimes hmem)) ids
        (hnamed now event hmem) config.requireProof
  have hwithin : ∀ e ∈ entries, e.IsSound config.requireProof :=
    fun e he => hsound e (List.mem_of_mem_filter he)
  have htally : tally = ⟨entries.length, entries.length, 0, 0⟩ :=
    CompletenessTally.of_meets fun e he => (hwithin e he).meets
  rw [htally]
  refine ⟨rfl, rfl, rfl, ?_, basisIssue_not_mem fun e he => (hwithin e he).hasLegalBasis⟩
  intro hfits
  show (Scorer.of config).scoreCompleteness tally = 1
  rw [htally]
  exact (Scorer.of config).scoreCompleteness_eq_one hfits

/-- A takedown, which needs a legal basis, and an event whose type speaks of the law, recorded without
a key; and the same event posted. -/
theorem Site.own_entries_complete_keyless :
    let signer : Signer := .keyless .secp256k1
    let now : Instant := .startOf ⟨2024, 3, 1, by decide⟩
    let later : Instant := .startOf ⟨2024, 3, 2, by decide⟩
    let takedown : Event := .takedown "TD-1" "cid" "a@x.example" "Work"
    let notice : Event := .plain "legal_notice" "" "cid" " x" .none
    let ops : List (Instant × Operation) :=
      [(now, .record takedown), (later, .verify), (now, .record notice)]
    let entries := ((Site.mk .bare .bare).run ops).service.ledger.snapshot now later
    let tally := CompletenessTally.of Config.standard.requireProof entries
    let posted : Http.Request := ⟨"POST", "/events", some "application/json",
      "\x7b\"event_type\":\"legal_notice\",\"target_id\":\"cid\",\"action\":\" x\"\x7d".toUTF8⟩
    Service.start .standard signer .bare = .ok (.bare, .bare) ∧
    AreNamed ops ∧ (∀ t ∈ recordTimes ops, Instant.unset < t) ∧
    Config.standard.requireProof = true ∧ entries.length = 2 ∧
    tally.complete = tally.total ∧ tally.unproven = 0 ∧ tally.missing = 0 ∧
    (Scorer.of Config.standard).completenessScore entries = 1 ∧
    (∀ e : Entry, e.basisIssue ∉ (TakedownAnalysis.of Config.standard.scoring entries).issues) ∧
    posted.IsPosting ∧
    ∃ others, Http.answerAll ⟨.bare, .bare⟩ [(now, posted)] = (Site.mk .bare .bare).run others ∧
      AreNamed others ∧ recordTimes others ⊆ [now] := by
  intro signer now later takedown notice ops entries tally posted
  have started : Service.start .standard signer .bare = .ok (.bare, .bare) := rfl
  have hnamed : AreNamed ops := by
    intro t event hmem
    have hcases : event = takedown ∨ event = notice := by
      simp only [ops, List.mem_cons, Prod.mk.injEq, Operation.record.injEq, reduceCtorEq, and_false,
        List.not_mem_nil, or_false, false_or] at hmem
      exact hmem.imp And.right And.right
    rcases hcases with rfl | rfl
    · exact ⟨by decide, by decide⟩
    · exact ⟨by decide, by decide⟩
  have hclock : ∀ t ∈ recordTimes ops, Instant.unset < t := by
    intro t ht
    have hsame : t = now := by
      simpa [ops, recordTimes] using ht
    rw [hsame]
    decide
  have hlength : entries.length = 2 := by decide +kernel
  have hposting : posted.IsPosting := ⟨rfl, by decide +kernel⟩
  obtain ⟨hruns, hposted⟩ := own_entries_complete .standard signer .bare .bare .bare started
  obtain ⟨hcomplete, hunproven, hmissing, hscore, hissues⟩ := hruns ops hnamed hclock now later
  have hfits : ∀ k : Nat, 1 < k → entries.length < 2 ^ k := by
    intro k hk
    rw [hlength]
    exact Nat.pow_lt_pow_right (by decide : 1 < 2) hk
  refine ⟨started, hnamed, hclock, rfl, hlength, hcomplete, hunproven, hmissing, ?_, hissues,
    hposting, ?_⟩
  · exact hscore (hfits 1023 (by decide))
  · exact hposted [(now, posted)] fun request hmem => List.mem_singleton.mp hmem ▸ hposting

end AuditTrail
