import AuditTrail.Proofs.Report.Counts
import AuditTrail.Proofs.Service.Alerts
/-! # Alerts and tallies judge alike

The monitor judges each entry as it comes, the tallies judge a list of entries. `Entry.Raises` says
what the alerts have to do with the entry that has raised them: it raises one about its processing time
exactly when that is above the threshold, and one about its severity exactly when that is critical,
whether or not its day is over. So the alerts of a run are as many as the tallies over the ledger say
(`Site.alerts_match_tallies`). -/

namespace AuditTrail
set_option autoImplicit false

/-! ## Tallies -/

theorem Entry.isSlowerThan_eq (millis : Nat) (e : Entry) :
    e.isSlowerThan millis = e.processingMs.any fun ms => decide (millis < ms.toNat) := by
  rw [isSlowerThan, processingTime?]
  cases e.processingMs with
  | none => rfl
  | some ms =>
    by_cases hpos : 0 < ms
    · simp [Option.filter, hpos]
    · have hzero : ms.toNat = 0 := by simpa [UInt64.lt_iff_toNat_lt] using hpos
      simp [Option.filter, hpos, hzero]

namespace DelayTally

theorem countP_times (p : UInt64 → Bool) (entries : List Entry) :
    (entries.filterMap Entry.processingTime?).countP p =
      entries.countP fun e => e.processingTime?.any p := by
  rw [List.countP_filterMap]
  congr 1
  funext e
  cases e.processingTime? <;> rfl

/-- Entries that were timed were timely, or slower than the threshold. -/
theorem timed_eq (threshold : UInt64) (entries : List Entry) :
    (DelayTally.of threshold entries).timed = (DelayTally.of threshold entries).timely +
      entries.countP (Entry.isSlowerThan threshold.toNat) := by
  have hslow := countP_times (fun ms => decide (threshold.toNat < ms.toNat)) entries
  change _ = entries.countP (Entry.isSlowerThan threshold.toNat) at hslow
  rw [← hslow]
  have hsplit := (entries.filterMap Entry.processingTime?).length_eq_countP_add_countP
    fun ms => decide (ms ≤ threshold)
  simpa [UInt64.le_iff_toNat_le, DelayTally.of] using hsplit

/-- No processing time is above the largest word, so it does not matter that doubling stops there. -/
theorem severe_eq (threshold : UInt64) (entries : List Entry) :
    (DelayTally.of threshold entries).severe =
      entries.countP (Entry.isSlowerThan (2 * threshold.toNat)) := by
  have hsame : ∀ ms : UInt64, doubled threshold < ms.toNat ↔ 2 * threshold.toNat < ms.toNat := by
    intro ms
    have hword := ms.toNat_lt
    rw [doubled]
    omega
  simp only [DelayTally.of, hsame]
  exact countP_times _ entries

theorem severe_add_timely_le (threshold : UInt64) (entries : List Entry) :
    (DelayTally.of threshold entries).severe + (DelayTally.of threshold entries).timely ≤
      (DelayTally.of threshold entries).timed := by
  have hle : entries.countP (Entry.isSlowerThan (2 * threshold.toNat)) ≤
      entries.countP (Entry.isSlowerThan threshold.toNat) := by
    apply List.countP_mono_left
    intro e _ hslow
    simp only [Entry.isSlowerThan_eq, Option.any_eq_true, decide_eq_true_eq] at hslow ⊢
    obtain ⟨ms, hms, hlt⟩ := hslow
    exact ⟨ms, hms, by omega⟩
  rw [timed_eq, severe_eq]
  omega

end DelayTally

theorem Statistics.count_critical (entries : List Entry) :
    Counts.count (Statistics.of entries).bySeverity "critical" =
      (SeverityTally.of entries).critical := by
  rw [Statistics.of, Counts.count_of, List.count, List.countP_map, SeverityTally.of]
  congr 1
  funext e
  rw [Function.comp_apply]
  cases e.severity <;> rfl

/-! ## What an entry raises -/

/-- The alerts that an entry has raised, as far as its time and its severity go. -/
structure Entry.Raises (threshold : UInt64) (e : Entry) (raised : List Alert) : Prop where
  named : ∀ a ∈ raised, a.entryId = e.id
  delays : raised.countP (fun a => a.cause.isDelay) = if e.isSlowerThan threshold.toNat then 1 else 0
  criticals : raised.countP (fun a => a.cause.isCritical) = if e.severity = .critical then 1 else 0

namespace AlertCause

theorem isDelay_of_rule? {cause : AlertCause} (h : cause.rule?.isSome = true) :
    cause.isDelay = false ∧ cause.isCritical = false := by
  cases cause <;> simp_all [rule?, isDelay, isCritical]

end AlertCause

namespace Monitor

theorem countP_delayCauses (threshold : UInt64) (e : Entry) :
    (delayCauses threshold e).countP AlertCause.isDelay =
      (if e.isSlowerThan threshold.toNat then 1 else 0) ∧
    (delayCauses threshold e).countP AlertCause.isCritical = 0 := by
  rw [delayCauses, Entry.isSlowerThan]
  cases e.processingTime? with
  | none => exact ⟨rfl, rfl⟩
  | some ms =>
    by_cases hslow : threshold < ms
    · simp [hslow, UInt64.lt_iff_toNat_lt.mp hslow, AlertCause.isDelay, AlertCause.isCritical]
    · simp [hslow, mt UInt64.lt_iff_toNat_lt.mpr hslow]

theorem countP_severityCauses (e : Entry) :
    (severityCauses e).countP AlertCause.isDelay = 0 ∧
    (severityCauses e).countP AlertCause.isCritical = if e.severity = .critical then 1 else 0 := by
  by_cases hc : e.severity = .critical <;>
    simp [severityCauses, hc, AlertCause.isDelay, AlertCause.isCritical]

theorem rule?_of_mem_volumeCauses {thresholds : AlertThresholds} {earlier : List Entry} {e : Entry}
    {cause : AlertCause} (h : cause ∈ e.volumeCauses thresholds earlier) :
    cause.rule?.isSome = true := by
  obtain ⟨rule, -, hcause⟩ := List.mem_flatMap.mp h
  unfold VolumeRule.crossing at hcause
  split at hcause
  · rw [List.mem_singleton.mp hcause, VolumeRule.rule?_cause]
    rfl
  · cases hcause

/-- Whether or not the entry is counted for its day, its time and its severity are judged. -/
theorem countP_causesAfter (monitor : Monitor) (earlier : List Entry) (e : Entry) :
    (monitor.causesAfter earlier e).countP AlertCause.isDelay =
      (if e.isSlowerThan monitor.threshold.toNat then 1 else 0) ∧
    (monitor.causesAfter earlier e).countP AlertCause.isCritical =
      if e.severity = .critical then 1 else 0 := by
  have hvolume : ∀ cause ∈ (if e.isCounted earlier then e.volumeCauses monitor.thresholds earlier
      else []), cause.isDelay = false ∧ cause.isCritical = false := by
    intro cause hcause
    split at hcause
    · exact AlertCause.isDelay_of_rule? (rule?_of_mem_volumeCauses hcause)
    · cases hcause
  obtain ⟨hdelay, hnocritical⟩ := countP_delayCauses monitor.threshold e
  obtain ⟨hnodelay, hcritical⟩ := countP_severityCauses e
  have hnone : ∀ p : AlertCause → Bool, (∀ c, c.isDelay = false ∧ c.isCritical = false → p c = false) →
      (if e.isCounted earlier then e.volumeCauses monitor.thresholds earlier else []).countP p = 0 := by
    intro p hp
    rw [List.countP_eq_zero]
    intro cause hcause
    rw [hp cause (hvolume cause hcause)]
    exact Bool.false_ne_true
  rw [causesAfter, List.countP_append, List.countP_append, List.countP_append, List.countP_append,
    hdelay, hnocritical, hnodelay, hcritical, hnone _ fun _ h => h.1, hnone _ fun _ h => h.2]
  omega

theorem Recounts.raises {monitor : Monitor} {earlier : List Entry} (h : monitor.Recounts earlier)
    (ids : IdSupply) (now : Instant) (e : Entry) :
    e.Raises monitor.threshold (monitor.observe ids now e).2.1 := by
  have hcauses : (monitor.observe ids now e).2.1.map Alert.cause = monitor.causesAfter earlier e :=
    (map_cause_raiseAll ids now e.id _).trans (h.take e).2.2
  have hcount : ∀ p : AlertCause → Bool,
      (monitor.observe ids now e).2.1.countP (fun a => p a.cause) =
        (monitor.causesAfter earlier e).countP p := by
    intro p
    rw [← hcauses, List.countP_map]
    rfl
  obtain ⟨hdelays, hcriticals⟩ := monitor.countP_causesAfter earlier e
  exact ⟨fun a ha => entryId_of_mem_raiseAll ha, (hcount _).trans hdelays, (hcount _).trans hcriticals⟩

theorem threshold_observe (monitor : Monitor) (ids : IdSupply) (now : Instant) (e : Entry) :
    (monitor.observe ids now e).1.threshold = monitor.threshold := by
  have htime : (monitor.addTime e).threshold = monitor.threshold := by
    unfold addTime
    split <;> rfl
  have hroll : ∀ m : Monitor, (m.rollTo e.time.date).threshold = m.threshold := by
    intro m
    unfold rollTo
    split
    · split <;> rfl
    · rfl
  have hvolume : ∀ m : Monitor, (m.countVolume e).1.threshold = m.threshold := by
    intro m
    rw [← hroll m]
    unfold countVolume
    simp only
    split <;> rfl
  exact (hvolume _).trans htime

end Monitor

/-! ## What a list of entries raises -/

/-- The alerts that some entries have raised, one entry after the other. -/
def RaisedByAll (threshold : UInt64) (entries : List Entry) (alerts : List Alert) : Prop :=
  ∃ raised : List (List Alert), alerts = raised.flatten ∧
    List.Forall₂ (Entry.Raises threshold) entries raised

/-- Resolving an alert changes nothing about what has raised it. -/
theorem Entry.Raises.congr {threshold : UInt64} {e : Entry} {alerts others : List Alert}
    (h : e.Raises threshold alerts) (hsame : others.map Alert.asRaised = alerts.map Alert.asRaised) :
    e.Raises threshold others := by
  have hcount : ∀ p : AlertCause → Bool,
      others.countP (fun a => p a.cause) = alerts.countP fun a => p a.cause := by
    intro p
    have hmap := congrArg (List.countP fun a => p a.cause) hsame
    rw [List.countP_map, List.countP_map] at hmap
    exact hmap
  refine ⟨?_, (hcount _).trans h.delays, (hcount _).trans h.criticals⟩
  intro a ha
  have hmem : a.asRaised ∈ alerts.map Alert.asRaised := hsame ▸ List.mem_map_of_mem ha
  obtain ⟨b, hb, heq⟩ := List.mem_map.mp hmem
  have hid : b.asRaised.entryId = a.asRaised.entryId := congrArg Alert.entryId heq
  exact hid.symm.trans (h.named b hb)

namespace RaisedByAll
variable {threshold : UInt64} {entries : List Entry} {alerts : List Alert}

theorem congr (h : RaisedByAll threshold entries alerts) {others : List Alert}
    (hsame : others.map Alert.asRaised = alerts.map Alert.asRaised) :
    RaisedByAll threshold entries others := by
  obtain ⟨raised, rfl, hraised⟩ := h
  induction hraised generalizing others with
  | nil =>
    have hnil : others = [] := by simpa using hsame
    exact ⟨[], hnil, .nil⟩
  | cons hfirst hrest ih =>
    rw [List.flatten_cons, List.map_append] at hsame
    obtain ⟨front, back, rfl, hfront, hback⟩ := List.map_eq_append_iff.mp hsame
    obtain ⟨more, rfl, hmore⟩ := ih hback
    exact ⟨front :: more, rfl, .cons (hfirst.congr hfront) hmore⟩

theorem concat (h : RaisedByAll threshold entries alerts) {e : Entry} {new : List Alert}
    (hnew : e.Raises threshold new) : RaisedByAll threshold (entries ++ [e]) (alerts ++ new) := by
  obtain ⟨raised, rfl, hraised⟩ := h
  exact ⟨raised ++ [new], by simp, List.rel_append hraised (.cons hnew .nil)⟩

theorem countP (h : RaisedByAll threshold entries alerts) (p : Alert → Bool) (q : Entry → Bool)
    (heach : ∀ (e : Entry) (raised : List Alert), e.Raises threshold raised →
      raised.countP p = if q e then 1 else 0) : alerts.countP p = entries.countP q := by
  obtain ⟨raised, rfl, hraised⟩ := h
  induction hraised with
  | nil => rfl
  | cons hfirst hrest ih =>
    rw [List.flatten_cons, List.countP_append, ih, heach _ _ hfirst, List.countP_cons, Nat.add_comm]

end RaisedByAll

/-! ## Runs -/

namespace Site

/-- The monitor has judged the entries of the ledger by a threshold. -/
structure IsJudged (millis : UInt64) (site : Site) : Prop where
  threshold : site.service.monitor.threshold = millis
  recounts : site.service.monitor.Recounts site.service.ledger.entries
  raised : RaisedByAll millis site.service.ledger.entries site.alerts

theorem IsJudged.perform {millis : UInt64} {site : Site} (h : site.IsJudged millis)
    (now : Instant) (operation : Operation) : (site.perform now operation).2.IsJudged millis := by
  have halerts := site.asRaised_perform now operation
  rcases site.perform_raised now operation with
    ⟨ids, e, hledger, hmonitor, hraised⟩ | ⟨hledger, ⟨alerts, hmonitor⟩, hraised⟩
  · have hnew := h.recounts.raises ids now e
    rw [h.threshold, ← hraised] at hnew
    have hopen : (site.raisedBy now operation).map Alert.asRaised = site.raisedBy now operation :=
      Alert.map_asRaised_of_open fun a ha => resolution_of_mem_raisedBy ha
    rw [← hopen, ← List.map_append] at halerts
    refine ⟨?_, recounts_perform h.recounts now operation, ?_⟩
    · rw [hmonitor, Monitor.threshold_observe, h.threshold]
    · rw [hledger]
      exact (h.raised.concat hnew).congr halerts
  · rw [hraised, List.append_nil] at halerts
    refine ⟨?_, recounts_perform h.recounts now operation, ?_⟩
    · rw [hmonitor, ← h.threshold]
    · rw [hledger]
      exact h.raised.congr halerts

theorem IsJudged.run {millis : UInt64} {site : Site} (h : site.IsJudged millis)
    (ops : List (Instant × Operation)) : (site.run ops).IsJudged millis := by
  induction ops generalizing site with
  | nil => exact h
  | cons first rest ih =>
    obtain ⟨now, operation⟩ := first
    exact ih (h.perform now operation)

theorem isJudged_of_start {config : Config} {signer : Signer} {around around' : Surroundings}
    {service : Service} (started : Service.start config signer around = .ok (service, around'))
    (ops : List (Instant × Operation)) :
    ((Site.mk service around').run ops).IsJudged config.processingThreshold := by
  obtain ⟨exportPlace, files, -, hservice, -⟩ := Service.start_eq started
  apply IsJudged.run
  constructor
  · rw [hservice]
    exact Monitor.threshold_of config
  · rw [hservice]
    exact Monitor.Recounts.of config
  · rw [hservice]
    exact ⟨[], rfl, .nil⟩

/-- **Alerts and tallies judge alike.** In any run of a service that has started there are as many
alerts about delays as entries of the ledger that took longer than the threshold, and these are the
timed entries that were not timely; and as many alerts about critical events as critical entries, which
is what the tally of severities and the table of statistics count. The alerts stand in the order of the
entries that they name. For any threshold and any entries, severely late are those that took longer
than its double, however large that is, and none of them was timely. -/
theorem alerts_match_tallies (config : Config) (signer : Signer) (around around' : Surroundings)
    (service : Service) (started : Service.start config signer around = .ok (service, around'))
    (ops : List (Instant × Operation)) :
    let after := ((Site.mk service around').run ops).service
    let entries := after.ledger.entries
    let slower (millis : Nat) (e : Entry) : Bool :=
      e.processingMs.any fun ms => decide (millis < ms.toNat)
    let delays := DelayTally.of (Scorer.of config).threshold entries
    let delayAlerts := after.monitor.alerts.countP fun a => a.cause.isDelay
    let criticalAlerts := after.monitor.alerts.countP fun a => a.cause.isCritical
    (delayAlerts = entries.countP (slower config.processingThreshold.toNat) ∧
      delays.timely + delayAlerts = delays.timed) ∧
    (criticalAlerts = entries.countP (fun e => e.severity = .critical) ∧
      criticalAlerts = (SeverityTally.of entries).critical ∧
      criticalAlerts = Counts.count (Statistics.of entries).bySeverity "critical") ∧
    (∃ raised : List (List Alert), after.monitor.alerts = raised.flatten ∧
      List.Forall₂ (fun e alerts => ∀ a ∈ alerts, a.entryId = e.id) entries raised) ∧
    ∀ (threshold : UInt64) (es : List Entry),
      (DelayTally.of threshold es).severe = es.countP (slower (2 * threshold.toNat)) ∧
      (DelayTally.of threshold es).severe + (DelayTally.of threshold es).timely ≤
        (DelayTally.of threshold es).timed := by
  intro after entries slower delays delayAlerts criticalAlerts
  have hjudged := isJudged_of_start started ops
  have hslower : ∀ millis, slower millis = Entry.isSlowerThan millis :=
    fun millis => funext fun e => (e.isSlowerThan_eq millis).symm
  have hdelays : delayAlerts =
      entries.countP (Entry.isSlowerThan config.processingThreshold.toNat) :=
    hjudged.raised.countP _ _ fun _ _ h => h.delays
  have hcriticals : criticalAlerts = entries.countP (fun e => e.severity = .critical) :=
    hjudged.raised.countP _ _ fun _ _ h => by simpa using h.criticals
  have htally : (SeverityTally.of entries).critical =
      entries.countP (fun e => e.severity = .critical) := rfl
  simp only [hslower]
  refine ⟨⟨hdelays, ?_⟩, ⟨hcriticals, hcriticals.trans htally.symm, ?_⟩, ?_, ?_⟩
  · rw [hdelays, ← Scorer.threshold_of]
    exact (DelayTally.timed_eq _ _).symm
  · rw [Statistics.count_critical, htally, hcriticals]
  · obtain ⟨raised, hflat, heach⟩ := hjudged.raised
    exact ⟨raised, hflat, heach.imp fun _ _ h => h.named⟩
  · exact fun threshold es =>
      ⟨DelayTally.severe_eq threshold es, DelayTally.severe_add_timely_le threshold es⟩

/-- Two critical events, of which the first took a millisecond longer than the threshold of a day and
the second just that day; an alert about the first is resolved. -/
theorem alerts_match_tallies_boundary :
    let now : Instant := .startOf ⟨2024, 3, 1, by decide⟩
    let start := Site.mk .bare .numbered
    let failure (nanos : Int) : Event :=
      { Event.plain "system_error" "" "cid" "act" .none with elapsed := some nanos }
    let ops : List (Instant × Operation) :=
      [(now, .record (failure 86400001000000)), (now, .record (failure 86400000000000)),
       (now, .resolve "CA-0000000000004001" "seen")]
    let after := (start.run ops).service
    Service.start .standard (.keyless .secp256k1) .numbered = .ok (.bare, .numbered) ∧
    after.monitor.alerts.countP (fun a => a.cause.isDelay) = 1 ∧
    after.monitor.alerts.countP (fun a => a.cause.isCritical) = 2 ∧
    Counts.count (Statistics.of after.ledger.entries).bySeverity "critical" = 2 := by
  intro now start failure ops after
  have started : Service.start .standard (.keyless .secp256k1) .numbered = .ok (.bare, .numbered) :=
    rfl
  obtain ⟨⟨hdelays, -⟩, ⟨hcriticals, -, htable⟩, -⟩ := alerts_match_tallies .standard
    (.keyless .secp256k1) .numbered .numbered .bare started ops
  have hone : after.monitor.alerts.countP (fun a => a.cause.isDelay) = 1 := by
    rw [hdelays]
    decide +kernel
  have htwo : after.monitor.alerts.countP (fun a => a.cause.isCritical) = 2 := by
    rw [hcriticals]
    decide +kernel
  exact ⟨started, hone, htwo, by rw [← htable, htwo]⟩

end Site

end AuditTrail
