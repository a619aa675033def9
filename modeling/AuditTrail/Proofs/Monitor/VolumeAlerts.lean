import Mathlib.Data.List.Induction
import AuditTrail.Proofs.Monitor.Recount
import AuditTrail.Proofs.Service.Run
/-! # Alerts about volumes

An entry is counted if none before it is of a later day. On every day a rule raises one alert if more
entries count for it than its threshold: the first entry above the threshold raises it, and no other
does (`Monitor.volumeAlerts_of_observeAll`). -/

namespace AuditTrail
set_option autoImplicit false

/-! ## The entries that are counted -/

/-- The places of the entries with a property that are counted. -/
def Entry.countedPlaces (p : Entry → Bool) (entries : List Entry) : List Nat :=
  (List.range entries.length).filter fun i =>
    entries[i]?.any fun e => p e && e.isCounted (entries.take i)

namespace Entry

theorem countedPlaces_concat (p : Entry → Bool) (earlier : List Entry) (e : Entry) :
    countedPlaces p (earlier ++ [e]) =
      countedPlaces p earlier ++
        if p e = true ∧ e.isCounted earlier = true then [earlier.length] else [] := by
  have hfront : ∀ i ∈ List.range earlier.length,
      ((earlier ++ [e])[i]?.any fun e' => p e' && e'.isCounted ((earlier ++ [e]).take i)) =
        earlier[i]?.any fun e' => p e' && e'.isCounted (earlier.take i) := by
    intro i hi
    have hlt := List.mem_range.mp hi
    rw [List.getElem?_append_left hlt, List.take_append_of_le_length (Nat.le_of_lt hlt)]
  rw [countedPlaces, List.length_append, List.length_singleton, List.range_succ, List.filter_append,
    List.filter_congr hfront, countedPlaces]
  congr 1
  have hlast : ((earlier ++ [e])[earlier.length]?.any fun e' =>
      p e' && e'.isCounted ((earlier ++ [e]).take earlier.length)) =
        decide (p e = true ∧ e.isCounted earlier = true) := by
    rw [List.getElem?_concat_length, List.take_left, Option.any_some]
    simp
  rw [List.filter_cons, hlast, List.filter_nil]
  simp only [decide_eq_true_eq]

/-- Up to the latest day, all entries of that day are counted. -/
theorem length_countedPlaces (rule : VolumeRule) (day : Date) (entries : List Entry)
    (hday : ∀ e ∈ entries, e.time.date ≤ day) :
    (countedPlaces (rule.covers day) entries).length = entries.countP (rule.covers day) := by
  induction entries using List.reverseRecOn with
  | nil => rfl
  | append_singleton earlier e ih =>
    have hearlier : ∀ b ∈ earlier, b.time.date ≤ day :=
      fun b hb => hday b (List.mem_append_left _ hb)
    rw [countedPlaces_concat, List.length_append, ih hearlier, List.countP_append,
      List.countP_singleton]
    by_cases hc : rule.covers day e = true
    case pos =>
      have hdate : e.time.date = day := ((rule.covers_iff day e).mp hc).2
      have hcounted : e.isCounted earlier = true := by
        rw [isCounted_iff, hdate]
        exact hearlier
      rw [if_pos ⟨hc, hcounted⟩, if_pos hc, List.length_singleton]
    case neg =>
      rw [if_neg fun h => hc h.1, if_neg hc, List.length_nil]

end Entry

/-! ## What has been raised -/

/-- The rule that an alert comes from. -/
def AlertCause.rule? : AlertCause → Option VolumeRule
  | .takedownVolume _ _ => some .allTakedowns
  | .requestorVolume requestor _ _ => some (.takedownsOf requestor)
  | .processingDelay _ _ | .criticalEvent _ _ => none

/-- An alert with the entry that has raised it and the place of that entry in the row of all. -/
structure Raised where
  place : Nat
  entry : Entry
  alert : Alert

/-- The alerts that some observations raise, the first of them being that of an entry at a place. -/
def Monitor.history (monitor : Monitor) (ids : IdSupply) (place : Nat) :
    List (Instant × Entry) → List Raised
  | [] => []
  | (now, e) :: rest =>
    let (monitor, raised, ids) := monitor.observe ids now e
    raised.map (fun alert => ⟨place, e, alert⟩) ++ monitor.history ids (place + 1) rest

/-- What a rule has raised about the entries of a day: the places of the entries, and the causes. -/
def Raised.aboutDay (day : Date) (rule : VolumeRule) (history : List Raised) :
    List (Nat × AlertCause) :=
  (history.filter fun r =>
    decide (r.alert.cause.rule? = some rule ∧ r.entry.time.date = day)).map fun r =>
      (r.place, r.alert.cause)

/-- What is due about the entries of a day: an alert at the first that is above the threshold. -/
def VolumeRule.due (thresholds : AlertThresholds) (day : Date) (rule : VolumeRule)
    (entries : List Entry) : List (Nat × AlertCause) :=
  match (Entry.countedPlaces (rule.covers day) entries)[(rule.threshold thresholds).toNat]? with
  | some place => [(place, rule.cause thresholds ((rule.threshold thresholds).toNat + 1))]
  | none => []

theorem Entry.nodup_rules (e : Entry) : e.rules.Nodup := by
  unfold rules
  split
  · split <;> simp
  · exact List.nodup_nil

namespace VolumeRule

theorem rule?_cause (thresholds : AlertThresholds) (count : Nat) (rule : VolumeRule) :
    (rule.cause thresholds count).rule? = some rule := by
  cases rule <;> rfl

theorem filter_crossing (thresholds : AlertThresholds) (rule other : VolumeRule) (before : Nat) :
    (other.crossing thresholds before).filter (fun cause => decide (cause.rule? = some rule)) =
      if other = rule then other.crossing thresholds before else [] := by
  unfold crossing
  by_cases hat : before = (other.threshold thresholds).toNat
  · by_cases ho : other = rule
    · simp [hat, ho, rule?_cause]
    · simp [hat, ho, rule?_cause]
  · simp [hat]

theorem filter_volumeCauses (thresholds : AlertThresholds) (rule : VolumeRule)
    (earlier : List Entry) (e : Entry) :
    (e.volumeCauses thresholds earlier).filter (fun cause => decide (cause.rule? = some rule)) =
      if rule ∈ e.rules then
        rule.crossing thresholds (earlier.countP (rule.covers e.time.date))
      else [] := by
  rw [Entry.volumeCauses, List.filter_flatMap]
  simp only [filter_crossing]
  have hnodup := e.nodup_rules
  generalize e.rules = rules at hnodup ⊢
  induction rules with
  | nil => simp
  | cons first rest ih =>
    rw [List.nodup_cons] at hnodup
    rw [List.flatMap_cons, ih hnodup.2]
    by_cases hf : first = rule
    · subst hf
      simp [hnodup.1]
    · simp [hf, Ne.symm hf]

/-- With another entry is due what was due before, and what the entry raises if it is counted. -/
theorem due_concat (thresholds : AlertThresholds) (day : Date) (rule : VolumeRule)
    (earlier : List Entry) (e : Entry) :
    rule.due thresholds day (earlier ++ [e]) =
      rule.due thresholds day earlier ++
        if rule.covers day e = true ∧ e.isCounted earlier = true then
          (rule.crossing thresholds (earlier.countP (rule.covers day))).map (earlier.length, ·)
        else [] := by
  unfold due
  rw [Entry.countedPlaces_concat]
  by_cases hc : rule.covers day e = true ∧ e.isCounted earlier = true
  case neg =>
    rw [if_neg hc, if_neg hc, List.append_nil, List.append_nil]
  case pos =>
    have hdate : e.time.date = day := ((rule.covers_iff day e).mp hc.1).2
    have hbound : ∀ b ∈ earlier, b.time.date ≤ day := by
      rw [← hdate]
      exact Entry.isCounted_iff.mp hc.2
    have hlength := Entry.length_countedPlaces rule day earlier hbound
    -- The entry has the place behind all that are counted: it is the one above the threshold exactly
    -- when these are as many as the threshold.
    rw [if_pos hc, if_pos hc, crossing, ← hlength]
    generalize Entry.countedPlaces (rule.covers day) earlier = places
    rcases Nat.lt_trichotomy places.length (rule.threshold thresholds).toNat with hlt | heq | hgt
    · rw [if_neg (Nat.ne_of_lt hlt), List.getElem?_eq_none (Nat.le_of_lt hlt),
        List.getElem?_eq_none (by simp; omega)]
      rfl
    · rw [if_pos heq, ← heq, List.getElem?_concat_length, List.getElem?_eq_none (Nat.le_refl _)]
      rfl
    · rw [if_neg (Nat.ne_of_gt hgt), List.getElem?_append_left hgt, List.map_nil, List.append_nil]

end VolumeRule

namespace Monitor

/-! ## Observing -/

theorem map_cause_raiseAll (ids : IdSupply) (now : Instant) (entryId : String)
    (causes : List AlertCause) : (raiseAll ids now entryId causes).map Alert.cause = causes := by
  induction causes generalizing ids with
  | nil => rfl
  | cons cause rest ih => rw [raiseAll, List.map_cons, ih]

theorem entryId_of_mem_raiseAll {ids : IdSupply} {now : Instant} {entryId : String}
    {causes : List AlertCause} {alert : Alert} (h : alert ∈ raiseAll ids now entryId causes) :
    alert.entryId = entryId := by
  induction causes generalizing ids with
  | nil => cases h
  | cons cause rest ih =>
    rw [raiseAll] at h
    rcases List.mem_cons.mp h with rfl | hrest
    · rfl
    · exact ih hrest

theorem alerts_countVolume (monitor : Monitor) (e : Entry) :
    (monitor.countVolume e).1.alerts = monitor.alerts := by
  have hroll : (monitor.rollTo e.time.date).alerts = monitor.alerts := by
    unfold rollTo
    split
    · split <;> rfl
    · rfl
  rw [← hroll]
  unfold countVolume
  simp only
  split <;> rfl

theorem alerts_observe (monitor : Monitor) (ids : IdSupply) (now : Instant) (e : Entry) :
    (monitor.observe ids now e).1.alerts = monitor.alerts ++ (monitor.observe ids now e).2.1 := by
  have htime : (monitor.addTime e).alerts = monitor.alerts := by
    unfold addTime
    split <;> rfl
  have htake : (monitor.take e).1.alerts = monitor.alerts :=
    ((monitor.addTime e).alerts_countVolume e).trans htime
  rw [← htake]
  rfl

theorem alerts_observeAll (monitor : Monitor) (ids : IdSupply) (place : Nat)
    (observed : List (Instant × Entry)) :
    (monitor.observeAll ids observed).1.alerts =
      monitor.alerts ++ (monitor.history ids place observed).map Raised.alert := by
  induction observed generalizing monitor ids place with
  | nil => exact (List.append_nil _).symm
  | cons first rest ih =>
    obtain ⟨now, e⟩ := first
    have hrest := ih (monitor.observe ids now e).1 (monitor.observe ids now e).2.2 (place + 1)
    rw [alerts_observe, List.append_assoc] at hrest
    simp only [history, List.map_append, List.map_map, Function.comp_def, List.map_id']
    exact hrest

theorem mem_history {monitor : Monitor} {ids : IdSupply} {earlier : List Entry}
    {observed : List (Instant × Entry)} {r : Raised}
    (h : r ∈ monitor.history ids earlier.length observed) :
    (earlier ++ observed.map Prod.snd)[r.place]? = some r.entry ∧ r.alert.entryId = r.entry.id := by
  induction observed generalizing monitor ids earlier with
  | nil => cases h
  | cons first rest ih =>
    obtain ⟨now, e⟩ := first
    rw [history] at h
    rcases List.mem_append.mp h with hnow | hrest
    · obtain ⟨alert, halert, rfl⟩ := List.mem_map.mp hnow
      refine ⟨?_, entryId_of_mem_raiseAll halert⟩
      simp
    · rw [← List.length_singleton (a := e), ← List.length_append] at hrest
      have hlater := ih hrest
      rw [List.append_assoc] at hlater
      exact hlater

theorem rule?_of_mem_delayCauses {threshold : UInt64} {e : Entry} {cause : AlertCause}
    (h : cause ∈ delayCauses threshold e) : cause.rule? = none := by
  unfold delayCauses at h
  split at h
  · split at h
    · rw [List.mem_singleton.mp h]
      rfl
    · cases h
  · cases h

theorem rule?_of_mem_severityCauses {e : Entry} {cause : AlertCause}
    (h : cause ∈ severityCauses e) : cause.rule? = none := by
  unfold severityCauses at h
  split at h
  · rw [List.mem_singleton.mp h]
    rfl
  · cases h

theorem filter_causesAfter (monitor : Monitor) (earlier : List Entry) (e : Entry)
    (rule : VolumeRule) :
    (monitor.causesAfter earlier e).filter (fun cause => decide (cause.rule? = some rule)) =
      if rule.covers e.time.date e = true ∧ e.isCounted earlier = true then
        rule.crossing monitor.thresholds (earlier.countP (rule.covers e.time.date))
      else [] := by
  have hothers : (delayCauses monitor.threshold e ++ severityCauses e).filter
      (fun cause => decide (cause.rule? = some rule)) = [] := by
    rw [List.filter_eq_nil_iff]
    intro cause hcause
    have hnone : cause.rule? = none := (List.mem_append.mp hcause).elim
      rule?_of_mem_delayCauses rule?_of_mem_severityCauses
    simp [hnone]
  rw [causesAfter, List.filter_append, hothers, List.nil_append]
  by_cases hcounted : e.isCounted earlier = true
  · simp [hcounted, VolumeRule.filter_volumeCauses, VolumeRule.covers_iff]
  · simp [hcounted]

theorem aboutDay_map (day : Date) (rule : VolumeRule) (place : Nat) (e : Entry)
    (raised : List Alert) :
    Raised.aboutDay day rule (raised.map fun alert => ⟨place, e, alert⟩) =
      ((raised.map Alert.cause).filter fun cause =>
        decide (cause.rule? = some rule ∧ e.time.date = day)).map (place, ·) := by
  simp [Raised.aboutDay, List.filter_map, Function.comp_def]

/-- What an observation raises about a day is what becomes due by it. -/
theorem Recounts.aboutDay_observe {monitor : Monitor} {earlier : List Entry}
    (h : monitor.Recounts earlier) (ids : IdSupply) (now : Instant) (e : Entry) (day : Date)
    (rule : VolumeRule) :
    rule.due monitor.thresholds day earlier ++
      Raised.aboutDay day rule
        ((monitor.observe ids now e).2.1.map fun alert => ⟨earlier.length, e, alert⟩) =
    rule.due monitor.thresholds day (earlier ++ [e]) := by
  have hcauses : (monitor.observe ids now e).2.1.map Alert.cause = monitor.causesAfter earlier e :=
    (map_cause_raiseAll ids now e.id _).trans (h.take e).2.2
  rw [aboutDay_map, hcauses, VolumeRule.due_concat]
  congr 1
  by_cases hday : e.time.date = day
  · subst hday
    simp only [and_true, filter_causesAfter]
    split
    · rfl
    · rfl
  · have hnot : ¬ rule.covers day e = true := fun hc => hday ((rule.covers_iff day e).mp hc).2
    simp [hday, hnot]

theorem Recounts.aboutDay_history {monitor : Monitor} {earlier : List Entry}
    (h : monitor.Recounts earlier) (ids : IdSupply) (observed : List (Instant × Entry))
    (day : Date) (rule : VolumeRule) :
    rule.due monitor.thresholds day earlier ++
      Raised.aboutDay day rule (monitor.history ids earlier.length observed) =
    rule.due monitor.thresholds day (earlier ++ observed.map Prod.snd) := by
  induction observed generalizing monitor ids earlier with
  | nil =>
    rw [List.map_nil, List.append_nil]
    exact List.append_nil _
  | cons first rest ih =>
    obtain ⟨now, e⟩ := first
    have hrest := ih (h.observe ids now e) (monitor.observe ids now e).2.2
    have hthresholds : (monitor.observe ids now e).1.thresholds = monitor.thresholds :=
      (h.take e).2.1
    rw [hthresholds, ← h.aboutDay_observe ids now e day rule, List.append_assoc,
      List.append_assoc, List.length_append] at hrest
    rw [history]
    simp only [Raised.aboutDay, List.filter_append, List.map_append] at hrest ⊢
    exact hrest

/-- **Volume alerts.** Whatever is observed, in whatever order, on every day each rule raises exactly
one alert if more entries are counted for it than its threshold, by the first that is above it, and
none otherwise. -/
theorem volumeAlerts_of_observeAll (config : Config) (ids : IdSupply)
    (observed : List (Instant × Entry)) :
    let entries := observed.map Prod.snd
    let history := (Monitor.of config).history ids 0 observed
    let daily := config.alerts.takedownsPerDay
    let own := config.alerts.takedownsPerRequestor
    ((Monitor.of config).observeAll ids observed).1.alerts = history.map Raised.alert ∧
    (∀ r ∈ history, entries[r.place]? = some r.entry ∧ r.alert.entryId = r.entry.id) ∧
    (∀ day, Raised.aboutDay day .allTakedowns history =
      match (Entry.countedPlaces (Entry.isTakedownOn day) entries)[daily.toNat]? with
      | some place => [(place, .takedownVolume (daily.toNat + 1) daily)]
      | none => []) ∧
    (∀ day requestor, Raised.aboutDay day (.takedownsOf requestor) history =
      match (Entry.countedPlaces (Entry.isRequestOn day requestor) entries)[own.toNat]? with
      | some place => [(place, .requestorVolume requestor (own.toNat + 1) own)]
      | none => []) := by
  intro entries history daily own
  have hrecounts := Recounts.of config
  have hdue : ∀ (day : Date) (rule : VolumeRule),
      Raised.aboutDay day rule history = rule.due config.alerts day entries := by
    intro day rule
    have hnone : rule.due (Monitor.of config).thresholds day [] = [] := rfl
    have hhistory := hrecounts.aboutDay_history ids observed day rule
    rw [hnone, List.nil_append, List.nil_append] at hhistory
    exact hhistory
  refine ⟨?_, ?_, ?_, ?_⟩
  · exact (Monitor.of config).alerts_observeAll ids 0 observed
  · intro r hr
    exact @mem_history _ _ [] observed r hr
  · exact fun day => hdue day .allTakedowns
  · exact fun day requestor => hdue day (.takedownsOf requestor)

/-- Three takedowns of which the second is of a day that is over, where a day may have one and a
requestor none without an alert. -/
theorem volumeAlerts_of_observeAll_late :
    let config : Config := { Config.standard with
      alerts := { Config.standard.alerts with takedownsPerDay := 1, takedownsPerRequestor := 0 } }
    let first : Instant := .startOf ⟨2024, 3, 1, by decide⟩
    let second : Instant := .startOf ⟨2024, 3, 2, by decide⟩
    let takedownAt (now : Instant) (id : String) : Instant × Entry :=
      (now, Ledger.empty.entryOf config (.keyless .secp256k1) now id
        (.takedown "TD-1" "cid" "a@x.example" "Work"))
    let observed := [takedownAt second "AE-1", takedownAt first "AE-2", takedownAt second "AE-3"]
    let history := (Monitor.of config).history Surroundings.bare.ids 0 observed
    Raised.aboutDay second.date .allTakedowns history = [(2, .takedownVolume 2 1)] ∧
    Raised.aboutDay second.date (.takedownsOf "a@x.example") history =
      [(0, .requestorVolume "a@x.example" 1 0)] ∧
    Raised.aboutDay first.date (.takedownsOf "a@x.example") history = [] ∧
    ∃ r ∈ history, r.place = 2 ∧ r.alert.entryId = "AE-3" := by
  intro config first second takedownAt observed history
  obtain ⟨-, hentries, hdaily, hown⟩ :=
    volumeAlerts_of_observeAll config Surroundings.bare.ids observed
  have hsecond : Raised.aboutDay second.date .allTakedowns history = [(2, .takedownVolume 2 1)] :=
    (hdaily second.date).trans (by decide +kernel)
  refine ⟨hsecond, ?_, ?_, ?_⟩
  · exact (hown second.date "a@x.example").trans (by decide +kernel)
  · exact (hown first.date "a@x.example").trans (by decide +kernel)
  · have hraised : (2, AlertCause.takedownVolume 2 1) ∈
        Raised.aboutDay second.date .allTakedowns history := by
      rw [hsecond]
      exact List.mem_cons_self
    obtain ⟨r, hr, heq⟩ := List.mem_map.mp hraised
    have hmem : r ∈ history := (List.mem_filter.mp hr).1
    have hplace : r.place = 2 := congrArg Prod.fst heq
    obtain ⟨hentry, hid⟩ := hentries r hmem
    rw [hplace] at hentry
    refine ⟨r, hmem, hplace, ?_⟩
    rw [hid, ← Option.some.inj hentry]
    rfl

end Monitor

end AuditTrail
