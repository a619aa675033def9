import AuditTrail.Proofs.Monitor.DayCounts
/-! # The counts of a monitor are a recount

`Monitor.Recounts` says what a monitor has to do with the entries that it has observed: its day is the
latest of theirs, and its counts are those of the entries of that day. Observing an entry keeps this;
unless its day is over, the entry raises the alerts of the rules that it brings above their thresholds
(`Monitor.Recounts.countVolume`). -/

namespace AuditTrail
set_option autoImplicit false

/-- The day of the entry is not over: none of the earlier entries is of a later one. -/
def Entry.isCounted (earlier : List Entry) (e : Entry) : Bool :=
  earlier.all fun before => decide (before.time.date ≤ e.time.date)

theorem Entry.isCounted_iff {earlier : List Entry} {e : Entry} : e.isCounted earlier = true ↔
    ∀ before ∈ earlier, before.time.date ≤ e.time.date := by
  simp [isCounted]

namespace Monitor

/-! ## Observing an entry -/

/-- The day of the monitor is the latest of the entries, and its counts are those of that day. -/
structure Recounts (entries : List Entry) (monitor : Monitor) : Prop where
  begun : monitor.day = none → entries = []
  latest : ∀ day, monitor.day = some day →
    Date.IsLatest day (entries.map fun e => e.time.date)
  counts : ∀ day, monitor.day = some day →
    monitor.counts.Recounts monitor.thresholds day entries

theorem Recounts.of (config : Config) : (Monitor.of config).Recounts [] where
  begun := fun _ => rfl
  latest := fun _ h => nomatch h
  counts := fun _ h => nomatch h

theorem Recounts.ofDay {monitor : Monitor} {entries : List Entry} {day : Date}
    (hday : monitor.day = some day)
    (latest : Date.IsLatest day (entries.map fun e => e.time.date))
    (counts : monitor.counts.Recounts monitor.thresholds day entries) :
    monitor.Recounts entries := by
  have hsame : ∀ current, monitor.day = some current → current = day :=
    fun current hcurrent => Option.some.inj (hcurrent.symm.trans hday)
  refine ⟨?_, ?_, ?_⟩
  · intro hnone
    rw [hday] at hnone
    cases hnone
  · intro current hcurrent
    rw [hsame current hcurrent]
    exact latest
  · intro current hcurrent
    rw [hsame current hcurrent]
    exact counts

theorem Recounts.congr {monitor other : Monitor} {entries : List Entry}
    (h : monitor.Recounts entries) (hday : other.day = monitor.day)
    (hcounts : other.counts = monitor.counts) (hthresholds : other.thresholds = monitor.thresholds) :
    other.Recounts entries := by
  refine ⟨?_, ?_, ?_⟩
  · rw [hday]
    exact h.begun
  · rw [hday]
    exact h.latest
  · rw [hday, hcounts, hthresholds]
    exact h.counts

theorem countVolume_of_late {monitor : Monitor} {day : Date} (hday : monitor.day = some day)
    {e : Entry} (hlate : e.time.date < day) : monitor.countVolume e = (monitor, []) := by
  have hroll : monitor.rollTo e.time.date = monitor := by
    simp only [rollTo, hday]
    rw [if_neg (Date.not_lt.mpr (Date.le_of_lt hlate))]
  have hne : monitor.day ≠ some e.time.date := by
    rw [hday]
    exact fun h => Date.ne_of_lt hlate (Option.some.inj h).symm
  rw [countVolume, hroll, if_neg hne]

theorem countVolume_of_today {monitor : Monitor} {e : Entry}
    (hday : monitor.day = some e.time.date) :
    monitor.countVolume e =
      ({ monitor with counts := (countEntry monitor.thresholds e monitor.counts).1 },
        (countEntry monitor.thresholds e monitor.counts).2) := by
  have hroll : monitor.rollTo e.time.date = monitor := by
    simp only [rollTo, hday]
    rw [if_neg (Date.not_lt.mpr (Date.le_refl _))]
  rw [countVolume, hroll, if_pos hday]

theorem countVolume_of_later {monitor : Monitor} {e : Entry}
    (hlater : ∀ day, monitor.day = some day → day < e.time.date) :
    monitor.countVolume e =
      ({ monitor with day := some e.time.date, counts := (countEntry monitor.thresholds e .none).1 },
        (countEntry monitor.thresholds e .none).2) := by
  have hroll : monitor.rollTo e.time.date =
      { monitor with day := some e.time.date, counts := .none } := by
    unfold rollTo
    cases hday : monitor.day with
    | none => rfl
    | some day => exact if_pos (hlater day hday)
  rw [countVolume, hroll, if_pos rfl]

/-- An entry is of a day before that of the monitor, of the same day, or of a later one. -/
theorem day_cases (monitor : Monitor) (e : Entry) :
    (∃ day, monitor.day = some day ∧ e.time.date < day) ∨ monitor.day = some e.time.date ∨
    ∀ day, monitor.day = some day → day < e.time.date := by
  cases monitor.day with
  | none => exact Or.inr (Or.inr fun _ h => nomatch h)
  | some day =>
    by_cases hlate : e.time.date < day
    · exact Or.inl ⟨day, rfl, hlate⟩
    · by_cases hlater : day < e.time.date
      · refine Or.inr (Or.inr ?_)
        intro current hcurrent
        rw [← Option.some.inj hcurrent]
        exact hlater
      · have hsame : day = e.time.date :=
          Date.le_antisymm (Date.not_lt.mp hlate) (Date.not_lt.mp hlater)
        exact Or.inr (Or.inl (congrArg some hsame))

/-- Observing an entry keeps the counts a recount. Unless its day is over, it raises the alerts of the
rules that it brings above their thresholds. -/
theorem Recounts.countVolume {monitor : Monitor} {earlier : List Entry}
    (h : monitor.Recounts earlier) (e : Entry) :
    (monitor.countVolume e).1.Recounts (earlier ++ [e]) ∧
    (monitor.countVolume e).1.thresholds = monitor.thresholds ∧
    (monitor.countVolume e).2 =
      if e.isCounted earlier then e.volumeCauses monitor.thresholds earlier else [] := by
  rcases monitor.day_cases e with ⟨day, hday, hlate⟩ | hday | hlater
  case inl =>
    -- The latest day has an entry, which shows that the day of the new one is over.
    have hlatest := h.latest day hday
    obtain ⟨before, hbefore, hdate⟩ := List.mem_map.mp hlatest.1
    have hover : ¬ e.isCounted earlier = true := by
      rw [Entry.isCounted_iff]
      intro hcounted
      have hle := hcounted before hbefore
      rw [hdate] at hle
      exact Date.not_lt.mpr hle hlate
    rw [countVolume_of_late hday hlate, if_neg hover]
    refine ⟨.ofDay hday ?_ ((h.counts day hday).skip (Date.ne_of_lt hlate)), rfl, rfl⟩
    rw [List.map_append]
    exact hlatest.concat (Date.le_of_lt hlate)
  case inr.inl =>
    have hlatest := h.latest _ hday
    obtain ⟨hcounts, hcauses⟩ := (h.counts _ hday).countEntry
    have hopen : e.isCounted earlier = true := by
      rw [Entry.isCounted_iff]
      exact fun before hbefore => hlatest.2 _ (List.mem_map_of_mem hbefore)
    rw [countVolume_of_today hday, if_pos hopen]
    refine ⟨.ofDay hday ?_ hcounts, rfl, hcauses⟩
    rw [List.map_append]
    exact hlatest.concat (Date.le_refl _)
  case inr.inr =>
    have hearlier : ∀ before ∈ earlier, before.time.date < e.time.date := by
      intro before hbefore
      cases hday : monitor.day with
      | none =>
        rw [h.begun hday] at hbefore
        cases hbefore
      | some day =>
        have hle := (h.latest day hday).2 _ (List.mem_map_of_mem hbefore)
        exact Date.lt_of_le_of_lt hle (hlater day hday)
    -- No entry is of the new day yet, so no counts are those of that day.
    have hfresh : DayCounts.none.Recounts monitor.thresholds e.time.date earlier :=
      .none monitor.thresholds fun before hbefore => Date.ne_of_lt (hearlier before hbefore)
    obtain ⟨hcounts, hcauses⟩ := hfresh.countEntry
    have hopen : e.isCounted earlier = true := by
      rw [Entry.isCounted_iff]
      exact fun before hbefore => Date.le_of_lt (hearlier before hbefore)
    rw [countVolume_of_later hlater, if_pos hopen]
    refine ⟨.ofDay rfl ?_ hcounts, rfl, hcauses⟩
    rw [List.map_append]
    refine Date.isLatest_concat ?_
    intro d hd
    obtain ⟨before, hbefore, hdate⟩ := List.mem_map.mp hd
    rw [← hdate]
    exact Date.le_of_lt (hearlier before hbefore)

/-- What an entry raises after the earlier ones. -/
def causesAfter (monitor : Monitor) (earlier : List Entry) (e : Entry) : List AlertCause :=
  delayCauses monitor.threshold e ++ severityCauses e ++
    if e.isCounted earlier then e.volumeCauses monitor.thresholds earlier else []

theorem Recounts.take {monitor : Monitor} {earlier : List Entry} (h : monitor.Recounts earlier)
    (e : Entry) :
    (monitor.take e).1.Recounts (earlier ++ [e]) ∧
    (monitor.take e).1.thresholds = monitor.thresholds ∧
    (monitor.take e).2 = monitor.causesAfter earlier e := by
  have htime : (monitor.addTime e).day = monitor.day ∧
      (monitor.addTime e).counts = monitor.counts ∧
      (monitor.addTime e).thresholds = monitor.thresholds := by
    unfold addTime
    split <;> exact ⟨rfl, rfl, rfl⟩
  obtain ⟨hcounts, hthresholds, hcauses⟩ :=
    (h.congr htime.1 htime.2.1 htime.2.2).countVolume e
  rw [htime.2.2] at hthresholds hcauses
  refine ⟨hcounts, hthresholds, ?_⟩
  rw [causesAfter, ← hcauses]
  rfl

theorem Recounts.observe {monitor : Monitor} {earlier : List Entry} (h : monitor.Recounts earlier)
    (ids : IdSupply) (now : Instant) (e : Entry) :
    (monitor.observe ids now e).1.Recounts (earlier ++ [e]) :=
  (h.take e).1.congr rfl rfl rfl

theorem Recounts.observeAll {monitor : Monitor} {earlier : List Entry}
    (h : monitor.Recounts earlier) (ids : IdSupply) (observed : List (Instant × Entry)) :
    (monitor.observeAll ids observed).1.Recounts (earlier ++ observed.map Prod.snd) := by
  induction observed generalizing monitor earlier ids with
  | nil =>
    rw [List.map_nil, List.append_nil]
    exact h
  | cons first rest ih =>
    obtain ⟨now, e⟩ := first
    have hrest := ih (h.observe ids now e) (monitor.observe ids now e).2.2
    rw [List.append_assoc] at hrest
    exact hrest

end Monitor

end AuditTrail
