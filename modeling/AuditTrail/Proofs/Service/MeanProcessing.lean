import AuditTrail.Proofs.Service.Alerts
import AuditTrail.Report.Statistics
import Mathlib.Algebra.Group.Action.Defs
import Mathlib.Algebra.Order.BigOperators.Group.List
import Mathlib.Algebra.Order.Ring.Nat
import Mathlib.Data.Finset.Max
/-! # The mean processing time

The monitor adds up processing times as entries come, the statistics add up those of a list. Both leave
out times of zero and divide by the number of the others. `Monitor.Sums` is kept by every entry, late or
not, so in a run both come to the same mean (`Site.means_agree`). A mean lies between the least and the
greatest of its times; so it fits a word, and the bound that would stand in for it is never used. -/

namespace AuditTrail
set_option autoImplicit false

open scoped CoreInstances

/-! ## The mean of a list -/

/-- The processing times above zero, in milliseconds. -/
def positiveTimes (entries : List Entry) : List Nat :=
  ((entries.filterMap Entry.processingMs).map UInt64.toNat).filter fun ms => decide (0 < ms)

theorem positiveTimes_append (front back : List Entry) :
    positiveTimes (front ++ back) = positiveTimes front ++ positiveTimes back := by
  simp only [positiveTimes, List.filterMap_append, List.map_append, List.filter_append]

/-- The times that are measured are those above zero. -/
theorem positiveTimes_singleton (e : Entry) :
    positiveTimes [e] = (e.processingTime?.map UInt64.toNat).toList := by
  rw [positiveTimes, Entry.processingTime?]
  cases hms : e.processingMs with
  | none => simp [hms]
  | some ms => by_cases hpos : 0 < ms.toNat <;>
      simp [hms, Option.filter, UInt64.lt_iff_toNat_lt, hpos]

theorem positiveTimes_cons (e : Entry) (rest : List Entry) :
    positiveTimes (e :: rest) = (e.processingTime?.map UInt64.toNat).toList ++ positiveTimes rest := by
  rw [← positiveTimes_singleton, ← positiveTimes_append, List.singleton_append]

theorem map_processingTimes (entries : List Entry) :
    (entries.filterMap Entry.processingTime?).map UInt64.toNat = positiveTimes entries := by
  induction entries with
  | nil => rfl
  | cons e rest ih =>
    rw [positiveTimes_cons, ← ih]
    cases htime : e.processingTime? with
    | none => rw [List.filterMap_cons_none htime]; rfl
    | some ms => rw [List.filterMap_cons_some htime]; rfl

theorem mem_positiveTimes_iff {entries : List Entry} {n : Nat} : n ∈ positiveTimes entries ↔
    ∃ e ∈ entries, ∃ ms, e.processingMs = some ms ∧ ms.toNat = n ∧ 0 < n := by
  simp only [positiveTimes, List.mem_filter, List.mem_map, List.mem_filterMap, decide_eq_true_eq]
  constructor
  · rintro ⟨⟨ms, ⟨e, he, hms⟩, hn⟩, hpos⟩
    exact ⟨e, he, ms, hms, hn, hpos⟩
  · rintro ⟨e, he, ms, hms, hn, hpos⟩
    exact ⟨⟨ms, ⟨e, he, hms⟩, hn⟩, hpos⟩

theorem lt_of_mem_positiveTimes {entries : List Entry} {n : Nat} (h : n ∈ positiveTimes entries) :
    n < 2 ^ (64 : Nat) := by
  obtain ⟨e, -, ms, -, rfl, -⟩ := mem_positiveTimes_iff.mp h
  exact ms.toNat_lt

theorem length_positiveTimes (entries : List Entry) : (positiveTimes entries).length =
    entries.countP fun e => e.processingMs.any fun ms => decide (0 < ms) := by
  induction entries with
  | nil => rfl
  | cons e rest ih =>
    rw [positiveTimes_cons, List.length_append, ih, List.countP_cons, Entry.processingTime?]
    cases e.processingMs with
    | none => exact Nat.zero_add _
    | some ms => by_cases hpos : 0 < ms <;> simp [Option.filter, hpos, Nat.add_comm]

theorem length_positiveTimes_le (entries : List Entry) :
    (positiveTimes entries).length ≤ entries.length := by
  rw [length_positiveTimes]
  exact List.countP_le_length

/-- The mean of some numbers lies between the least and the greatest of them. -/
theorem exists_bounds_of_mean {times : List Nat} (hne : times ≠ []) :
    ∃ least ∈ times, ∃ greatest ∈ times, (∀ n ∈ times, least ≤ n ∧ n ≤ greatest) ∧
      least ≤ times.sum / times.length ∧ times.sum / times.length ≤ greatest := by
  have hpos : 0 < times.length := List.length_pos_iff.mpr hne
  obtain ⟨first, hfirst⟩ := List.exists_mem_of_ne_nil times hne
  have hsome : times.toFinset.Nonempty := ⟨first, List.mem_toFinset.mpr hfirst⟩
  obtain ⟨least, hleast, hlow⟩ := times.toFinset.exists_min_image id hsome
  obtain ⟨greatest, hgreatest, hhigh⟩ := times.toFinset.exists_max_image id hsome
  simp only [List.mem_toFinset, id] at hleast hgreatest hlow hhigh
  refine ⟨least, hleast, greatest, hgreatest, fun n hn => ⟨hlow n hn, hhigh n hn⟩, ?_, ?_⟩
  · rw [Nat.le_div_iff_mul_le hpos, Nat.mul_comm, ← smul_eq_mul]
    exact List.card_nsmul_le_sum times least hlow
  · refine Nat.div_le_of_le_mul ?_
    rw [← smul_eq_mul]
    exact List.sum_le_card_nsmul times greatest hhigh

theorem mean_lt (entries : List Entry) :
    (positiveTimes entries).sum / (positiveTimes entries).length < 2 ^ (64 : Nat) := by
  by_cases hnone : positiveTimes entries = []
  · rw [hnone]
    decide
  · obtain ⟨-, -, greatest, hgreatest, -, -, hle⟩ := exists_bounds_of_mean hnone
    exact Nat.lt_of_le_of_lt hle (lt_of_mem_positiveTimes hgreatest)

theorem sum_positiveTimes_lt {entries : List Entry} (hfew : entries.length < 2 ^ (64 : Nat)) :
    (positiveTimes entries).sum < 2 ^ (128 : Nat) := by
  have hle := List.sum_le_card_nsmul (positiveTimes entries) (2 ^ (64 : Nat))
    fun n hn => Nat.le_of_lt (lt_of_mem_positiveTimes hn)
  have hcount := length_positiveTimes_le entries
  rw [smul_eq_mul] at hle
  omega

theorem meanProcessing_eq (entries : List Entry) : meanProcessing entries =
    meanMillis (positiveTimes entries).sum (positiveTimes entries).length := by
  rw [meanProcessing, ← map_processingTimes, List.length_map]

theorem meanProcessing_eq_none_iff (entries : List Entry) :
    meanProcessing entries = none ↔ positiveTimes entries = [] := by
  rw [meanProcessing_eq, meanMillis, if_pos (mean_lt entries), ← List.length_eq_zero_iff]
  split
  · rename_i hzero
    exact iff_of_true rfl hzero
  · rename_i hsome
    exact iff_of_false (Option.some_ne_none _) hsome

theorem toNat_of_meanProcessing {entries : List Entry} {mean : UInt64}
    (h : meanProcessing entries = some mean) :
    mean.toNat = (positiveTimes entries).sum / (positiveTimes entries).length := by
  have hfits := mean_lt entries
  rw [meanProcessing_eq, meanMillis, if_pos hfits] at h
  split at h
  · cases h
  · rw [← Option.some.inj h, UInt64.toNat_ofNat', Nat.mod_eq_of_lt hfits]

/-! ## The sums of the monitor -/

namespace Monitor

/-- The monitor has added up the times of some entries. -/
structure Sums (entries : List Entry) (monitor : Monitor) : Prop where
  processed : monitor.processed = (positiveTimes entries).length
  total : monitor.totalMillis = (positiveTimes entries).sum

theorem Sums.of (config : Config) : (Monitor.of config).Sums [] := ⟨rfl, rfl⟩

theorem Sums.addTime {monitor : Monitor} {entries : List Entry} (h : monitor.Sums entries)
    (e : Entry) : (monitor.addTime e).Sums (entries ++ [e]) := by
  have htimes := positiveTimes_append entries [e]
  rw [positiveTimes_singleton] at htimes
  constructor
  · rw [htimes, List.length_append, ← h.processed, Monitor.addTime]
    cases e.processingTime? <;> rfl
  · rw [htimes, List.sum_append, ← h.total, Monitor.addTime]
    cases e.processingTime? <;> rfl

theorem Sums.congr {monitor other : Monitor} {entries : List Entry} (h : monitor.Sums entries)
    (hprocessed : other.processed = monitor.processed)
    (htotal : other.totalMillis = monitor.totalMillis) : other.Sums entries :=
  ⟨hprocessed.trans h.processed, htotal.trans h.total⟩

/-- Counting an entry for its day, or leaving it out, changes only the day and its counts. -/
theorem countVolume_day_counts (monitor : Monitor) (e : Entry) :
    ∃ day counts, (monitor.countVolume e).1 = { monitor with day, counts } := by
  have hroll : ∃ day counts, monitor.rollTo e.time.date = { monitor with day, counts } := by
    unfold rollTo
    split
    · split
      · exact ⟨_, _, rfl⟩
      · exact ⟨_, _, rfl⟩
    · exact ⟨_, _, rfl⟩
  obtain ⟨day, counts, hroll⟩ := hroll
  unfold countVolume
  simp only [hroll]
  split
  · exact ⟨_, _, rfl⟩
  · exact ⟨_, _, rfl⟩

/-- Every entry that is observed is taken into the sums, on whatever day it was made. -/
theorem Sums.observe {monitor : Monitor} {entries : List Entry} (h : monitor.Sums entries)
    (ids : IdSupply) (now : Instant) (e : Entry) :
    (monitor.observe ids now e).1.Sums (entries ++ [e]) := by
  obtain ⟨day, counts, hafter⟩ := (monitor.addTime e).countVolume_day_counts e
  have htake : (monitor.take e).1 = { monitor.addTime e with day, counts } := hafter
  apply (h.addTime e).congr
  · show (monitor.take e).1.processed = _
    rw [htake]
  · show (monitor.take e).1.totalMillis = _
    rw [htake]

end Monitor

/-! ## Runs -/

namespace Site

theorem sums_run (site : Site) (h : site.service.monitor.Sums site.service.ledger.entries)
    (ops : List (Instant × Operation)) :
    (site.run ops).service.monitor.Sums (site.run ops).service.ledger.entries := by
  induction ops generalizing site with
  | nil => exact h
  | cons first rest ih =>
    obtain ⟨now, operation⟩ := first
    apply ih
    rcases site.perform_raised now operation with ⟨ids, e, hl, hm, -⟩ | ⟨hl, ⟨alerts, hm⟩, -⟩
    · rw [hl, hm]
      exact h.observe ids now e
    · rw [hl, hm]
      exact h.congr rfl rfl

theorem sums_of_start {config : Config} {signer : Signer} {around around' : Surroundings}
    {service : Service} (started : Service.start config signer around = .ok (service, around'))
    (ops : List (Instant × Operation)) :
    ((Site.mk service around').run ops).service.monitor.Sums
      ((Site.mk service around').run ops).service.ledger.entries := by
  obtain ⟨exportPlace, files, -, hservice, -⟩ := Service.start_eq started
  apply sums_run
  rw [hservice]
  exact Monitor.Sums.of config

/-- **The mean processing time is exact and shared.** In any run of a service that has started the
metrics count the entries of the ledger with a processing time above zero, and their mean is that of
the statistics over the ledger. For any entries there is a mean unless no time is above zero; it is the
quotient of the sum of these times and their number, rounded down, and lies between the least and the
greatest of them. So neither for a ledger nor for any other list is the quotient too large for 64 bits,
and the sum fits 128 bits as long as fewer than `2 ^ 64` entries are added up. -/
theorem means_agree (config : Config) (signer : Signer) (around around' : Surroundings)
    (service : Service) (started : Service.start config signer around = .ok (service, around'))
    (ops : List (Instant × Operation)) (now : Instant) :
    let after := ((Site.mk service around').run ops).service
    let entries := after.ledger.entries
    ((after.metrics now).processed =
        entries.countP (fun e => e.processingMs.any fun ms => decide (0 < ms)) ∧
      (after.metrics now).meanMillis = (Statistics.of entries).meanProcessing ∧
      after.monitor.totalMillis / after.monitor.processed < 2 ^ (64 : Nat) ∧
      (entries.length < 2 ^ (64 : Nat) → after.monitor.totalMillis < 2 ^ (128 : Nat))) ∧
    ∀ es : List Entry,
      let times := positiveTimes es
      ((Statistics.of es).meanProcessing = none ↔
        ∀ e ∈ es, ∀ ms, e.processingMs = some ms → ms = 0) ∧
      (∀ mean, (Statistics.of es).meanProcessing = some mean →
        mean.toNat = times.sum / times.length ∧
        ∃ least ∈ times, ∃ greatest ∈ times, (∀ n ∈ times, least ≤ n ∧ n ≤ greatest) ∧
          least ≤ mean.toNat ∧ mean.toNat ≤ greatest) ∧
      times.sum / times.length < 2 ^ (64 : Nat) ∧
      (es.length < 2 ^ (64 : Nat) → times.sum < 2 ^ (128 : Nat)) := by
  intro after entries
  have hsums : after.monitor.Sums entries := sums_of_start started ops
  refine ⟨⟨?_, ?_, ?_, ?_⟩, ?_⟩
  · exact hsums.processed.trans (length_positiveTimes entries)
  · show meanMillis after.monitor.totalMillis after.monitor.processed = meanProcessing entries
    rw [meanProcessing_eq, hsums.processed, hsums.total]
  · rw [hsums.processed, hsums.total]
    exact mean_lt entries
  · rw [hsums.total]
    exact sum_positiveTimes_lt
  · intro es times
    have hnone : times = [] ↔ ∀ e ∈ es, ∀ ms, e.processingMs = some ms → ms = 0 := by
      simp only [times, List.eq_nil_iff_forall_not_mem, mem_positiveTimes_iff]
      constructor
      · intro h e he ms hms
        by_contra hne
        refine h ms.toNat ⟨e, he, ms, hms, rfl, Nat.pos_of_ne_zero ?_⟩
        exact fun hzero => hne (UInt64.toNat_inj.mp hzero)
      · rintro h n ⟨e, he, ms, hms, hn, hpos⟩
        rw [h e he ms hms, UInt64.toNat_zero] at hn
        omega
    refine ⟨(meanProcessing_eq_none_iff es).trans hnone, ?_, mean_lt es, sum_positiveTimes_lt⟩
    intro mean hmean
    have hne : times ≠ [] := by
      intro hempty
      have habsent := (meanProcessing_eq_none_iff es).mpr hempty
      rw [show meanProcessing es = some mean from hmean] at habsent
      cases habsent
    rw [toNat_of_meanProcessing hmean]
    exact ⟨rfl, exists_bounds_of_mean hne⟩

/-- An event that took seven milliseconds, one that took less than one, and one of four milliseconds that
is recorded at a reading of the day before. -/
theorem means_agree_late :
    let today : Instant := .startOf ⟨2024, 3, 1, by decide⟩
    let yesterday : Instant := .startOf ⟨2024, 2, 29, by decide⟩
    let lasting (nanos : Int) : Event :=
      { Event.plain "user_report" "" "cid" "act" .none with elapsed := some nanos }
    let ops : List (Instant × Operation) :=
      [(today, .record (lasting 7999999)), (today, .record (lasting 999999)),
       (yesterday, .record (lasting 4000000))]
    let after := ((Site.mk .bare .bare).run ops).service
    Service.start .standard (.keyless .secp256k1) .bare = .ok (.bare, .bare) ∧
    (after.metrics today).processed = 2 ∧
    ∃ mean, (after.metrics today).meanMillis = some mean ∧
      (Statistics.of after.ledger.entries).meanProcessing = some mean ∧ mean.toNat = 5 := by
  intro today yesterday lasting ops after
  have started : Service.start .standard (.keyless .secp256k1) .bare = .ok (.bare, .bare) := rfl
  obtain ⟨⟨hprocessed, hshared, -, -⟩, hlists⟩ :=
    means_agree .standard (.keyless .secp256k1) .bare .bare .bare started ops today
  have htimes : positiveTimes after.ledger.entries = [7, 4] := by decide +kernel
  have hcount : (after.metrics today).processed = 2 := by
    rw [hprocessed, ← length_positiveTimes, htimes]
    rfl
  refine ⟨started, hcount, ?_⟩
  rw [hshared]
  -- from here on the entries count only for their times
  generalize after.ledger.entries = entries at htimes
  obtain ⟨-, hmean, -, -⟩ := hlists entries
  cases hsome : (Statistics.of entries).meanProcessing with
  | none =>
    have hempty := (meanProcessing_eq_none_iff entries).mp hsome
    rw [htimes] at hempty
    cases hempty
  | some mean =>
    refine ⟨mean, rfl, rfl, ?_⟩
    rw [(hmean mean hsome).1, htimes]
    rfl

end Site

end AuditTrail
