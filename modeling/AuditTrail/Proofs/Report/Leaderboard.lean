import AuditTrail.Proofs.Report.Requestors
import AuditTrail.Proofs.Service.ClosedWindow
import AuditTrail.Proofs.Time.WholeDay
/-! # The leaderboards of requestors

`RequestorShare.IsLeaderboard` says which rows a leaderboard has: one for each requestor that some
takedown names, the busiest first. The report gathers its rows over a window at once; the monitor
gathers them entry by entry and starts anew with each day. On the day of the latest entry both list the
same requestors in the same order with the same counts (`Site.leaderboards_agree`). -/

namespace AuditTrail
set_option autoImplicit false

open scoped CoreInstances

/-! ## Demands -/

namespace Entry

/-- The entry is a takedown whose details name a requestor. -/
def IsDemandOf (requestor : String) (e : Entry) : Prop :=
  e.eventType = "dmca_takedown" ∧ requestor ≠ "" ∧
    ∃ takedownId work framework, e.details = .takedown takedownId requestor work framework

theorem isDemandOf_iff {requestor : String} {e : Entry} :
    e.IsDemandOf requestor ↔ e.takedownRequestor? = some requestor := by
  by_cases ht : e.eventType = "dmca_takedown"
  case pos =>
    cases hd : e.details with
    | takedown takedownId asked work framework =>
      by_cases hempty : asked = ""
      · simp [IsDemandOf, takedownRequestor?, isTakedown, EventDetails.requestor?, ht, hd, hempty,
          eq_comm]
      · simp [IsDemandOf, takedownRequestor?, isTakedown, EventDetails.requestor?, ht, hd, hempty]
        rintro rfl
        exact hempty
    | counterNotice => simp [IsDemandOf, takedownRequestor?, EventDetails.requestor?, hd]
    | reinstatement => simp [IsDemandOf, takedownRequestor?, EventDetails.requestor?, hd]
    | generic => simp [IsDemandOf, takedownRequestor?, EventDetails.requestor?, hd]
  case neg => simp [IsDemandOf, takedownRequestor?, isTakedown, ht]

instance (requestor : String) (e : Entry) : Decidable (e.IsDemandOf requestor) :=
  decidable_of_iff _ isDemandOf_iff.symm

theorem exists_isDemandOf_iff {e : Entry} :
    (∃ requestor, e.IsDemandOf requestor) ↔ e.takedownRequestor?.isSome = true := by
  simp only [isDemandOf_iff, Option.isSome_iff_exists]

instance (e : Entry) : Decidable (∃ requestor, e.IsDemandOf requestor) :=
  decidable_of_iff _ exists_isDemandOf_iff.symm

theorem isRequestOf_eq (requestor : String) (e : Entry) :
    e.isRequestOf requestor = decide (e.IsDemandOf requestor) :=
  decide_eq_decide.mpr isDemandOf_iff.symm

theorem isRequestOn_iff {day : Date} {requestor : String} {e : Entry} :
    e.isRequestOn day requestor = true ↔ e.time.date = day ∧ e.isRequestOf requestor = true := by
  by_cases ht : e.eventType = "dmca_takedown"
  · simp [isRequestOn, isTakedownOn, isRequestOf, takedownRequestor?, isTakedown, ht]
  · simp [isRequestOn, isTakedownOn, isRequestOf, takedownRequestor?, isTakedown, ht]

end Entry

/-! ## The leaderboard of a report -/

namespace RequestorShare

/-- A requestor and the number of the demands. -/
def row (r : RequestorShare) : String × Nat := (r.requestor, r.requests)

/-- More requests come first, and of as many requests the smaller name; no two are equal. -/
def IsBefore (a b : RequestorShare) : Prop :=
  b.requests < a.requests ∨ a.requests = b.requests ∧ a.requestor < b.requestor

/-- The rows of a leaderboard: each requestor that some entry names stands on it once and nobody else
does, with the numbers of its demands and of those that ended well. -/
structure IsLeaderboard (entries : List Entry) (rows : List RequestorShare) : Prop where
  listedOnce : (rows.map requestor).Nodup
  listed : ∀ requestor, requestor ∈ rows.map RequestorShare.requestor ↔
    ∃ e ∈ entries, e.IsDemandOf requestor
  requests : ∀ r ∈ rows, r.requests = entries.countP fun e => e.IsDemandOf r.requestor
  succeeded : ∀ r ∈ rows,
    r.succeeded = entries.countP fun e => decide (e.IsDemandOf r.requestor) && e.isSuccess
  bounds : ∀ r ∈ rows, 1 ≤ r.requests ∧ r.succeeded ≤ r.requests
  sorted : rows.Pairwise IsBefore
  total : (rows.map RequestorShare.requests).sum =
    entries.countP fun e => ∃ requestor, e.IsDemandOf requestor

theorem pairwise_isBefore {rows : List RequestorShare} (distinct : (rows.map requestor).Nodup) :
    (rows.mergeSort isBusier).Pairwise IsBefore := by
  have hsorted : (rows.mergeSort isBusier).Pairwise fun a b => isBusier a b = true :=
    List.pairwise_mergeSort (fun a b c => RequestorCount.isBusierRow_trans a.row b.row c.row)
      (fun a b => RequestorCount.isBusierRow_total a.row b.row) rows
  have hnames : ((rows.mergeSort isBusier).map requestor).Nodup :=
    ((List.mergeSort_perm rows isBusier).map requestor).nodup_iff.mpr distinct
  rw [List.Nodup, List.pairwise_map] at hnames
  -- The sort only says that no row is behind a busier one; that no two rows tie is in the names.
  refine (hsorted.and hnames).imp ?_
  rintro a b ⟨hbusier, hne⟩
  have hrow : RequestorCount.isBusierRow a.row b.row = true := hbusier
  rcases RequestorCount.isBusierRow_iff.mp hrow with hmore | ⟨hsame, hname⟩
  · exact Or.inl hmore
  · exact Or.inr ⟨hsame, String.not_le.mp fun hle => hne (String.le_antisymm hname hle)⟩

theorem sum_requests_add (requestor : String) (success : Bool) (rows : List RequestorShare) :
    ((add requestor success rows).map requests).sum = (rows.map requests).sum + 1 := by
  induction rows with
  | nil => rfl
  | cons r rest ih =>
    rw [add]
    split
    · simp only [List.map_cons, List.sum_cons]
      omega
    · simp only [List.map_cons, List.sum_cons, ih]
      omega

theorem sum_requests_requestorShares (entries : List Entry) :
    ((requestorShares entries).map requests).sum =
      entries.countP fun e => e.takedownRequestor?.isSome := by
  induction entries using List.reverseRecOn with
  | nil => rfl
  | append_singleton earlier e ih =>
    rw [List.countP_append, List.countP_singleton, ← ih, requestorShares, List.foldl_append,
      List.foldl_cons, List.foldl_nil, ← requestorShares]
    cases hdemand : e.takedownRequestor? with
    | some requestor => simp [sum_requests_add]
    | none => simp

theorem AreOf.listed {entries : List Entry} {rows : List RequestorShare} (h : AreOf entries rows)
    (name : String) : name ∈ rows.map requestor ↔ ∃ e ∈ entries, e.IsDemandOf name := by
  constructor
  · intro hname
    obtain ⟨r, hr, rfl⟩ := List.mem_map.mp hname
    obtain ⟨hpositive, hrequests, -⟩ := (h.mem_iff r).mp hr
    rw [hrequests] at hpositive
    obtain ⟨e, he, hdemand⟩ := List.countP_pos_iff.mp hpositive
    rw [Entry.isRequestOf_eq, decide_eq_true_eq] at hdemand
    exact ⟨e, he, hdemand⟩
  · rintro ⟨e, he, hdemand⟩
    have hpositive : 0 < entries.countP (Entry.isRequestOf name) :=
      List.countP_pos_iff.mpr ⟨e, he, by rw [Entry.isRequestOf_eq, decide_eq_true hdemand]⟩
    have hrow : ⟨name, entries.countP (Entry.isRequestOf name),
        entries.countP fun e => e.isRequestOf name && e.isSuccess⟩ ∈ rows :=
      (h.mem_iff _).mpr ⟨hpositive, rfl, rfl⟩
    exact List.mem_map_of_mem hrow

/-- The rows that are gathered make a leaderboard when they are sorted. -/
theorem isLeaderboard_requestorShares (entries : List Entry) :
    IsLeaderboard entries ((requestorShares entries).mergeSort isBusier) := by
  have hrows := areOf_requestorShares entries
  have hperm := List.mergeSort_perm (requestorShares entries) isBusier
  have hmem : ∀ r ∈ (requestorShares entries).mergeSort isBusier,
      0 < r.requests ∧ (r.requests = entries.countP fun e => e.IsDemandOf r.requestor) ∧
        r.succeeded = entries.countP fun e => decide (e.IsDemandOf r.requestor) && e.isSuccess := by
    intro r hr
    simp only [← Entry.isRequestOf_eq]
    exact (hrows.mem_iff r).mp (List.mem_mergeSort.mp hr)
  refine ⟨?_, ?_, fun r hr => (hmem r hr).2.1, fun r hr => (hmem r hr).2.2, ?_,
    pairwise_isBefore hrows.distinct, ?_⟩
  · exact (hperm.map requestor).nodup_iff.mpr hrows.distinct
  · intro name
    rw [(hperm.map requestor).mem_iff]
    exact hrows.listed name
  · intro r hr
    obtain ⟨hpositive, hrequests, hsucceeded⟩ := hmem r hr
    refine ⟨hpositive, ?_⟩
    rw [hrequests, hsucceeded]
    refine List.countP_mono_left ?_
    intro e _ he
    exact (Bool.and_eq_true_iff.mp he).1
  · rw [(hperm.map requests).sum_nat, sum_requests_requestorShares]
    refine List.countP_congr ?_
    intro e _
    rw [decide_eq_true_eq, Entry.exists_isDemandOf_iff]

theorem map_row_mergeSort (rows : List RequestorShare) :
    (rows.mergeSort isBusier).map row = (rows.map row).mergeSort RequestorCount.isBusierRow :=
  List.map_mergeSort fun _ _ _ _ => rfl

theorem AreOf.nodup_rows {entries : List Entry} {rows : List RequestorShare}
    (h : AreOf entries rows) : (rows.map row).Nodup := by
  have hnames : ((rows.map row).map Prod.fst).Nodup := by
    rw [List.map_map]
    exact h.distinct
  exact hnames.of_map Prod.fst

theorem AreOf.mem_rows_iff {entries : List Entry} {rows : List RequestorShare}
    (h : AreOf entries rows) (asked : String × Nat) :
    asked ∈ rows.map row ↔ 0 < asked.2 ∧ entries.countP (Entry.isRequestOf asked.1) = asked.2 := by
  constructor
  · intro hasked
    obtain ⟨r, hr, rfl⟩ := List.mem_map.mp hasked
    obtain ⟨hpositive, hrequests, -⟩ := (h.mem_iff r).mp hr
    exact ⟨hpositive, hrequests.symm⟩
  · rintro ⟨hpositive, hrequests⟩
    have hrow : ⟨asked.1, asked.2,
        entries.countP fun e => e.isRequestOf asked.1 && e.isSuccess⟩ ∈ rows :=
      (h.mem_iff _).mpr ⟨hpositive, hrequests.symm, rfl⟩
    exact List.mem_map_of_mem hrow

end RequestorShare

/-! ## The leaderboard of the monitor -/

namespace Monitor

/-- Where the entries of a window are those of the day that is shown, the monitor lists the first
requestors of the window. -/
theorem Recounts.rows_eq {monitor : Monitor} {entries within : List Entry}
    (h : monitor.Recounts entries) (today : Date)
    (hwithin : ∀ requestor, entries.countP (Entry.isRequestOn (monitor.dayAt today) requestor) =
      within.countP (Entry.isRequestOf requestor)) :
    (monitor.metricsAt today).rows =
      (((requestorShares within).mergeSort RequestorShare.isBusier).map RequestorShare.row).take
        maxListed := by
  have hcounts := (h.shown today).2
  have hshares := RequestorShare.areOf_requestorShares within
  -- Both tables hold the same rows, each once; they may stand in any order before they are sorted.
  have hperm : ((monitor.countsAt today).requestors.map RequestorCount.row).Perm
      ((requestorShares within).map RequestorShare.row) := by
    rw [List.perm_ext_iff_of_nodup (nodup_rows hcounts.kept.listedOnce)
      hshares.nodup_rows]
    intro asked
    have hvolume : requestsOf asked.1 (monitor.countsAt today).requestors =
        entries.countP (Entry.isRequestOn (monitor.dayAt today) asked.1) :=
      hcounts.volume (.takedownsOf asked.1)
    rw [mem_rows_iff hcounts.kept.listedOnce hcounts.kept.positive, hshares.mem_rows_iff, hvolume,
      hwithin]
  rw [rows_metricsAt, RequestorShare.map_row_mergeSort,
    RequestorCount.mergeSort_rows_eq_of_perm hperm]

/-- On the day of the latest of some ordered entries, that day is shown. -/
theorem Recounts.dayAt_last {monitor : Monitor} {entries : List Entry} (h : monitor.Recounts entries)
    (ordered : Ledger.IsOrdered entries) {last : Entry} (hlast : entries.getLast? = some last) :
    monitor.dayAt last.time.date = last.time.date := by
  refine (h.shown last.time.date).1.unique ⟨List.mem_cons_self, ?_⟩
  intro day hday
  rcases List.mem_cons.mp hday with rfl | hday
  · exact Date.le_refl _
  · obtain ⟨e, he, rfl⟩ := List.mem_map.mp hday
    exact Instant.date_le_of_le (ordered.le_last hlast he)

end Monitor

namespace Site

section Started
variable {config : Config} {signer : Signer} {around around' : Surroundings} {service : Service}

/-- On the day of the latest entry the monitor lists the first requestors of any window that has the
entries of that day. -/
theorem rows_metrics_of_start
    (started : Service.start config signer around = .ok (service, around'))
    (ops : List (Instant × Operation)) {now : Instant} {last : Entry}
    (hlast : ((Site.mk service around').run ops).service.ledger.entries.getLast? = some last)
    (htoday : last.time.date = now.date) {start finish : Instant}
    (hwhole : ∀ e ∈ ((Site.mk service around').run ops).service.ledger.entries,
      start ≤ e.time ∧ e.time < finish ↔ e.time.date = now.date) :
    (((Site.mk service around').run ops).service.metrics now).rows =
      ((((requestorShares (((Site.mk service around').run ops).service.ledger.snapshot start
        finish)).mergeSort RequestorShare.isBusier).map RequestorShare.row).take
          Monitor.maxListed) := by
  have hrecount := recounts_of_start started ops
  have hordered := (isChain_of_start started ops).isOrdered
  have hday := hrecount.dayAt_last hordered hlast
  rw [htoday] at hday
  refine hrecount.rows_eq now.date ?_
  intro requestor
  rw [hday, Ledger.snapshot, Ledger.window, List.countP_filter]
  refine List.countP_congr ?_
  intro e he
  rw [Entry.isRequestOn_iff, ← hwhole e he, Bool.and_eq_true, Bool.and_eq_true, decide_eq_true_eq,
    decide_eq_true_eq, and_comm]

end Started

/-- **The leaderboards agree.** The leaderboard of a report is exact for any entries. In a run of a
service that has started, let the latest entry be of the day that the clock shows. Then the monitor
lists the first ten requestors of a report on that whole day, with the same counts. The moments from
midnight to midnight are such a day. -/
theorem leaderboards_agree :
    (∀ (parameters : ScoringParameters Float) (entries : List Entry),
      RequestorShare.IsLeaderboard entries (TakedownAnalysis.of parameters entries).requestors) ∧
    (∀ (config : Config) (signer : Signer) (around around' : Surroundings) (service : Service),
      Service.start config signer around = .ok (service, around') →
        ∀ (ops : List (Instant × Operation)) (now : Instant) (last : Entry),
          let site := (Site.mk service around').run ops
          site.service.ledger.entries.getLast? = some last → last.time.date = now.date →
            ∀ start finish : Instant, start < finish →
              (∀ e ∈ site.service.ledger.entries,
                start ≤ e.time ∧ e.time < finish ↔ e.time.date = now.date) →
              ∀ (kindText : String) (kind : ReportKind),
                ReportKind.read kindText = .ok kind → kind.hasTakedowns = true →
                ∀ reading : Instant, ∃ report analysis,
                  (site.perform reading (.report start finish kindText)).1 = .report report ∧
                  report.takedowns = some analysis ∧
                  (site.service.metrics now).rows =
                    (analysis.requestors.map fun r => (r.requestor, r.requests)).take 10) ∧
    (∀ day next : Date, day.next? = some next →
      Instant.startOf day < Instant.startOf next ∧
        ∀ t : Instant, Instant.startOf day ≤ t ∧ t < Instant.startOf next ↔ t.date = day) := by
  refine ⟨?_, ?_, ?_⟩
  · intro parameters entries
    exact RequestorShare.isLeaderboard_requestorShares entries
  · intro config signer around around' service started ops now last site hlast htoday start finish
      hwindow hwhole kindText kind hkind htakedowns reading
    refine ⟨_, TakedownAnalysis.of site.service.config.scoring
      (site.service.ledger.snapshot start finish), perform_report hwindow hkind site reading,
      if_pos htakedowns, ?_⟩
    exact rows_metrics_of_start started ops hlast htoday hwhole
  · intro day next hnext
    exact ⟨Instant.startOf_lt_next hnext, Instant.within_day_iff hnext⟩

/-- Two requestors are tied on the second day and a third one is behind them. A takedown of the first
day, one without a name and one of another type count for none of them. -/
theorem leaderboards_agree_tied :
    let first : Date := ⟨2024, 2, 29, by decide⟩
    let second : Date := ⟨2024, 3, 1, by decide⟩
    let third : Date := ⟨2024, 3, 2, by decide⟩
    let before : Instant := ⟨first, 86399, 1999999999, by decide⟩
    let now : Instant := ⟨second, 0, 0, by decide⟩
    let demand (requestor : String) : Operation :=
      .record (.takedown "TD-1" "cid" requestor "Work")
    let ops : List (Instant × Operation) :=
      [(before, demand "b@x.example"), (now, demand "b@x.example"), (now, demand "a@x.example"),
       (now, demand "b@x.example"), (now, demand ""), (now, demand "a@x.example"),
       (now, demand "c@x.example"), (now, .record (.counterNotice "CN-1" "cid" "user-1" now))]
    let site := (Site.mk .bare .bare).run ops
    Service.start .standard (.keyless .secp256k1) .bare = .ok (.bare, .bare) ∧
    first.next? = some second ∧ second.next? = some third ∧
    site.service.ledger.entries.getLast?.map (fun e => e.time.date) = some second ∧
    ReportKind.read " DMCA" = .ok .dmca ∧ ReportKind.dmca.hasTakedowns = true ∧
    (site.service.metrics now).rows =
      [("a@x.example", 2), ("b@x.example", 2), ("c@x.example", 1)] ∧
    ∃ report analysis,
      (site.perform before (.report (.startOf second) (.startOf third) " DMCA")).1 =
        .report report ∧
      report.takedowns = some analysis ∧
      (site.service.metrics now).rows =
        (analysis.requestors.map fun r => (r.requestor, r.requests)).take 10 := by
  intro first second third before now demand ops site
  have started : Service.start .standard (.keyless .secp256k1) .bare = .ok (.bare, .bare) := rfl
  have hnext : second.next? = some third := by decide
  have hday : site.service.ledger.entries.getLast?.map (fun e => e.time.date) = some second := by
    decide +kernel
  have hkind : ReportKind.read " DMCA" = .ok .dmca := by rfl
  have hcounted : (site.service.monitor.countsAt second).requestors.map RequestorCount.row =
      [("b@x.example", 2), ("a@x.example", 2), ("c@x.example", 1)] := by
    decide +kernel
  have hrows : (site.service.metrics now).rows =
      [("a@x.example", 2), ("b@x.example", 2), ("c@x.example", 1)] := by
    rw [Service.metrics, Monitor.rows_metricsAt, hcounted,
      RequestorCount.mergeSort_rows_eq_of_perm (List.Perm.swap _ _ _),
      List.mergeSort_of_pairwise (by decide)]
    rfl
  obtain ⟨last, hlast, htoday⟩ := Option.map_eq_some_iff.mp hday
  rw [show site = (Site.mk .bare .bare).run ops from rfl] at hlast
  obtain ⟨-, hagree, hmidnight⟩ := leaderboards_agree
  obtain ⟨hwindow, hwhole⟩ := hmidnight second third hnext
  refine ⟨started, by decide, hnext, hday, hkind, rfl, hrows, ?_⟩
  exact hagree .standard (.keyless .secp256k1) .bare .bare .bare started ops now last hlast htoday
    (.startOf second) (.startOf third) hwindow (fun e _ => hwhole e.time) " DMCA" .dmca hkind rfl
    before

end Site

end AuditTrail
