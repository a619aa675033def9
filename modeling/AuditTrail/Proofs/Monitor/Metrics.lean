import AuditTrail.Proofs.Monitor.Recount
import AuditTrail.Proofs.Service.Alerts
/-! # The metrics of a day are a recount

What a monitor shows on a day are the counts over the entries of one day: the latest of that day and
the days of all entries it has observed. So the order in which they were observed does not matter, and
in a run of the service these are the counts over the entries of the ledger
(`Monitor.metrics_recount`). -/

namespace AuditTrail
set_option autoImplicit false

/-! ## The requestors of a day -/

namespace RequestorCount

/-- A requestor and the number of the demands. -/
def row (r : RequestorCount) : String × Nat := (r.requestor, r.count)

/-- More demands come first, and of as many demands the smaller name. -/
def isBusierRow (a b : String × Nat) : Bool :=
  decide (b.2 < a.2) || (a.2 == b.2 && decide (a.1 ≤ b.1))

theorem isBusierRow_iff {a b : String × Nat} :
    isBusierRow a b = true ↔ b.2 < a.2 ∨ a.2 = b.2 ∧ a.1 ≤ b.1 := by
  simp [isBusierRow]

theorem isBusierRow_trans (a b c : String × Nat) (hab : isBusierRow a b = true)
    (hbc : isBusierRow b c = true) : isBusierRow a c = true := by
  rw [isBusierRow_iff] at hab hbc ⊢
  rcases hab with hab | ⟨hab, hname⟩
  · rcases hbc with hbc | ⟨hbc, -⟩
    · exact Or.inl (by omega)
    · exact Or.inl (by omega)
  · rcases hbc with hbc | ⟨hbc, hname'⟩
    · exact Or.inl (by omega)
    · exact Or.inr ⟨hab.trans hbc, String.le_trans hname hname'⟩

theorem isBusierRow_total (a b : String × Nat) : (isBusierRow a b || isBusierRow b a) = true := by
  rw [Bool.or_eq_true, isBusierRow_iff, isBusierRow_iff]
  rcases Nat.lt_trichotomy a.2 b.2 with hlt | heq | hgt
  · exact Or.inr (Or.inl hlt)
  · rcases String.le_total a.1 b.1 with hle | hle
    · exact Or.inl (Or.inr ⟨heq, hle⟩)
    · exact Or.inr (Or.inr ⟨heq.symm, hle⟩)
  · exact Or.inl (Or.inl hgt)

theorem isBusierRow_antisymm {a b : String × Nat} (hab : isBusierRow a b = true)
    (hba : isBusierRow b a = true) : a = b := by
  rw [isBusierRow_iff] at hab hba
  rcases hab with hab | ⟨hcount, hname⟩
  · omega
  · rcases hba with hba | ⟨-, hname'⟩
    · omega
    · exact Prod.ext (String.le_antisymm hname hname') hcount

/-- In whatever order rows stand, they are sorted in one way. -/
theorem mergeSort_rows_eq_of_perm {rows rows' : List (String × Nat)} (reorder : rows.Perm rows') :
    rows.mergeSort isBusierRow = rows'.mergeSort isBusierRow :=
  List.Perm.eq_of_pairwise (fun _ _ _ _ => isBusierRow_antisymm)
    (List.pairwise_mergeSort isBusierRow_trans isBusierRow_total _)
    (List.pairwise_mergeSort isBusierRow_trans isBusierRow_total _)
    ((List.mergeSort_perm _ _).trans (reorder.trans (List.mergeSort_perm _ _).symm))

end RequestorCount

namespace Monitor

theorem map_row_mergeSort (requestors : List RequestorCount) :
    (requestors.mergeSort isBusier).map RequestorCount.row =
      (requestors.map RequestorCount.row).mergeSort RequestorCount.isBusierRow :=
  List.map_mergeSort fun _ _ _ _ => rfl

/-- A requestor is listed once at most, so what is counted for it is the number that is listed. -/
theorem requestsOf_eq {requestors : List RequestorCount}
    (listedOnce : (requestors.map RequestorCount.requestor).Nodup) {r : RequestorCount}
    (hr : r ∈ requestors) : requestsOf r.requestor requestors = r.count := by
  induction requestors with
  | nil => cases hr
  | cons first rest ih =>
    rw [List.map_cons, List.nodup_cons] at listedOnce
    rcases List.mem_cons.mp hr with rfl | hrest
    · simp [requestsOf]
    · have hne : first.requestor ≠ r.requestor := by
        intro heq
        exact listedOnce.1 (List.mem_map.mpr ⟨r, hrest, heq.symm⟩)
      have hfirst := ih listedOnce.2 hrest
      simp only [requestsOf] at hfirst
      simp [requestsOf, hne, hfirst]

theorem mem_rows_iff {requestors : List RequestorCount}
    (listedOnce : (requestors.map RequestorCount.requestor).Nodup)
    (positive : ∀ r ∈ requestors, 0 < r.count) (row : String × Nat) :
    row ∈ requestors.map RequestorCount.row ↔
      0 < row.2 ∧ requestsOf row.1 requestors = row.2 := by
  constructor
  · intro h
    obtain ⟨r, hr, rfl⟩ := List.mem_map.mp h
    exact ⟨positive r hr, requestsOf_eq listedOnce hr⟩
  · rintro ⟨hpos, hcount⟩
    unfold requestsOf at hcount
    split at hcount
    case h_1 r hfind =>
      have hname : r.requestor = row.1 := by
        simpa using List.find?_some hfind
      exact List.mem_map.mpr ⟨r, List.mem_of_find?_eq_some hfind, Prod.ext hname hcount⟩
    case h_2 => omega

theorem nodup_rows {requestors : List RequestorCount}
    (listedOnce : (requestors.map RequestorCount.requestor).Nodup) :
    (requestors.map RequestorCount.row).Nodup := by
  have hnames : ((requestors.map RequestorCount.row).map Prod.fst).Nodup := by
    rw [List.map_map]
    exact listedOnce
  exact List.Pairwise.of_map Prod.fst (fun _ _ hne heq => hne (congrArg Prod.fst heq)) hnames

theorem rows_perm {thresholds others : AlertThresholds} {day : Date} {entries reordered : List Entry}
    {counts recounted : DayCounts} (h : counts.Recounts thresholds day entries)
    (h' : recounted.Recounts others day reordered) (perm : entries.Perm reordered) :
    (counts.requestors.map RequestorCount.row).Perm
      (recounted.requestors.map RequestorCount.row) := by
  rw [List.perm_ext_iff_of_nodup (nodup_rows h.kept.listedOnce)
    (nodup_rows h'.kept.listedOnce)]
  intro row
  have hsame : requestsOf row.1 counts.requestors = requestsOf row.1 recounted.requestors := by
    have hv := h.volume (.takedownsOf row.1)
    have hv' := h'.volume (.takedownsOf row.1)
    exact hv.trans ((perm.countP_eq _).trans hv'.symm)
  rw [mem_rows_iff h.kept.listedOnce h.kept.positive,
    mem_rows_iff h'.kept.listedOnce h'.kept.positive, hsame]

/-- The counts that are shown on a day are those of the day that they are shown for, which is the
latest of that day and the days of the entries. -/
theorem Recounts.shown {monitor : Monitor} {entries : List Entry} (h : monitor.Recounts entries)
    (today : Date) :
    Date.IsLatest (monitor.dayAt today) (today :: entries.map fun e => e.time.date) ∧
    (monitor.countsAt today).Recounts monitor.thresholds (monitor.dayAt today) entries := by
  unfold dayAt countsAt
  cases hday : monitor.day with
  | none =>
    rw [h.begun hday]
    exact ⟨⟨List.mem_cons_self, fun d hd => by
      rw [List.mem_singleton.mp hd]
      exact Date.le_refl today⟩, .none _ (fun _ he => nomatch he)⟩
  | some day =>
    have hlatest := h.latest day hday
    simp only
    by_cases hquiet : day < today
    case pos =>
      have hbefore : ∀ e ∈ entries, e.time.date < today := fun e he =>
        Date.lt_of_le_of_lt (hlatest.2 _ (List.mem_map_of_mem he)) hquiet
      rw [if_pos hquiet, if_pos hquiet]
      refine ⟨⟨List.mem_cons_self, ?_⟩, .none _ fun e he => Date.ne_of_lt (hbefore e he)⟩
      intro d hd
      rcases List.mem_cons.mp hd with rfl | hd
      · exact Date.le_refl _
      · exact Date.le_trans (hlatest.2 d hd) (Date.le_of_lt hquiet)
    case neg =>
      rw [if_neg hquiet, if_neg hquiet]
      refine ⟨⟨List.mem_cons_of_mem _ hlatest.1, ?_⟩, h.counts day hday⟩
      intro d hd
      rcases List.mem_cons.mp hd with rfl | hd
      · exact Date.not_lt.mp hquiet
      · exact hlatest.2 d hd

end Monitor

/-! ## What is shown -/

/-- What is shown on a day are counts over some entries: those of the latest of that day and the days
of the entries. The requestors that are not listed have demanded no more than those who are. -/
structure Metrics.IsRecount (today : Date) (entries : List Entry) (shown : Metrics) : Prop where
  day : Date.IsLatest shown.day (today :: entries.map fun e => e.time.date)
  takedowns : shown.takedowns = entries.countP (Entry.isTakedownOn shown.day)
  counterNotices : shown.counterNotices = entries.countP (Entry.isCounterNoticeOn shown.day)
  requestors : ∀ r ∈ shown.topRequestors,
    r.count = entries.countP (Entry.isRequestOn shown.day r.requestor)
  unlisted : ∀ requestor, 0 < entries.countP (Entry.isRequestOn shown.day requestor) →
    requestor ∈ shown.topRequestors.map RequestorCount.requestor ∨
    shown.topRequestors.length = Monitor.maxListed ∧ ∀ r ∈ shown.topRequestors,
      entries.countP (Entry.isRequestOn shown.day requestor) ≤ r.count

/-- The requestors that are listed, each with its count. -/
def Metrics.rows (shown : Metrics) : List (String × Nat) :=
  shown.topRequestors.map RequestorCount.row

theorem Monitor.rows_metricsAt (monitor : Monitor) (today : Date) :
    (monitor.metricsAt today).rows =
      (((monitor.countsAt today).requestors.map RequestorCount.row).mergeSort
        RequestorCount.isBusierRow).take maxListed := by
  rw [Metrics.rows, metricsAt, List.map_take, map_row_mergeSort]

namespace Monitor

/-- Of requestors that are listed up to some number, the others have no higher count. -/
theorem mem_take_or_le {requestors : List RequestorCount} {r : RequestorCount}
    (hr : r ∈ requestors) (n : Nat) :
    r ∈ (requestors.mergeSort isBusier).take n ∨
    ((requestors.mergeSort isBusier).take n).length = n ∧
      ∀ listed ∈ (requestors.mergeSort isBusier).take n, r.count ≤ listed.count := by
  have hsorted : (requestors.mergeSort isBusier).Pairwise fun a b => isBusier a b = true :=
    List.pairwise_mergeSort
      (fun a b c => RequestorCount.isBusierRow_trans a.row b.row c.row)
      (fun a b => RequestorCount.isBusierRow_total a.row b.row) requestors
  have hmem : r ∈ requestors.mergeSort isBusier := List.mem_mergeSort.mpr hr
  rw [← List.take_append_drop n (requestors.mergeSort isBusier)] at hsorted hmem
  rcases List.mem_append.mp hmem with htake | hdrop
  · exact Or.inl htake
  · have hlength := List.length_pos_of_mem hdrop
    rw [List.length_drop] at hlength
    refine Or.inr ⟨?_, ?_⟩
    · rw [List.length_take]
      omega
    · intro listed hlisted
      have hbusier : RequestorCount.isBusierRow listed.row r.row = true :=
        (List.pairwise_append.mp hsorted).2.2 listed hlisted r hdrop
      rcases RequestorCount.isBusierRow_iff.mp hbusier with hlt | ⟨heq, -⟩
      · exact Nat.le_of_lt hlt
      · exact Nat.le_of_eq heq.symm

theorem Recounts.isRecount {monitor : Monitor} {entries : List Entry} (h : monitor.Recounts entries)
    (today : Date) : (monitor.metricsAt today).IsRecount today entries := by
  obtain ⟨hlatest, hcounts⟩ := h.shown today
  have hrequests : ∀ r ∈ (monitor.countsAt today).requestors,
      r.count = entries.countP (Entry.isRequestOn (monitor.dayAt today) r.requestor) := by
    intro r hr
    rw [← requestsOf_eq hcounts.kept.listedOnce hr]
    exact hcounts.volume (.takedownsOf r.requestor)
  refine ⟨hlatest, hcounts.volume .allTakedowns, hcounts.counterNotices, ?_, ?_⟩
  · intro r hr
    exact hrequests r (List.mem_mergeSort.mp (List.mem_of_mem_take hr))
  · intro requestor hpos
    have hrow : (requestor, requestsOf requestor (monitor.countsAt today).requestors) ∈
        (monitor.countsAt today).requestors.map RequestorCount.row := by
      refine (mem_rows_iff hcounts.kept.listedOnce hcounts.kept.positive _).mpr ⟨?_, rfl⟩
      exact Nat.lt_of_lt_of_eq hpos (hcounts.volume (.takedownsOf requestor)).symm
    obtain ⟨r, hr, hname⟩ := List.mem_map.mp hrow
    have hrequestor : r.requestor = requestor := congrArg Prod.fst hname
    rcases mem_take_or_le hr maxListed with hlisted | ⟨hlength, hle⟩
    · exact Or.inl (List.mem_map.mpr ⟨r, hlisted, hrequestor⟩)
    · refine Or.inr ⟨hlength, ?_⟩
      intro listed hlisted
      have hcount := hrequests r hr
      rw [hrequestor] at hcount
      exact Nat.le_trans (Nat.le_of_eq hcount.symm) (hle listed hlisted)

/-- Monitors that have observed the same entries show the same, whatever the order. -/
theorem Recounts.shown_perm {monitor other : Monitor} {entries reordered : List Entry}
    (h : monitor.Recounts entries) (h' : other.Recounts reordered)
    (perm : entries.Perm reordered) (today : Date) :
    (monitor.metricsAt today).day = (other.metricsAt today).day ∧
    (monitor.metricsAt today).takedowns = (other.metricsAt today).takedowns ∧
    (monitor.metricsAt today).counterNotices = (other.metricsAt today).counterNotices ∧
    (monitor.metricsAt today).rows = (other.metricsAt today).rows := by
  obtain ⟨hlatest, hcounts⟩ := h.shown today
  obtain ⟨hlatest', hcounts'⟩ := h'.shown today
  have hday : monitor.dayAt today = other.dayAt today :=
    (hlatest.perm ((perm.map _).cons today)).unique hlatest'
  rw [hday] at hcounts
  refine ⟨hday, ?_, ?_, ?_⟩
  · have htakedowns := hcounts.volume .allTakedowns
    rw [perm.countP_eq, ← hcounts'.volume] at htakedowns
    exact htakedowns
  · have hnotices := hcounts.counterNotices
    rw [perm.countP_eq, ← hcounts'.counterNotices] at hnotices
    exact hnotices
  · have hperm : ((monitor.countsAt today).requestors.map RequestorCount.row).Perm
        ((other.countsAt today).requestors.map RequestorCount.row) :=
      rows_perm hcounts hcounts' perm
    rw [rows_metricsAt, rows_metricsAt, RequestorCount.mergeSort_rows_eq_of_perm hperm]

end Monitor

/-! ## Runs of the service -/

namespace Site

theorem recounts_run (site : Site)
    (h : site.service.monitor.Recounts site.service.ledger.entries)
    (ops : List (Instant × Operation)) :
    (site.run ops).service.monitor.Recounts (site.run ops).service.ledger.entries := by
  induction ops generalizing site with
  | nil => exact h
  | cons first rest ih =>
    obtain ⟨now, operation⟩ := first
    exact ih _ (recounts_perform h now operation)

theorem recounts_of_start {config : Config} {signer : Signer} {around around' : Surroundings}
    {service : Service} (started : Service.start config signer around = .ok (service, around'))
    (ops : List (Instant × Operation)) :
    ((Site.mk service around').run ops).service.monitor.Recounts
      ((Site.mk service around').run ops).service.ledger.entries := by
  obtain ⟨exportPlace, files, -, hservice, -⟩ := Service.start_eq started
  refine recounts_run _ ?_ ops
  rw [hservice]
  exact Monitor.Recounts.of config

end Site

/-- **The metrics are a recount.** Whatever a monitor has observed, what it shows on any day are the
counts over these entries of the latest of that day and their days, and in another order they would
give the same. In a run of a service that has started, at any reading of the clock, they are the
counts over the ledger. -/
theorem Monitor.metrics_recount :
    (∀ (config : Config) (ids : IdSupply) (observed : List (Instant × Entry)) (today : Date),
      (((Monitor.of config).observeAll ids observed).1.metricsAt today).IsRecount today
        (observed.map Prod.snd)) ∧
    (∀ (config : Config) (ids ids' : IdSupply) (observed reordered : List (Instant × Entry)),
      (observed.map Prod.snd).Perm (reordered.map Prod.snd) → ∀ today : Date,
        let shown := ((Monitor.of config).observeAll ids observed).1.metricsAt today
        let shown' := ((Monitor.of config).observeAll ids' reordered).1.metricsAt today
        shown.day = shown'.day ∧ shown.takedowns = shown'.takedowns ∧
          shown.counterNotices = shown'.counterNotices ∧ shown.rows = shown'.rows) ∧
    (∀ (config : Config) (signer : Signer) (around around' : Surroundings) (service : Service),
      Service.start config signer around = .ok (service, around') →
        ∀ (ops : List (Instant × Operation)) (now : Instant),
          let site := (Site.mk service around').run ops
          (site.service.metrics now).IsRecount now.date site.service.ledger.entries) := by
  have hcounts : ∀ (config : Config) (ids : IdSupply) (observed : List (Instant × Entry)),
      ((Monitor.of config).observeAll ids observed).1.Recounts (observed.map Prod.snd) :=
    fun config ids observed => (Monitor.Recounts.of config).observeAll ids observed
  refine ⟨?_, ?_, ?_⟩
  · intro config ids observed today
    exact (hcounts config ids observed).isRecount today
  · intro config ids ids' observed reordered perm today
    exact (hcounts config ids observed).shown_perm (hcounts config ids' reordered) perm today
  · intro config signer around around' service started ops now
    exact (Site.recounts_of_start started ops).isRecount now.date

/-- A takedown that is observed after one of a later day, and a run over both days. -/
theorem Monitor.metrics_recount_late :
    let signer : Signer := .keyless .secp256k1
    let first : Instant := .startOf ⟨2024, 3, 1, by decide⟩
    let second : Instant := .startOf ⟨2024, 3, 2, by decide⟩
    let event : Event := .takedown "TD-1" "cid" "a@x.example" "Work"
    let late := Ledger.empty.entryOf .standard signer first "AE-1" event
    let recent := Ledger.empty.entryOf .standard signer second "AE-2" event
    let observed : List (Instant × Entry) := [(second, recent), (second, late)]
    let reordered : List (Instant × Entry) := [(first, late), (second, recent)]
    let ids := Surroundings.bare.ids
    let shown := ((Monitor.of .standard).observeAll ids observed).1.metricsAt first.date
    let shown' := ((Monitor.of .standard).observeAll ids reordered).1.metricsAt first.date
    let ops : List (Instant × Operation) := [(first, .record event), (second, .record event)]
    (observed.map Prod.snd).Perm (reordered.map Prod.snd) ∧
    Service.start .standard signer .bare = .ok (.bare, .bare) ∧
    shown.IsRecount first.date [recent, late] ∧
    (shown.day = second.date ∧ shown.takedowns = 1 ∧ shown.rows = [("a@x.example", 1)]) ∧
    (shown.day = shown'.day ∧ shown.takedowns = shown'.takedowns ∧
      shown.counterNotices = shown'.counterNotices ∧ shown.rows = shown'.rows) ∧
    (((Site.mk .bare .bare).run ops).service.metrics first).IsRecount first.date
      ((Site.mk .bare .bare).run ops).service.ledger.entries := by
  intro signer first second event late recent observed reordered ids shown shown' ops
  have perm : (observed.map Prod.snd).Perm (reordered.map Prod.snd) := List.Perm.swap late recent []
  have started : Service.start .standard signer .bare = .ok (.bare, .bare) := rfl
  obtain ⟨hrecount, hreordered, hrun⟩ := Monitor.metrics_recount
  refine ⟨perm, started, ?_, ⟨?_, ?_, ?_⟩, ?_, ?_⟩
  · exact hrecount .standard ids observed first.date
  · decide +kernel
  · decide +kernel
  · decide +kernel
  · exact hreordered .standard ids ids observed reordered perm first.date
  · exact hrun .standard signer .bare .bare .bare started ops first

end AuditTrail
