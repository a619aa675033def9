import AuditTrail.Monitor
import AuditTrail.Proofs.Time.Day
/-! # The counts of a day

`DayCounts.Recounts` says that counts are those of the entries of a day, and that a rule has fired
exactly when its count is above its threshold. It is kept by the entries of other days, which are not
counted, and by counting one more of the day; that raises the alerts of the rules whose counts were at
their thresholds (`DayCounts.Recounts.countEntry`). -/

namespace AuditTrail
set_option autoImplicit false

/-! ## What is counted -/

namespace Entry

/-- The entry is a takedown of a day. -/
def isTakedownOn (day : Date) (e : Entry) : Bool :=
  decide (e.eventType = "dmca_takedown" ∧ e.time.date = day)

/-- The entry is an objection of a day. -/
def isCounterNoticeOn (day : Date) (e : Entry) : Bool :=
  decide (e.eventType = "dmca_counter_notice" ∧ e.time.date = day)

/-- The entry is a takedown of a day that a requestor has demanded. -/
def isRequestOn (day : Date) (requestor : String) (e : Entry) : Bool :=
  e.isTakedownOn day && decide (e.details.requestor? = some requestor)

/-- The rules that the entry counts for. -/
def rules (e : Entry) : List VolumeRule :=
  if e.eventType = "dmca_takedown" then
    match e.details.requestor? with
    | some requestor => [.allTakedowns, .takedownsOf requestor]
    | none => [.allTakedowns]
  else []

end Entry

namespace VolumeRule

/-- The entry is of a day and counts for the rule. -/
def covers (day : Date) : VolumeRule → Entry → Bool
  | .allTakedowns => Entry.isTakedownOn day
  | .takedownsOf requestor => Entry.isRequestOn day requestor

/-- How many entries of a day may count for the rule without an alert. -/
def threshold (thresholds : AlertThresholds) : VolumeRule → UInt64
  | .allTakedowns => thresholds.takedownsPerDay
  | .takedownsOf _ => thresholds.takedownsPerRequestor

/-- The alert of the rule at a count. -/
def cause (thresholds : AlertThresholds) (count : Nat) : VolumeRule → AlertCause
  | .allTakedowns => .takedownVolume count thresholds.takedownsPerDay
  | .takedownsOf requestor => .requestorVolume requestor count thresholds.takedownsPerRequestor

/-- What an entry raises for a rule that some entries have counted for before. -/
def crossing (thresholds : AlertThresholds) (rule : VolumeRule) (before : Nat) : List AlertCause :=
  if before = (rule.threshold thresholds).toNat then [rule.cause thresholds (before + 1)] else []

theorem key_takedownsOf_ne (requestor : String) :
    (takedownsOf requestor).key ≠ allTakedowns.key := by
  intro h
  have hhead : ("requestor_volume:" ++ requestor).toList.head? = some 'h' := by
    rw [show "requestor_volume:" ++ requestor = "high_takedown_volume" from h]
    decide
  have hlead : "requestor_volume:".toList.head? = some 'r' := by decide
  rw [String.toList_append, List.head?_append, hlead] at hhead
  cases hhead

theorem key_injective {a b : VolumeRule} (h : a.key = b.key) : a = b := by
  cases a with
  | allTakedowns =>
    cases b with
    | allTakedowns => rfl
    | takedownsOf other => exact absurd h.symm (key_takedownsOf_ne other)
  | takedownsOf requestor =>
    cases b with
    | allTakedowns => exact absurd h (key_takedownsOf_ne requestor)
    | takedownsOf other =>
      have hlist : ("requestor_volume:" ++ requestor).toList =
          ("requestor_volume:" ++ other).toList := congrArg String.toList h
      rw [String.toList_append, String.toList_append, List.append_cancel_left_eq] at hlist
      rw [String.toList_inj.mp hlist]

theorem covers_iff (day : Date) (rule : VolumeRule) (e : Entry) :
    rule.covers day e = true ↔ rule ∈ e.rules ∧ e.time.date = day := by
  unfold Entry.rules
  cases rule with
  | allTakedowns =>
    by_cases ht : e.eventType = "dmca_takedown"
    · cases e.details.requestor? <;> simp [covers, Entry.isTakedownOn, ht]
    · simp [covers, Entry.isTakedownOn, ht]
  | takedownsOf asked =>
    by_cases ht : e.eventType = "dmca_takedown"
    · cases hr : e.details.requestor? with
      | none => simp [covers, Entry.isRequestOn, hr]
      | some requestor =>
        simp [covers, Entry.isRequestOn, Entry.isTakedownOn, ht, hr, and_comm,
          @eq_comm _ requestor]
    · simp [covers, Entry.isRequestOn, Entry.isTakedownOn, ht]

theorem countP_concat (rule : VolumeRule) (earlier : List Entry) (e : Entry) :
    (earlier ++ [e]).countP (rule.covers e.time.date) =
      earlier.countP (rule.covers e.time.date) + if rule ∈ e.rules then 1 else 0 := by
  rw [List.countP_append, List.countP_singleton]
  congr 1
  by_cases h : rule ∈ e.rules
  · rw [if_pos h, if_pos ((rule.covers_iff _ e).mpr ⟨h, rfl⟩)]
  · rw [if_neg h, if_neg fun hc => h ((rule.covers_iff _ e).mp hc).1]

end VolumeRule

/-- The alerts about volumes that an entry raises after the earlier ones, if its day is not over. -/
def Entry.volumeCauses (thresholds : AlertThresholds) (earlier : List Entry) (e : Entry) :
    List AlertCause :=
  e.rules.flatMap fun rule => rule.crossing thresholds (earlier.countP (rule.covers e.time.date))

/-! ## One more for a rule -/

namespace Monitor

theorem requestsOf_addRequest (asked requestor : String) (time : Instant)
    (counts : List RequestorCount) : requestsOf asked (addRequest requestor time counts) =
      requestsOf asked counts + if asked = requestor then 1 else 0 := by
  induction counts with
  | nil =>
    by_cases h : requestor = asked
    · subst h
      simp [addRequest, requestsOf]
    · simp [addRequest, requestsOf, h, Ne.symm h]
  | cons r rest ih =>
    by_cases hr : r.requestor = requestor
    · subst hr
      by_cases h : r.requestor = asked
      · subst h
        simp [addRequest, requestsOf]
      · simp [addRequest, requestsOf, h, Ne.symm h]
    · by_cases h : r.requestor = asked
      · subst h
        simp [addRequest, requestsOf, hr]
      · simp only [requestsOf] at ih
        simp [addRequest, requestsOf, hr, h, ih]

theorem mem_addRequest {r : RequestorCount} {requestor : String} {time : Instant}
    {counts : List RequestorCount} (h : r ∈ addRequest requestor time counts) :
    r ∈ counts ∨ r.requestor = requestor ∧ 0 < r.count := by
  induction counts with
  | nil =>
    rw [addRequest, List.mem_singleton] at h
    subst h
    exact Or.inr ⟨rfl, Nat.one_pos⟩
  | cons first rest ih =>
    rw [addRequest] at h
    split at h
    · rcases List.mem_cons.mp h with rfl | hrest
      · exact Or.inr ⟨rfl, Nat.succ_pos _⟩
      · exact Or.inl (List.mem_cons_of_mem _ hrest)
    · rcases List.mem_cons.mp h with rfl | hrest
      · exact Or.inl List.mem_cons_self
      · exact (ih hrest).imp_left (List.mem_cons_of_mem _)

theorem nodup_addRequest (requestor : String) (time : Instant) {counts : List RequestorCount}
    (h : (counts.map RequestorCount.requestor).Nodup) :
    ((addRequest requestor time counts).map RequestorCount.requestor).Nodup := by
  induction counts with
  | nil => simp [addRequest]
  | cons first rest ih =>
    rw [List.map_cons, List.nodup_cons] at h
    rw [addRequest]
    split
    case isTrue heq =>
      rw [List.map_cons, List.nodup_cons, ← heq]
      exact h
    case isFalse hne =>
      rw [List.map_cons, List.nodup_cons]
      refine ⟨?_, ih h.2⟩
      intro hmem
      obtain ⟨r, hr, hname⟩ := List.mem_map.mp hmem
      rcases mem_addRequest hr with hold | ⟨hnew, -⟩
      · exact h.1 (List.mem_map.mpr ⟨r, hold, hname⟩)
      · exact hne (hname.symm.trans hnew)

end Monitor

namespace DayCounts

/-- The count that a rule looks at. -/
def volume (counts : DayCounts) : VolumeRule → Nat
  | .allTakedowns => counts.takedowns
  | .takedownsOf requestor => Monitor.requestsOf requestor counts.requestors

/-- Requestors are listed once, and those who have demanded something; the rules that have fired are
those whose counts are above their thresholds. -/
structure IsKept (thresholds : AlertThresholds) (counts : DayCounts) : Prop where
  listedOnce : (counts.requestors.map RequestorCount.requestor).Nodup
  positive : ∀ r ∈ counts.requestors, 0 < r.count
  fired : ∀ rule : VolumeRule,
    rule.key ∈ counts.fired ↔ (rule.threshold thresholds).toNat < counts.volume rule

theorem IsKept.none (thresholds : AlertThresholds) : DayCounts.none.IsKept thresholds where
  listedOnce := List.nodup_nil
  positive := fun _ hr => nomatch hr
  fired := by
    intro rule
    cases rule <;> simp [DayCounts.none, volume, Monitor.requestsOf]

@[simp]
theorem volume_mk (counts : DayCounts) (counterNotices : Nat) (fired : List String)
    (rule : VolumeRule) : volume { counts with counterNotices, fired } rule = counts.volume rule := by
  cases rule <;> rfl

/-- The counts with one more for a rule, and the alert that this raises. -/
structure CountedFor (thresholds : AlertThresholds) (rule : VolumeRule) (before : DayCounts)
    (after : DayCounts × List AlertCause) : Prop where
  kept : after.1.IsKept thresholds
  volume : ∀ other, after.1.volume other = before.volume other + if other = rule then 1 else 0
  counterNotices : after.1.counterNotices = before.counterNotices
  causes : after.2 = rule.crossing thresholds (before.volume rule)

/-- A rule whose count has grown by one fires exactly if the count was at the threshold. -/
theorem countedFor_fire {thresholds : AlertThresholds} {rule : VolumeRule}
    {before counts : DayCounts} (h : before.IsKept thresholds)
    (listedOnce : (counts.requestors.map RequestorCount.requestor).Nodup)
    (positive : ∀ r ∈ counts.requestors, 0 < r.count)
    (grown : ∀ other, counts.volume other = before.volume other + if other = rule then 1 else 0)
    (same : counts.counterNotices = before.counterNotices ∧ counts.fired = before.fired) :
    CountedFor thresholds rule before
      (Monitor.fire rule (counts.volume rule) (rule.threshold thresholds)
        (rule.cause thresholds (counts.volume rule)) counts) := by
  have hrule : counts.volume rule = before.volume rule + 1 := by
    rw [grown, if_pos rfl]
  have hother : ∀ other, other ≠ rule → counts.volume other = before.volume other := by
    intro other hne
    rw [grown, if_neg hne, Nat.add_zero]
  have hbefore : rule.key ∈ counts.fired ↔
      (rule.threshold thresholds).toNat < before.volume rule := by
    rw [same.2]
    exact h.fired rule
  have hfired : ∀ other, other ≠ rule →
      (other.key ∈ counts.fired ↔ (other.threshold thresholds).toNat < counts.volume other) := by
    intro other hne
    rw [same.2, hother other hne]
    exact h.fired other
  -- Below the threshold the count does not get above it; above it the rule has fired already.
  by_cases hat : before.volume rule = (rule.threshold thresholds).toNat
  case pos =>
    have hfires : (rule.threshold thresholds).toNat < counts.volume rule ∧
        rule.key ∉ counts.fired := by
      rw [hbefore]
      omega
    rw [Monitor.fire, if_pos hfires]
    refine ⟨⟨listedOnce, positive, ?_⟩, ?_, same.1, ?_⟩
    · intro other
      simp only [volume_mk, List.mem_cons]
      by_cases ho : other = rule
      · subst ho
        exact iff_of_true (Or.inl rfl) hfires.1
      · rw [← hfired other ho]
        exact or_iff_right fun hkey => ho (VolumeRule.key_injective hkey)
    · intro other
      simp only [volume_mk]
      exact grown other
    · rw [VolumeRule.crossing, if_pos hat, hrule]
  case neg =>
    have hstays : ¬ ((rule.threshold thresholds).toNat < counts.volume rule ∧
        rule.key ∉ counts.fired) := by
      rw [hbefore]
      omega
    rw [Monitor.fire, if_neg hstays]
    refine ⟨⟨listedOnce, positive, ?_⟩, grown, same.1, ?_⟩
    · intro other
      by_cases ho : other = rule
      · subst ho
        simp only [hbefore, hrule]
        omega
      · exact hfired other ho
    · rw [VolumeRule.crossing, if_neg hat]

theorem countedFor_countTakedown {thresholds : AlertThresholds} {counts : DayCounts}
    (h : counts.IsKept thresholds) :
    CountedFor thresholds .allTakedowns counts (Monitor.countTakedown thresholds counts) := by
  refine @countedFor_fire thresholds .allTakedowns counts
    { counts with takedowns := counts.takedowns + 1 } h h.listedOnce h.positive ?_ ⟨rfl, rfl⟩
  intro other
  cases other with
  | allTakedowns => simp [volume]
  | takedownsOf requestor => simp [volume]

theorem countedFor_countRequest {thresholds : AlertThresholds} {counts : DayCounts}
    (h : counts.IsKept thresholds) (requestor : String) (time : Instant) :
    CountedFor thresholds (.takedownsOf requestor) counts
      (Monitor.countRequest thresholds requestor time counts) := by
  refine @countedFor_fire thresholds (.takedownsOf requestor) counts
    { counts with requestors := Monitor.addRequest requestor time counts.requestors } h
    (Monitor.nodup_addRequest requestor time h.listedOnce) ?_ ?_ ⟨rfl, rfl⟩
  · intro r hr
    rcases Monitor.mem_addRequest hr with hold | ⟨-, hpos⟩
    · exact h.positive r hold
    · exact hpos
  · intro other
    cases other with
    | allTakedowns => simp [volume]
    | takedownsOf asked => simp [volume, Monitor.requestsOf_addRequest]

/-! ## An entry of the day -/

/-- The counts are those of the entries of a day. -/
structure Recounts (thresholds : AlertThresholds) (day : Date) (entries : List Entry)
    (counts : DayCounts) : Prop where
  kept : counts.IsKept thresholds
  volume : ∀ rule, counts.volume rule = entries.countP (rule.covers day)
  counterNotices : counts.counterNotices = entries.countP (Entry.isCounterNoticeOn day)

section Counting
variable {thresholds : AlertThresholds} {earlier : List Entry} {counts after : DayCounts} {e : Entry}
  (h : counts.Recounts thresholds e.time.date earlier)
include h

theorem Recounts.concat (kept : after.IsKept thresholds)
    (volume : ∀ rule, after.volume rule = counts.volume rule + if rule ∈ e.rules then 1 else 0)
    (counterNotices : after.counterNotices =
      counts.counterNotices + if e.eventType = "dmca_counter_notice" then 1 else 0) :
    after.Recounts thresholds e.time.date (earlier ++ [e]) where
  kept := kept
  volume := by
    intro rule
    rw [volume, h.volume, rule.countP_concat]
  counterNotices := by
    rw [counterNotices, h.counterNotices, List.countP_append, List.countP_singleton]
    simp [Entry.isCounterNoticeOn]

/-- A takedown counts for the day and then for its requestor. -/
theorem Recounts.countEntry_takedown (ht : e.eventType = "dmca_takedown") :
    (Monitor.countEntry thresholds e counts).1.Recounts thresholds e.time.date (earlier ++ [e]) ∧
    (Monitor.countEntry thresholds e counts).2 = e.volumeCauses thresholds earlier := by
  have hdaily := countedFor_countTakedown h.kept
  have hnotice : ¬ e.eventType = "dmca_counter_notice" := by
    rw [ht]
    decide
  rw [Monitor.countEntry, if_pos ht]
  cases hr : e.details.requestor? with
  | none =>
    have hrules : e.rules = [.allTakedowns] := by
      simp [Entry.rules, ht, hr]
    refine ⟨h.concat hdaily.kept ?_ ?_, ?_⟩
    · intro rule
      rw [hdaily.volume, hrules]
      simp only [List.mem_singleton]
    · rw [if_neg hnotice]
      exact hdaily.counterNotices
    · rw [hdaily.causes, h.volume, Entry.volumeCauses, hrules, List.flatMap_singleton]
  | some requestor =>
    have hown := countedFor_countRequest hdaily.kept requestor e.time
    have hrules : e.rules = [.allTakedowns, .takedownsOf requestor] := by
      simp [Entry.rules, ht, hr]
    refine ⟨h.concat hown.kept ?_ ?_, ?_⟩
    · intro rule
      rw [hown.volume, hdaily.volume, hrules]
      cases rule <;> simp
    · rw [if_neg hnotice]
      exact hown.counterNotices.trans hdaily.counterNotices
    · show (Monitor.countTakedown thresholds counts).2 ++ (Monitor.countRequest thresholds requestor
        e.time (Monitor.countTakedown thresholds counts).1).2 = e.volumeCauses thresholds earlier
      -- The takedown has left the count of the requestor as it was.
      rw [hown.causes, hdaily.causes, hdaily.volume, if_neg nofun, Nat.add_zero, h.volume, h.volume,
        Entry.volumeCauses, hrules, List.flatMap_cons, List.flatMap_singleton]

/-- What is no takedown counts for no rule. -/
theorem Recounts.countEntry_other (ht : e.eventType ≠ "dmca_takedown") :
    (Monitor.countEntry thresholds e counts).1.Recounts thresholds e.time.date (earlier ++ [e]) ∧
    (Monitor.countEntry thresholds e counts).2 = e.volumeCauses thresholds earlier := by
  have hrules : e.rules = [] := by
    simp [Entry.rules, ht]
  have hcauses : [] = e.volumeCauses thresholds earlier := by
    rw [Entry.volumeCauses, hrules, List.flatMap_nil]
  rw [Monitor.countEntry, if_neg ht]
  by_cases hn : e.eventType = "dmca_counter_notice"
  · rw [if_pos hn]
    refine ⟨h.concat ⟨h.kept.listedOnce, h.kept.positive, ?_⟩ ?_ ?_, hcauses⟩
    · intro rule
      simp only [volume_mk]
      exact h.kept.fired rule
    · intro rule
      simp only [volume_mk, hrules, List.not_mem_nil, if_false, Nat.add_zero]
    · rw [if_pos hn]
  · rw [if_neg hn]
    refine ⟨h.concat h.kept ?_ ?_, hcauses⟩
    · intro rule
      rw [hrules, if_neg List.not_mem_nil, Nat.add_zero]
    · rw [if_neg hn, Nat.add_zero]

theorem Recounts.countEntry :
    (Monitor.countEntry thresholds e counts).1.Recounts thresholds e.time.date (earlier ++ [e]) ∧
    (Monitor.countEntry thresholds e counts).2 = e.volumeCauses thresholds earlier := by
  by_cases ht : e.eventType = "dmca_takedown"
  · exact h.countEntry_takedown ht
  · exact h.countEntry_other ht

end Counting

/-! ## Entries of other days -/

theorem Recounts.skip {thresholds : AlertThresholds} {day : Date} {earlier : List Entry}
    {counts : DayCounts} (h : counts.Recounts thresholds day earlier) {e : Entry}
    (hday : e.time.date ≠ day) : counts.Recounts thresholds day (earlier ++ [e]) where
  kept := h.kept
  volume := by
    intro rule
    have hnot : ¬ rule.covers day e = true := fun hc => hday ((rule.covers_iff day e).mp hc).2
    rw [h.volume, List.countP_append, List.countP_singleton, if_neg hnot, Nat.add_zero]
  counterNotices := by
    rw [h.counterNotices]
    simp [Entry.isCounterNoticeOn, hday]

theorem Recounts.none (thresholds : AlertThresholds) {day : Date} {earlier : List Entry}
    (hday : ∀ e ∈ earlier, e.time.date ≠ day) :
    DayCounts.none.Recounts thresholds day earlier where
  kept := IsKept.none thresholds
  volume := by
    intro rule
    have hzero : earlier.countP (rule.covers day) = 0 :=
      List.countP_eq_zero.mpr fun e he hc => hday e he ((rule.covers_iff day e).mp hc).2
    rw [hzero]
    cases rule <;> rfl
  counterNotices := by
    refine (List.countP_eq_zero.mpr ?_).symm
    intro e he hc
    exact hday e he (of_decide_eq_true hc).2

end DayCounts

end AuditTrail
