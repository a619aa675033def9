import AuditTrail.Proofs.Verification.Exact
import Mathlib.Data.List.Forall2
/-! # Checks that stand alone

The numbers of tampered entries and the gaps are found without a verification, each by a walk of its
own over the entries. `GapAt` says of two neighbours what gaps are between them, in terms of the stored
values. The walks find what a verification finds: the tampered numbers are those of its hash
mismatches, and the gaps in the chain stand for its chain breaks behind the first entry, one for one
and in order (`Verification.walks_agree`). -/

namespace AuditTrail
set_option autoImplicit false

/-! ## Neighbours -/

/-- Each entry but the last, with the one behind it. -/
def neighbours (entries : List Entry) : List (Entry × Entry) := entries.zip entries.tail

/-- The second of two neighbours names another hash than that of the first. -/
def isUnlinked (pair : Entry × Entry) : Bool := decide (pair.2.previousHash ≠ pair.1.hash)

theorem neighbours_cons_cons (before e : Entry) (rest : List Entry) :
    neighbours (before :: e :: rest) = (before, e) :: neighbours (e :: rest) := rfl

/-- What is wrong between two neighbours, given the longest time of quiet in nanoseconds. -/
inductive GapAt (maxQuiet : Int) (before e : Entry) : Gap → Prop where
  /-- More time has passed; the whole minutes of it are told. -/
  | quiet (hlong : maxQuiet < e.time.nanosSince before.time) :
      GapAt maxQuiet before e
        ⟨.quiet (Int.tdiv (e.time.nanosSince before.time) (60 * 1000000000)), before.sequence,
          e.sequence⟩
  /-- The second names another hash than that of the first. -/
  | chain (hlink : e.previousHash ≠ before.hash) :
      GapAt maxQuiet before e ⟨.chain, before.sequence, e.sequence⟩

namespace Gap

def isChain (gap : Gap) : Bool := decide (gap.kind = .chain)

/-- Where the check that finds a gap stands among the checks. -/
def rank (gap : Gap) : Nat :=
  match gap.kind with
  | .quiet _ => 0
  | .chain => 1

/-- The gap in the chain between two neighbours. -/
def ofUnlinked (pair : Entry × Entry) : Gap := ⟨.chain, pair.1.sequence, pair.2.sequence⟩

end Gap

/-- The gaps between two neighbours: all that there are, each once, quiet before the chain. -/
structure AreGaps (maxQuiet : Int) (before e : Entry) (gaps : List Gap) : Prop where
  mem_iff : ∀ gap, gap ∈ gaps ↔ GapAt maxQuiet before e gap
  ordered : gaps.Pairwise fun first second => first.rank < second.rank

namespace Breach

/-- The number of an entry whose hash does not hold. -/
def tamperedSequence? : Breach → Option UInt64
  | .hashMismatch sequence _ => some sequence
  | .chainBreak _ _ _ _ | .sequenceGap _ _ _ | .timeRegression _ _ | .invalidSignature _ _
  | .signatureDowngrade _ _ => none

def isChainBreak : Breach → Bool
  | .chainBreak _ _ _ _ => true
  | .hashMismatch _ _ | .sequenceGap _ _ _ | .timeRegression _ _ | .invalidSignature _ _
  | .signatureDowngrade _ _ => false

/-- The chain break of the second of two neighbours. -/
def ofUnlinked (pair : Entry × Entry) : Breach :=
  .chainBreak pair.2.sequence pair.2.id pair.1.hash pair.2.previousHash

end Breach

/-! ## Gaps -/

namespace Gap

theorem between_eq (maxQuiet : Int) (before e : Entry) : between maxQuiet before e =
    (if maxQuiet < e.time.nanosSince before.time then
      [⟨.quiet (Int.tdiv (e.time.nanosSince before.time) (60 * 1000000000)), before.sequence,
        e.sequence⟩] else []) ++
    if e.previousHash ≠ before.hash then [ofUnlinked (before, e)] else [] := by
  simp only [between, bne_iff_ne, ofUnlinked]
  rfl

theorem areGaps_between (maxQuiet : Int) (before e : Entry) :
    AreGaps maxQuiet before e (between maxQuiet before e) := by
  rw [between_eq]
  constructor
  case mem_iff =>
    intro gap
    rw [List.mem_append]
    constructor
    · rintro (h | h)
      · obtain ⟨hlong, rfl⟩ := List.mem_ite_nil_right.mp h |>.imp_right List.mem_singleton.mp
        exact .quiet hlong
      · obtain ⟨hlink, rfl⟩ := List.mem_ite_nil_right.mp h |>.imp_right List.mem_singleton.mp
        exact .chain hlink
    · intro h
      cases h with
      | quiet hlong => exact Or.inl (by rw [if_pos hlong]; exact List.mem_singleton_self _)
      | chain hlink => exact Or.inr (by rw [if_pos hlink]; exact List.mem_singleton_self _)
  case ordered =>
    split <;> split <;> simp [rank, ofUnlinked]

theorem find_eq (maxQuiet : Int) (entries : List Entry) : find maxQuiet entries =
    ((neighbours entries).map fun pair => between maxQuiet pair.1 pair.2).flatten := by
  induction entries with
  | nil => rfl
  | cons before rest ih =>
    cases rest with
    | nil => rfl
    | cons e rest => rw [find, neighbours_cons_cons, List.map_cons, List.flatten_cons, ← ih]

theorem filter_between (maxQuiet : Int) (pair : Entry × Entry) :
    (between maxQuiet pair.1 pair.2).filter isChain =
      if isUnlinked pair then [ofUnlinked pair] else [] := by
  rw [between_eq, isUnlinked]
  by_cases hlink : pair.2.previousHash = pair.1.hash <;>
    by_cases hlong : maxQuiet < pair.2.time.nanosSince pair.1.time <;>
      simp [hlink, hlong, isChain, ofUnlinked]

/-- The gaps in the chain are those of the neighbours that are not linked. -/
theorem filter_find (maxQuiet : Int) (entries : List Entry) :
    (find maxQuiet entries).filter isChain =
      ((neighbours entries).filter isUnlinked).map ofUnlinked := by
  induction entries with
  | nil => rfl
  | cons before rest ih =>
    -- The walk looks at two entries at a time, so the last one is a case of its own.
    cases rest with
    | nil => rfl
    | cons e rest =>
      rw [find, neighbours_cons_cons, List.filter_append, ih, filter_between maxQuiet (before, e),
        List.filter_cons]
      split <;> rfl

end Gap

/-! ## Breaches -/

namespace Entry

section Places
variable (checker : Option Signer) (i : Nat) (e : Entry)

theorem mem_signatureBreach_cases {breach : Breach} (h : breach ∈ e.signatureBreach checker) :
    breach = .signatureDowngrade e.sequence e.id ∨ breach = .invalidSignature e.sequence e.id := by
  simpa using (e.signatureBreach_sublist checker).subset h

/-- At its place an entry whose hash does not hold, and no other, is found tampered with. -/
theorem filterMap_breaches (before : Option Entry) :
    (e.breaches checker i before).filterMap Breach.tamperedSequence? =
      if !e.isIntact then [e.sequence] else [] := by
  have hsequence : (e.sequenceBreach i).filterMap Breach.tamperedSequence? = [] := by
    rw [sequenceBreach, breachIf]
    split <;> rfl
  have hlink : (e.linkBreach before).filterMap Breach.tamperedSequence? = [] := by
    rw [linkBreach, breachIf]
    split <;> rfl
  have htime : (e.timeBreach before).filterMap Breach.tamperedSequence? = [] := by
    rcases e.timeBreach_cases before with h | h <;> rw [h] <;> rfl
  have hsignature : (e.signatureBreach checker).filterMap Breach.tamperedSequence? = [] := by
    rw [List.filterMap_eq_nil_iff]
    intro breach hbreach
    rcases e.mem_signatureBreach_cases checker hbreach with rfl | rfl <;> rfl
  rw [breaches, List.filterMap_append, List.filterMap_append, List.filterMap_append,
    List.filterMap_append, hsequence, hlink, htime, hsignature, List.nil_append, List.append_nil,
    List.append_nil, List.append_nil, hashBreach, breachIf]
  split <;> rfl

/-- Behind another, an entry breaks the chain exactly when the two are not linked. -/
theorem filter_breaches (before : Entry) :
    (e.breaches checker i (some before)).filter Breach.isChainBreak =
      if isUnlinked (before, e) then [Breach.ofUnlinked (before, e)] else [] := by
  have hsequence : (e.sequenceBreach i).filter Breach.isChainBreak = [] := by
    rw [sequenceBreach, breachIf]
    split <;> rfl
  have hhash : e.hashBreach.filter Breach.isChainBreak = [] := by
    rw [hashBreach, breachIf]
    split <;> rfl
  have htime : (e.timeBreach (some before)).filter Breach.isChainBreak = [] := by
    rcases e.timeBreach_cases (some before) with h | h <;> rw [h] <;> rfl
  have hsignature : (e.signatureBreach checker).filter Breach.isChainBreak = [] := by
    rw [List.filter_eq_nil_iff]
    intro breach hbreach
    rcases e.mem_signatureBreach_cases checker hbreach with rfl | rfl <;> exact Bool.false_ne_true
  have hlink : e.linkBreach (some before) =
      if isUnlinked (before, e) then [Breach.ofUnlinked (before, e)] else [] := by
    simp only [linkBreach, breachIf, linkAfter, isUnlinked, Breach.ofUnlinked, bne_iff_ne,
      decide_eq_true_eq]
  rw [breaches, List.filter_append, List.filter_append, List.filter_append, List.filter_append,
    hsequence, hhash, htime, hsignature, List.nil_append, List.nil_append, List.append_nil,
    List.append_nil, hlink]
  split <;> rfl

end Places

theorem filterMap_breachesFrom (checker : Option Signer) (i : Nat) (before : Option Entry)
    (entries : List Entry) :
    (breachesFrom checker i before entries).flatten.filterMap Breach.tamperedSequence? =
      tamperedSequences entries := by
  induction entries generalizing i before with
  | nil => rfl
  | cons e rest ih =>
    rw [breachesFrom, List.flatten_cons, List.filterMap_append, ih, filterMap_breaches,
      tamperedSequences, tamperedSequences, List.filter_cons]
    split <;> rfl

/-- Behind another entry, the chain breaks are those of the neighbours that are not linked. -/
theorem filter_breachesFrom (checker : Option Signer) (i : Nat) (before : Entry)
    (entries : List Entry) :
    (breachesFrom checker i (some before) entries).flatten.filter Breach.isChainBreak =
      ((neighbours (before :: entries)).filter isUnlinked).map Breach.ofUnlinked := by
  induction entries generalizing i before with
  | nil => rfl
  | cons e rest ih =>
    rw [breachesFrom, List.flatten_cons, List.filter_append, ih, filter_breaches,
      neighbours_cons_cons, List.filter_cons]
    split <;> rfl

theorem filter_tail_breachesFrom (checker : Option Signer) (entries : List Entry) :
    (breachesFrom checker 0 none entries).tail.flatten.filter Breach.isChainBreak =
      ((neighbours entries).filter isUnlinked).map Breach.ofUnlinked := by
  cases entries with
  | nil => rfl
  | cons first rest => exact filter_breachesFrom checker 1 first rest

end Entry

namespace Verification

/-- **The walks agree with a verification.** Of any entries, the tampered numbers are those of the hash
mismatches that a verification finds, whoever checks. The places behind the first break the chain where
two neighbours are not linked, and these are the gaps in the chain, in the same order. Between two
neighbours there is a gap of quiet exactly when more time than allowed has passed, and it stands before
the gap in the chain. -/
theorem walks_agree (checker : Option Signer) (now : Instant) (maxQuiet : Int)
    (entries : List Entry) :
    let v := Verification.of checker now entries
    let gaps := Gap.find maxQuiet entries
    let unlinked := (neighbours entries).filter isUnlinked
    tamperedSequences entries = v.breaches.filterMap Breach.tamperedSequence? ∧
    (∃ found : List (List Breach), found.length = entries.length ∧ v.breaches = found.flatten ∧
      (∀ (i : Nat) (e : Entry) (fs : List Breach), entries[i]? = some e → found[i]? = some fs →
        AreFindings checker entries i e fs) ∧
      found.tail.flatten.filter Breach.isChainBreak = unlinked.map Breach.ofUnlinked) ∧
    gaps.filter Gap.isChain = unlinked.map Gap.ofUnlinked ∧
    ∃ between : List (List Gap), gaps = between.flatten ∧
      List.Forall₂ (fun pair found => AreGaps maxQuiet pair.1 pair.2 found) (neighbours entries)
        between := by
  intro v gaps unlinked
  refine ⟨(Entry.filterMap_breachesFrom ..).symm, ?_, Gap.filter_find maxQuiet entries, ?_⟩
  · exact ⟨_, Entry.length_breachesFrom .., rfl, fun i e fs => Entry.areFindings_of_getElem?,
      Entry.filter_tail_breachesFrom checker entries⟩
  · refine ⟨_, Gap.find_eq maxQuiet entries, ?_⟩
    rw [List.forall₂_map_right_iff, List.forall₂_same]
    exact fun pair _ => Gap.areGaps_between maxQuiet pair.1 pair.2

end Verification

end AuditTrail
