import AuditTrail.Proofs.Verification.Exact
import AuditTrail.Score.Scorer
/-! # What the completeness score counts

An entry is complete when it is proven, if proof is asked for, and named, and has the legal basis that
it needs. The score takes off one penalty for entries that are not proven and another for entries that
are not named or have no basis. An entry can fall short of proof in two ways at once, and of the rest
too; it is then counted for each. So the tallies are the numbers of entries that fall short exactly
when none does so in both ways (`CompletenessTally.counts_shortcomings`). -/

namespace AuditTrail
set_option autoImplicit false

open scoped CoreInstances

namespace Entry

/-! ## Complete entries -/

/-- Hash and signature are there, and the hash is the one that the facts ask for. -/
structure IsProven (e : Entry) : Prop where
  hash : e.hash ≠ ""
  signature : e.signature ≠ ""
  intact : e.hash = e.fingerprint

/-- The entry has an id, a time, a type and an action. -/
structure IsNamed (e : Entry) : Prop where
  id : e.id ≠ ""
  time : Instant.unset < e.time
  eventType : e.eventType ≠ ""
  action : e.action ≠ ""

/-- The entry names a legal basis if its type asks for one. -/
def HasBasis (e : Entry) : Prop := e.needsLegalBasis = true → e.hasLegalBasis = true

/-- All that an entry needs but proof. -/
def HasFields (e : Entry) : Prop := e.IsNamed ∧ e.HasBasis

/-- The signature is missing, and the hash that is there is a wrong one. -/
structure IsUnprovenTwice (e : Entry) : Prop where
  signature : e.signature = ""
  hash : e.hash ≠ ""
  wrong : e.hash ≠ e.fingerprint

/-- The entry is not named, and it has not the legal basis that it needs. -/
def LacksTwice (e : Entry) : Prop := ¬ e.IsNamed ∧ ¬ e.HasBasis

theorem isProven_iff {e : Entry} :
    e.IsProven ↔ e.hash ≠ "" ∧ e.signature ≠ "" ∧ e.hash = e.fingerprint :=
  ⟨fun ⟨hash, signature, intact⟩ => ⟨hash, signature, intact⟩,
    fun ⟨hash, signature, intact⟩ => ⟨hash, signature, intact⟩⟩

theorem isUnprovenTwice_iff {e : Entry} :
    e.IsUnprovenTwice ↔ e.signature = "" ∧ e.hash ≠ "" ∧ e.hash ≠ e.fingerprint :=
  ⟨fun ⟨signature, hash, wrong⟩ => ⟨signature, hash, wrong⟩,
    fun ⟨signature, hash, wrong⟩ => ⟨signature, hash, wrong⟩⟩

theorem lacksField_eq_false_iff {e : Entry} : e.lacksField = false ↔ e.IsNamed := by
  simp only [lacksField, hasTime, Bool.or_eq_false_iff, beq_eq_false_iff_ne, Bool.not_eq_false',
    decide_eq_true_eq]
  exact ⟨fun ⟨⟨⟨id, time⟩, type⟩, action⟩ => ⟨id, time, type, action⟩,
    fun ⟨id, time, type, action⟩ => ⟨⟨⟨id, time⟩, type⟩, action⟩⟩

theorem lacksBasis_eq_false_iff {e : Entry} : e.lacksBasis = false ↔ e.HasBasis := by
  rw [lacksBasis, HasBasis]
  cases e.needsLegalBasis <;> simp

theorem hasWrongHash_eq_true_iff {e : Entry} :
    e.hasWrongHash = true ↔ e.hash ≠ "" ∧ e.hash ≠ e.fingerprint := by
  rw [hasWrongHash, Bool.and_eq_true, bne_iff_ne, Bool.not_eq_true', isIntact_eq_false_iff]
  exact and_congr_right fun hne => or_iff_right hne

instance (e : Entry) : Decidable e.IsNamed := decidable_of_iff _ lacksField_eq_false_iff

instance (e : Entry) : Decidable e.HasBasis := decidable_of_iff _ lacksBasis_eq_false_iff

instance (e : Entry) : Decidable e.HasFields := inferInstanceAs (Decidable (_ ∧ _))

instance (e : Entry) : Decidable e.LacksTwice := inferInstanceAs (Decidable (_ ∧ _))

instance (e : Entry) : Decidable e.IsProven := decidable_of_iff' _ isProven_iff

instance (e : Entry) : Decidable e.IsUnprovenTwice := decidable_of_iff' _ isUnprovenTwice_iff

theorem IsUnprovenTwice.not_isProven {e : Entry} (h : e.IsUnprovenTwice) : ¬ e.IsProven :=
  fun hproven => hproven.signature h.signature

theorem LacksTwice.not_hasFields {e : Entry} (h : e.LacksTwice) : ¬ e.HasFields :=
  fun hfields => h.1 hfields.1

theorem length_fingerprint (e : Entry) : e.fingerprint.toList.length = 64 := by
  rw [fingerprint, Facts.fingerprint, Text.Hex.encode, String.toList_ofList,
    Text.Hex.length_encodeChars, (sha256 e.facts.bytes).length_eq]

theorem isProven_seal (signer : Signer) (previousHash : String) (draft : Entry) :
    (draft.seal signer previousHash).IsProven where
  hash := by
    intro hempty
    have hlength := (draft.seal signer previousHash).length_fingerprint
    rw [← seal_hash, hempty] at hlength
    cases hlength
  signature := EntrySignature.text_ne_empty _
  intact := seal_hash signer previousHash draft

/-! ## What one entry adds -/

theorem unprovenCount_eq (e : Entry) : e.unprovenCount true =
    (if ¬ e.IsProven then 1 else 0) + (if e.IsUnprovenTwice then 1 else 0) := by
  have hwrong := @hasWrongHash_eq_true_iff e
  simp only [isProven_iff, isUnprovenTwice_iff, unprovenCount, lacksProof]
  by_cases hhash : e.hash = "" <;> by_cases hsignature : e.signature = "" <;>
    by_cases hintact : e.hash = e.fingerprint <;> simp_all

theorem missingCount_eq (e : Entry) : e.missingCount =
    (if ¬ e.HasFields then 1 else 0) + (if e.LacksTwice then 1 else 0) := by
  have hfield := @lacksField_eq_false_iff e
  have hbasis := @lacksBasis_eq_false_iff e
  simp only [HasFields, LacksTwice, missingCount, ← hfield, ← hbasis]
  cases e.lacksField <;> cases e.lacksBasis <;> rfl

/-! ## What all entries add -/

/-- The entry is not proven although proof is asked for. -/
def FailsProof (requireProof : Bool) (e : Entry) : Prop := requireProof = true ∧ ¬ e.IsProven

/-- The entry falls short of the proof that is asked for in both ways. -/
def FailsProofTwice (requireProof : Bool) (e : Entry) : Prop :=
  requireProof = true ∧ e.IsUnprovenTwice

/-- The entry has all that is asked for. -/
def Meets (requireProof : Bool) (e : Entry) : Prop :=
  (requireProof = true → e.IsProven) ∧ e.HasFields

instance (requireProof : Bool) (e : Entry) : Decidable (e.FailsProof requireProof) :=
  inferInstanceAs (Decidable (_ ∧ _))

instance (requireProof : Bool) (e : Entry) : Decidable (e.FailsProofTwice requireProof) :=
  inferInstanceAs (Decidable (_ ∧ _))

instance (requireProof : Bool) (e : Entry) : Decidable (e.Meets requireProof) :=
  inferInstanceAs (Decidable (_ ∧ _))

theorem unprovenCount_eq_of (requireProof : Bool) (e : Entry) : e.unprovenCount requireProof =
    (if e.FailsProof requireProof then 1 else 0) +
      (if e.FailsProofTwice requireProof then 1 else 0) := by
  cases requireProof with
  | false => simp [unprovenCount, FailsProof, FailsProofTwice]
  | true => simpa only [FailsProof, FailsProofTwice, true_and] using e.unprovenCount_eq

theorem unprovenCount_eq_zero_iff {requireProof : Bool} {e : Entry} :
    e.unprovenCount requireProof = 0 ↔ ¬ e.FailsProof requireProof := by
  have himp : e.FailsProofTwice requireProof → e.FailsProof requireProof :=
    fun ⟨hrequired, htwice⟩ => ⟨hrequired, htwice.not_isProven⟩
  rw [unprovenCount_eq_of]
  by_cases hfails : e.FailsProof requireProof
  · simp [hfails]
  · simp [hfails, mt himp hfails]

theorem missingCount_eq_zero_iff {e : Entry} : e.missingCount = 0 ↔ e.HasFields := by
  have himp : e.LacksTwice → ¬ e.HasFields := fun hlacks => hlacks.not_hasFields
  rw [missingCount_eq]
  by_cases hfields : e.HasFields
  · simp [hfields, mt himp (not_not_intro hfields)]
  · simp [hfields]

theorem isComplete_iff {requireProof : Bool} {e : Entry} :
    e.isComplete requireProof = true ↔ e.Meets requireProof := by
  rw [isComplete, Bool.and_eq_true, beq_iff_eq, beq_iff_eq, unprovenCount_eq_zero_iff,
    missingCount_eq_zero_iff, FailsProof, Meets, not_and, Decidable.not_not]

end Entry

namespace CompletenessTally

theorem sum_map_add (p q : Entry → Prop) [DecidablePred p] [DecidablePred q]
    (entries : List Entry) :
    (entries.map fun e => (if p e then 1 else 0) + (if q e then 1 else 0)).sum =
      entries.countP (fun e => p e) + entries.countP (fun e => q e) := by
  induction entries with
  | nil => rfl
  | cons e rest ih =>
    rw [List.map_cons, List.sum_cons, ih, List.countP_cons, List.countP_cons]
    simp only [decide_eq_true_eq]
    omega

/-- Where every entry is complete, nothing is counted against any. -/
theorem of_meets {requireProof : Bool} {entries : List Entry}
    (h : ∀ e ∈ entries, e.Meets requireProof) :
    CompletenessTally.of requireProof entries = ⟨entries.length, entries.length, 0, 0⟩ := by
  have hsum : ∀ count : Entry → Nat, (∀ e ∈ entries, count e = 0) → (entries.map count).sum = 0 := by
    intro count hzero
    rw [List.map_congr_left hzero, List.map_const', List.sum_replicate_nat, Nat.mul_zero]
  have hcomplete : entries.countP (Entry.isComplete requireProof) = entries.length :=
    List.countP_eq_length.mpr fun e he => Entry.isComplete_iff.mpr (h e he)
  have hunproven : (entries.map (Entry.unprovenCount requireProof)).sum = 0 :=
    hsum _ fun e he => Entry.unprovenCount_eq_zero_iff.mpr fun hfails => hfails.2 ((h e he).1 hfails.1)
  have hmissing : (entries.map Entry.missingCount).sum = 0 :=
    hsum _ fun e he => Entry.missingCount_eq_zero_iff.mpr (h e he).2
  rw [CompletenessTally.of, hcomplete, hunproven, hmissing]

variable {R : Type} [ScoreNumber R]

/-- **What the completeness score counts.** Complete are the entries that have all that is asked for. As
unproven is counted every entry that is not proven, and once more every entry that falls short of
proof in both ways; as missing every entry that lacks a field or a basis, and once more every entry that
lacks both. So each tally is a number of entries exactly when no entry falls short in both ways. The
score is the share of complete entries less the penalties for the two tallies. -/
theorem counts_shortcomings (scorer : Scorer R) (entries : List Entry) (hne : entries ≠ []) :
    let requireProof := scorer.requireProof
    let tally := CompletenessTally.of requireProof entries
    let unproven := entries.countP fun e => e.FailsProof requireProof
    let missing := entries.countP fun e => ¬ e.HasFields
    (tally.total = entries.length ∧
      tally.complete = entries.countP fun e => e.Meets requireProof) ∧
    tally.unproven = unproven + entries.countP (fun e => e.FailsProofTwice requireProof) ∧
    tally.missing = missing + entries.countP (fun e => e.LacksTwice) ∧
    (tally.unproven = unproven ↔ ∀ e ∈ entries, ¬ e.FailsProofTwice requireProof) ∧
    (tally.missing = missing ↔ ∀ e ∈ entries, ¬ e.LacksTwice) ∧
    scorer.completenessScore entries =
      ScoreNumber.clamp (ScoreNumber.sub
        (ScoreNumber.sub (ScoreNumber.quotient tally.complete tally.total)
          (penalty tally.unproven scorer.parameters.integrityPenalty))
        (penalty tally.missing scorer.parameters.missingFieldPenalty)) := by
  intro requireProof tally unproven missing
  have hunproven : tally.unproven =
      unproven + entries.countP (fun e => e.FailsProofTwice requireProof) := by
    rw [← sum_map_add]
    exact congrArg List.sum (List.map_congr_left fun e _ => e.unprovenCount_eq_of requireProof)
  have hmissing : tally.missing = missing + entries.countP (fun e => e.LacksTwice) := by
    rw [← sum_map_add (fun e => ¬ e.HasFields)]
    exact congrArg List.sum (List.map_congr_left fun e _ => e.missingCount_eq)
  have hcomplete : tally.complete = entries.countP fun e => e.Meets requireProof := by
    apply List.countP_congr
    intro e _
    rw [Entry.isComplete_iff, decide_eq_true_eq]
  refine ⟨⟨rfl, hcomplete⟩, hunproven, hmissing, ?_, ?_, ?_⟩
  · rw [hunproven, Nat.add_eq_left, List.countP_eq_zero]
    simp only [decide_eq_true_eq]
  · rw [hmissing, Nat.add_eq_left, List.countP_eq_zero]
    simp only [decide_eq_true_eq]
  · have htotal : tally.total ≠ 0 := mt List.length_eq_zero_iff.mp hne
    exact if_neg htotal

/-- A takedown without id and basis, with a hash of its own making and no signature. -/
def shortTwice : Entry :=
  { Entry.draft .standard "" (.startOf ⟨2024, 3, 4, by decide⟩) 2
      (.takedown "TD-2" "cid" "a@x.example" "Work") with legal := none, hash := "0" }

theorem isUnprovenTwice_shortTwice : shortTwice.IsUnprovenTwice where
  signature := rfl
  hash := by decide
  wrong := by
    intro heq
    have hlength := shortTwice.length_fingerprint
    rw [← heq] at hlength
    exact absurd hlength (by decide)

theorem lacksTwice_shortTwice : shortTwice.LacksTwice := by
  refine ⟨fun hnamed => hnamed.id rfl, ?_⟩
  intro hbasis
  have hneeded : shortTwice.needsLegalBasis = true := by decide
  cases hbasis hneeded

/-- Of two entries one is complete, and the other, which falls short in every way, adds two to each
tally. -/
theorem counts_shortcomings_behind_complete :
    let signer : Signer := .keyless .secp256k1
    let draft := Entry.draft .standard "AE-1" (.startOf ⟨2024, 3, 1, by decide⟩) 1
      (.takedown "TD-1" "cid" "a@x.example" "Work")
    let entries := [draft.seal signer "", shortTwice]
    let tally := CompletenessTally.of true entries
    entries ≠ [] ∧ tally.complete = 1 ∧ tally.unproven = 1 + 1 ∧ tally.missing = 1 + 1 := by
  intro signer draft entries tally
  have hne : entries ≠ [] := by simp [entries]
  obtain ⟨⟨-, hcomplete⟩, hunproven, hmissing, -⟩ :=
    counts_shortcomings (Scorer.of .standard) entries hne
  have hrequired : (Scorer.of .standard).requireProof = true := rfl
  rw [hrequired] at hcomplete hunproven hmissing
  have hproven : (draft.seal signer "").IsProven := Entry.isProven_seal signer "" draft
  have hfields : (draft.seal signer "").HasFields := by
    refine ⟨⟨by decide, by decide, by decide, by decide⟩, ?_⟩
    intro _
    rfl
  have hnotProven : ¬ shortTwice.IsProven := isUnprovenTwice_shortTwice.not_isProven
  have hnotFields : ¬ shortTwice.HasFields := lacksTwice_shortTwice.not_hasFields
  have hsecond : ∀ (p : Entry → Prop) [DecidablePred p], ¬ p (draft.seal signer "") →
      p shortTwice → entries.countP (fun e => p e) = 1 := by
    intro p _ hfirst hlast
    simp [entries, hfirst, hlast]
  refine ⟨hne, hcomplete.trans ?_, ?_, ?_⟩
  · have hmeets : (draft.seal signer "").Meets true := ⟨fun _ => hproven, hfields⟩
    have hnotMeets : ¬ shortTwice.Meets true := fun hmeets => hnotFields hmeets.2
    rw [List.countP_cons, List.countP_singleton, if_neg (mt of_decide_eq_true hnotMeets),
      if_pos (decide_eq_true hmeets)]
  · rw [hunproven, hsecond _ (fun hfails => hfails.2 hproven) ⟨rfl, hnotProven⟩,
      hsecond _ (fun htwice => htwice.2.not_isProven hproven) ⟨rfl, isUnprovenTwice_shortTwice⟩]
  · rw [hmissing, hsecond _ (not_not_intro hfields) hnotFields,
      hsecond _ (fun hlacks => hlacks.not_hasFields hfields) lacksTwice_shortTwice]

/-- One entry can add two to each tally. -/
theorem one_entry_counted_twice :
    let tally := CompletenessTally.of true [shortTwice]
    tally.total = 1 ∧
    tally.unproven = 2 ∧ [shortTwice].countP (fun e => e.FailsProof true) = 1 ∧
    tally.missing = 2 ∧ [shortTwice].countP (fun e => ¬ e.HasFields) = 1 := by
  have hnotProven : ¬ shortTwice.IsProven := isUnprovenTwice_shortTwice.not_isProven
  have hnotFields : ¬ shortTwice.HasFields := lacksTwice_shortTwice.not_hasFields
  have hunproven : shortTwice.unprovenCount true = 2 := by
    rw [Entry.unprovenCount_eq, if_pos hnotProven, if_pos isUnprovenTwice_shortTwice]
  have hmissing : shortTwice.missingCount = 2 := by
    rw [Entry.missingCount_eq, if_pos hnotFields, if_pos lacksTwice_shortTwice]
  have hfails : shortTwice.FailsProof true := ⟨rfl, hnotProven⟩
  refine ⟨rfl, ?_, ?_, ?_, ?_⟩
  · change ([shortTwice].map (Entry.unprovenCount true)).sum = 2
    rw [List.map_singleton, List.sum_singleton, hunproven]
  · rw [List.countP_singleton, if_pos (decide_eq_true hfails)]
  · change ([shortTwice].map Entry.missingCount).sum = 2
    rw [List.map_singleton, List.sum_singleton, hmissing]
  · rw [List.countP_singleton, if_pos (decide_eq_true hnotFields)]

end CompletenessTally

end AuditTrail
