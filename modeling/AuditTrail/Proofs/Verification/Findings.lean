import AuditTrail.Proofs.Ledger.Chain
import AuditTrail.Proofs.Signature.Text
import AuditTrail.Verification
/-! # What a verification finds

The findings of a list of entries are those of each entry at its place, in order. At every place of a
chain the checks of number, hash, link and time find nothing; what the check of the signature finds
depends on the mode of the signer alone. -/

namespace AuditTrail
set_option autoImplicit false

theorem breachIf_false (breach : Breach) : breachIf false breach = [] := rfl

theorem breachIf_cases (condition : Bool) (breach : Breach) :
    breachIf condition breach = [] ∨ breachIf condition breach = [breach] := by
  cases condition with
  | false => exact Or.inl rfl
  | true => exact Or.inr rfl

theorem breachIf_eq_nil_iff {condition : Bool} {breach : Breach} :
    breachIf condition breach = [] ↔ condition = false := by
  cases condition with
  | false => exact ⟨fun _ => rfl, fun _ => rfl⟩
  | true => exact ⟨fun h => absurd h (List.cons_ne_nil _ _), fun h => absurd h (by decide)⟩

namespace Entry

/-! ## Findings place by place -/

/-- The entry that stands before the place with this index. -/
def placeBefore (before : Option Entry) (entries : List Entry) : Nat → Option Entry
  | 0 => before
  | i + 1 => entries[i]?

theorem placeBefore_cons (before : Option Entry) (e : Entry) (rest : List Entry) (i : Nat) :
    placeBefore before (e :: rest) (i + 1) = placeBefore (some e) rest i := by
  cases i with
  | zero => rfl
  | succ i => rw [placeBefore, List.getElem?_cons_succ, placeBefore]

theorem breachesFrom_eq_mapIdx (checker : Option Signer) (index : Nat) (before : Option Entry)
    (entries : List Entry) : breachesFrom checker index before entries =
      entries.mapIdx fun i e => e.breaches checker (index + i) (placeBefore before entries i) := by
  induction entries generalizing index before with
  | nil => rfl
  | cons e rest ih =>
    rw [breachesFrom, List.mapIdx_cons, ih]
    congr 1
    congr 1
    funext i e'
    rw [placeBefore_cons, Nat.add_assoc, Nat.add_comm 1 i]

/-- When the findings of an entry do not depend on its place, neither do those of the list. -/
theorem breachesFrom_eq_map (checker : Option Signer) (entries : List Entry)
    (found : Entry → List Breach)
    (h : ∀ i e, entries[i]? = some e →
      e.breaches checker i (placeBefore none entries i) = found e) :
    breachesFrom checker 0 none entries = entries.map found := by
  rw [breachesFrom_eq_mapIdx]
  apply List.ext_getElem?
  intro i
  rw [List.getElem?_mapIdx, List.getElem?_map]
  cases he : entries[i]? with
  | none => rfl
  | some e =>
    rw [Option.map_some, Option.map_some, Nat.zero_add, h i e he]

theorem length_breachesFrom (checker : Option Signer) (index : Nat) (before : Option Entry)
    (entries : List Entry) : (breachesFrom checker index before entries).length = entries.length := by
  rw [breachesFrom_eq_mapIdx, List.length_mapIdx]

/-! ## The single checks -/

theorem isIntact_of_hash_eq {e : Entry} (h : e.hash = e.fingerprint) : e.isIntact = true := by
  have hne : e.hash ≠ "" := by
    rw [h]
    apply Text.Hex.encode_ne_empty
    intro he
    have hl := (sha256 e.facts.bytes).length_eq
    rw [he] at hl
    cases hl
  rw [isIntact, ← h, Bool.and_eq_true]
  exact ⟨bne_iff_ne.mpr hne, beq_self_eq_true _⟩

theorem hashBreach_of_hash_eq {e : Entry} (h : e.hash = e.fingerprint) : e.hashBreach = [] := by
  rw [hashBreach, isIntact_of_hash_eq h]
  exact breachIf_false _

theorem timeBreach_of_le {before e : Entry} (h : before.time ≤ e.time) :
    e.timeBreach (some before) = [] := by
  have hn : decide (e.time < before.time) = false := decide_eq_false (Instant.not_lt.mpr h)
  rw [timeBreach, hn]
  exact breachIf_false _

theorem sequenceBreach_eq_nil_iff {index : Nat} {e : Entry} :
    e.sequenceBreach index = [] ↔ e.sequence = numberAt index := by
  rw [sequenceBreach, breachIf_eq_nil_iff, bne_eq_false_iff_eq]

theorem linkBreach_eq_nil_iff {before : Option Entry} {e : Entry} :
    e.linkBreach before = [] ↔ e.previousHash = linkAfter before := by
  rw [linkBreach, breachIf_eq_nil_iff, bne_eq_false_iff_eq]

theorem timeBreach_cases (before : Option Entry) (e : Entry) :
    e.timeBreach before = [] ∨ e.timeBreach before = [.timeRegression e.sequence e.id] := by
  cases before with
  | none => exact Or.inl rfl
  | some b => exact breachIf_cases _ _

/-- The entry carries the signature that the signer makes for its hash and time. -/
def IsSignedBy (signer : Signer) (e : Entry) : Prop :=
  e.signature = (signer.sign e.hash e.time).text

theorem isWeak_of_signed {signer : Signer} {e : Entry} (h : e.IsSignedBy signer) :
    e.isWeak = !decide (signer.mode = .cryptographic) := by
  rw [isWeak, h, EntrySignature.isWeakText_text, Signer.isCryptographic_sign]

/-- A signer finds fault with its own signatures only when it has a public key without the secret. -/
theorem signatureBreach_of_signed {signer : Signer}
    (honest : signer.mode = .cryptographic → signer.scheme.Honest) {e : Entry}
    (h : e.IsSignedBy signer) : e.signatureBreach (some signer) =
      if signer.mode = .verifyOnly then [.signatureDowngrade e.sequence e.id] else [] := by
  rw [signatureBreach, isWeak_of_signed h, Signer.publicKey?_isSome]
  cases hm : signer.mode with
  | verifyOnly => rfl
  | cryptographic =>
    rw [h, Signer.verifyText_text, signer.verify_sign honest (by rw [hm]; decide)]
    rfl
  | weak =>
    rw [h, Signer.verifyText_text, signer.verify_sign honest (by rw [hm]; decide)]
    rfl

end Entry

/-- A verification is good when nothing is found at any place. -/
theorem Verification.isValid_iff (checker : Option Signer) (now : Instant) (entries : List Entry) :
    (Verification.of checker now entries).isValid = true ↔
      ∀ (i : Nat) (e : Entry), entries[i]? = some e →
        e.breaches checker i (Entry.placeBefore none entries i) = [] := by
  rw [isValid, List.isEmpty_iff, Verification.of, List.flatten_eq_nil_iff,
    Entry.breachesFrom_eq_mapIdx]
  constructor
  · intro h i e he
    obtain ⟨hi, hget⟩ := List.getElem?_eq_some_iff.mp he
    have hfound := h _ (List.mem_mapIdx.mpr ⟨i, hi, rfl⟩)
    rw [hget, Nat.zero_add] at hfound
    exact hfound
  · intro h found hfound
    obtain ⟨i, hi, rfl⟩ := List.mem_mapIdx.mp hfound
    rw [Nat.zero_add]
    exact h i _ (List.getElem?_eq_getElem hi)

/-! ## Chains -/

namespace Ledger

theorem Recorded.signed {config : Config} {signer : Signer} {ledger : Ledger}
    (h : ledger.Recorded config signer) {e : Entry} (he : e ∈ ledger.entries) :
    e.IsSignedBy signer := by
  obtain ⟨id, time, sequence, event, previousHash, hs⟩ := h e he
  rw [hs]
  exact Entry.seal_signature _ _ _

theorem IsChain.previousHash_eq {ledger : Ledger} {readings : List Instant}
    (h : ledger.IsChain readings) {i : Nat} {e : Entry} (he : ledger.entries[i]? = some e) :
    e.previousHash = Entry.linkAfter (Entry.placeBefore none ledger.entries i) := by
  cases i with
  | zero => exact h.first e he
  | succ i =>
    have hi : i < ledger.entries.length := by
      have hs := (List.getElem?_eq_some_iff.mp he).1
      omega
    rw [Entry.placeBefore, List.getElem?_eq_getElem hi]
    exact h.link i _ e (List.getElem?_eq_getElem hi) he

theorem IsChain.timeBreach_eq {ledger : Ledger} {readings : List Instant}
    (h : ledger.IsChain readings) {i : Nat} {e : Entry} (he : ledger.entries[i]? = some e) :
    e.timeBreach (Entry.placeBefore none ledger.entries i) = [] := by
  cases i with
  | zero => rfl
  | succ i =>
    have hi : i < ledger.entries.length := by
      have hs := (List.getElem?_eq_some_iff.mp he).1
      omega
    rw [Entry.placeBefore, List.getElem?_eq_getElem hi]
    exact Entry.timeBreach_of_le
      (h.ordered i (i + 1) _ e (Nat.le_succ i) (List.getElem?_eq_getElem hi) he)

/-- At its place in a chain, all that can be found wrong with an entry is its signature. -/
theorem IsChain.breaches_eq {ledger : Ledger} {readings : List Instant}
    (h : ledger.IsChain readings) (checker : Option Signer) {i : Nat} {e : Entry}
    (he : ledger.entries[i]? = some e) :
    e.breaches checker i (Entry.placeBefore none ledger.entries i) = e.signatureBreach checker := by
  rw [Entry.breaches, Entry.sequenceBreach_eq_nil_iff.mpr (h.sequence i e he),
    Entry.hashBreach_of_hash_eq (h.hash e (List.mem_of_getElem? he)),
    Entry.linkBreach_eq_nil_iff.mpr (h.previousHash_eq he), h.timeBreach_eq he]
  rfl

end Ledger

end AuditTrail
