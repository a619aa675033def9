import AuditTrail.Proofs.Verification.Verdict
/-! # Exactly what is wrong

`BreachAt` says of an entry at a place of a list what is wrong with it there, in terms of the stored
values and without the checks. A verification of any list finds exactly these breaches: place by place,
at each place in the order of the checks, none twice and none left out for another
(`Verification.breaches_exact`). -/

namespace AuditTrail
set_option autoImplicit false

/-- Something is wrong with an entry at the place with an index: its number, its hash, its link, its
time or, when there is a signer to tell, its signature. -/
inductive BreachAt (checker : Option Signer) (entries : List Entry) (i : Nat) (e : Entry) :
    Breach → Prop where
  | sequenceGap (hnumber : e.sequence ≠ UInt64.ofNat (i + 1)) :
      BreachAt checker entries i e (.sequenceGap e.id (UInt64.ofNat (i + 1)) e.sequence)
  | hashMismatch (hhash : e.hash = "" ∨ e.hash ≠ e.fingerprint) :
      BreachAt checker entries i e (.hashMismatch e.sequence e.id)
  | firstLink (hi : i = 0) (hlink : e.previousHash ≠ "") :
      BreachAt checker entries i e (.chainBreak e.sequence e.id "" e.previousHash)
  | link (j : Nat) (before : Entry) (hi : i = j + 1) (hbefore : entries[j]? = some before)
      (hlink : e.previousHash ≠ before.hash) :
      BreachAt checker entries i e (.chainBreak e.sequence e.id before.hash e.previousHash)
  | timeRegression (j : Nat) (before : Entry) (hi : i = j + 1) (hbefore : entries[j]? = some before)
      (htime : e.time < before.time) :
      BreachAt checker entries i e (.timeRegression e.sequence e.id)
  | signatureDowngrade (signer : Signer) (key : PublicKey) (mark : WeakMark)
      (hchecker : checker = some signer) (hkey : signer.publicKey? = some key)
      (htext : EntrySignature.ofText e.signature = .ok (.weak mark)) :
      BreachAt checker entries i e (.signatureDowngrade e.sequence e.id)
  /-- Not for a weak mark that a signer with a public key has refused already. -/
  | invalidSignature (signer : Signer) (hchecker : checker = some signer)
      (hshadow : ∀ mark, EntrySignature.ofText e.signature = .ok (.weak mark) →
        signer.publicKey? = none)
      (hrefused : ∀ signature, EntrySignature.ofText e.signature = .ok signature →
        signer.verify signature e.hash e.time = false) :
      BreachAt checker entries i e (.invalidSignature e.sequence e.id)

/-- Where the check that finds a breach stands among the checks. -/
def Breach.rank : Breach → Nat
  | .sequenceGap _ _ _ => 0
  | .hashMismatch _ _ => 1
  | .chainBreak _ _ _ _ => 2
  | .timeRegression _ _ => 3
  | .signatureDowngrade _ _ => 4
  | .invalidSignature _ _ => 5

/-- The findings of a place: all that is wrong there, each breach once, in the order of the checks. -/
structure AreFindings (checker : Option Signer) (entries : List Entry) (i : Nat) (e : Entry)
    (found : List Breach) : Prop where
  mem_iff : ∀ breach, breach ∈ found ↔ BreachAt checker entries i e breach
  ordered : found.Pairwise fun first second => first.rank < second.rank

theorem mem_breachIf_iff {condition : Bool} {breach breach' : Breach} :
    breach' ∈ breachIf condition breach ↔ condition = true ∧ breach' = breach := by
  cases condition <;> simp [breachIf]

theorem breachIf_sublist (condition : Bool) (breach : Breach) :
    (breachIf condition breach).Sublist [breach] := by
  cases condition <;> simp [breachIf]

namespace EntrySignature

theorem isWeakText_iff (s : String) : isWeakText s = true ↔ ∃ mark, ofText s = .ok (.weak mark) := by
  unfold isWeakText
  split
  · next mark h => exact iff_of_true rfl ⟨mark, h⟩
  · next h => exact iff_of_false Bool.false_ne_true fun ⟨mark, hm⟩ => h mark hm

end EntrySignature

theorem Signer.verifyText_eq_false_iff (signer : Signer) (s hash : String) (time : Instant) :
    signer.verifyText s hash time = false ↔ ∀ signature, EntrySignature.ofText s = .ok signature →
      signer.verify signature hash time = false := by
  rw [verifyText]
  cases EntrySignature.ofText s <;> simp

namespace Entry

/-! ## Each check finds its breach -/

theorem isIntact_eq_false_iff (e : Entry) :
    e.isIntact = false ↔ e.hash = "" ∨ e.hash ≠ e.fingerprint := by
  rw [isIntact, Bool.and_eq_false_iff, bne_eq_false_iff_eq, beq_eq_false_iff_ne, ne_comm]

section Checks
variable (e : Entry) (breach : Breach)

theorem mem_sequenceBreach_iff (i : Nat) : breach ∈ e.sequenceBreach i ↔
    e.sequence ≠ UInt64.ofNat (i + 1) ∧
      breach = .sequenceGap e.id (UInt64.ofNat (i + 1)) e.sequence := by
  rw [sequenceBreach, mem_breachIf_iff, bne_iff_ne, numberAt]

theorem mem_hashBreach_iff : breach ∈ e.hashBreach ↔
    (e.hash = "" ∨ e.hash ≠ e.fingerprint) ∧ breach = .hashMismatch e.sequence e.id := by
  simp [hashBreach, mem_breachIf_iff, isIntact_eq_false_iff]

theorem mem_linkBreach_iff (before : Option Entry) : breach ∈ e.linkBreach before ↔
    e.previousHash ≠ linkAfter before ∧
      breach = .chainBreak e.sequence e.id (linkAfter before) e.previousHash := by
  simp [linkBreach, mem_breachIf_iff]

theorem mem_timeBreach_iff (before : Option Entry) : breach ∈ e.timeBreach before ↔
    ∃ b, before = some b ∧ e.time < b.time ∧ breach = .timeRegression e.sequence e.id := by
  cases before <;> simp [timeBreach, mem_breachIf_iff]

/-- The check for a weak mark comes first and hides the check of the signature. -/
theorem mem_signatureBreach_iff (signer : Signer) : breach ∈ e.signatureBreach (some signer) ↔
    ((e.isWeak = true ∧ signer.publicKey?.isSome) ∧
      breach = .signatureDowngrade e.sequence e.id) ∨
    (¬(e.isWeak = true ∧ signer.publicKey?.isSome) ∧
      signer.verifyText e.signature e.hash e.time = false ∧
      breach = .invalidSignature e.sequence e.id) := by
  rw [signatureBreach]
  cases hdown : e.isWeak && signer.publicKey?.isSome with
  | true => simp [Bool.and_eq_true _ _ ▸ hdown]
  | false => simp [mem_breachIf_iff, ← Bool.and_eq_true, hdown]

theorem signatureBreach_sublist (checker : Option Signer) : (e.signatureBreach checker).Sublist
    [.signatureDowngrade e.sequence e.id, .invalidSignature e.sequence e.id] := by
  cases checker with
  | none => exact List.nil_sublist _
  | some signer =>
    rw [signatureBreach]
    split
    · exact List.cons_sublist_cons.mpr (List.nil_sublist _)
    · exact (breachIf_sublist _ _).trans (List.sublist_cons_self _ _)

/-- What the checks find is some of what they look for, in the order in which they look. -/
theorem breaches_sublist (checker : Option Signer) (i : Nat) (before : Option Entry) :
    (e.breaches checker i before).Sublist
      [.sequenceGap e.id (numberAt i) e.sequence, .hashMismatch e.sequence e.id,
       .chainBreak e.sequence e.id (linkAfter before) e.previousHash,
       .timeRegression e.sequence e.id, .signatureDowngrade e.sequence e.id,
       .invalidSignature e.sequence e.id] := by
  have htime : (e.timeBreach before).Sublist [.timeRegression e.sequence e.id] := by
    cases before with
    | none => exact List.nil_sublist _
    | some b => exact breachIf_sublist _ _
  exact ((((breachIf_sublist _ _).append (breachIf_sublist _ _)).append
    (breachIf_sublist _ _)).append htime).append (e.signatureBreach_sublist checker)

end Checks

/-! ## The findings of a place -/

section Place
variable {checker : Option Signer} {entries : List Entry} {i : Nat} {e : Entry} {breach : Breach}

theorem breachAt_of_mem_signatureBreach (h : breach ∈ e.signatureBreach checker) :
    BreachAt checker entries i e breach := by
  cases checker with
  | none => cases h
  | some signer =>
    rcases (e.mem_signatureBreach_iff breach signer).mp h with ⟨⟨hweak, hkey⟩, rfl⟩ | ⟨hdown, hno, rfl⟩
    · obtain ⟨mark, htext⟩ := (EntrySignature.isWeakText_iff _).mp hweak
      obtain ⟨key, hkey⟩ := Option.isSome_iff_exists.mp hkey
      exact .signatureDowngrade signer key mark rfl hkey htext
    · refine .invalidSignature signer rfl ?_ ((signer.verifyText_eq_false_iff _ _ _).mp hno)
      intro mark htext
      have hweak : e.isWeak = true := (EntrySignature.isWeakText_iff _).mpr ⟨mark, htext⟩
      simpa [hweak] using hdown

theorem breachAt_of_mem (he : entries[i]? = some e)
    (h : breach ∈ e.breaches checker i (placeBefore none entries i)) :
    BreachAt checker entries i e breach := by
  simp only [breaches, List.mem_append, mem_sequenceBreach_iff, mem_hashBreach_iff,
    mem_linkBreach_iff, mem_timeBreach_iff] at h
  rcases h with (((⟨hnumber, rfl⟩ | ⟨hhash, rfl⟩) | ⟨hlink, rfl⟩) | ⟨b, hb, htime, rfl⟩) | hsig
  · exact .sequenceGap hnumber
  · exact .hashMismatch hhash
  · cases i with
    | zero => exact .firstLink rfl hlink
    | succ j =>
      have hj : j < entries.length := Nat.lt_of_succ_lt (List.getElem?_eq_some_iff.mp he).1
      have hbefore : entries[j]? = some entries[j] := List.getElem?_eq_getElem hj
      rw [placeBefore, hbefore] at hlink ⊢
      exact .link j _ rfl hbefore hlink
  · cases i with
    | zero => cases hb
    | succ j => exact .timeRegression j b rfl hb htime
  · exact breachAt_of_mem_signatureBreach hsig

theorem mem_of_breachAt (h : BreachAt checker entries i e breach) :
    breach ∈ e.breaches checker i (placeBefore none entries i) := by
  simp only [breaches, List.mem_append, mem_sequenceBreach_iff, mem_hashBreach_iff,
    mem_linkBreach_iff, mem_timeBreach_iff]
  cases h with
  | sequenceGap hnumber => exact Or.inl (Or.inl (Or.inl (Or.inl ⟨hnumber, rfl⟩)))
  | hashMismatch hhash => exact Or.inl (Or.inl (Or.inl (Or.inr ⟨hhash, rfl⟩)))
  | firstLink hi hlink =>
    subst hi
    exact Or.inl (Or.inl (Or.inr ⟨hlink, rfl⟩))
  | link j before hi hbefore hlink =>
    subst hi
    rw [placeBefore, hbefore]
    exact Or.inl (Or.inl (Or.inr ⟨hlink, rfl⟩))
  | timeRegression j before hi hbefore htime =>
    subst hi
    exact Or.inl (Or.inr ⟨before, hbefore, htime, rfl⟩)
  | signatureDowngrade signer key mark hchecker hkey htext =>
    subst hchecker
    have hweak : e.isWeak = true := (EntrySignature.isWeakText_iff _).mpr ⟨mark, htext⟩
    have hsome : signer.publicKey?.isSome = true := by rw [hkey]; rfl
    exact Or.inr ((e.mem_signatureBreach_iff _ signer).mpr (Or.inl ⟨⟨hweak, hsome⟩, rfl⟩))
  | invalidSignature signer hchecker hshadow hrefused =>
    subst hchecker
    have hdown : ¬(e.isWeak = true ∧ signer.publicKey?.isSome) := by
      rintro ⟨hweak, hsome⟩
      obtain ⟨mark, htext⟩ := (EntrySignature.isWeakText_iff _).mp hweak
      rw [hshadow mark htext] at hsome
      cases hsome
    have hno := (signer.verifyText_eq_false_iff _ _ _).mpr hrefused
    exact Or.inr ((e.mem_signatureBreach_iff _ signer).mpr (Or.inr ⟨hdown, hno, rfl⟩))

theorem areFindings (checker : Option Signer) {entries : List Entry} {i : Nat} {e : Entry}
    (he : entries[i]? = some e) :
    AreFindings checker entries i e (e.breaches checker i (placeBefore none entries i)) where
  mem_iff _ := ⟨breachAt_of_mem he, mem_of_breachAt⟩
  ordered := by
    apply List.Pairwise.sublist (e.breaches_sublist checker i _)
    simp [Breach.rank]

theorem areFindings_of_getElem? {fs : List Breach} (he : entries[i]? = some e)
    (hfs : (breachesFrom checker 0 none entries)[i]? = some fs) :
    AreFindings checker entries i e fs := by
  rw [breachesFrom_eq_mapIdx, List.getElem?_mapIdx, he, Option.map_some, Nat.zero_add,
    Option.some.injEq] at hfs
  rw [← hfs]
  exact areFindings checker he

/-- To a signer with a public key nothing is wrong with a signature only when it is one on the curve
that the key accepts. -/
theorem signed_of_no_breachAt {signer : Signer} {key : PublicKey}
    (hkey : signer.publicKey? = some key)
    (h : ∀ breach, ¬BreachAt (some signer) entries i e breach) :
    ∃ s, EntrySignature.ofText e.signature = .ok (.cryptographic s) ∧
      signer.scheme.verify key (Signer.signedDigest e.hash e.time) s = true := by
  cases htext : EntrySignature.ofText e.signature with
  | error fault =>
    refine absurd (.invalidSignature signer rfl ?_ ?_) (h (.invalidSignature e.sequence e.id))
    all_goals rw [htext]; exact fun _ hok => by cases hok
  | ok signature =>
    cases signature with
    | weak mark => exact absurd (.signatureDowngrade signer key mark rfl hkey htext) (h _)
    | cryptographic s =>
      refine ⟨s, rfl, Decidable.byContradiction fun hrefused => ?_⟩
      refine h (.invalidSignature e.sequence e.id) (.invalidSignature signer rfl ?_ ?_)
      · intro mark hweak
        rw [htext] at hweak
        cases hweak
      · intro signature hok
        obtain rfl := Except.ok.inj (htext.symm.trans hok)
        simpa [Signer.verify, hkey] using hrefused

end Place

end Entry

namespace Verification

/-- **A verification is exact.** Whatever the entries are and whoever checks them, the breaches are
those of each place, in the order of the list and of the checks. Nothing else is found, so a list is
valid only when nothing is wrong at any place; and every entry counts as verified except where its
hash or its signature is among the findings. In a list that is valid to a signer with a public key,
every entry has its own hash and a signature on the curve that the key accepts for it. -/
theorem breaches_exact (checker : Option Signer) (now : Instant) (entries : List Entry) :
    let v := Verification.of checker now entries
    (∃ found : List (List Breach), found.length = entries.length ∧ v.breaches = found.flatten ∧
      (∀ (i : Nat) (e : Entry) (fs : List Breach), entries[i]? = some e → found[i]? = some fs →
        AreFindings checker entries i e fs) ∧
      v.verified + found.countP (fun fs => fs.any Breach.spoilsProof) = v.total) ∧
    v.total = entries.length ∧
    (v.isValid = true ↔ ∀ (i : Nat) (e : Entry) (breach : Breach), entries[i]? = some e →
      ¬BreachAt checker entries i e breach) ∧
    ∀ (signer : Signer) (key : PublicKey), checker = some signer → signer.publicKey? = some key →
      v.isValid = true → ∀ e ∈ entries, e.hash = e.fingerprint ∧
        ∃ s, EntrySignature.ofText e.signature = .ok (.cryptographic s) ∧
          signer.scheme.verify key (Signer.signedDigest e.hash e.time) s = true := by
  intro v
  have hvalid : v.isValid = true ↔ ∀ (i : Nat) (e : Entry) (breach : Breach),
      entries[i]? = some e → ¬BreachAt checker entries i e breach := by
    rw [isValid_iff]
    constructor
    · intro h i e breach he hb
      have hmem := (Entry.areFindings checker he).mem_iff breach |>.mpr hb
      rw [h i e he] at hmem
      cases hmem
    · intro h i e he
      apply List.eq_nil_iff_forall_not_mem.mpr
      intro breach hmem
      exact h i e breach he ((Entry.areFindings checker he).mem_iff breach |>.mp hmem)
  refine ⟨⟨Entry.breachesFrom checker 0 none entries, Entry.length_breachesFrom _ _ _ _, rfl, ?_, ?_⟩,
    rfl, hvalid, ?_⟩
  · exact fun i e fs => Entry.areFindings_of_getElem?
  · have hsplit := (Entry.breachesFrom checker 0 none entries).length_eq_countP_add_countP
      fun fs => !fs.any Breach.spoilsProof
    simp only [Bool.not_eq_true, Bool.not_eq_false', Bool.decide_eq_true] at hsplit
    rw [Entry.length_breachesFrom] at hsplit
    exact hsplit.symm
  · rintro signer key rfl hkey hv e he
    obtain ⟨i, hi⟩ := List.getElem?_of_mem he
    have hclean := fun breach => hvalid.mp hv i e breach hi
    have hhash : e.hash = e.fingerprint :=
      Decidable.byContradiction fun hne => hclean _ (.hashMismatch (Or.inr hne))
    exact ⟨hhash, Entry.signed_of_no_breachAt hkey hclean⟩

/-- The entries of two recordings, the second at an earlier reading, seen by the signer of a secret. -/
theorem breaches_exact_signed :
    let signer : Signer := ⟨.completed, .signing ⟨1, by decide⟩⟩
    let service : Service := ⟨.standard, signer, .empty, .of .standard, none⟩
    let ops : List (Instant × Operation) :=
      [(.startOf ⟨2024, 3, 1, by decide⟩, .record (.takedown "TD-1" "cid" "a@x.example" "Work")),
       (.startOf ⟨2024, 2, 1, by decide⟩, .record (.reinstatement "cid" "user-1" "reason"))]
    let entries := ((Site.mk service .bare).run ops).service.ledger.entries
    let key := signer.scheme.publicKey ⟨1, by decide⟩
    entries.length = 2 ∧ signer.publicKey? = some key ∧
    (Verification.of (some signer) .unset entries).isValid = true ∧
    ∀ e ∈ entries, e.hash = e.fingerprint ∧
      ∃ s, EntrySignature.ofText e.signature = .ok (.cryptographic s) ∧
        signer.scheme.verify key (Signer.signedDigest e.hash e.time) s = true := by
  intro signer service ops entries key
  have started : Service.start .standard signer .bare = .ok (service, .bare) := rfl
  have hchain := Site.isChain_of_start started ops
  have hrecorded := Site.recorded_of_start started ops
  obtain ⟨hnone, -⟩ := hchain.verification_clean hrecorded SignatureScheme.completed_honest
    (by decide) .unset
  have hvalid : (Verification.of (some signer) .unset entries).isValid = true :=
    List.isEmpty_iff.mpr hnone
  obtain ⟨-, -, -, hsigned⟩ := breaches_exact (some signer) .unset entries
  exact ⟨hchain.length_eq, rfl, hvalid, hsigned signer key rfl rfl hvalid⟩

end Verification

end AuditTrail
