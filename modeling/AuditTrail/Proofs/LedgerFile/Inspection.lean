import AuditTrail.Inspection
import AuditTrail.Proofs.Service.Export
import AuditTrail.Proofs.Verification.Exact
import AuditTrail.Proofs.Verification.Removal
/-! # The verdict of an inspection

An inspection that cannot be made shows nothing, and any other comes to the verdict of the verification
of the file, with the signer that only checks if a key is given (`Inspection.run_cases`). What is wanted
besides the verdict changes what is shown, never the verdict (`Inspection.verdict_is_verification`). -/

namespace AuditTrail.Inspection
set_option autoImplicit false

open scoped CoreInstances

open LedgerFile (storeOf holds_storeOf)

/-- The signer that signatures are checked with, if a key is given. -/
inductive IsChecker (scheme : SignatureScheme) : Option String → Option Signer → Prop where
  | unasked : IsChecker scheme none none
  | key (text : String) (key : PublicKey) (hkey : PublicKey.ofHex? (Text.trim text) = some key) :
    IsChecker scheme (some text) (some (.verifier scheme key))

/-- There is no file, the text that is given for a key is none, or the file cannot be loaded or has no
entry. -/
def IsHopeless (store : FileStore) (inspection : Inspection) : Prop :=
  store.has inspection.path = false ∨
  (∃ text, inspection.keyText = some text ∧ PublicKey.ofHex? (Text.trim text) = none) ∨
  (∃ e, LedgerFile.load store inspection.path = .error e) ∨
  LedgerFile.load store inspection.path = .ok []

/-! ## The outcome -/

theorem checker_cases (scheme : SignatureScheme) (inspection : Inspection) :
    (inspection.checker scheme = .error .badKey ∧
      ∃ text, inspection.keyText = some text ∧ PublicKey.ofHex? (Text.trim text) = none) ∨
    ∃ checker, inspection.checker scheme = .ok checker ∧
      IsChecker scheme inspection.keyText checker := by
  rw [checker]
  cases inspection.keyText with
  | none => exact Or.inr ⟨none, rfl, .unasked⟩
  | some text =>
    cases hkey : PublicKey.ofHex? (Text.trim text) with
    | none => exact Or.inl ⟨by simp only [hkey], text, rfl, hkey⟩
    | some key => exact Or.inr ⟨_, by simp only [hkey], .key text key hkey⟩

theorem IsChecker.readable {scheme : SignatureScheme} {keyText : Option String}
    {checker : Option Signer} (h : IsChecker scheme keyText checker) :
    ¬ ∃ text, keyText = some text ∧ PublicKey.ofHex? (Text.trim text) = none := by
  rintro ⟨text, rfl, hnone⟩
  cases h with
  | key _ key hkey =>
    rw [hnone] at hkey
    cases hkey

/-- An inspection is refused when it cannot be made, or else verifies the entries of the file. -/
theorem run_cases (scheme : SignatureScheme) (store : FileStore) (now : Instant)
    (inspection : Inspection) :
    (inspection.IsHopeless store ∧ ∃ e, inspection.run scheme store now = .refused e) ∨
    (¬ inspection.IsHopeless store ∧ ∃ checker first rest,
      IsChecker scheme inspection.keyText checker ∧
      store.has inspection.path = true ∧
      LedgerFile.load store inspection.path = .ok (first :: rest) ∧
      inspection.run scheme store now =
        ⟨.ok (Verification.of checker now (first :: rest)).isValid,
          inspection.lines (Verification.of checker now (first :: rest)) first rest⟩) := by
  rw [run]
  cases hhas : store.has inspection.path with
  | false => exact Or.inl ⟨Or.inl hhas, _, if_neg Bool.false_ne_true⟩
  | true =>
    rw [if_pos rfl]
    rcases inspection.checker_cases scheme with ⟨hbad, hkey⟩ | ⟨checker, hchecker, his⟩
    · exact Or.inl ⟨Or.inr (Or.inl hkey), _, by rw [hbad]⟩
    · rw [hchecker]
      cases hload : LedgerFile.load store inspection.path with
      | error e => exact Or.inl ⟨Or.inr (Or.inr (Or.inl ⟨e, hload⟩)), _, rfl⟩
      | ok entries =>
        cases entries with
        | nil => exact Or.inl ⟨Or.inr (Or.inr (Or.inr hload)), _, rfl⟩
        | cons first rest =>
          refine Or.inr ⟨?_, checker, first, rest, his, rfl, rfl, rfl⟩
          rintro (hmissing | hkey | ⟨e, hfails⟩ | hempty)
          · rw [hhas] at hmissing
            cases hmissing
          · exact his.readable hkey
          · rw [hload] at hfails
            cases hfails
          · rw [hload] at hempty
            cases hempty

theorem lines_ne_nil (inspection : Inspection) (v : Verification) (first : Entry)
    (rest : List Entry) : inspection.lines v first rest ≠ [] := by
  simp [lines, verificationLines]

/-- The time, the longest quiet and the summary play no part in the verdict. -/
theorem verdict_congr (scheme : SignatureScheme) (store : FileStore) (now other : Instant)
    (inspection : Inspection) (limit : Int) (verbose : Bool) :
    ({ inspection with maxGapMinutes := limit, verbose }.run scheme store other).verdict =
      (inspection.run scheme store now).verdict := by
  have hchecker : { inspection with maxGapMinutes := limit, verbose }.checker scheme =
      inspection.checker scheme := rfl
  rw [run, run, hchecker]
  cases store.has inspection.path with
  | false => rw [if_neg Bool.false_ne_true, if_neg Bool.false_ne_true]
  | true =>
    cases inspection.checker scheme with
    | error e => rfl
    | ok checker =>
      simp only [if_true]
      cases LedgerFile.load store inspection.path with
      | error e => rfl
      | ok entries => cases entries <;> rfl

/-! ## What the verdict means -/

/-- Entries that are valid to a signer that checks with a key carry signatures that the key accepts. -/
theorem signed_of_isValid {scheme : SignatureScheme} {key : PublicKey} {now : Instant}
    {entries : List Entry}
    (h : (Verification.of (some (.verifier scheme key)) now entries).isValid = true) :
    ∀ e ∈ entries, ∃ s, EntrySignature.ofText e.signature = .ok (.cryptographic s) ∧
      scheme.verify key (Signer.signedDigest e.hash e.time) s = true := by
  intro e he
  obtain ⟨i, hi⟩ := List.getElem?_of_mem he
  have hclean := (Verification.isValid_iff _ _ _).mp h i e hi
  have hnone : ∀ breach, ¬ BreachAt (some (.verifier scheme key)) entries i e breach := by
    intro breach hbreach
    have hmem := Entry.mem_of_breachAt hbreach
    rw [hclean] at hmem
    cases hmem
  exact Entry.signed_of_no_breachAt rfl hnone

/-- The longest quiet is a whole number of minutes whose milliseconds fit 63 bits, and the one that is
asked for where that is such a number. -/
theorem maxQuiet_fits (inspection : Inspection) : ∃ minutes : Int,
    inspection.maxQuiet = minutes * 60000000000 ∧ 0 ≤ minutes ∧ minutes * 60000 < 2 ^ (63 : Nat) ∧
    (0 ≤ inspection.maxGapMinutes → inspection.maxGapMinutes * 60000 < 2 ^ (63 : Nat) →
      minutes = inspection.maxGapMinutes) := by
  refine ⟨max 0 (min maxMinutes inspection.maxGapMinutes), rfl, ?_⟩
  rw [maxMinutes]
  omega

/-- **The verdict of an inspection is that of the verification.** An inspection is refused exactly when
it cannot be made, and exactly then nothing is shown. Otherwise its verdict is that of the verification
of the file, with the signer that only checks with the key that is given, or with none. The longest
quiet and the summary play no part in it. The longest quiet is a whole number of minutes of which the
milliseconds fit 63 bits. When a key is given and the verdict is good, every entry of the file has a
signature on the curve that the key accepts. -/
theorem verdict_is_verification (scheme : SignatureScheme) (store : FileStore) (now : Instant)
    (inspection : Inspection) :
    let outcome := inspection.run scheme store now
    ((∃ e, outcome.verdict = .error e) ↔ inspection.IsHopeless store) ∧
    (outcome.lines = [] ↔ inspection.IsHopeless store) ∧
    (¬ inspection.IsHopeless store → ∃ checker, IsChecker scheme inspection.keyText checker ∧
      ∀ time, ∃ v, LedgerFile.verify store inspection.path checker time = .ok v ∧
        outcome.verdict = .ok v.isValid) ∧
    (∀ (limit : Int) (verbose : Bool) (time : Instant),
      ({ inspection with maxGapMinutes := limit, verbose }.run scheme store time).verdict =
        outcome.verdict) ∧
    (∃ minutes : Int, inspection.maxQuiet = minutes * 60000000000 ∧ 0 ≤ minutes ∧
      minutes * 60000 < 2 ^ (63 : Nat) ∧
      (0 ≤ inspection.maxGapMinutes → inspection.maxGapMinutes * 60000 < 2 ^ (63 : Nat) →
        minutes = inspection.maxGapMinutes)) ∧
    ∀ text, inspection.keyText = some text → outcome.verdict = .ok true → ∃ key entries,
      PublicKey.ofHex? (Text.trim text) = some key ∧
      LedgerFile.load store inspection.path = .ok entries ∧
      ∀ e ∈ entries, ∃ s, EntrySignature.ofText e.signature = .ok (.cryptographic s) ∧
        scheme.verify key (Signer.signedDigest e.hash e.time) s = true := by
  intro outcome
  refine ⟨?_, ?_, ?_, fun limit verbose time => verdict_congr _ _ _ _ _ _ _,
    inspection.maxQuiet_fits, ?_⟩
  all_goals rcases inspection.run_cases scheme store now with
    ⟨hhopeless, e, hrun⟩ | ⟨hhope, checker, first, rest, his, hhas, hload, hrun⟩
  all_goals change outcome = _ at hrun
  case refine_1.inl => exact iff_of_true ⟨e, by rw [hrun]; rfl⟩ hhopeless
  case refine_1.inr =>
    refine iff_of_false ?_ hhope
    rintro ⟨e, he⟩
    rw [hrun] at he
    cases he
  case refine_2.inl => exact iff_of_true (by rw [hrun, InspectionOutcome.refused]) hhopeless
  case refine_2.inr =>
    refine iff_of_false ?_ hhope
    rw [hrun]
    exact lines_ne_nil _ _ _ _
  case refine_3.inl => exact fun hhope => absurd hhopeless hhope
  case refine_3.inr =>
    refine fun _ => ⟨checker, his, fun time =>
      ⟨Verification.of checker time (first :: rest), ?_, by rw [hrun]; rfl⟩⟩
    rw [LedgerFile.verify, if_pos hhas, hload]
    rfl
  case refine_4.inl =>
    intro text _ hgood
    rw [hrun] at hgood
    cases hgood
  case refine_4.inr =>
    intro text htext hgood
    rw [htext] at his
    rw [hrun] at hgood
    cases his with
    | key _ key hkey =>
      exact ⟨key, first :: rest, hkey, hload, signed_of_isValid (Except.ok.inj hgood)⟩

/-- A text of the public key of the secret one, with blanks around it. -/
def basePointText : String :=
  "  0479be667ef9dcbbac55a06295ce870b07029bfcdb2dce28d959f2815b16f81798" ++
    "483ada7726a3c4655da4fbfc0e1108a8fd17b448a68554199c47d08ffb10d4b8\n"

theorem ofHex?_basePointText : PublicKey.ofHex? (Text.trim basePointText) =
    some (SignatureScheme.completed.publicKey ⟨1, by decide⟩) := by
  decide +kernel

theorem read?_render_of_two : ∀ e ∈ Ledger.ofTwo.entries, Entry.read? e.render = some e := by
  have hdetails : ∀ e ∈ Ledger.ofTwo.entries, e.details.isPlain = true ∧
      e.details.toJson.levels < Json.maxLevels ∧ e.details.toJson.doubles = [] := by
    refine List.forall_mem_cons.mpr ⟨⟨by decide, by decide, rfl⟩, ?_⟩
    refine List.forall_mem_cons.mpr ⟨⟨by decide, by decide, rfl⟩, ?_⟩
    intro e he
    cases he
  intro e he
  obtain ⟨hplain, hlt, hnone⟩ := hdetails e he
  exact (e.read?_render_iff (Entry.doublesReadBack_of_nil hnone)
    ((e.levels_toJson_le_iff (by decide)).mpr hlt)).mpr hplain

theorem checkOfTwo_isValid : (Ledger.checkOfTwo Ledger.ofTwo.entries).isValid = true := by
  have hchain : Ledger.ofTwo.IsChain _ := Ledger.isChain_ofAppends _ _ _
  have hrecorded : Ledger.ofTwo.Recorded _ _ := Ledger.recorded_ofAppends _ _ _
  obtain ⟨hnone, -⟩ := hchain.verification_clean hrecorded SignatureScheme.completed_honest
    (by decide) .unset
  have hchecked : Signer.CheckedBy ⟨.completed, .signing ⟨1, by decide⟩⟩
      (.verifier .completed (SignatureScheme.completed.publicKey ⟨1, by decide⟩)) :=
    Or.inr ⟨_, rfl, rfl⟩
  rw [Ledger.checkOfTwo, hchecked.verification_eq]
  exact List.isEmpty_iff.mpr hnone

/-- The copy of the ledger of two events is good to the public key, with no quiet allowed at all. -/
theorem verdict_is_verification_signed :
    let scheme := SignatureScheme.completed
    let store := storeOf (LedgerFile.copied .empty Ledger.ofTwo.entries)
    let inspection : Inspection := ⟨"ledger", some basePointText, -5, true⟩
    ¬ inspection.IsHopeless store ∧ (inspection.run scheme store .unset).verdict = .ok true ∧
    inspection.maxQuiet = 0 ∧ ∃ key entries,
      PublicKey.ofHex? (Text.trim basePointText) = some key ∧
      LedgerFile.load store "ledger" = .ok entries ∧
      ∀ e ∈ entries, ∃ s, EntrySignature.ofText e.signature = .ok (.cryptographic s) ∧
        scheme.verify key (Signer.signedDigest e.hash e.time) s = true := by
  intro scheme store inspection
  have hsome : Ledger.ofTwo.entries ≠ [] := List.cons_ne_nil _ _
  have hvalid := checkOfTwo_isValid
  rw [Ledger.checkOfTwo] at hvalid
  have hholds := holds_storeOf (LedgerFile.copied .empty Ledger.ofTwo.entries)
  have hcopied : LedgerFile.read (LedgerFile.copied .empty Ledger.ofTwo.entries) =
      .ok ([] ++ Ledger.ofTwo.entries) :=
    (LedgerFile.read_copied_iff LedgerFile.ended_nil rfl _).mpr read?_render_of_two
  have hload : LedgerFile.load store "ledger" = .ok Ledger.ofTwo.entries := hholds.load.trans hcopied
  obtain ⟨-, -, hverdict, -, -, hsigned⟩ :=
    verdict_is_verification .completed store .unset inspection
  have hhope : ¬ inspection.IsHopeless store := by
    rintro (hmissing | ⟨text, htext, hnone⟩ | ⟨e, hfails⟩ | hempty)
    · rw [FileStore.has, hholds.find] at hmissing
      cases hmissing
    · cases htext
      rw [ofHex?_basePointText] at hnone
      cases hnone
    · rw [hload] at hfails
      cases hfails
    · rw [hload] at hempty
      exact hsome (Except.ok.inj hempty)
  obtain ⟨checker, hchecker, hrun⟩ := hverdict hhope
  obtain ⟨v, hv, hgood⟩ := hrun .unset
  rw [hholds.verify, hcopied, Except.map, List.nil_append] at hv
  cases hchecker with
  | key text key hkey =>
    obtain rfl : _ = key := Option.some.inj (ofHex?_basePointText.symm.trans hkey)
    rw [← Except.ok.inj hv, hvalid] at hgood
    exact ⟨hhope, hgood, rfl, hsigned _ rfl hgood⟩

end AuditTrail.Inspection
