import AuditTrail.Proofs.Service.Run
import AuditTrail.Proofs.Verification.Findings
/-! # The verdict on an untampered ledger

`Site.verify_of_run` is the verdict that a service gives on its own ledger after any run. It depends
on the run through the number of recordings alone, and on the signer through its mode. -/

namespace AuditTrail
set_option autoImplicit false

theorem countP_map_const {α β : Type} (p : β → Bool) (b : β) (as : List α) :
    (as.map fun _ => b).countP p = if p b then as.length else 0 := by
  rw [List.map_const', List.countP_replicate]

theorem countP_of_forall {α : Type} {p : α → Bool} {as : List α} (b : Bool)
    (h : ∀ a ∈ as, p a = b) : as.countP p = if b then as.length else 0 := by
  cases b with
  | true => exact List.countP_eq_length.mpr h
  | false =>
    rw [if_neg Bool.false_ne_true, List.countP_eq_zero]
    intro a ha
    rw [h a ha]
    exact Bool.false_ne_true

namespace Ledger

variable {config : Config} {signer : Signer} {ledger : Ledger} {readings : List Instant}

theorem IsChain.breachesFrom_eq (h : ledger.IsChain readings) (hr : ledger.Recorded config signer)
    (honest : signer.scheme.Honest) :
    Entry.breachesFrom (some signer) 0 none ledger.entries = ledger.entries.map fun e =>
      if signer.mode = .verifyOnly then [.signatureDowngrade e.sequence e.id] else [] := by
  apply Entry.breachesFrom_eq_map
  intro i e he
  rw [h.breaches_eq (some signer) he]
  exact Entry.signatureBreach_of_signed (fun _ => honest) (hr.signed (List.mem_of_getElem? he))

theorem Recorded.countP_isWeak (hr : ledger.Recorded config signer) :
    ledger.entries.countP Entry.isWeak =
      if signer.mode = .cryptographic then 0 else ledger.entries.length := by
  rw [countP_of_forall _ fun e he => Entry.isWeak_of_signed (hr.signed he)]
  by_cases hm : signer.mode = .cryptographic
  · simp only [hm, decide_true, Bool.not_true, if_true, if_neg Bool.false_ne_true]
  · simp only [hm, decide_false, Bool.not_false, if_true, if_false]

/-- A signer that is more than a public key finds nothing wrong with its own ledger. -/
theorem IsChain.verification_clean (h : ledger.IsChain readings)
    (hr : ledger.Recorded config signer) (honest : signer.scheme.Honest)
    (hmode : signer.mode ≠ .verifyOnly) (now : Instant) :
    (Verification.of (some signer) now ledger.entries).breaches = [] ∧
    (Verification.of (some signer) now ledger.entries).verified = ledger.entries.length := by
  have hf := h.breachesFrom_eq hr honest
  simp only [if_neg hmode] at hf
  constructor
  · rw [Verification.of, hf, List.map_const', List.flatten_replicate_nil]
  · rw [Verification.of, hf, countP_map_const]
    rfl

/-- A public key alone finds every entry of its own ledger downgraded. -/
theorem IsChain.verification_downgraded (h : ledger.IsChain readings)
    (hr : ledger.Recorded config signer) (honest : signer.scheme.Honest)
    (hmode : signer.mode = .verifyOnly) (now : Instant) :
    (Verification.of (some signer) now ledger.entries).breaches =
      ledger.entries.map (fun e => .signatureDowngrade e.sequence e.id) ∧
    (Verification.of (some signer) now ledger.entries).verified = 0 := by
  have hf := h.breachesFrom_eq hr honest
  simp only [if_pos hmode] at hf
  constructor
  · rw [Verification.of, hf, ← List.flatMap_def, ← List.map_eq_flatMap]
  · rw [Verification.of, hf, List.countP_map, List.countP_eq_zero]
    intro e _
    exact Bool.false_ne_true

end Ledger

namespace Site

/-- **The verdict.** Whatever has been asked of a service, a signer with a secret and one without any
key find every entry of its ledger verified and nothing wrong; a public key alone, which can only
make weak marks, finds each entry downgraded. -/
theorem verify_of_run (config : Config) (signer : Signer) (around around' : Surroundings)
    (service : Service) (started : Service.start config signer around = .ok (service, around'))
    (honest : signer.scheme.Honest) (ops : List (Instant × Operation)) (now : Instant) :
    let after := ((Site.mk service around').run ops).service
    (after.verify now).total = (recordTimes ops).length ∧
    (after.verify now).signaturesChecked = true ∧
    match signer.mode with
    | .cryptographic => (after.verify now).isValid = true ∧ (after.verify now).breaches = [] ∧
        (after.verify now).verified = (recordTimes ops).length ∧ (after.verify now).weak = 0
    | .weak => (after.verify now).isValid = true ∧ (after.verify now).breaches = [] ∧
        (after.verify now).verified = (recordTimes ops).length ∧
        (after.verify now).weak = (recordTimes ops).length
    | .verifyOnly => (after.verify now).breaches =
          after.ledger.entries.map (fun e => .signatureDowngrade e.sequence e.id) ∧
        (after.verify now).verified = 0 ∧ (after.verify now).weak = (recordTimes ops).length := by
  intro after
  have hchain : after.ledger.IsChain (recordTimes ops) := isChain_of_start started ops
  have hrecorded : after.ledger.Recorded config signer := recorded_of_start started ops
  have hsigner : after.signer = signer := signer_of_start started ops
  have hverify : after.verify now = Verification.of (some signer) now after.ledger.entries := by
    rw [Service.verify, hsigner]
  have hweak := hrecorded.countP_isWeak
  rw [hverify, ← hchain.length_eq]
  refine ⟨rfl, rfl, ?_⟩
  cases hm : signer.mode with
  | cryptographic =>
    obtain ⟨hb, hv⟩ := hchain.verification_clean hrecorded honest (by rw [hm]; decide) now
    rw [if_pos hm] at hweak
    exact ⟨by rw [Verification.isValid, hb]; rfl, hb, hv, hweak⟩
  | weak =>
    obtain ⟨hb, hv⟩ := hchain.verification_clean hrecorded honest (by rw [hm]; decide) now
    rw [if_neg (by rw [hm]; decide)] at hweak
    exact ⟨by rw [Verification.isValid, hb]; rfl, hb, hv, hweak⟩
  | verifyOnly =>
    obtain ⟨hb, hv⟩ := hchain.verification_downgraded hrecorded honest hm now
    rw [if_neg (by rw [hm]; decide)] at hweak
    exact ⟨hb, hv, hweak⟩

/-- A verdict on two recordings, the second at an earlier reading, under the signer of a secret. -/
theorem verify_of_run_completed :
    let signer : Signer := ⟨.completed, .signing ⟨1, by decide⟩⟩
    let service : Service := ⟨.standard, signer, .empty, .of .standard, none⟩
    let ops : List (Instant × Operation) :=
      [(.startOf ⟨2024, 3, 1, by decide⟩, .record (.takedown "TD-1" "cid" "a@x.example" "Work")),
       (.startOf ⟨2024, 2, 1, by decide⟩, .record (.reinstatement "cid" "user-1" "reason"))]
    let after := ((Site.mk service .bare).run ops).service
    Service.start .standard signer .bare = .ok (service, .bare) ∧ signer.scheme.Honest ∧
    (after.verify .unset).total = 2 ∧ (after.verify .unset).isValid = true ∧
    (after.verify .unset).verified = 2 ∧ (after.verify .unset).weak = 0 := by
  intro signer service ops after
  have started : Service.start .standard signer .bare = .ok (service, .bare) := rfl
  have honest : signer.scheme.Honest := SignatureScheme.completed_honest
  obtain ⟨htotal, -, hvalid, -, hverified, hweak⟩ :=
    verify_of_run .standard signer .bare .bare service started honest ops .unset
  exact ⟨started, honest, htotal, hvalid, hverified, hweak⟩

end Site

end AuditTrail
