import AuditTrail.Proofs.Service.Export
import AuditTrail.Proofs.Verification.Edit
/-! # Removed entries

Neither the hash nor the signature of an entry covers its number and its link. So when entries have
been left out of a ledger, and of the others has been rewritten what is not covered, a verification
is good exactly when each entry has the number of its place and the hash of the entry now before it
(`Ledger.isValid_of_removal_iff`). Whoever removes entries and leaves the numbers of the others is
found out; whoever renumbers and relinks them is not (`Ledger.removal_unnoticed`). -/

namespace AuditTrail
set_option autoImplicit false

namespace Entry

/-- What hash and signature cover, with hash and signature themselves. -/
def covered (e : Entry) : Facts × String × String := (e.facts, e.hash, e.signature)

/-- Each entry has the number of its place and names the hash of the entry before it. -/
def AreLinked (entries : List Entry) : Prop :=
  ∀ (i : Nat) (e : Entry), entries[i]? = some e →
    e.sequence = numberAt i ∧ e.previousHash = linkAfter (placeBefore none entries i)

/-- Hashes and signatures hold, and times never decrease. -/
structure AreProven (signer : Signer) (entries : List Entry) : Prop where
  hash : ∀ e ∈ entries, e.hash = e.fingerprint
  signed : ∀ e ∈ entries, e.IsSignedBy signer
  ordered : (entries.map Entry.time).Pairwise (· ≤ ·)

section Proven
variable {signer : Signer} {entries : List Entry} (h : AreProven signer entries)
include h

theorem AreProven.sublist {kept : List Entry} (sub : kept.Sublist entries) :
    AreProven signer kept where
  hash := fun e he => h.hash e (sub.mem he)
  signed := fun e he => h.signed e (sub.mem he)
  ordered := h.ordered.sublist (sub.map Entry.time)

/-- Nothing that is not covered matters for hashes, signatures and times. -/
theorem AreProven.rewritten {forged : List Entry}
    (same : forged.map covered = entries.map covered) : AreProven signer forged := by
  have hmem : ∀ e' ∈ forged, ∃ e ∈ entries, e.covered = e'.covered := by
    intro e' he'
    have hc : e'.covered ∈ entries.map covered := by
      rw [← same]
      exact List.mem_map_of_mem he'
    obtain ⟨e, he, heq⟩ := List.mem_map.mp hc
    exact ⟨e, he, heq⟩
  constructor
  case hash =>
    intro e' he'
    obtain ⟨e, he, heq⟩ := hmem e' he'
    have hhash : e.hash = e'.hash := congrArg (fun c => c.2.1) heq
    have hfacts : e.facts = e'.facts := congrArg Prod.fst heq
    rw [fingerprint, ← hhash, ← hfacts]
    exact h.hash e he
  case signed =>
    intro e' he'
    obtain ⟨e, he, heq⟩ := hmem e' he'
    have hhash : e.hash = e'.hash := congrArg (fun c => c.2.1) heq
    have hsignature : e.signature = e'.signature := congrArg (fun c => c.2.2) heq
    have htime : e.time = e'.time := congrArg (fun c => c.1.time) heq
    rw [IsSignedBy, ← hhash, ← hsignature, ← htime]
    exact h.signed e he
  case ordered =>
    have htimes : forged.map Entry.time = entries.map Entry.time := by
      have hmapped := congrArg (List.map fun c : Facts × String × String => c.1.time) same
      rw [List.map_map, List.map_map] at hmapped
      exact hmapped
    rw [htimes]
    exact h.ordered

theorem AreProven.timeBreach_eq {i : Nat} {e : Entry} (he : entries[i]? = some e) :
    e.timeBreach (placeBefore none entries i) = [] := by
  cases i with
  | zero => rfl
  | succ i =>
    obtain ⟨hi, hget⟩ := List.getElem?_eq_some_iff.mp he
    have hle := List.pairwise_iff_getElem.mp h.ordered i (i + 1)
      (by rw [List.length_map]; omega) (by rw [List.length_map]; exact hi) (Nat.lt_succ_self i)
    rw [List.getElem_map, List.getElem_map, hget] at hle
    rw [placeBefore, List.getElem?_eq_getElem (by omega)]
    exact timeBreach_of_le hle

/-- What is proven is good exactly when it is linked. -/
theorem AreProven.isValid_iff (honest : signer.mode = .cryptographic → signer.scheme.Honest)
    (hmode : signer.mode ≠ .verifyOnly) (now : Instant) :
    (Verification.of (some signer) now entries).isValid = true ↔ AreLinked entries := by
  rw [Verification.isValid_iff]
  apply forall_congr'
  intro i
  apply forall_congr'
  intro e
  apply imp_congr_right
  intro he
  have hmem := List.mem_of_getElem? he
  rw [breaches, hashBreach_of_hash_eq (h.hash e hmem), h.timeBreach_eq he,
    signatureBreach_of_signed honest (h.signed e hmem), if_neg hmode, List.append_nil,
    List.append_nil, List.append_nil, List.append_eq_nil_iff, sequenceBreach_eq_nil_iff,
    linkBreach_eq_nil_iff]

end Proven

end Entry

namespace Ledger

section Chain
variable {config : Config} {signer : Signer} {ledger : Ledger} {readings : List Instant}
  (h : ledger.IsChain readings)
include h

theorem IsChain.areProven (hr : ledger.Recorded config signer) :
    Entry.AreProven signer ledger.entries where
  hash := h.hash
  signed := fun _ he => hr.signed he
  ordered := by
    rw [List.pairwise_map, List.pairwise_iff_getElem]
    intro i j hi hj hij
    exact h.ordered i j _ _ (Nat.le_of_lt hij) (List.getElem?_eq_getElem hi)
      (List.getElem?_eq_getElem hj)

omit h in
theorem numberAt_injective {i j : Nat} (hi : i < UInt64.size) (hj : j < UInt64.size)
    (h : Entry.numberAt i = Entry.numberAt j) : i = j := by
  have hnat := congrArg UInt64.toNat h
  rw [Entry.numberAt, Entry.numberAt, UInt64.toNat_ofNat', UInt64.toNat_ofNat'] at hnat
  rw [UInt64.size] at hi hj
  omega

/-- Entries of a chain that have the numbers of their places are the front of it. -/
theorem IsChain.isPrefix_of_sequences (hsize : ledger.entries.length ≤ UInt64.size)
    {kept : List Entry} (sub : kept.Sublist ledger.entries)
    (hnumbers : ∀ (i : Nat) (e : Entry), kept[i]? = some e → e.sequence = Entry.numberAt i) :
    kept <+: ledger.entries := by
  have hplaces : ∀ (i : Nat) (e : Entry), kept[i]? = some e → ledger.entries[i]? = some e := by
    intro i e he
    obtain ⟨j, hj⟩ := List.mem_iff_getElem?.mp (sub.mem (List.mem_of_getElem? he))
    have hi := (List.getElem?_eq_some_iff.mp he).1
    have hlt := (List.getElem?_eq_some_iff.mp hj).1
    have hle := sub.length_le
    have hij : i = j := numberAt_injective (by omega) (by omega)
      ((hnumbers i e he).symm.trans (h.sequence j e hj))
    rw [hij]
    exact hj
  rw [List.prefix_iff_eq_take]
  apply List.ext_getElem?
  intro i
  cases hk : kept[i]? with
  | none =>
    have hle := List.getElem?_eq_none_iff.mp hk
    rw [List.getElem?_eq_none (by rw [List.length_take]; omega)]
  | some e =>
    have hi := (List.getElem?_eq_some_iff.mp hk).1
    rw [List.getElem?_take_of_lt hi, hplaces i e hk]

end Chain

/-- What is left of a ledger, rewritten where it is not covered, is good for the public key exactly
when it is linked. -/
theorem isValid_iff_areLinked (config : Config) {scheme : SignatureScheme} (honest : scheme.Honest)
    (secret : SecretKey) (appends : List Append) (now : Instant) {kept forged : List Entry}
    (sub : kept.Sublist (ofAppends config ⟨scheme, .signing secret⟩ appends).entries)
    (rewritten : forged.map Entry.covered = kept.map Entry.covered) :
    (Verification.of (some (.verifier scheme (scheme.publicKey secret))) now forged).isValid = true ↔
      Entry.AreLinked forged := by
  have hchecked : Signer.CheckedBy ⟨scheme, .signing secret⟩
      (.verifier scheme (scheme.publicKey secret)) := Or.inr ⟨_, rfl, rfl⟩
  have hproven := (isChain_ofAppends config ⟨scheme, .signing secret⟩ appends).areProven
    (recorded_ofAppends config ⟨scheme, .signing secret⟩ appends)
  have hcryptographic : Signer.mode ⟨scheme, .signing secret⟩ ≠ .verifyOnly :=
    fun hmode => SigningMode.noConfusion hmode
  rw [hchecked.verification_eq now forged]
  exact ((hproven.sublist sub).rewritten rewritten).isValid_iff (fun _ => honest) hcryptographic now

/-- **Removal and forged links.** Of a ledger made by appends with a secret some entries are left out,
and of the others is rewritten what neither hash nor signature covers. Whoever knows the public key
finds nothing wrong exactly when each entry has the number of its new place and names the hash of the
entry now before it. So if the numbers are left as they were, and what is kept is not just the front
of the ledger, the removal is found, as far as numbers of 64 bits tell places apart. -/
theorem isValid_of_removal_iff (config : Config) (scheme : SignatureScheme) (honest : scheme.Honest)
    (secret : SecretKey) (appends : List Append) (now : Instant) (kept forged : List Entry)
    (sub : kept.Sublist (ofAppends config ⟨scheme, .signing secret⟩ appends).entries)
    (rewritten : forged.map Entry.covered = kept.map Entry.covered) :
    let entries := (ofAppends config ⟨scheme, .signing secret⟩ appends).entries
    let verdict := Verification.of (some (.verifier scheme (scheme.publicKey secret))) now forged
    (verdict.isValid = true ↔ Entry.AreLinked forged) ∧
    (¬ kept <+: entries → entries.length ≤ UInt64.size →
      forged.map Entry.sequence = kept.map Entry.sequence → verdict.isValid = false) := by
  intro entries verdict
  have hiff := isValid_iff_areLinked config honest secret appends now sub rewritten
  refine ⟨hiff, ?_⟩
  intro hole hsize hnumbers
  rw [← Bool.not_eq_true, hiff]
  intro hlinked
  apply hole
  apply (isChain_ofAppends config ⟨scheme, .signing secret⟩ appends).isPrefix_of_sequences hsize sub
  intro i e he
  have hforged : (forged.map Entry.sequence)[i]? = some e.sequence := by
    rw [hnumbers, List.getElem?_map, he]
    rfl
  rw [List.getElem?_map] at hforged
  obtain ⟨e', he', hsequence⟩ := Option.map_eq_some_iff.mp hforged
  rw [← hsequence]
  exact (hlinked i e' he').1

/-- The ledger of two events under a secret of a scheme that accepts all that it signs. -/
noncomputable def ofTwo : Ledger :=
  ofAppends .standard ⟨.completed, .signing ⟨1, by decide⟩⟩
    [⟨.startOf ⟨2024, 3, 1, by decide⟩, "AE-1", .takedown "TD-1" "cid" "a@x.example" "Work"⟩,
     ⟨.startOf ⟨2024, 3, 2, by decide⟩, "AE-2", .reinstatement "cid" "user-1" "reason"⟩]

/-- Whoever knows the public key checks some entries of the ledger of two events. -/
noncomputable def checkOfTwo (entries : List Entry) : Verification :=
  Verification.of (some (.verifier .completed (SignatureScheme.completed.publicKey
    ⟨1, by decide⟩))) .unset entries

theorem second_of_two_not_isPrefix : ∃ first second, ofTwo.entries = [first, second] ∧
    [second].Sublist ofTwo.entries ∧ ¬ [second] <+: ofTwo.entries := by
  refine ⟨_, _, rfl, List.sublist_cons_self _ _, ?_⟩
  intro hp
  exact absurd (congrArg Entry.id (List.cons_prefix_cons.mp hp).1) (by decide)

/-- The first of two entries is missing, and the second is as it was. -/
theorem isValid_of_removal_iff_untouched : ∃ first second, ofTwo.entries = [first, second] ∧
    SignatureScheme.completed.Honest ∧ [second].Sublist ofTwo.entries ∧
    ¬ [second] <+: ofTwo.entries ∧ ofTwo.entries.length ≤ UInt64.size ∧
    (checkOfTwo [second]).isValid = false := by
  obtain ⟨first, second, hentries, hsub, hprefix⟩ := second_of_two_not_isPrefix
  have honest := SignatureScheme.completed_honest
  have hsize : ofTwo.entries.length ≤ UInt64.size := by
    rw [hentries]
    exact (by decide : 2 ≤ UInt64.size)
  have hfound := (isValid_of_removal_iff .standard .completed honest ⟨1, by decide⟩ _ .unset
    [second] [second] hsub rfl).2 hprefix hsize rfl
  exact ⟨first, second, hentries, honest, hsub, hprefix, hsize, hfound⟩

/-- The first of two entries is missing, the second has its number and names no entry before it, and
nothing is found. -/
theorem removal_unnoticed : ∃ first second, ofTwo.entries = [first, second] ∧
    SignatureScheme.completed.Honest ∧ [second].Sublist ofTwo.entries ∧
    ¬ [second] <+: ofTwo.entries ∧
    let forged := [{ second with sequence := 1, previousHash := "" }]
    forged.map Entry.covered = [second].map Entry.covered ∧ (checkOfTwo forged).isValid = true := by
  obtain ⟨first, second, hentries, hsub, hprefix⟩ := second_of_two_not_isPrefix
  have honest := SignatureScheme.completed_honest
  refine ⟨first, second, hentries, honest, hsub, hprefix, ?_⟩
  intro forged
  have hcovered : forged.map Entry.covered = [second].map Entry.covered := rfl
  refine ⟨hcovered, ?_⟩
  refine (isValid_iff_areLinked .standard honest ⟨1, by decide⟩ _ .unset hsub hcovered).mpr ?_
  intro i e he
  cases i with
  | zero =>
    cases he
    exact ⟨rfl, rfl⟩
  | succ i => cases he

end Ledger

end AuditTrail
