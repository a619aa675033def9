import AuditTrail.Ledger
import AuditTrail.Proofs.Time.Order
/-! # The chain of entries

`IsChain` says what holds of a ledger whose entries were recorded at some readings of the clock:
numbers, links, hashes, times and the head. `IsChain.push` is the one step that every longer run is
made of. `Recorded` keeps where each entry comes from: the draft of an event, sealed by the signer
of the ledger. -/

namespace AuditTrail
set_option autoImplicit false

theorem getElem?_concat_cases {α : Type} {as : List α} {a b : α} {i : Nat}
    (h : (as ++ [a])[i]? = some b) : as[i]? = some b ∧ i < as.length ∨ i = as.length ∧ b = a := by
  rcases Nat.lt_trichotomy i as.length with hi | hi | hi
  · rw [List.getElem?_append_left hi] at h
    exact Or.inl ⟨h, hi⟩
  · subst hi
    rw [List.getElem?_concat_length] at h
    exact Or.inr ⟨rfl, (Option.some.inj h).symm⟩
  · rw [List.getElem?_eq_none (by rw [List.length_append, List.length_singleton]; omega)] at h
    cases h

/-! ## Sealed drafts -/

namespace Entry

variable (signer : Signer) (previousHash : String) (draft : Entry)

theorem seal_hash :
    (draft.seal signer previousHash).hash = (draft.seal signer previousHash).fingerprint := rfl

theorem seal_signature : (draft.seal signer previousHash).signature =
    (signer.sign (draft.seal signer previousHash).hash (draft.seal signer previousHash).time).text :=
  rfl

end Entry

namespace Ledger

/-- Each entry is the draft of an event under the configuration, sealed by the signer. -/
def Recorded (config : Config) (signer : Signer) (ledger : Ledger) : Prop :=
  ∀ e ∈ ledger.entries, ∃ id time sequence event previousHash,
    e = (Entry.draft config id time sequence event).seal signer previousHash

theorem Recorded.empty (config : Config) (signer : Signer) : Recorded config signer Ledger.empty := by
  intro e he
  cases he

theorem Recorded.push {config : Config} {signer : Signer} {ledger : Ledger}
    (h : ledger.Recorded config signer) (now : Instant) (id : String) (event : Event) :
    (ledger.push (ledger.entryOf config signer now id event)).Recorded config signer := by
  intro e he
  rcases List.mem_append.mp he with he | he
  · exact h e he
  · rw [List.mem_singleton.mp he]
    exact ⟨id, ledger.stamp now, ledger.nextSequence, event, ledger.headHash, rfl⟩

/-! ## The invariant -/

/-- What holds of the ledger of the entries that were recorded at some readings of the clock, the
first entry at the first reading and so on. -/
structure IsChain (ledger : Ledger) (readings : List Instant) : Prop where
  /-- There is one entry for each reading. -/
  length_eq : ledger.entries.length = readings.length
  /-- Entries are numbered from one, in words of 64 bits. -/
  sequence : ∀ i e, ledger.entries[i]? = some e → e.sequence = UInt64.ofNat (i + 1)
  /-- The first entry names no hash. -/
  first : ∀ e, ledger.entries[0]? = some e → e.previousHash = ""
  /-- Every other entry names the hash of the one before. -/
  link : ∀ i before e, ledger.entries[i]? = some before → ledger.entries[i + 1]? = some e →
    e.previousHash = before.hash
  /-- The hash of an entry is the one that its facts ask for. -/
  hash : ∀ e ∈ ledger.entries, e.hash = e.fingerprint
  /-- An entry is stamped with the latest reading up to its own. -/
  time : ∀ i e, ledger.entries[i]? = some e → Instant.IsLatest e.time (readings.take (i + 1))
  /-- Times never decrease. -/
  ordered : ∀ (i j : Nat) (before e : Entry), i ≤ j → ledger.entries[i]? = some before →
    ledger.entries[j]? = some e → before.time ≤ e.time
  /-- The head is the hash of the last entry, and empty without one. -/
  head : ledger.headHash = match ledger.entries.getLast? with
    | some e => e.hash
    | none => ""

theorem IsChain.empty : Ledger.empty.IsChain [] where
  length_eq := rfl
  sequence := fun _ _ h => by cases h
  first := fun _ h => by cases h
  link := fun _ _ _ h => by cases h
  hash := fun _ h => by cases h
  time := fun _ _ h => by cases h
  ordered := fun _ _ _ _ _ h => by cases h
  head := rfl

theorem IsChain.head_of_last {ledger : Ledger} {readings : List Instant}
    (h : ledger.IsChain readings) {i : Nat} {e : Entry} (he : ledger.entries[i]? = some e)
    (hi : i + 1 = ledger.entries.length) : ledger.headHash = e.hash := by
  have hl : ledger.entries.getLast? = some e := by
    rw [List.getLast?_eq_getElem?, ← hi]
    exact he
  rw [h.head, hl]

/-- A new entry is stamped with the latest reading up to its own. -/
theorem IsChain.stamp_isLatest {ledger : Ledger} {readings : List Instant}
    (h : ledger.IsChain readings) (now : Instant) :
    Instant.IsLatest (ledger.stamp now) (readings ++ [now]) := by
  unfold stamp
  cases hl : ledger.entries.getLast? with
  | none =>
    have hn : readings = [] := by
      rw [List.getLast?_eq_none_iff] at hl
      rw [← List.length_eq_zero_iff, ← h.length_eq, hl]
      rfl
    rw [hn]
    exact Instant.IsLatest.single now
  | some last =>
    rw [List.getLast?_eq_getElem?] at hl
    have hlt := h.time _ last hl
    have hpos : 0 < ledger.entries.length := by
      rcases Nat.eq_zero_or_pos ledger.entries.length with hz | hz
      · rw [List.length_eq_zero_iff.mp hz] at hl
        cases hl
      · exact hz
    rw [Nat.sub_add_cancel hpos, h.length_eq, List.take_length] at hlt
    exact hlt.later_append now

/-- **Step.** Recording an event at a reading of the clock makes the chain longer by that reading. -/
theorem IsChain.push {ledger : Ledger} {readings : List Instant} (h : ledger.IsChain readings)
    (config : Config) (signer : Signer) (now : Instant) (id : String) (event : Event) :
    (ledger.push (ledger.entryOf config signer now id event)).IsChain (readings ++ [now]) := by
  have hlast := h.stamp_isLatest now
  have hold : ∀ i e, ledger.entries[i]? = some e → i < ledger.entries.length →
      Instant.IsLatest e.time ((readings ++ [now]).take (i + 1)) := by
    intro i e he hi
    rw [List.take_append_of_le_length (by rw [← h.length_eq]; exact hi)]
    exact h.time i e he
  have hfull : (readings ++ [now]).take (ledger.entries.length + 1) = readings ++ [now] := by
    apply List.take_of_length_le
    apply Nat.le_of_eq
    rw [List.length_append, List.length_singleton, h.length_eq]
  constructor
  case length_eq =>
    simp only [Ledger.push, List.length_append, List.length_singleton, h.length_eq]
  case sequence =>
    intro i e he
    rcases getElem?_concat_cases he with ⟨ho, -⟩ | ⟨hi, hn⟩
    · exact h.sequence i e ho
    · rw [hn, hi]
      rfl
  case first =>
    intro e he
    rcases getElem?_concat_cases he with ⟨ho, -⟩ | ⟨hi, hn⟩
    · exact h.first e ho
    · have hh := h.head
      rw [List.length_eq_zero_iff.mp hi.symm] at hh
      rw [hn]
      exact hh
  case link =>
    intro i before e hb he
    rcases getElem?_concat_cases he with ⟨ho, hi⟩ | ⟨hi, hn⟩
    · rcases getElem?_concat_cases hb with ⟨hob, -⟩ | ⟨hib, -⟩
      · exact h.link i before e hob ho
      · omega
    · rcases getElem?_concat_cases hb with ⟨hob, -⟩ | ⟨hib, -⟩
      · rw [hn]
        exact h.head_of_last hob hi
      · omega
  case hash =>
    intro e he
    rcases List.mem_append.mp he with he | he
    · exact h.hash e he
    · rw [List.mem_singleton.mp he]
      exact Entry.seal_hash _ _ _
  case time =>
    intro i e he
    rcases getElem?_concat_cases he with ⟨ho, hi⟩ | ⟨hi, hn⟩
    · exact hold i e ho hi
    · rw [hn, hi, hfull]
      exact hlast
  case ordered =>
    intro i j before e hij hb he
    rcases getElem?_concat_cases he with ⟨ho, hj⟩ | ⟨hj, hn⟩
    · rcases getElem?_concat_cases hb with ⟨hob, -⟩ | ⟨hib, -⟩
      · exact h.ordered i j before e hij hob ho
      · omega
    · rcases getElem?_concat_cases hb with ⟨hob, hi⟩ | ⟨-, hnb⟩
      · rw [hn]
        exact (hold i before hob hi).le_of_subset hlast (List.take_subset _ _)
      · rw [hn, hnb]
        exact Instant.le_refl _
  case head =>
    simp only [Ledger.push, List.getLast?_concat]

end Ledger

end AuditTrail
