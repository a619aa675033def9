import AuditTrail.Time.Instant
/-! # The order of instants

Instants are ordered by a number that grows with the moment, so their order is the one of the
integers. `IsLatest` says that a moment is the maximum of a row of readings of a clock. The clock may
go backwards between two readings. -/

namespace AuditTrail.Instant
set_option autoImplicit false

theorem le_refl (a : Instant) : a ≤ a := Int.le_refl a.key

theorem le_trans {a b c : Instant} (hab : a ≤ b) (hbc : b ≤ c) : a ≤ c := Int.le_trans hab hbc

theorem le_of_lt {a b : Instant} (h : a < b) : a ≤ b := Int.le_of_lt h

theorem lt_of_lt_of_le {a b c : Instant} (hab : a < b) (hbc : b ≤ c) : a < c :=
  Int.lt_of_lt_of_le hab hbc

theorem not_lt {a b : Instant} : ¬ a < b ↔ b ≤ a := Int.not_lt

/-! ## The later of two moments -/

theorem le_later_left (a b : Instant) : a ≤ later a b := by
  unfold later
  split
  · rename_i h
    exact le_of_lt h
  · exact le_refl a

theorem le_later_right (a b : Instant) : b ≤ later a b := by
  unfold later
  split
  · exact le_refl b
  · rename_i h
    exact not_lt.mp h

theorem later_eq_or (a b : Instant) : later a b = a ∨ later a b = b := by
  unfold later
  split
  · exact Or.inr rfl
  · exact Or.inl rfl

/-! ## The latest of some readings -/

/-- The moment is one of the readings, and none of them is later. -/
def IsLatest (t : Instant) (readings : List Instant) : Prop :=
  t ∈ readings ∧ ∀ u ∈ readings, u ≤ t

theorem IsLatest.single (t : Instant) : IsLatest t [t] := by
  refine ⟨List.mem_singleton_self t, ?_⟩
  intro u hu
  rw [List.mem_singleton.mp hu]
  exact le_refl t

/-- A further reading leaves the later of it and the latest one so far. -/
theorem IsLatest.later_append {t : Instant} {readings : List Instant} (h : IsLatest t readings)
    (now : Instant) : IsLatest (later now t) (readings ++ [now]) := by
  refine ⟨?_, ?_⟩
  · rcases later_eq_or now t with he | he
    · rw [he]
      exact List.mem_append_right readings (List.mem_singleton_self now)
    · rw [he]
      exact List.mem_append_left [now] h.1
  · intro u hu
    rcases List.mem_append.mp hu with hu | hu
    · exact le_trans (h.2 u hu) (le_later_right now t)
    · rw [List.mem_singleton.mp hu]
      exact le_later_left now t

theorem IsLatest.le_of_subset {t u : Instant} {earlier later : List Instant}
    (ht : IsLatest t earlier) (hu : IsLatest u later) (h : earlier ⊆ later) : t ≤ u :=
  hu.2 t (h ht.1)

end AuditTrail.Instant
