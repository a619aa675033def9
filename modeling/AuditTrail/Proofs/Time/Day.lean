import AuditTrail.Time.Date
/-! # The order of days

Days are ordered by a number that names the day, so of two different days one is earlier. -/

namespace AuditTrail
set_option autoImplicit false

theorem daysInMonth_le (year : Int) (month : Nat) : daysInMonth year month ≤ 31 := by
  unfold daysInMonth
  split
  · split <;> omega
  · split <;> omega

namespace Date

theorem key_injective {a b : Date} (h : a.key = b.key) : a = b := by
  obtain ⟨year, month, day, valid⟩ := a
  obtain ⟨year', month', day', valid'⟩ := b
  have hb := valid
  have hb' := valid'
  simp only [isDate, decide_eq_true_eq] at hb hb'
  have hd := daysInMonth_le year month
  have hd' := daysInMonth_le year' month'
  simp only [key] at h
  obtain ⟨rfl, rfl, rfl⟩ : year = year' ∧ month = month' ∧ day = day' := by omega
  rfl

theorem le_refl (a : Date) : a ≤ a := Int.le_refl a.key

theorem le_trans {a b c : Date} (hab : a ≤ b) (hbc : b ≤ c) : a ≤ c := Int.le_trans hab hbc

theorem le_of_lt {a b : Date} (h : a < b) : a ≤ b := Int.le_of_lt h

theorem not_lt {a b : Date} : ¬ a < b ↔ b ≤ a := Int.not_lt

theorem lt_of_le_of_lt {a b c : Date} (hab : a ≤ b) (hbc : b < c) : a < c :=
  Int.lt_of_le_of_lt hab hbc

theorem le_antisymm {a b : Date} (hab : a ≤ b) (hba : b ≤ a) : a = b :=
  key_injective (Int.le_antisymm hab hba)

theorem ne_of_lt {a b : Date} (h : a < b) : a ≠ b := by
  rintro rfl
  exact Int.lt_irrefl a.key h

/-! ## The latest of some days -/

/-- The day is one of some days, and none of them is later. -/
def IsLatest (day : Date) (days : List Date) : Prop := day ∈ days ∧ ∀ d ∈ days, d ≤ day

theorem IsLatest.unique {a b : Date} {days : List Date} (ha : IsLatest a days)
    (hb : IsLatest b days) : a = b :=
  le_antisymm (hb.2 a ha.1) (ha.2 b hb.1)

theorem isLatest_concat {day : Date} {days : List Date} (h : ∀ d ∈ days, d ≤ day) :
    IsLatest day (days ++ [day]) := by
  refine ⟨List.mem_append_right _ List.mem_cons_self, ?_⟩
  intro d hd
  rcases List.mem_append.mp hd with hold | hnew
  · exact h d hold
  · rw [List.mem_singleton.mp hnew]
    exact le_refl day

theorem IsLatest.concat {day other : Date} {days : List Date} (h : IsLatest day days)
    (hle : other ≤ day) : IsLatest day (days ++ [other]) := by
  refine ⟨List.mem_append_left _ h.1, ?_⟩
  intro d hd
  rcases List.mem_append.mp hd with hold | hnew
  · exact h.2 d hold
  · rw [List.mem_singleton.mp hnew]
    exact hle

theorem IsLatest.perm {day : Date} {days others : List Date} (h : IsLatest day days)
    (hp : days.Perm others) : IsLatest day others :=
  ⟨hp.mem_iff.mp h.1, fun d hd => h.2 d (hp.mem_iff.mpr hd)⟩

end Date

end AuditTrail
