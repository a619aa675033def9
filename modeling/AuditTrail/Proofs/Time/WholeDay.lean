import AuditTrail.Proofs.Time.Day
import AuditTrail.Proofs.Time.Order
/-! # Whole days

The moments of a day are those from its first moment on and before the first moment of the day after
(`Instant.within_day_iff`). A leap second at the end of a day still belongs to it. -/

namespace AuditTrail
set_option autoImplicit false

namespace Date

/-- The parts of a date that was made of parts. -/
theorem ofParts?_eq_some {year : Int} {month day : Nat} {d : Date}
    (h : ofParts? year month day = some d) : d.year = year ∧ d.month = month ∧ d.day = day := by
  unfold ofParts? at h
  split at h
  · rw [← Option.some.inj h]
    exact ⟨rfl, rfl, rfl⟩
  · cases h

/-- The month and the day of a date lie in their ranges. -/
theorem month_day_bounds (d : Date) :
    1 ≤ d.month ∧ d.month ≤ 12 ∧ 1 ≤ d.day ∧ d.day ≤ daysInMonth d.year d.month := by
  have h := d.valid
  simp only [isDate, decide_eq_true_eq] at h
  exact ⟨h.2.2.1, h.2.2.2.1, h.2.2.2.2.1, h.2.2.2.2.2⟩

/-- Between a day and the day after there is no other. -/
theorem lt_next_iff {day next : Date} (h : day.next? = some next) (d : Date) :
    d < next ↔ d ≤ day := by
  obtain ⟨hd1, hd2, hd3, hd4⟩ := d.month_day_bounds
  obtain ⟨hm1, hm2, hm3, hm4⟩ := day.month_day_bounds
  have hmax := daysInMonth_le d.year d.month
  have hmax' := daysInMonth_le day.year day.month
  show d.key < next.key ↔ d.key ≤ day.key
  simp only [key]
  unfold next? at h
  split at h
  case isTrue hmid =>
    obtain ⟨hy, hm, hd⟩ := ofParts?_eq_some h
    omega
  case isFalse hend =>
    -- The day is the last one of its month, so a day of that month is not later.
    have hsame : d.year = day.year → d.month = day.month → d.day ≤ day.day := by
      intro hy hm
      rw [hy, hm] at hd4
      omega
    split at h
    case isTrue hmonth =>
      obtain ⟨hy, hm, hd⟩ := ofParts?_eq_some h
      omega
    case isFalse hyear =>
      obtain ⟨hy, hm, hd⟩ := ofParts?_eq_some h
      omega

end Date

namespace Instant

/-- The time of day is small against the number of the day. -/
theorem time_of_day_bounds (t : Instant) : t.second < 86400 ∧ t.nano < 2000000000 := by
  have h := t.valid
  simp only [isTimeOfDay, decide_eq_true_eq] at h
  exact ⟨h.1, h.2.1⟩

theorem date_le_of_le {a b : Instant} (h : a ≤ b) : a.date ≤ b.date := by
  have ha := a.time_of_day_bounds
  have hb := b.time_of_day_bounds
  have hkey : a.key ≤ b.key := h
  simp only [key] at hkey
  show a.date.key ≤ b.date.key
  omega

theorem startOf_le_iff (day : Date) (t : Instant) : startOf day ≤ t ↔ day ≤ t.date := by
  have ht := t.time_of_day_bounds
  show (startOf day).key ≤ t.key ↔ day.key ≤ t.date.key
  simp only [key, startOf]
  omega

theorem lt_startOf_iff (day : Date) (t : Instant) : t < startOf day ↔ t.date < day := by
  have ht := t.time_of_day_bounds
  show t.key < (startOf day).key ↔ t.date.key < day.key
  simp only [key, startOf]
  omega

theorem startOf_lt_next {day next : Date} (h : day.next? = some next) :
    startOf day < startOf next :=
  (lt_startOf_iff next _).mpr ((Date.lt_next_iff h day).mpr (Date.le_refl day))

/-- The moments from midnight to midnight are those of the day. -/
theorem within_day_iff {day next : Date} (h : day.next? = some next) (t : Instant) :
    startOf day ≤ t ∧ t < startOf next ↔ t.date = day := by
  rw [startOf_le_iff, lt_startOf_iff, Date.lt_next_iff h]
  constructor
  · intro ⟨hfrom, hto⟩
    exact Date.le_antisymm hto hfrom
  · rintro rfl
    exact ⟨Date.le_refl _, Date.le_refl _⟩

end Instant

end AuditTrail
