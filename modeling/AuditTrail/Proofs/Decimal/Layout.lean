import AuditTrail.Proofs.Decimal.ReadBack
import AuditTrail.Proofs.Text.Digits
/-! # Decimals laid out in full

A decimal that is laid out without an exponent is a row of digits, ended as the layout ends whole
numbers, or digits before and behind a point (`Layout.write_positional`). No zero stands in front but
a single one, and the digits with their places are those of the decimal. -/

namespace AuditTrail.Decimal
set_option autoImplicit false

open scoped CoreInstances

theorem areDigits_digits (n : Nat) : AreDigits (digits n) := areDigits_toDigits n

theorem digitsValue_digits (n : Nat) : digitsValue (digits n) = n := digitsValue_toDigits n

theorem digits_ne_nil (n : Nat) : digits n ≠ [] := Nat.toDigits_ne_nil

/-- Zeros behind the digits of a number are powers of ten. -/
theorem digits_mul_pow {n : Nat} (hn : 0 < n) (k : Nat) :
    digits (n * 10 ^ k) = digits n ++ List.replicate k '0' := by
  induction k with
  | zero => rw [Nat.pow_zero, Nat.mul_one, List.replicate_zero, List.append_nil]
  | succ k ih =>
    rw [Nat.pow_succ, ← Nat.mul_assoc, digits_mul_ten (Nat.mul_pos hn (Nat.pow_pos (by decide))), ih,
      List.append_assoc, List.replicate_succ']

/-- No zero stands before the digits of a number but the one that is all of them. -/
theorem length_digits_of_head_zero {n : Nat} (h : (digits n).head? = some '0') :
    (digits n).length = 1 := by
  rcases Nat.eq_zero_or_pos n with rfl | hn
  · rfl
  · exact absurd h (head_toDigits_ne_zero hn)

/-- Digits around a point that write a decimal. -/
structure IsPointed (d : Numeral) (whole part : List Char) : Prop where
  whole_digits : AreDigits whole
  whole_nonempty : whole ≠ []
  /-- Only a single digit may be a zero in front. -/
  front : whole.head? = some '0' → whole.length = 1
  part_digits : AreDigits part
  part_nonempty : part ≠ []
  value : digitsValue (whole ++ part) = d.coefficient
  places : -(part.length : Int) = d.exponent

section Layouts
variable {d : Numeral} (hzero : d.coefficient ≠ 0 ∨ d = ⟨0, 0⟩)
include hzero

/-- The digits of a whole decimal and the zeros behind them. -/
theorem digits_whole :
    digits d.coefficient ++ List.replicate d.exponent.toNat '0' =
      digits (d.coefficient * 10 ^ d.exponent.toNat) := by
  rcases hzero with hc | hd
  · exact (digits_mul_pow (Nat.pos_iff_ne_zero.mpr hc) _).symm
  · rw [hd]
    rfl

theorem head_digits_ne_zero (he : d.exponent ≠ 0) : (digits d.coefficient).head? ≠ some '0' := by
  rcases hzero with hc | hd
  · exact head_toDigits_ne_zero (Nat.pos_iff_ne_zero.mpr hc)
  · rw [hd] at he
    exact absurd rfl he

/-- The point stands inside the digits. -/
theorem isPointed_inside (he : d.exponent < 0) {n : Nat} (hpos : 0 < n)
    (hn : (n : Int) = d.exponent + (digits d.coefficient).length) :
    IsPointed d ((digits d.coefficient).take n) ((digits d.coefficient).drop n) where
  whole_digits := (areDigits_digits _).take _
  whole_nonempty := by
    intro h
    rcases List.take_eq_nil_iff.mp h with h | h
    · exact absurd h (Nat.pos_iff_ne_zero.mp hpos)
    · exact digits_ne_nil _ h
  front := by
    intro h
    rw [List.head?_take, if_neg (Nat.pos_iff_ne_zero.mp hpos)] at h
    exact absurd h (head_digits_ne_zero hzero (by omega))
  part_digits := (areDigits_digits _).drop _
  part_nonempty := by
    apply List.ne_nil_of_length_pos
    rw [List.length_drop]
    omega
  value := by rw [List.take_append_drop, digitsValue_digits]
  places := by
    rw [List.length_drop]
    omega

omit hzero in
/-- Zeros stand between the point and the digits. -/
theorem isPointed_small {n : Nat} (hn : (n : Int) = -d.exponent - (digits d.coefficient).length) :
    IsPointed d ['0'] (List.replicate n '0' ++ digits d.coefficient) where
  whole_digits := areDigits_replicate_zero 1
  whole_nonempty := List.cons_ne_nil _ _
  front _ := rfl
  part_digits := (areDigits_replicate_zero _).append (areDigits_digits _)
  part_nonempty h := digits_ne_nil _ (List.append_eq_nil_iff.mp h).2
  value := by
    have hfront : digitsValue ['0'] = 0 := rfl
    rw [digitsValue_append, digitsValue_append, digitsValue_replicate_zero, hfront,
      digitsValue_digits, Nat.zero_mul, Nat.zero_mul, Nat.zero_add, Nat.zero_add]
  places := by
    rw [List.length_append, List.length_replicate]
    omega

/-- A decimal without an exponent is digits with the ending of a whole number, or digits around a
point. -/
theorem Layout.write_positional (layout : Layout)
    (hpositional : layout.isPositional (d.exponent + (digits d.coefficient).length - 1) = true) :
    (0 ≤ d.exponent ∧ layout.write d =
      digits (d.coefficient * 10 ^ d.exponent.toNat) ++ layout.wholeEnding) ∨
    ∃ whole part, IsPointed d whole part ∧ layout.write d = whole ++ '.' :: part := by
  simp only [Layout.write, if_pos hpositional]
  by_cases he : 0 ≤ d.exponent
  · refine Or.inl ⟨he, ?_⟩
    rw [if_pos he, digits_whole hzero]
  · rw [if_neg he]
    refine Or.inr ?_
    by_cases hlead : 0 ≤ d.exponent + (digits d.coefficient).length - 1
    · rw [if_pos hlead, List.append_assoc]
      exact ⟨_, _, isPointed_inside hzero (by omega) (Nat.succ_pos _) (by omega), rfl⟩
    · rw [if_neg hlead, List.append_assoc]
      exact ⟨['0'], _, isPointed_small (by omega), rfl⟩

end Layouts

/-! ## Doubles -/

namespace Binary64

/-- The sign that stands before the text of a double. -/
def sign (x : Binary64) : List Char := if x.isNegative then ['-'] else []

theorem isNaN_of_isFinite {x : Binary64} (h : x.isFinite = true) : x.isNaN = false := by
  rw [isFinite, bne_iff_ne] at h
  rw [isNaN, beq_false_of_ne h, Bool.false_and]

/-- The text of a finite double is its sign and its shortest decimal. -/
theorem write_of_isFinite (layout : Layout) {x : Binary64} (h : x.isFinite = true) :
    x.write layout = x.sign ++ layout.write (shortest layout.tie x) := by
  rw [write, if_neg (Bool.eq_false_iff.mp (isNaN_of_isFinite h))]
  exact if_pos h

end Binary64

end AuditTrail.Decimal
