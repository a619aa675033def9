import AuditTrail.Decimal.Binary64
import Mathlib.Algebra.Order.Field.Power
import Mathlib.Data.Nat.Log
import Mathlib.Data.Rat.Cast.Order
import Mathlib.Tactic.FieldSimp
import Mathlib.Tactic.Linarith
import Mathlib.Tactic.Positivity
/-! # Rounding to a double

The last bit that a double can hold is fixed by the size of the value (`IsLastBit.unique`), so the
pattern of a quotient depends on the quotient only, and the pattern of a value that a double holds
is the double's own. -/

namespace AuditTrail.Decimal
set_option autoImplicit false

open scoped CoreInstances

/-! ## The last bit -/

/-- The last bit of a double that holds a positive value: as low as fifty-three bits reach, but not
below the last bit of the smallest double. -/
structure IsLastBit (v : ℚ) (q : Int) : Prop where
  low : -1074 ≤ q
  below : v < 2 ^ (53 + q)
  full : q = -1074 ∨ 2 ^ (52 + q) ≤ v

theorem IsLastBit.le {v : ℚ} {q r : Int} (hq : IsLastBit v q) (hr : IsLastBit v r) : q ≤ r := by
  rcases hq.full with hlow | hfull
  · rw [hlow]
    exact hr.low
  · have hlt : (2 : ℚ) ^ (52 + q) < 2 ^ (53 + r) := lt_of_le_of_lt hfull hr.below
    have hexp : 52 + q < 53 + r := (zpow_lt_zpow_iff_right₀ (by norm_num)).mp hlt
    omega

theorem IsLastBit.unique {v : ℚ} {q r : Int} (hq : IsLastBit v q) (hr : IsLastBit v r) : q = r :=
  le_antisymm (hq.le hr) (hr.le hq)

theorem descaled_pos {num den : Nat} (hden : 0 < den) (q : Int) : 0 < (descaled num den q).2 := by
  unfold descaled
  split
  · exact Nat.mul_pos hden (Nat.two_pow_pos _)
  · exact hden

theorem descaled_eq {num den : Nat} (hden : 0 < den) (q : Int) :
    ((descaled num den q).1 : ℚ) = num / den / 2 ^ q * (descaled num den q).2 := by
  have hd : (den : ℚ) ≠ 0 := by positivity
  unfold descaled
  split
  · rename_i hq
    obtain ⟨k, rfl⟩ := Int.eq_ofNat_of_zero_le hq
    simp only [Int.toNat_natCast, zpow_natCast, Nat.cast_mul, Nat.cast_pow, Nat.cast_ofNat]
    field_simp
  · rename_i hq
    obtain ⟨k, hk⟩ := Int.eq_ofNat_of_zero_le (show 0 ≤ -q by omega)
    have hqk : q = -(k : Int) := by omega
    subst hqk
    simp only [neg_neg, Int.toNat_natCast, zpow_neg, zpow_natCast, Nat.cast_mul, Nat.cast_pow,
      Nat.cast_ofNat]
    field_simp

theorem descaled_lt_iff {num den : Nat} (hden : 0 < den) (q : Int) (k : Nat) :
    (descaled num den q).1 < 2 ^ k * (descaled num den q).2 ↔
      (num : ℚ) / den < 2 ^ ((k : Int) + q) := by
  have hd : (0 : ℚ) < (descaled num den q).2 := by exact_mod_cast descaled_pos hden q
  have hp : (0 : ℚ) < 2 ^ q := by positivity
  rw [← Nat.cast_lt (α := ℚ), descaled_eq hden, Nat.cast_mul, mul_lt_mul_iff_left₀ hd, div_lt_iff₀ hp,
    Nat.cast_pow, Nat.cast_ofNat, zpow_add₀ (by norm_num), zpow_natCast]

theorem lt_two_pow_log2 {n : Nat} (hn : n ≠ 0) : 2 ^ Nat.log2 n ≤ n ∧ n < 2 ^ (Nat.log2 n + 1) :=
  ⟨Nat.log2_self_le hn, Nat.lt_log2_self⟩

/-- The bit lengths of numerator and denominator locate a quotient within two powers of two. -/
theorem quotient_bounds {num den : Nat} (hnum : 0 < num) (hden : 0 < den) :
    (2 : ℚ) ^ ((Nat.log2 num : Int) - Nat.log2 den - 1) < num / den ∧
    (num : ℚ) / den < 2 ^ ((Nat.log2 num : Int) - Nat.log2 den + 1) := by
  obtain ⟨hn, hn'⟩ := lt_two_pow_log2 (Nat.pos_iff_ne_zero.mp hnum)
  obtain ⟨hd, hd'⟩ := lt_two_pow_log2 (Nat.pos_iff_ne_zero.mp hden)
  have hn : (2 : ℚ) ^ (Nat.log2 num : Int) ≤ num := by exact_mod_cast hn
  have hn' : (num : ℚ) < 2 ^ ((Nat.log2 num : Int) + 1) := by exact_mod_cast hn'
  have hd : (2 : ℚ) ^ (Nat.log2 den : Int) ≤ den := by exact_mod_cast hd
  have hd' : (den : ℚ) < 2 ^ ((Nat.log2 den : Int) + 1) := by exact_mod_cast hd'
  have hpos : (0 : ℚ) < den := by exact_mod_cast hden
  constructor
  · rw [lt_div_iff₀ hpos]
    calc (2 : ℚ) ^ ((Nat.log2 num : Int) - Nat.log2 den - 1) * den
        < 2 ^ ((Nat.log2 num : Int) - Nat.log2 den - 1) * 2 ^ ((Nat.log2 den : Int) + 1) :=
          mul_lt_mul_of_pos_left hd' (by positivity)
      _ = 2 ^ (Nat.log2 num : Int) := by
          rw [← zpow_add₀ (by norm_num)]
          congr 1
          omega
      _ ≤ num := hn
  · rw [div_lt_iff₀ hpos]
    calc (num : ℚ) < 2 ^ ((Nat.log2 num : Int) + 1) := hn'
      _ = 2 ^ ((Nat.log2 num : Int) - Nat.log2 den + 1) * 2 ^ (Nat.log2 den : Int) := by
          rw [← zpow_add₀ (by norm_num)]
          congr 1
          omega
      _ ≤ 2 ^ ((Nat.log2 num : Int) - Nat.log2 den + 1) * den :=
          mul_le_mul_of_nonneg_left hd (by positivity)

theorem two_zpow_le {a b : Int} (h : a ≤ b) : (2 : ℚ) ^ a ≤ 2 ^ b :=
  zpow_le_zpow_right₀ (by norm_num) h

theorem lastBit_isLastBit {num den : Nat} (hnum : 0 < num) (hden : 0 < den) :
    IsLastBit ((num : ℚ) / den) (lastBit num den) := by
  obtain ⟨hlow, hhigh⟩ := quotient_bounds hnum hden
  have hguess : -1074 ≤ max ((Nat.log2 num : Int) - Nat.log2 den - 52) (-1074) := le_max_right _ _
  have hreach : (Nat.log2 num : Int) - Nat.log2 den - 52 ≤
      max ((Nat.log2 num : Int) - Nat.log2 den - 52) (-1074) := le_max_left _ _
  have hmax : max ((Nat.log2 num : Int) - Nat.log2 den - 52) (-1074) = -1074 ∨
      max ((Nat.log2 num : Int) - Nat.log2 den - 52) (-1074) =
        (Nat.log2 num : Int) - Nat.log2 den - 52 := by omega
  simp only [lastBit]
  generalize hg : max ((Nat.log2 num : Int) - Nat.log2 den - 52) (-1074) = guess at *
  have hbelow : (num : ℚ) / den < 2 ^ (53 + guess) := lt_of_lt_of_le hhigh (two_zpow_le (by omega))
  have hshort := @descaled_lt_iff num den hden guess 52
  split
  · rename_i hlt
    have hbit := hshort.mp hlt.2
    refine ⟨by omega, ?_, Or.inr ?_⟩
    · rw [show 53 + (guess - 1) = ((52 : Nat) : Int) + guess by omega]
      exact hbit
    · have hbound := le_of_lt hlow
      have hexp : 52 + (guess - 1) = (Nat.log2 num : Int) - Nat.log2 den - 1 := by omega
      rw [hexp]
      exact hbound
  · rename_i hlt
    refine ⟨hguess, hbelow, ?_⟩
    by_cases hleast : guess = -1074
    · exact Or.inl hleast
    · have hnot : ¬(num : ℚ) / den < 2 ^ (((52 : Nat) : Int) + guess) :=
        fun hbit => hlt ⟨by omega, hshort.mpr hbit⟩
      exact Or.inr (not_lt.mp hnot)

/-! ## The pattern -/

theorem roundHalfEven_mul (num den : Nat) {s : Nat} (hs : 0 < s) :
    roundHalfEven (num * s) (den * s) = roundHalfEven num den := by
  have hlow : 2 * (num % den * s) < den * s ↔ 2 * (num % den) < den := by
    rw [← Nat.mul_assoc]
    exact Nat.mul_lt_mul_right hs
  have hhigh : den * s < 2 * (num % den * s) ↔ den < 2 * (num % den) := by
    rw [← Nat.mul_assoc]
    exact Nat.mul_lt_mul_right hs
  simp only [roundHalfEven, Nat.mul_div_mul_right _ _ hs, Nat.mul_mod_mul_right, hlow, hhigh]

theorem roundHalfEven_exact (m : Nat) {den : Nat} (hden : 0 < den) :
    roundHalfEven (m * den) den = m := by
  simp only [roundHalfEven, Nat.mul_div_cancel _ hden, Nat.mul_mod_left, Nat.mul_zero, hden, if_true]

theorem descaled_mul (num den s : Nat) (q : Int) : descaled (num * s) (den * s) q =
    ((descaled num den q).1 * s, (descaled num den q).2 * s) := by
  unfold descaled
  split
  · rw [Nat.mul_right_comm]
  · rw [Nat.mul_right_comm]

theorem lastBit_mul {num den s : Nat} (hnum : 0 < num) (hden : 0 < den) (hs : 0 < s) :
    lastBit (num * s) (den * s) = lastBit num den := by
  have hs' : (s : ℚ) ≠ 0 := by positivity
  have hv : ((num * s : Nat) : ℚ) / ((den * s : Nat) : ℚ) = num / den := by
    rw [Nat.cast_mul, Nat.cast_mul, mul_div_mul_right _ _ hs']
  have hscaled := lastBit_isLastBit (Nat.mul_pos hnum hs) (Nat.mul_pos hden hs)
  rw [hv] at hscaled
  exact hscaled.unique (lastBit_isLastBit hnum hden)

/-- The pattern depends on the quotient only. -/
theorem magnitudePattern_mul {num den s : Nat} (hden : 0 < den) (hs : 0 < s) :
    magnitudePattern (num * s) (den * s) = magnitudePattern num den := by
  unfold magnitudePattern
  by_cases hnum : num = 0
  · rw [if_pos hnum, if_pos (by rw [hnum, Nat.zero_mul])]
  · have hpos := Nat.pos_iff_ne_zero.mpr hnum
    rw [if_neg hnum, if_neg (Nat.mul_ne_zero hnum (Nat.pos_iff_ne_zero.mp hs)),
      lastBit_mul hpos hden hs]
    simp only [descaled_mul, roundHalfEven_mul _ _ hs]

theorem magnitudePattern_exact {num den m : Nat} {q : Int} (hden : 0 < den) (hm : 0 < m)
    (hv : (num : ℚ) / den = m * 2 ^ q) (hq : IsLastBit ((num : ℚ) / den) q) :
    magnitudePattern num den = (q + 1074).toNat * 2 ^ (52 : Nat) + m := by
  have hd : (den : ℚ) ≠ 0 := by positivity
  have hp : (2 : ℚ) ^ q ≠ 0 := by positivity
  have hnum : num ≠ 0 := by
    intro h
    rw [h, Nat.cast_zero, zero_div] at hv
    have hmq : (m : ℚ) * 2 ^ q ≠ 0 := mul_ne_zero (by positivity) hp
    exact hmq hv.symm
  have hlast : lastBit num den = q :=
    (lastBit_isLastBit (Nat.pos_iff_ne_zero.mpr hnum) hden).unique hq
  have hn : (descaled num den q).1 = m * (descaled num den q).2 := by
    have h := @descaled_eq num den hden q
    rw [hv, mul_div_assoc, div_self hp, mul_one] at h
    exact_mod_cast h
  unfold magnitudePattern
  rw [if_neg hnum, hlast]
  simp only
  rw [hn, roundHalfEven_exact m (descaled_pos hden q)]

end AuditTrail.Decimal
