import AuditTrail.Decimal.Shortest
import AuditTrail.Proofs.Decimal.Rounding
/-! # The shortest decimal reads back

A zero moved from the coefficient of a decimal into its exponent changes no reading, and the exact
expansion of a double reads back as the double. So does the decimal that the search for the shortest
one ends with (`ofDecimal?_shortest`). -/

namespace AuditTrail.Decimal
set_option autoImplicit false

open scoped CoreInstances

theorem digitCount_le_iff {n k : Nat} (hk : 0 < k) : digitCount n ≤ k ↔ n < 10 ^ k :=
  Nat.length_toDigits_le_iff (by decide) hk

theorem digits_mul_ten {n : Nat} (hn : 0 < n) : digits (n * 10) = digits n ++ ['0'] := by
  have h := Nat.toDigits_append_toDigits (b := 10) (n := n) (d := 0) (by decide) hn (by decide)
  rw [Nat.add_zero, Nat.mul_comm] at h
  exact h.symm

theorem digitCount_mul_ten {n : Nat} (hn : 0 < n) : digitCount (n * 10) = digitCount n + 1 := by
  have h := congrArg List.length (digits_mul_ten hn)
  rwa [List.length_append] at h

/-! ## Decimals of equal value -/

/-- The pattern of `coefficient · 10 ^ exponent`. -/
def decimalPattern (coefficient : Nat) (exponent : Int) : Nat :=
  if 0 ≤ exponent then magnitudePattern (coefficient * 10 ^ exponent.toNat) 1
  else magnitudePattern coefficient (10 ^ (-exponent).toNat)

theorem decimalPattern_mul_ten (c : Nat) (e : Int) :
    decimalPattern (c * 10) e = decimalPattern c (e + 1) := by
  unfold decimalPattern
  by_cases he : 0 ≤ e
  · rw [if_pos he, if_pos (by omega), show (e + 1).toNat = e.toNat + 1 by omega, Nat.pow_succ',
      Nat.mul_assoc]
  · rw [if_neg he]
    by_cases hlast : e = -1
    · have hmul : magnitudePattern (c * 10) (1 * 10) = magnitudePattern c 1 :=
        magnitudePattern_mul (by decide) (by decide)
      rw [hlast, if_pos (by decide), show (-1 + 1 : Int).toNat = 0 by decide, Nat.pow_zero,
        Nat.mul_one]
      exact hmul
    · rw [if_neg (by omega), show (-e).toNat = (-(e + 1)).toNat + 1 by omega, Nat.pow_succ]
      exact magnitudePattern_mul (Nat.pow_pos (by decide)) (by decide)

theorem ofDecimal?_eq (negative : Bool) {c : Nat} (hc : c ≠ 0) (e : Int) :
    Binary64.ofDecimal? negative c e =
      if 310 < (digitCount c : Int) + e then none
      else if (digitCount c : Int) + e < -330 then some (.ofParts negative 0)
      else if decimalPattern c e < infinityPattern then some (.ofParts negative (decimalPattern c e))
      else none := by
  rw [Binary64.ofDecimal?, if_neg hc]
  rfl

theorem ofDecimal?_mul_ten (negative : Bool) (c : Nat) (e : Int) :
    Binary64.ofDecimal? negative (c * 10) e = Binary64.ofDecimal? negative c (e + 1) := by
  by_cases hc : c = 0
  · rw [hc]
    rfl
  · have hcount := digitCount_mul_ten (Nat.pos_iff_ne_zero.mpr hc)
    have htop : ((digitCount (c * 10) : Nat) : Int) + e = (digitCount c : Int) + (e + 1) := by omega
    rw [ofDecimal?_eq negative hc, ofDecimal?_eq negative (Nat.mul_ne_zero hc (by decide)), htop,
      decimalPattern_mul_ten]

theorem ofDecimal?_shift (negative : Bool) (c k : Nat) (e : Int) :
    Binary64.ofDecimal? negative (c * 10 ^ k) (e - k) = Binary64.ofDecimal? negative c e := by
  induction k generalizing e with
  | zero => rw [Nat.pow_zero, Nat.mul_one, Int.natCast_zero, Int.sub_zero]
  | succ k ih =>
    rw [Nat.pow_succ, ← Nat.mul_assoc, ofDecimal?_mul_ten,
      show e - ((k + 1 : Nat) : Int) + 1 = e - k by omega]
    exact ih e

theorem ofDecimal?_stripped (negative : Bool) (fuel : Nat) (d : Numeral) :
    Binary64.ofDecimal? negative (d.stripped fuel).coefficient (d.stripped fuel).exponent =
      Binary64.ofDecimal? negative d.coefficient d.exponent := by
  induction fuel generalizing d with
  | zero => rfl
  | succ fuel ih =>
    rw [Numeral.stripped]
    split
    · rename_i h
      rw [ih]
      have hdiv : d.coefficient = d.coefficient / 10 * 10 := by omega
      rw [← ofDecimal?_mul_ten, ← hdiv]
    · rfl

theorem stripped_ne_zero (fuel : Nat) {d : Numeral} (hd : d.coefficient ≠ 0) :
    (d.stripped fuel).coefficient ≠ 0 := by
  induction fuel generalizing d with
  | zero => exact hd
  | succ fuel ih =>
    rw [Numeral.stripped]
    split
    · apply ih
      simp only
      omega
    · exact hd

/-! ## The fields of a double -/

namespace Binary64

theorem ofParts_fields (x : Binary64) :
    ofParts x.isNegative (x.exponentField * 2 ^ (52 : Nat) + x.fractionField) = x := by
  have hlt := x.bits.toNat_lt
  have hbits : (if x.isNegative then 2 ^ (63 : Nat) + (x.exponentField * 2 ^ (52 : Nat) + x.fractionField)
      else x.exponentField * 2 ^ (52 : Nat) + x.fractionField) = x.bits.toNat := by
    simp only [isNegative, exponentField, fractionField, decide_eq_true_eq]
    split <;> omega
  rw [ofParts, hbits, UInt64.ofNat_toNat]

theorem isFinite_iff (x : Binary64) : x.isFinite = true ↔ x.exponentField < 2047 := by
  have hlt : x.exponentField < 2 ^ (11 : Nat) := Nat.mod_lt _ (by decide)
  rw [isFinite, bne_iff_ne]
  omega

theorem fields_lt_infinity {x : Binary64} (h : x.isFinite = true) :
    x.exponentField * 2 ^ (52 : Nat) + x.fractionField < infinityPattern := by
  have hfraction : x.fractionField < 2 ^ (52 : Nat) := Nat.mod_lt _ (by decide)
  rw [isFinite_iff] at h
  rw [infinityPattern]
  omega

theorem significand_lt (x : Binary64) : x.significand < 2 ^ (53 : Nat) := by
  have hfraction : x.fractionField < 2 ^ (52 : Nat) := Nat.mod_lt _ (by decide)
  unfold significand
  split <;> omega

theorem fields_eq (x : Binary64) : (x.scale + 1074).toNat * 2 ^ (52 : Nat) + x.significand =
    x.exponentField * 2 ^ (52 : Nat) + x.fractionField := by
  unfold scale significand
  split <;> omega

theorem scale_bounds {x : Binary64} (h : x.isFinite = true) : -1074 ≤ x.scale ∧ x.scale ≤ 971 := by
  rw [isFinite_iff] at h
  unfold scale
  split <;> omega

theorem isLastBit_scale (x : Binary64) :
    IsLastBit ((x.significand : ℚ) * 2 ^ x.scale) x.scale := by
  have hp : (0 : ℚ) < 2 ^ x.scale := by positivity
  have hlt : (x.significand : ℚ) < 2 ^ (53 : Nat) := by exact_mod_cast x.significand_lt
  refine ⟨?_, ?_, ?_⟩
  · unfold scale
    split <;> omega
  · rw [zpow_add₀ (by norm_num)]
    exact mul_lt_mul_of_pos_right hlt hp
  · by_cases hz : x.exponentField = 0
    · exact Or.inl (by rw [scale, if_pos hz])
    · refine Or.inr ?_
      have hle : (2 : ℚ) ^ (52 : Nat) ≤ x.significand := by
        rw [significand, if_neg hz]
        exact_mod_cast Nat.le_add_right _ _
      rw [zpow_add₀ (by norm_num)]
      exact mul_le_mul_of_nonneg_right hle (le_of_lt hp)

theorem magnitudePattern_eq {x : Binary64} (hx : x.significand ≠ 0) {num den : Nat} (hden : 0 < den)
    (hv : (num : ℚ) / den = x.significand * 2 ^ x.scale) :
    magnitudePattern num den = x.exponentField * 2 ^ (52 : Nat) + x.fractionField := by
  have hlast := x.isLastBit_scale
  rw [← hv] at hlast
  rw [magnitudePattern_exact hden (Nat.pos_iff_ne_zero.mpr hx) hv hlast, fields_eq]

end Binary64

/-! ## The exact expansion -/

theorem decimalPattern_exactDecimal {x : Binary64} (hx : x.significand ≠ 0) :
    decimalPattern (exactDecimal x).coefficient (exactDecimal x).exponent =
      x.exponentField * 2 ^ (52 : Nat) + x.fractionField := by
  unfold exactDecimal decimalPattern
  by_cases hs : 0 ≤ x.scale
  · rw [if_pos hs]
    obtain ⟨k, hk⟩ := Int.eq_ofNat_of_zero_le hs
    simp only [Int.le_refl, if_true, hk, Int.toNat_natCast, Int.toNat_zero, Nat.pow_zero,
      Nat.mul_one]
    apply Binary64.magnitudePattern_eq hx (by decide)
    rw [hk, zpow_natCast, Nat.cast_one, div_one]
    push_cast
    rfl
  · simp only [if_neg hs]
    obtain ⟨k, hk⟩ := Int.eq_ofNat_of_zero_le (show 0 ≤ -x.scale by omega)
    have hscale : x.scale = -(k : Int) := by omega
    simp only [hk, Int.toNat_natCast]
    apply Binary64.magnitudePattern_eq hx (Nat.pow_pos (by decide))
    rw [hscale, zpow_neg, zpow_natCast]
    push_cast
    rw [show (10 : ℚ) = 2 * 5 by norm_num, mul_pow]
    field_simp

theorem exactDecimal_ne_zero {x : Binary64} (hx : x.significand ≠ 0) :
    (exactDecimal x).coefficient ≠ 0 := by
  unfold exactDecimal
  split
  · exact Nat.mul_ne_zero hx (Nat.pos_iff_ne_zero.mp (Nat.pow_pos (by decide)))
  · exact Nat.mul_ne_zero hx (Nat.pos_iff_ne_zero.mp (Nat.pow_pos (by decide)))

theorem five_pow_le_ten_pow (k : Nat) : 5 ^ k ≤ 10 ^ k := Nat.pow_le_pow_left (by decide) k

/-- Five to a power has not many digits less than the power. -/
theorem ten_pow_le_five_pow {j k : Nat} (htwo : 2 ^ k ≤ 10 ^ j) (hj : j ≤ k) :
    10 ^ (k - j) ≤ 5 ^ k := by
  have hsplit : 10 ^ (k - j) * 10 ^ j = 5 ^ k * 2 ^ k := by
    rw [← Nat.pow_add, Nat.sub_add_cancel hj, ← Nat.mul_pow]
  have hle : 10 ^ (k - j) * 10 ^ j ≤ 5 ^ k * 10 ^ j := by
    rw [hsplit]
    exact Nat.mul_le_mul_left _ htwo
  exact Nat.le_of_mul_le_mul_right hle (Nat.pow_pos (by decide))

theorem two_pow_le_ten_pow {k : Nat} (hk : k ≤ 1074) : 2 ^ k ≤ 10 ^ (330 : Nat) :=
  le_trans (Nat.pow_le_pow_right (by decide) hk) (by decide +kernel)

theorem exactDecimal_top {x : Binary64} (h : x.isFinite = true) (hx : x.significand ≠ 0) :
    ((digitCount (exactDecimal x).coefficient : Nat) : Int) + (exactDecimal x).exponent ≤ 310 ∧
    -330 ≤ ((digitCount (exactDecimal x).coefficient : Nat) : Int) + (exactDecimal x).exponent := by
  obtain ⟨hlow, hhigh⟩ := Binary64.scale_bounds h
  have hm := x.significand_lt
  unfold exactDecimal
  split
  · rename_i hs
    have hexp : x.scale.toNat ≤ 971 := by omega
    have hbound : x.significand * 2 ^ x.scale.toNat < 10 ^ (310 : Nat) := by
      calc x.significand * 2 ^ x.scale.toNat ≤ 2 ^ (53 : Nat) * 2 ^ (971 : Nat) :=
            Nat.mul_le_mul (le_of_lt hm) (Nat.pow_le_pow_right (by decide) hexp)
        _ < 10 ^ (310 : Nat) := by decide +kernel
    have hcount := (digitCount_le_iff (by decide)).mpr hbound
    simp only
    omega
  · rename_i hs
    obtain ⟨k, hk⟩ := Int.eq_ofNat_of_zero_le (show 0 ≤ -x.scale by omega)
    have hscale : x.scale = -(k : Int) := by omega
    simp only [hscale, neg_neg, Int.toNat_natCast]
    have hbound : x.significand * 5 ^ k < 10 ^ (16 + k) := by
      calc x.significand * 5 ^ k ≤ x.significand * 10 ^ k :=
            Nat.mul_le_mul_left _ (five_pow_le_ten_pow k)
        _ < 10 ^ (16 : Nat) * 10 ^ k :=
            Nat.mul_lt_mul_of_pos_right (by omega) (Nat.pow_pos (by decide))
        _ = 10 ^ (16 + k) := (Nat.pow_add 10 16 k).symm
    have hcount := (digitCount_le_iff (by omega)).mpr hbound
    have hleast : k ≤ digitCount (x.significand * 5 ^ k) + 330 := by
      by_cases hbig : 330 < k
      · apply Nat.le_of_lt_succ
        apply Nat.lt_of_not_le
        intro hshort
        have hlt : x.significand * 5 ^ k < 10 ^ (k - 330) :=
          (digitCount_le_iff (by omega)).mp (by omega)
        have hge := ten_pow_le_five_pow (two_pow_le_ten_pow (k := k) (by omega)) (by omega)
        have hmul : 5 ^ k ≤ x.significand * 5 ^ k :=
          Nat.le_mul_of_pos_left _ (Nat.pos_iff_ne_zero.mpr hx)
        omega
      · omega
    omega

theorem readsBack_exactDecimal {x : Binary64} (h : x.isFinite = true) (hx : x.significand ≠ 0) :
    (exactDecimal x).readsBack x = true := by
  obtain ⟨htop, hbottom⟩ := exactDecimal_top h hx
  have hpattern := decimalPattern_exactDecimal hx
  rw [Numeral.readsBack, ofDecimal?_eq _ (exactDecimal_ne_zero hx), if_neg (by omega),
    if_neg (by omega), hpattern, if_pos (Binary64.fields_lt_infinity h), Binary64.ofParts_fields]
  exact beq_self_eq_true _

/-! ## The search -/

theorem readsBack_shortestGrid (tie : Tie) {x : Binary64} (h : x.isFinite = true)
    (hx : x.significand ≠ 0) : (shortestGrid tie x).readsBack x = true := by
  unfold shortestGrid
  simp only
  cases hf : List.find? (Numeral.readsBack x) _ with
  | none => exact readsBack_exactDecimal h hx
  | some d => exact List.find?_some hf

theorem significand_zero {x : Binary64} (hx : x.significand = 0) :
    Binary64.ofParts x.isNegative 0 = x := by
  have hfields := x.ofParts_fields
  have hz : x.exponentField * 2 ^ (52 : Nat) + x.fractionField = 0 := by
    unfold Binary64.significand at hx
    split at hx <;> omega
  rwa [hz] at hfields

/-- **The shortest decimal of a finite double reads back as the double.** -/
theorem ofDecimal?_shortest (tie : Tie) {x : Binary64} (h : x.isFinite = true) :
    Binary64.ofDecimal? x.isNegative (shortest tie x).coefficient (shortest tie x).exponent =
      some x := by
  unfold shortest
  split
  · rename_i hx
    rw [Binary64.ofDecimal?, if_pos rfl, significand_zero hx]
  · rename_i hx
    rw [ofDecimal?_stripped]
    exact eq_of_beq (readsBack_shortestGrid tie h hx)

theorem significand_ofParts_zero (negative : Bool) :
    (Binary64.ofParts negative 0).significand = 0 := by
  cases negative with
  | false => decide
  | true => decide

theorem shortest_coefficient (tie : Tie) {x : Binary64} (h : x.isFinite = true) :
    (shortest tie x).coefficient ≠ 0 ∨ shortest tie x = ⟨0, 0⟩ := by
  unfold shortest
  split
  · exact Or.inr rfl
  · rename_i hx
    refine Or.inl (stripped_ne_zero 400 ?_)
    intro hz
    have hback := eq_of_beq (readsBack_shortestGrid tie h hx)
    rw [hz, Binary64.ofDecimal?, if_pos rfl] at hback
    apply hx
    rw [← Option.some.inj hback, significand_ofParts_zero]

end AuditTrail.Decimal
