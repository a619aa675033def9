import AuditTrail.CoreInstances
import AuditTrail.Score.Number
import Mathlib
/-! # The arithmetic of doubles in scores

What is used of the arithmetic of doubles. Their order is decided by one comparison, which turns about
when its sides are exchanged, so "below" is "at most and not the other way about"
(`Double.scoreNumber_lt_iff`). The double nearest to a count above zero is finite and has full
precision, so its quotient with itself is one (`Double.quotient_self`). -/

namespace AuditTrail.Double
set_option autoImplicit false

open scoped CoreInstances
open Float.Model Float.Model.UnpackedFloat

/-! ## Order -/

theorem compare_swap (a b : UnpackedFloat) :
    UnpackedFloat.compare b a = (UnpackedFloat.compare a b).map Ordering.swap := by
  have hparts : ∀ (m m' : Nat) (e e' : Int), (compare e' e).then (compare m' m) =
      ((compare e e').then (compare m m')).swap := by
    intro m m' e e'
    rw [Ordering.swap_then, Int.compare_swap, Nat.compare_swap]
  rcases a with ⟨⟨⟩⟩ | _ | ⟨⟨⟩⟩ | ⟨⟨⟩, m, e, hm⟩ <;> rcases b with ⟨⟨⟩⟩ | _ | ⟨⟨⟩⟩ | ⟨⟨⟩, m', e', hm'⟩
  case finite.negative.finite.negative =>
    exact congrArg (fun o => some (Ordering.swap o)) (hparts m m' e e')
  case finite.positive.finite.positive =>
    exact congrArg some (hparts m m' e e')
  all_goals rfl

theorem lt_eq (a b : UnpackedFloat) :
    UnpackedFloat.lt a b = (UnpackedFloat.le a b && !UnpackedFloat.le b a) := by
  rw [UnpackedFloat.le, UnpackedFloat.le, UnpackedFloat.lt, compare_swap a b]
  cases UnpackedFloat.compare a b with
  | none => rfl
  | some o => cases o <;> rfl

theorem le_iff (a b : Float) : a ≤ b ↔ UnpackedFloat.le a.toModel.unpack b.toModel.unpack = true :=
  decide_eq_true_iff (p := a.toModel ≤ b.toModel)

theorem lt_iff (a b : Float) : a < b ↔ UnpackedFloat.lt a.toModel.unpack b.toModel.unpack = true :=
  decide_eq_true_iff (p := a.toModel < b.toModel)

theorem scoreNumber_lt_iff (a b : Float) : ScoreNumber.lt a b = true ↔ a < b := by
  have hle : ∀ x y : Float, ScoreNumber.le x y = x.toModel.unpack.le y.toModel.unpack := by
    intro x y
    rw [Bool.eq_iff_iff, ← le_iff]
    exact decide_eq_true_iff (p := x ≤ y)
  rw [ScoreNumber.lt, hle, hle, ← lt_eq, lt_iff]

/-! ## Rounding -/

/-- A positive double of full precision whose exponent lies in a range. -/
def IsNormal (low high : Int) (x : UnpackedFloat) : Prop :=
  ∃ m e, ∃ h : 0 < m, x = .finite .positive m e h ∧ Nat.log2 m = 52 ∧ low ≤ e ∧ e ≤ high

theorem IsNormal.widen {low high low' high' : Int} {x : UnpackedFloat} (h : IsNormal low high x)
    (hlow : low' ≤ low) (hhigh : high ≤ high') : IsNormal low' high' x := by
  obtain ⟨m, e, hm, hx, hlog, hle, hge⟩ := h
  exact ⟨m, e, hm, hx, hlog, Int.le_trans hlow hle, Int.le_trans hge hhigh⟩

theorem log2_div_two_pow (m k : Nat) : (m / 2 ^ k).log2 = m.log2 - k := by
  induction k with
  | zero => rw [Nat.pow_zero, Nat.div_one, Nat.sub_zero]
  | succ k ih =>
    have hhalf : ∀ n : Nat, (n / 2).log2 = n.log2 - 1 := by
      intro n
      by_cases hn : 2 ≤ n
      · rw [Nat.log2_def n, if_pos hn, Nat.add_sub_cancel]
      · rw [Nat.div_eq_of_lt (by omega), Nat.log2_def n, if_neg hn, Nat.log2_zero]
    rw [Nat.pow_succ, ← Nat.div_div_eq_div_mul, hhalf, ih, Nat.sub_sub]

theorem log2_mul_two_pow {m : Nat} (hm : 0 < m) (k : Nat) : (m * 2 ^ k).log2 = m.log2 + k := by
  induction k with
  | zero => rw [Nat.pow_zero, Nat.mul_one, Nat.add_zero]
  | succ k ih =>
    have hpos : m * 2 ^ k ≠ 0 := Nat.ne_of_gt (Nat.mul_pos hm (Nat.two_pow_pos k))
    rw [Nat.pow_succ, ← Nat.mul_assoc, Nat.mul_comm _ 2, Nat.log2_two_mul hpos, ih, Nat.add_assoc]

theorem mantissa_shiftRight (em : ExtendedMantissa) (k : Nat) :
    (em >>> k).mantissa = em.mantissa / 2 ^ k := by
  induction k with
  | zero => exact (Nat.div_one em.mantissa).symm
  | succ k ih =>
    show (em >>> k).mantissa / 2 = em.mantissa / 2 ^ (k + 1)
    rw [ih, Nat.div_div_eq_div_mul, Nat.pow_succ]

theorem mantissa_ofMantissaAndAccuracy (m : Nat) (accuracy : Accuracy) :
    (ExtendedMantissa.ofMantissaAndAccuracy m accuracy).mantissa = m := by
  cases accuracy with
  | exact => rfl
  | inexact o => cases o <;> rfl

/-- A mantissa of at least 53 bits is cut to 53 bits. -/
theorem shiftToTargetExponent_eq {m : Nat} (hm : 52 ≤ m.log2) {e : Int}
    (he : -1074 ≤ m.log2 + e - 52) (accuracy : Accuracy) :
    ∃ em, shiftToTargetExponent .binary64 m e accuracy = (em, m.log2 + e - 52) ∧
      em.mantissa.log2 = 52 := by
  have hshift : (Format.binary64.targetExponent (totalExponent m e) - e).toNat = m.log2 - 52 := by
    show (max (((m.log2 : Int) + 1 + e) - 53) (-1074) - e).toNat = m.log2 - 52
    omega
  refine ⟨ExtendedMantissa.ofMantissaAndAccuracy m accuracy >>> (m.log2 - 52), ?_, ?_⟩
  · unfold shiftToTargetExponent shiftToExponent
    simp only [hshift]
    congr 1
    omega
  · rw [mantissa_shiftRight, mantissa_ofMantissaAndAccuracy, log2_div_two_pow]
    omega

theorem roundedMantissa_eq (em : ExtendedMantissa) :
    em.roundedMantissa = em.mantissa ∨ em.roundedMantissa = em.mantissa + 1 := by
  obtain ⟨m, round, sticky⟩ := em
  have hmod : m % 2 = 0 ∨ m % 2 = 1 := by omega
  cases round <;> cases sticky
  · exact Or.inl rfl
  · exact Or.inl rfl
  · exact hmod.imp (fun h => congrArg (m + ·) h) (fun h => congrArg (m + ·) h)
  · exact Or.inr rfl

/-- Rounding a number of at least 53 bits gives a double of full precision: the mantissa may reach
one bit more, which is shifted out again. -/
theorem isNormal_roundWithAccuracy {m : Nat} (hm : 52 ≤ m.log2) {e : Int}
    (he : -1074 ≤ m.log2 + e - 52) (accuracy : Accuracy) :
    IsNormal (m.log2 + e - 52) (m.log2 + e - 51)
      (roundWithAccuracy .binary64 .positive m e accuracy) := by
  obtain ⟨em, hfirst, hlog⟩ := shiftToTargetExponent_eq hm he accuracy
  have hpos : em.mantissa ≠ 0 := by
    intro hzero
    rw [hzero, Nat.log2_zero] at hlog
    cases hlog
  have hbounds := (Nat.log2_eq_iff hpos).mp hlog
  have hrounded : em.roundedMantissa.log2 = 52 ∨ em.roundedMantissa.log2 = 53 := by
    have hle : em.mantissa ≤ em.roundedMantissa ∧ em.roundedMantissa ≤ em.mantissa + 1 := by
      rcases roundedMantissa_eq em with h | h <;> omega
    have hne : em.roundedMantissa ≠ 0 := by omega
    rw [Nat.log2_eq_iff hne, Nat.log2_eq_iff hne]
    omega
  obtain ⟨last, hsecond, hlog'⟩ := shiftToTargetExponent_eq (m := em.roundedMantissa)
    (e := m.log2 + e - 52) (by omega) (by omega) .exact
  have hne : last.mantissa ≠ 0 := by
    intro hzero
    rw [hzero, Nat.log2_zero] at hlog'
    cases hlog'
  refine ⟨last.mantissa, em.roundedMantissa.log2 + (m.log2 + e - 52) - 52, Nat.pos_of_ne_zero hne,
    ?_, hlog', by omega, by omega⟩
  unfold roundWithAccuracy
  simp only [hfirst, hsecond, dif_neg hne]

/-! ## Patterns -/

theorem one_append_bounds (mantissa : BitVec 52) : 2 ^ (52 : Nat) ≤ (1#1 ++ mantissa).toNat ∧
    (1#1 ++ mantissa).toNat < 2 ^ (53 : Nat) := by
  refine ⟨?_, BitVec.isLt _⟩
  rw [BitVec.toNat_append]
  exact Nat.left_le_or

/-- What a pattern of an exponent in the middle of the range stands for. -/
theorem isNormal_unpack_packComponents (exponent : Nat) (hlow : 0 < exponent)
    (hhigh : exponent < 2047) (mantissa : BitVec 52) :
    IsNormal (exponent - 1075) (exponent - 1075) (UnpackedFloat.unpack .binary64
      (packComponents .binary64 .positive (BitVec.ofNat 11 exponent) mantissa)) := by
  have hexponent : (BitVec.ofNat 11 exponent).toNat = exponent := by
    rw [BitVec.toNat_ofNat]
    omega
  have hne : ∀ other : BitVec 11, other.toNat ≠ exponent → BitVec.ofNat 11 exponent ≠ other := by
    rintro other hother rfl
    exact hother hexponent
  have hones : BitVec.ofNat 11 exponent ≠ -1#11 := hne _ (Nat.ne_of_gt hhigh)
  have hzero : BitVec.ofNat 11 exponent ≠ 0#11 := hne _ (Nat.ne_of_lt hlow)
  have hbounds := one_append_bounds mantissa
  have hlog : (1#1 ++ mantissa).toNat.log2 = 52 :=
    (Nat.log2_eq_iff (by omega)).mpr hbounds
  refine ⟨(1#1 ++ mantissa).toNat, exponent - 1075, by omega, ?_, hlog, Int.le_refl _,
    Int.le_refl _⟩
  unfold UnpackedFloat.unpack
  simp only [unpackExponent_packComponents, unpackMantissa_packComponents,
    unpackSign_packComponents, if_neg hones, if_neg hzero, hexponent]
  rfl

/-- Packing keeps a double of full precision, as far as the exponents reach. -/
theorem isNormal_unpack_pack {low high : Int} {x : UnpackedFloat} (h : IsNormal low high x)
    (hlow : -1074 ≤ low) (hhigh : high ≤ 971) : IsNormal low high (Float.Model.pack x).unpack := by
  obtain ⟨m, e, hm, rfl, hlog, hle, hge⟩ := h
  have hpack : UnpackedFloat.pack .binary64 (.finite .positive m e hm) =
      packComponents .binary64 .positive (BitVec.ofNat 11 (e + 1075).toNat) (BitVec.ofNat 52 m) := by
    have hbiased : (e + Format.binary64.exponentBias +
        Format.binary64.mantissaBitsWithoutImplicit).toNat = (e + 1075).toNat := by
      show (e + 1023 + 52).toNat = (e + 1075).toNat
      omega
    have hfits : ¬ 2 ^ (11 : Nat) ≤ (e + 1075).toNat + 1 := by omega
    unfold UnpackedFloat.pack
    simp only [hbiased]
    rw [if_neg hfits, if_pos (by rw [hlog]; rfl)]
  have hnormal := isNormal_unpack_packComponents (e + 1075).toNat (by omega) (by omega)
    (BitVec.ofNat 52 m)
  rw [← hpack] at hnormal
  exact hnormal.widen (by omega) (by omega)

/-! ## Counts -/

/-- A count of at most 53 bits is a double. -/
theorem isNormal_ofNat_unpacked {n : Nat} (hpos : 0 < n) (hsmall : n < 2 ^ (53 : Nat)) :
    IsNormal (-52) 1 (UnpackedFloat.ofNat .binary64 n) := by
  have hlog : n.log2 < 53 := (Nat.log2_lt (Nat.ne_of_gt hpos)).mpr hsmall
  have htarget : Format.binary64.targetExponent (totalExponent n 0) = n.log2 - 52 := by
    show max (((n.log2 : Int) + 1 + 0) - 53) (-1074) = n.log2 - 52
    omega
  have hshift : ((0 : Int) - (n.log2 - 52)).toNat = 52 - n.log2 := by omega
  have hround : UnpackedFloat.ofNat .binary64 n =
      roundWithAccuracy .binary64 .positive (n * 2 ^ (52 - n.log2)) (0 - (52 - n.log2 : Nat))
        .exact := by
    unfold UnpackedFloat.ofNat UnpackedFloat.ofInt UnpackedFloat.normalize
    rw [Int.compare_eq_gt.mpr (by omega)]
    simp only [UnpackedFloat.round, decreaseExponent, Int.toNat_natCast, htarget, hshift,
      Nat.shiftLeft_eq]
  have hwide : (n * 2 ^ (52 - n.log2)).log2 = 52 := by
    rw [log2_mul_two_pow hpos]
    omega
  have hnormal := isNormal_roundWithAccuracy (m := n * 2 ^ (52 - n.log2))
    (e := 0 - (52 - n.log2 : Nat)) (by omega) (by omega) .exact
  rw [hround]
  exact hnormal.widen (by omega) (by omega)

theorem isNormal_mul_one {low high : Int} {x : Float} (h : IsNormal low high x.toModel.unpack)
    (hlow : -1074 ≤ low) (hhigh : high < 971) :
    IsNormal low (high + 1) (x * Float.ofBits 0x3FF0000000000000).toModel.unpack := by
  obtain ⟨m, e, hm, hx, hlog, hle, hge⟩ := h
  have hone : ∃ h, (Float.ofBits 0x3FF0000000000000).toModel.unpack =
      .finite .positive (2 ^ (52 : Nat)) (-52) h := ⟨_, rfl⟩
  obtain ⟨hpos, hone⟩ := hone
  have hwide : (m * 2 ^ (52 : Nat)).log2 = 104 := by
    rw [log2_mul_two_pow hm, hlog]
  have hnormal := isNormal_roundWithAccuracy (m := m * 2 ^ (52 : Nat)) (e := e + -52) (by omega) (by omega)
    .exact
  refine isNormal_unpack_pack ?_ hlow (by omega)
  show IsNormal low (high + 1) (UnpackedFloat.mul .binary64 x.toModel.unpack _)
  rw [hx, hone, UnpackedFloat.mul]
  exact hnormal.widen (by omega) (by omega)

/-- The double nearest to a count above zero. -/
theorem isNormal_ofNat {n : Nat} (hpos : 0 < n) (hfits : n < 2 ^ (1023 : Nat)) :
    IsNormal (-52) 971 (Float.ofNat n).toModel.unpack := by
  have hlog : n.log2 < 1023 := (Nat.log2_lt (Nat.ne_of_gt hpos)).mpr hfits
  by_cases hsmall : n < 2 ^ (53 : Nat)
  case pos =>
    have hofNat : Float.ofNat n =
        n.toUInt64.toFloat * Float.ofBits 0x3FF0000000000000 := by
      show Float.ofScientific n false 0 = _
      unfold Float.ofScientific
      rw [dif_pos ⟨hsmall, by decide⟩]
      rfl
    have hword : n.toUInt64.toNat = n := by
      rw [Nat.toUInt64, UInt64.toNat_ofNat']
      omega
    have hfloat : IsNormal (-52) 1 n.toUInt64.toFloat.toModel.unpack := by
      refine isNormal_unpack_pack ?_ (by decide) (by decide)
      rw [UnpackedFloat.ofUInt64, hword]
      exact isNormal_ofNat_unpacked hpos hsmall
    rw [hofNat]
    exact (isNormal_mul_one hfloat (by decide) (by decide)).widen (by decide) (by decide)
  case neg =>
    have hofNat : Float.ofNat n = Float.ofModel (Float.Model.ofScientific n 0) := by
      show Float.ofScientific n false 0 = _
      unfold Float.ofScientific
      rw [dif_neg fun h => hsmall h.1]
      rfl
    have hunpacked : UnpackedFloat.ofScientific .binary64 n 0 =
        roundWithAccuracy .binary64 .positive (n * 2 ^ (53 : Nat)) (-53) .exact := by
      have hlarge : ¬ (0 : Int) < -(2 ^ (11 : Nat) + n.log2) := by omega
      unfold UnpackedFloat.ofScientific
      rw [dif_neg (Nat.ne_of_gt hpos), if_neg (by decide), if_neg hlarge, if_pos (by decide),
        UnpackedFloat.mul]
      show roundWithAccuracy .binary64 .positive (n <<< 53 * 1) (-53) .exact = _
      rw [Nat.shiftLeft_eq, Nat.mul_one]
    have hround := isNormal_roundWithAccuracy (m := n * 2 ^ (53 : Nat)) (e := -53)
      (by rw [log2_mul_two_pow hpos]; omega) (by rw [log2_mul_two_pow hpos]; omega) .exact
    rw [log2_mul_two_pow hpos] at hround
    rw [hofNat]
    refine isNormal_unpack_pack ?_ (by decide) (by decide)
    rw [hunpacked]
    exact hround.widen (by omega) (by omega)

/-- A positive double divided by itself is one: the mantissas cancel before anything is rounded. -/
theorem div_self {low high : Int} {x : Float} (h : IsNormal low high x.toModel.unpack) :
    x / x = 1 := by
  obtain ⟨m, e, hm, hx, -⟩ := h
  have hcore : divCore .binary64 m e m e = (2 ^ (53 : Nat), -53, .exact) := by
    have hexponent : min (e - e) (Format.binary64.targetExponent
        (totalExponent m e - totalExponent m e)) = -53 := by
      rw [Int.sub_self, Int.sub_self]
      rfl
    unfold divCore
    simp only [hexponent]
    rw [Int.sub_self, Nat.shiftLeft_eq, Nat.mul_div_cancel_left _ hm, Nat.mul_mod_right]
    rfl
  have hdiv : UnpackedFloat.div .binary64 x.toModel.unpack x.toModel.unpack =
      roundWithAccuracy .binary64 .positive (2 ^ (53 : Nat)) (-53) .exact := by
    rw [hx, UnpackedFloat.div]
    simp only [hcore]
    rfl
  show Float.ofModel (Float.Model.pack (UnpackedFloat.div .binary64 _ _)) = 1
  rw [hdiv]
  decide +kernel

theorem quotient_self {n : Nat} (hpos : 0 < n) (hfits : n < 2 ^ (1023 : Nat)) :
    (ScoreNumber.quotient n n : Float) = 1 := div_self (isNormal_ofNat hpos hfits)

end AuditTrail.Double
