import AuditTrail.CoreInstances
import AuditTrail.Decimal.Literal
import AuditTrail.Time.Reader
import AuditTrail.Time.Printer
/-! # Decimal digits read back

A row of digits writes a number, whether it is as long as the number needs or filled with zeros up
to a width, and a scan of digits stops where they do. -/

namespace AuditTrail
set_option autoImplicit false

open scoped CoreInstances

namespace Decimal

theorem isDigit_iff (c : Char) : isDigit c = true ↔ 48 ≤ c.toNat ∧ c.toNat ≤ 57 := by
  rw [isDigit, Bool.and_eq_true, decide_eq_true_eq, decide_eq_true_eq]
  rfl

/-- Every character of a row is a digit. -/
def AreDigits (ds : List Char) : Prop := ∀ c ∈ ds, isDigit c = true

/-- No digit stands at the front of a text. -/
def NoDigitFront (cs : List Char) : Prop := ∀ c ∈ cs.head?, isDigit c = false

theorem NoDigitFront.cons {c : Char} (h : isDigit c = false) (cs : List Char) :
    NoDigitFront (c :: cs) := by
  intro d hd
  rw [List.head?_cons, Option.mem_some_iff] at hd
  rw [← hd]
  exact h

theorem AreDigits.append {ds es : List Char} (hd : AreDigits ds) (he : AreDigits es) :
    AreDigits (ds ++ es) := by
  intro c hc
  rcases List.mem_append.mp hc with hc | hc
  · exact hd c hc
  · exact he c hc

theorem AreDigits.take {ds : List Char} (h : AreDigits ds) (n : Nat) : AreDigits (ds.take n) :=
  fun c hc => h c (List.mem_of_mem_take hc)

theorem AreDigits.drop {ds : List Char} (h : AreDigits ds) (n : Nat) : AreDigits (ds.drop n) :=
  fun c hc => h c (List.mem_of_mem_drop hc)

theorem areDigits_replicate_zero (n : Nat) : AreDigits (List.replicate n '0') := by
  intro c hc
  rw [List.eq_of_mem_replicate hc]
  rfl

/-! ## Scanning -/

theorem takeWhile_digits_append {ds rest : List Char} (hd : AreDigits ds) (hr : NoDigitFront rest) :
    (ds ++ rest).takeWhile isDigit = ds := by
  rw [List.takeWhile_append_of_pos hd]
  cases rest with
  | nil => simp
  | cons c rest =>
    have hc := hr c rfl
    simp [hc]

theorem dropWhile_digits_append {ds rest : List Char} (hd : AreDigits ds) (hr : NoDigitFront rest) :
    (ds ++ rest).dropWhile isDigit = rest := by
  rw [List.dropWhile_append_of_pos hd]
  cases rest with
  | nil => rfl
  | cons c rest =>
    have hc := hr c rfl
    simp [hc]

/-! ## Values -/

theorem digitsValue_concat (ds : List Char) (c : Char) :
    digitsValue (ds ++ [c]) = 10 * digitsValue ds + (c.toNat - 48) := by
  rw [digitsValue, List.foldl_append]
  rfl

theorem foldl_digits (ds : List Char) (n : Nat) :
    ds.foldl (fun n c => 10 * n + (c.toNat - 48)) n = n * 10 ^ ds.length + digitsValue ds := by
  induction ds generalizing n with
  | nil => rw [List.length_nil, Nat.pow_zero, Nat.mul_one]; rfl
  | cons c ds ih =>
    rw [digitsValue, List.foldl_cons, List.foldl_cons, ih, ih, List.length_cons, Nat.pow_succ',
      Nat.add_mul, Nat.mul_zero, Nat.zero_add, ← Nat.mul_assoc, Nat.mul_comm n 10, Nat.add_assoc]

theorem digitsValue_append (ds es : List Char) :
    digitsValue (ds ++ es) = digitsValue ds * 10 ^ es.length + digitsValue es := by
  rw [digitsValue, List.foldl_append, foldl_digits]
  rfl

theorem digitsValue_replicate_zero (n : Nat) : digitsValue (List.replicate n '0') = 0 := by
  induction n with
  | zero => rfl
  | succ n ih => rw [List.replicate_succ', digitsValue_concat, ih]; rfl

theorem toNat_digitChar : ∀ d < 10, (Nat.digitChar d).toNat = 48 + d := by decide

theorem digitsValue_toDigits (n : Nat) : digitsValue (Nat.toDigits 10 n) = n := by
  induction n using Nat.strongRecOn with
  | ind n ih =>
    rw [Nat.toDigits_eq_if (by decide)]
    by_cases hn : n < 10
    · rw [if_pos hn]
      have hc := toNat_digitChar n hn
      change 10 * 0 + ((Nat.digitChar n).toNat - 48) = n
      omega
    · rw [if_neg hn, digitsValue_concat, ih (n / 10) (by omega)]
      have hc := toNat_digitChar (n % 10) (by omega)
      omega

theorem areDigits_toDigits (n : Nat) : AreDigits (Nat.toDigits 10 n) := by
  intro c hc
  have hd := Nat.isDigit_of_mem_toDigits (by decide) (by decide) hc
  rw [Char.isDigit, Bool.and_eq_true, decide_eq_true_eq, decide_eq_true_eq] at hd
  rw [isDigit_iff]
  exact hd

theorem head_toDigits_ne_zero {n : Nat} (hn : 0 < n) : (Nat.toDigits 10 n).head? ≠ some '0' := by
  induction n using Nat.strongRecOn with
  | ind n ih =>
    rw [Nat.toDigits_eq_if (by decide)]
    by_cases hlt : n < 10
    · rw [if_pos hlt]
      intro h
      have hc := toNat_digitChar n hlt
      rw [Option.some.inj h] at hc
      change 48 = 48 + n at hc
      omega
    · have hhead := ih (n / 10) (by omega) (by omega)
      rw [if_neg hlt]
      cases hd : Nat.toDigits 10 (n / 10) with
      | nil => exact absurd hd Nat.toDigits_ne_nil
      | cons c ds =>
        rw [hd] at hhead
        exact hhead

end Decimal

open Decimal

/-! ## A fixed width -/

theorem toNat_decimalDigit (n : Nat) : (decimalDigit n).toNat = 48 + n % 10 := by
  have h : ∀ d < 10, (Char.ofNat (48 + d)).toNat = 48 + d := by decide
  exact h (n % 10) (Nat.mod_lt n (by decide))

theorem length_lastDigits (width n : Nat) : (lastDigits width n).length = width := by
  induction width generalizing n with
  | zero => rfl
  | succ width ih => rw [lastDigits, List.length_append, ih, List.length_singleton]

theorem areDigits_lastDigits (width n : Nat) : AreDigits (lastDigits width n) := by
  induction width generalizing n with
  | zero =>
    intro c hc
    cases hc
  | succ width ih =>
    apply (ih (n / 10)).append
    intro c hc
    rw [List.mem_singleton.mp hc, isDigit_iff, toNat_decimalDigit]
    omega

theorem digitsValue_lastDigits (width n : Nat) :
    digitsValue (lastDigits width n) = n % 10 ^ width := by
  induction width generalizing n with
  | zero => rw [Nat.pow_zero, Nat.mod_one]; rfl
  | succ width ih =>
    rw [lastDigits, digitsValue_concat, ih, toNat_decimalDigit, Nat.pow_succ', Nat.mod_mul]
    omega

theorem digitsValue_lastDigits_of_lt {width n : Nat} (h : n < 10 ^ width) :
    digitsValue (lastDigits width n) = n := by
  rw [digitsValue_lastDigits, Nat.mod_eq_of_lt h]

/-- At most as many digits as there is room for are split off, and all of them if what follows does
not go on with digits. -/
theorem splitDigits_append {ds rest : List Char} (hd : AreDigits ds) (width : Nat)
    (hw : ds.length = width ∨ ds.length ≤ width ∧ NoDigitFront rest) :
    splitDigits width (ds ++ rest) = (ds, rest) := by
  induction ds generalizing width with
  | nil =>
    cases width with
    | zero => rfl
    | succ width =>
      rcases hw with hw | ⟨-, hr⟩
      · cases hw
      · cases rest with
        | nil => rfl
        | cons c rest =>
          have hc := hr c rfl
          rw [List.nil_append, splitDigits, if_neg (by rw [hc]; decide)]
  | cons d ds ih =>
    cases width with
    | zero =>
      rcases hw with hw | ⟨hw, -⟩
      · cases hw
      · cases hw
    | succ width =>
      have hw' : ds.length = width ∨ ds.length ≤ width ∧ NoDigitFront rest := by
        rcases hw with hw | ⟨hw, hr⟩
        · exact Or.inl (Nat.succ.inj hw)
        · exact Or.inr ⟨Nat.le_of_succ_le_succ hw, hr⟩
      have hrest := ih (fun c hc => hd c (List.mem_cons_of_mem _ hc)) width hw'
      rw [List.cons_append, splitDigits, if_pos (hd d List.mem_cons_self), hrest]

end AuditTrail
