import AuditTrail.Proofs.Decimal.Layout
import AuditTrail.Proofs.Decimal.Literal
/-! # Numbers inside messages read back

An integer is written in digits, and a double that is whole is written like an integer. Each text is a
literal of the number that it shows (`int64?_toString`, `double?_messageText`). A double whose text is
a literal of an integer is written as that integer is, but for the zero below zero
(`toString_of_messageText`). -/

namespace AuditTrail.Decimal
set_option autoImplicit false

open scoped CoreInstances

/-! ## Integers -/

theorem toList_toString_natCast (n : Nat) : (toString (n : Int)).toList = digits n :=
  String.toList_ofList

theorem toList_toString_neg {n : Nat} (hn : n ≠ 0) :
    (toString (-(n : Int))).toList = '-' :: digits n := by
  obtain ⟨m, rfl⟩ := Nat.exists_eq_succ_of_ne_zero hn
  change ("-" ++ String.ofList (digits (m + 1))).toList = '-' :: digits (m + 1)
  rw [String.toList_append, String.toList_ofList, String.toList_ofList, List.singleton_append]

theorem integer?_digits (n : Nat) : integer? (digits n) = some (n : Int) := by
  have h := integer?_append (Or.inl rfl) (areDigits_digits n) (digits_ne_nil n)
  rwa [List.nil_append, digitsValue_digits, if_neg (by decide)] at h

theorem integer?_minus_digits (n : Nat) : integer? ('-' :: digits n) = some (-(n : Int)) := by
  have h := integer?_append (Or.inr (Or.inr rfl)) (areDigits_digits n) (digits_ne_nil n)
  rwa [List.singleton_append, digitsValue_digits, if_pos rfl] at h

theorem integer?_toString (n : Int) : integer? (toString n).toList = some n := by
  rcases Int.lt_or_le n 0 with hn | hn
  · obtain ⟨m, rfl⟩ := Int.eq_negSucc_of_lt_zero hn
    have h := toList_toString_neg (Nat.succ_ne_zero m)
    rw [Int.negSucc_eq, ← Int.natCast_succ, h, integer?_minus_digits]
  · obtain ⟨m, rfl⟩ := Int.eq_ofNat_of_zero_le hn
    rw [toList_toString_natCast, integer?_digits]

theorem int64?_eq_some_iff {cs : List Char} {n : Int} :
    int64? cs = some n ↔ integer? cs = some n ∧ -(2 ^ (63 : Nat)) ≤ n ∧ n < 2 ^ (63 : Nat) := by
  rw [int64?, Option.filter_eq_some_iff, decide_eq_true_eq]

/-! ## Doubles -/

namespace Binary64

theorem isSign_sign (x : Binary64) : IsSign x.sign := by
  unfold sign
  split
  · exact Or.inr (Or.inr rfl)
  · exact Or.inl rfl

theorem sign_eq_minus_iff (x : Binary64) : decide (x.sign = ['-']) = x.isNegative := by
  unfold sign
  cases x.isNegative <;> rfl

theorem toList_messageText (x : Binary64) : x.messageText.toList = x.write Layout.message := by
  rw [messageText, String.toList_ofList]

/-- The text of a finite double is an integer or digits around a point. -/
theorem write_message_cases {x : Binary64} (h : x.isFinite = true) :
    (∃ n, x.write Layout.message = x.sign ++ digits n ∧ ofDecimal? x.isNegative n 0 = some x) ∨
    ∃ d whole part, IsPointed d whole part ∧ x.write Layout.message = x.sign ++ (whole ++ '.' :: part) ∧
      ofDecimal? x.isNegative d.coefficient d.exponent = some x := by
  have hread := ofDecimal?_shortest .up h
  have htext : x.write Layout.message = x.sign ++ Layout.message.write (shortest .up x) :=
    write_of_isFinite .message h
  rcases Layout.write_positional (shortest_coefficient .up h) .message rfl with
    ⟨he, hwrite⟩ | ⟨whole, part, hpointed, hwrite⟩
  · have hshift := ofDecimal?_shift x.isNegative (shortest .up x).coefficient
      (shortest .up x).exponent.toNat (shortest .up x).exponent
    rw [Int.toNat_of_nonneg he, Int.sub_self, hread] at hshift
    refine Or.inl ⟨_, ?_, hshift⟩
    rw [htext, hwrite]
    exact congrArg _ (List.append_nil _)
  · exact Or.inr ⟨_, whole, part, hpointed, by rw [htext, hwrite], hread⟩

theorem eq_infinity {x : Binary64} (hfinite : x.isFinite = false) (hnan : x.isNaN = false) :
    x = infinity x.isNegative := by
  rw [isFinite, bne_eq_false_iff_eq] at hfinite
  rw [isNaN, hfinite, beq_self_eq_true, Bool.true_and, bne_eq_false_iff_eq] at hnan
  have h := ofParts_fields x
  rw [hfinite, hnan] at h
  exact h.symm

theorem double?_messageText {x : Binary64} (h : x.isNaN = false) :
    double? x.messageText.toList = some x := by
  rw [toList_messageText]
  by_cases hfinite : x.isFinite = true
  · rcases write_message_cases hfinite with ⟨n, htext, hread⟩ | ⟨d, whole, part, hd, htext, hread⟩
    · have hvalue := double?_whole x.isSign_sign (areDigits_digits n) (digits_ne_nil n) .none
      rw [List.append_nil, sign_eq_minus_iff, digitsValue_digits] at hvalue
      rw [htext, hvalue]
      change some ((ofDecimal? x.isNegative n 0).getD _) = some x
      rw [hread, Option.getD_some]
    · have hvalue := double?_pointed x.isSign_sign hd.whole_digits hd.part_digits
        (fun hnil => hd.whole_nonempty (List.append_eq_nil_iff.mp hnil).1) .none
      rw [List.append_nil, sign_eq_minus_iff, hd.value] at hvalue
      rw [htext, hvalue]
      change some ((ofDecimal? x.isNegative d.coefficient (0 - part.length)).getD _) = some x
      rw [Int.zero_sub, hd.places, hread, Option.getD_some]
  · rw [Bool.not_eq_true] at hfinite
    have hx := eq_infinity hfinite h
    rw [hx]
    cases x.isNegative with
    | true => decide +kernel
    | false => decide +kernel

/-- A word is no integer. -/
theorem integer?_write_of_not_finite {x : Binary64} (h : x.isFinite = false) :
    integer? (x.write Layout.message) = none := by
  simp only [write, h, Bool.false_eq_true, if_false]
  cases x.isNaN with
  | true => rfl
  | false => cases x.isNegative <;> rfl

theorem integer?_pointed {sign whole part : List Char} :
    integer? (sign ++ (whole ++ '.' :: part)) = none := by
  rw [Option.eq_none_iff_forall_ne_some]
  intro n h
  obtain ⟨sign', ds, hcs, hsign, hds, -⟩ := exists_of_integer? h
  have hmem : '.' ∈ sign' ++ ds := by
    rw [← hcs]
    exact List.mem_append_right _ (List.mem_append_right _ List.mem_cons_self)
  rcases List.mem_append.mp hmem with hpoint | hpoint
  · rcases hsign with rfl | rfl | rfl <;> exact absurd hpoint (by decide)
  · exact absurd (hds '.' hpoint) (by decide)

/-- The zero below zero is the only double whose text is a literal of an integer that is written in
another way. -/
theorem toString_of_messageText {x : Binary64} {n : Int} (hx : x ≠ ofParts true 0)
    (h : integer? x.messageText.toList = some n) : toString n = x.messageText := by
  rw [← String.toList_inj, toList_messageText]
  rw [toList_messageText] at h
  cases hfinite : x.isFinite with
  | false =>
    rw [integer?_write_of_not_finite hfinite] at h
    cases h
  | true =>
    rcases write_message_cases hfinite with ⟨m, htext, hread⟩ | ⟨d, whole, part, -, htext, -⟩
    · rw [htext, integer?_append x.isSign_sign (areDigits_digits m) (digits_ne_nil m),
        digitsValue_digits, Option.some.injEq] at h
      rw [htext, ← h]
      cases hnegative : x.isNegative with
      | false =>
        rw [sign, hnegative]
        exact toList_toString_natCast m
      | true =>
        -- digits of zero behind a minus are read as the zero below zero
        have hm : m ≠ 0 := by
          rintro rfl
          rw [hnegative] at hread
          exact hx (Option.some.inj hread).symm
        rw [sign, hnegative]
        exact toList_toString_neg hm
    · rw [htext, integer?_pointed] at h
      cases h

end Binary64

end AuditTrail.Decimal
