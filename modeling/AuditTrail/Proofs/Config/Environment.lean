import AuditTrail.Config.Environment
import AuditTrail.Proofs.Decimal.Message
/-! # Values of the environment taken as texts

A value that looks like a truth value or a number is one, and where a text is asked for it is written
out again. It comes out as it was exactly when it looks like neither or stands as it would be written
(`asText?_ofValue_eq_self_iff`). What comes out stays as it is from then on, but for the zero below
zero, which looks like an integer (`isKept_of_asText?_ofValue`). -/

namespace AuditTrail
set_option autoImplicit false

open scoped CoreInstances

open Decimal

namespace Environment

/-! ## Truth values -/

/-- The letters that truth values begin with. -/
def IsTruthLetter (c : Char) : Prop := c.toLower = 't' ∨ c.toLower = 'f'

instance (c : Char) : Decidable (IsTruthLetter c) := inferInstanceAs (Decidable (_ ∨ _))

theorem not_isTruthLetter_of_isDigit {c : Char} (h : isDigit c = true) : ¬ IsTruthLetter c := by
  rw [IsTruthLetter, toLower_of_isDigit h]
  rintro (rfl | rfl) <;> cases h

theorem not_isTruthLetter_of_isMagnitude {c : Char} {cs : List Char} (h : IsMagnitude (c :: cs)) :
    ¬ IsTruthLetter c := by
  generalize hall : c :: cs = all at h
  cases h with
  | whole ds tail hdigits hne =>
    obtain ⟨d, ds, rfl⟩ := List.exists_cons_of_ne_nil hne
    rw [(List.cons.inj hall).1]
    exact not_isTruthLetter_of_isDigit (hdigits d List.mem_cons_self)
  | pointed ds es tail hwhole =>
    cases ds with
    | nil =>
      rw [(List.cons.inj hall).1]
      decide
    | cons d ds =>
      rw [(List.cons.inj hall).1]
      exact not_isTruthLetter_of_isDigit (hwhole d List.mem_cons_self)
  | word _ hword =>
    rw [← hall] at hword
    rw [IsTruthLetter]
    rcases hword.front with hc | hc <;>
    · rw [hc]
      decide

/-- No literal of a number begins like a truth value. -/
theorem not_isTruthLetter_of_isNumeral {c : Char} {cs : List Char} (h : IsNumeral (c :: cs)) :
    ¬ IsTruthLetter c := by
  obtain ⟨sign, magnitude, hcs, rfl | rfl | rfl, hmagnitude⟩ := h
  · rw [List.nil_append] at hcs
    rw [← hcs] at hmagnitude
    exact not_isTruthLetter_of_isMagnitude hmagnitude
  · rw [(List.cons.inj hcs).1]
    decide
  · rw [(List.cons.inj hcs).1]
    decide

/-- A truth value in letters of either size. -/
def IsTruthWord (v : String) : Prop := Text.lowered v = "true" ∨ Text.lowered v = "false"

theorem IsTruthWord.not_isNumeral {v : String} (h : IsTruthWord v) : ¬ IsNumeral v.toList := by
  intro hnumeral
  have hlist : v.toList.map Char.toLower = ['t', 'r', 'u', 'e'] ∨
      v.toList.map Char.toLower = ['f', 'a', 'l', 's', 'e'] := by
    rw [IsTruthWord, ← String.toList_inj, ← String.toList_inj, Text.lowered, String.toList_ofList] at h
    exact h
  cases hv : v.toList with
  | nil =>
    rw [hv] at hlist
    rcases hlist with hlist | hlist <;> cases hlist
  | cons c cs =>
    rw [hv] at hnumeral hlist
    have hletter : IsTruthLetter c :=
      hlist.imp (fun htrue => (List.cons.inj htrue).1) (fun hfalse => (List.cons.inj hfalse).1)
    exact not_isTruthLetter_of_isNumeral hnumeral hletter

/-! ## What a value is read as -/

theorem ofValue_flag {v : String} {b : Bool}
    (h : Text.lowered v = if b then "true" else "false") : ofValue v = .flag b := by
  cases b with
  | true => exact if_pos h
  | false =>
    have hword : ¬ Text.lowered v = "true" := by
      rw [h]
      decide
    rw [ofValue, if_neg hword]
    exact if_pos h

theorem ofValue_integer {v : String} {n : Int} (h : int64? v.toList = some n) :
    ofValue v = .integer n := by
  have hword : ¬ IsTruthWord v := fun hword =>
    hword.not_isNumeral (isNumeral_of_integer? (int64?_eq_some_iff.mp h).1)
  rw [IsTruthWord, not_or] at hword
  rw [ofValue, if_neg hword.1, if_neg hword.2, h]

theorem ofValue_double {v : String} {x : Binary64} (hinteger : int64? v.toList = none)
    (h : double? v.toList = some x) : ofValue v = .double x := by
  have hword : ¬ IsTruthWord v := fun hword =>
    hword.not_isNumeral ((double?_isSome_iff _).mp (Option.isSome_of_eq_some h))
  rw [IsTruthWord, not_or] at hword
  rw [ofValue, if_neg hword.1, if_neg hword.2, hinteger, h]

theorem ofValue_text {v : String} (hword : ¬ IsTruthWord v) (hnumeral : ¬ IsNumeral v.toList) :
    ofValue v = .text v := by
  have hinteger : int64? v.toList = none := by
    rw [Option.eq_none_iff_forall_ne_some]
    intro n hn
    exact hnumeral (isNumeral_of_integer? (int64?_eq_some_iff.mp hn).1)
  have hdouble : double? v.toList = none := by
    rwa [← double?_isSome_iff, Bool.not_eq_true, Option.isSome_eq_false_iff,
      Option.isNone_iff_eq_none] at hnumeral
  rw [IsTruthWord, not_or] at hword
  rw [ofValue, if_neg hword.1, if_neg hword.2, hinteger, hdouble]

/-- A value is a truth value, an integer, a double or, if it looks like none of these, a text. -/
theorem ofValue_cases (v : String) :
    (∃ b, Text.lowered v = (if b then "true" else "false") ∧ ofValue v = .flag b) ∨
    (∃ n, int64? v.toList = some n ∧ ofValue v = .integer n) ∨
    (∃ x, int64? v.toList = none ∧ double? v.toList = some x ∧ ofValue v = .double x) ∨
    (¬ IsTruthWord v ∧ ¬ IsNumeral v.toList ∧ ofValue v = .text v) := by
  by_cases hword : IsTruthWord v
  · rcases hword with hword | hword
    · exact Or.inl ⟨true, hword, ofValue_flag hword⟩
    · exact Or.inl ⟨false, hword, ofValue_flag hword⟩
  · cases hinteger : int64? v.toList with
    | some n => exact Or.inr (Or.inl ⟨n, rfl, ofValue_integer hinteger⟩)
    | none =>
      cases hdouble : double? v.toList with
      | some x => exact Or.inr (Or.inr (Or.inl ⟨x, rfl, rfl, ofValue_double hinteger hdouble⟩))
      | none =>
        have hnumeral : ¬ IsNumeral v.toList := by
          rw [← double?_isSome_iff, hdouble]
          exact Bool.false_ne_true
        exact Or.inr (Or.inr (Or.inr ⟨hword, hnumeral, ofValue_text hword hnumeral⟩))

/-! ## Values that stay as they are -/

/-- The texts that come out as they are: what looks like no truth value and no number, and the form
in which a truth value, an integer of 64 bits or a double is written. -/
inductive IsKept : String → Prop where
  | plain (v : String) (hword : ¬ IsTruthWord v) (hnumeral : ¬ IsNumeral v.toList) : IsKept v
  | flag (b : Bool) : IsKept (if b then "true" else "false")
  | integer (n : Int) (hn : Setting.isInteger64 n = true) : IsKept (toString n)
  | double (x : Binary64) (hx : x ≠ .ofParts true 0) : IsKept x.messageText

theorem int64?_toString {n : Int} (h : Setting.isInteger64 n = true) :
    int64? (toString n).toList = some n :=
  int64?_eq_some_iff.mpr ⟨integer?_toString n, of_decide_eq_true h⟩

theorem isInteger64_of_int64? {cs : List Char} {n : Int} (h : int64? cs = some n) :
    Setting.isInteger64 n = true :=
  decide_eq_true (int64?_eq_some_iff.mp h).2

theorem messageText_minusZero : (Binary64.ofParts true 0).messageText = "-0" := by decide +kernel

/-- The text of a double looks like a double that has this text, or like the integer that has. -/
theorem asText?_ofValue_messageText {x : Binary64} (hx : x ≠ .ofParts true 0) :
    (ofValue x.messageText).asText? = some x.messageText := by
  cases hinteger : int64? x.messageText.toList with
  | some n =>
    rw [ofValue_integer hinteger, Setting.asText?,
      x.toString_of_messageText hx (int64?_eq_some_iff.mp hinteger).1]
  | none =>
    cases hnan : x.isNaN with
    | false => rw [ofValue_double hinteger (x.double?_messageText hnan), Setting.asText?]
    | true =>
      rw [Binary64.messageText, Binary64.write, if_pos hnan]
      decide +kernel

theorem IsKept.asText? {v : String} (h : IsKept v) : (ofValue v).asText? = some v := by
  cases h with
  | plain v hword hnumeral => rw [ofValue_text hword hnumeral, Setting.asText?]
  | flag b => cases b <;> decide +kernel
  | integer n hn => rw [ofValue_integer (int64?_toString hn), Setting.asText?]
  | double x hx => exact asText?_ofValue_messageText hx

/-- What comes out is kept, but for the zero below zero. -/
theorem isKept_of_asText?_ofValue {v t : String} (h : (ofValue v).asText? = some t) :
    IsKept t ∨ t = "-0" := by
  rcases ofValue_cases v with ⟨b, -, hvalue⟩ | ⟨n, hn, hvalue⟩ | ⟨x, -, -, hvalue⟩ |
    ⟨hword, hnumeral, hvalue⟩
  · rw [hvalue, Setting.asText?, Option.some.injEq] at h
    rw [← h]
    exact Or.inl (.flag b)
  · rw [hvalue, Setting.asText?, Option.some.injEq] at h
    rw [← h]
    exact Or.inl (.integer n (isInteger64_of_int64? hn))
  · rw [hvalue, Setting.asText?, Option.some.injEq] at h
    by_cases hx : x = .ofParts true 0
    · rw [← h, hx]
      exact Or.inr messageText_minusZero
    · rw [← h]
      exact Or.inl (.double x hx)
  · rw [hvalue, Setting.asText?, Option.some.injEq] at h
    rw [← h]
    exact Or.inl (.plain v hword hnumeral)

/-- A value comes out as it was exactly when it is kept. -/
theorem asText?_ofValue_eq_self_iff {v : String} : (ofValue v).asText? = some v ↔ IsKept v := by
  refine ⟨?_, IsKept.asText?⟩
  intro h
  -- of all that comes out only the zero below zero is not kept, and it does not come out of itself
  rcases isKept_of_asText?_ofValue h with hkept | rfl
  · exact hkept
  · exact absurd h (by decide +kernel)

end Environment

end AuditTrail
