import AuditTrail.Json.Printer
import AuditTrail.Proofs.Json.Tree
import AuditTrail.Proofs.Text.Bytes
import AuditTrail.Proofs.Text.Digits
/-! # Values on one line

A value is written without control characters, those in its strings being escaped. So its text
stands on one line, and no byte of it looks like the end of one (`noControls_write`). -/

namespace AuditTrail
set_option autoImplicit false

open Text (NoControls)

/-! ## Numbers -/

namespace Decimal

theorem AreDigits.noControls {ds : List Char} (h : AreDigits ds) : NoControls ds := by
  intro c hc
  have hrange := (isDigit_iff c).mp (h c hc)
  omega

theorem noControls_digits (n : Nat) : NoControls (digits n) := (areDigits_toDigits n).noControls

theorem noControls_exponentMark (e : Int) : NoControls (exponentMark e) := by
  rw [exponentMark]
  refine NoControls.append ?_ (noControls_digits _)
  split <;> decide

theorem noControls_layout (d : Numeral) : NoControls (Layout.json.write d) := by
  have hds : AreDigits (digits d.coefficient) := areDigits_toDigits d.coefficient
  have hzeros : ∀ n, NoControls (List.replicate n '0') := fun n =>
    (areDigits_replicate_zero n).noControls
  rw [Layout.write]
  split
  · split
    · exact (hds.noControls.append (hzeros _)).append (by decide)
    · split
      · exact ((hds.take _).noControls.append (by decide)).append (hds.drop _).noControls
      · exact (NoControls.append (by decide) (hzeros _)).append hds.noControls
  · have hmark := noControls_exponentMark
    cases hdigits : digits d.coefficient with
    | nil => exact hmark _
    | cons first others =>
      rw [hdigits] at hds
      cases others with
      | nil => exact hds.noControls.append (hmark _)
      | cons second rest =>
        have hfirst : NoControls [first] := (hds.take 1).noControls
        have hothers : NoControls (second :: rest) := (hds.drop 1).noControls
        exact ((hfirst.append (by decide : NoControls ['.'])).append hothers).append (hmark _)

theorem Binary64.noControls_write (x : Binary64) : NoControls (x.write Layout.json) := by
  rw [Binary64.write]
  have hsign : NoControls (if x.isNegative then ['-'] else []) := by split <;> decide
  split
  · decide
  · simp only
    split
    · exact hsign.append (noControls_layout _)
    · exact hsign.append (by decide)

end Decimal

namespace Json

theorem noControls_writeNumber (n : Number) : NoControls (writeNumber n) := by
  cases n with
  | natural n => exact (Decimal.areDigits_toDigits _).noControls
  | negative n => exact NoControls.cons (by decide) (Decimal.areDigits_toDigits _).noControls
  | double x => exact x.noControls_write

/-! ## Strings -/

theorem le_hexDigit : ∀ n < 16, 32 ≤ (hexDigit n).toNat := by decide

theorem noControls_escape (c : Char) : NoControls (escape c) := by
  rw [escape]
  repeat' split
  -- The short escapes are closed texts; a code and the character itself are left.
  any_goals decide
  · rename_i hlow
    refine NoControls.append (by decide : NoControls ['\\', 'u', '0', '0']) ?_
    exact .cons (le_hexDigit _ (by omega)) (.cons (le_hexDigit _ (by omega)) (by decide))
  · rename_i hlow
    exact .cons (by omega) (by decide)

theorem noControls_writeString (s : String) : NoControls (writeString s) := by
  rw [writeString]
  refine NoControls.append (.cons (by decide) ?_) (by decide)
  intro c hc
  obtain ⟨d, -, hcd⟩ := List.mem_flatMap.mp hc
  exact noControls_escape d c hcd

/-! ## Items and members -/

theorem noControls_writeMoreItems {items : List Json} (h : ∀ j ∈ items, NoControls j.write) :
    NoControls (writeMoreItems items) := by
  induction items with
  | nil => decide
  | cons j rest ih =>
    obtain ⟨hj, hrest⟩ := List.forall_mem_cons.mp h
    rw [writeMoreItems]
    exact (NoControls.cons (by decide) hj).append (ih hrest)

theorem noControls_writeItems {items : List Json} (h : ∀ j ∈ items, NoControls j.write) :
    NoControls (writeItems items) := by
  cases items with
  | nil => decide
  | cons j rest =>
    obtain ⟨hj, hrest⟩ := List.forall_mem_cons.mp h
    rw [writeItems]
    exact hj.append (noControls_writeMoreItems hrest)

theorem noControls_writeMoreMembers {members : List (String × Json)}
    (h : ∀ m ∈ members, NoControls m.2.write) : NoControls (writeMoreMembers members) := by
  induction members with
  | nil => decide
  | cons m rest ih =>
    obtain ⟨k, j⟩ := m
    obtain ⟨hj, hrest⟩ := List.forall_mem_cons.mp h
    rw [writeMoreMembers]
    exact (NoControls.cons (by decide) ((noControls_writeString k).append
      (.cons (by decide) hj))).append (ih hrest)

theorem noControls_writeMembers {members : List (String × Json)}
    (h : ∀ m ∈ members, NoControls m.2.write) : NoControls (writeMembers members) := by
  cases members with
  | nil => decide
  | cons m rest =>
    obtain ⟨k, j⟩ := m
    obtain ⟨hj, hrest⟩ := List.forall_mem_cons.mp h
    rw [writeMembers]
    exact ((noControls_writeString k).append (.cons (by decide) hj)).append
      (noControls_writeMoreMembers hrest)

/-- **The text of a value has no control characters.** -/
theorem noControls_write (j : Json) : NoControls j.write := by
  induction j using tree_induction with
  | null => decide
  | bool b => cases b <;> decide
  | number n => exact noControls_writeNumber n
  | string s => exact noControls_writeString s
  | array items ih => exact .cons (by decide) (noControls_writeItems ih)
  | object members ih => exact .cons (by decide) (noControls_writeMembers ih)
  | flawed flaw =>
    intro c hc
    cases hc

end Json

end AuditTrail
