import AuditTrail.CoreInstances
/-!
# Spans of time

A span is a whole number of seconds, on either side of zero, of which the milliseconds fit a signed
word. It is made from words of either kind, and what fits no word or makes no span is refused.
-/

namespace AuditTrail

open scoped CoreInstances

/-! ## Words of either kind -/

/-- The signed word of the same value, if there is one. -/
def signedWord? (n : UInt64) : Option Int64 :=
  if n.toNat < 2 ^ (63 : Nat) then some (Int64.ofNat n.toNat) else none

/-- The unsigned word of the same value, if there is one. -/
def unsignedWord? (n : Int64) : Option UInt64 := if 0 ≤ n then some n.toUInt64 else none

/-- The product of two signed words, if it fits one. -/
def signedProduct? (a b : Int64) : Option Int64 :=
  if -(2 ^ (63 : Nat)) ≤ a.toInt * b.toInt ∧ a.toInt * b.toInt < 2 ^ (63 : Nat) then some (a * b)
  else none

/-! ## Spans -/

/-- Some seconds are a span when their milliseconds fit a signed word. -/
def isSpan (seconds : Int64) : Bool :=
  decide (-(Int64.maxValue / 1000) ≤ seconds ∧ seconds ≤ Int64.maxValue / 1000)

/-- A span of time. -/
structure Span where
  seconds : Int64
  valid : isSpan seconds = true
deriving DecidableEq

theorem isSpan_iff (seconds : Int64) :
    isSpan seconds = true ↔
      -((2 ^ (63 : Nat) - 1) / 1000) ≤ seconds.toInt ∧
        seconds.toInt ≤ (2 ^ (63 : Nat) - 1) / 1000 := by
  rw [isSpan, decide_eq_true_eq, Int64.le_iff_toInt_le, Int64.le_iff_toInt_le]
  exact Iff.rfl

namespace Span

/-- The span of some seconds, if there is one. -/
def ofSeconds? (seconds : Int64) : Option Span :=
  if h : isSpan seconds = true then some ⟨seconds, h⟩ else none

/-- The span of some days, if there is one. -/
def ofDays? (days : Int64) : Option Span := (signedProduct? days 86400).bind ofSeconds?

/-- The milliseconds of a span. -/
def millis (span : Span) : Int64 := span.seconds * 1000

/-- The whole days of a span; none if it lies below zero. -/
def wholeDays (span : Span) : Nat := (span.seconds.toInt / 86400).toNat

theorem ofSeconds?_eq {seconds : Int64} (h : isSpan seconds = true) :
    ofSeconds? seconds = some ⟨seconds, h⟩ := dif_pos h

/-- Days are a span as far as their milliseconds fit a signed word. -/
theorem exists_ofDays? {days : Int64}
    (h : -((2 ^ (63 : Nat) - 1) / 1000) ≤ days.toInt * 86400 ∧
      days.toInt * 86400 ≤ (2 ^ (63 : Nat) - 1) / 1000) :
    ∃ span, ofDays? days = some span ∧ span.seconds.toInt = days.toInt * 86400 := by
  have hday : (86400 : Int64).toInt = 86400 := rfl
  have hproduct : (days * 86400).toInt = days.toInt * 86400 := by
    rw [Int64.toInt_mul, hday]
    exact Int.bmod_eq_of_le (by omega) (by omega)
  have hvalid : isSpan (days * 86400) = true := by
    rw [isSpan_iff, hproduct]
    exact h
  refine ⟨⟨days * 86400, hvalid⟩, ?_, hproduct⟩
  rw [ofDays?, signedProduct?, hday, if_pos (by omega), Option.bind_some, ofSeconds?_eq hvalid]

end Span

end AuditTrail
