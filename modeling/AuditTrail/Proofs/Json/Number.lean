import AuditTrail.Json.Printer
import AuditTrail.Json.Reader
import AuditTrail.Proofs.Decimal.Layout
/-! # Numbers inside JSON

A number is written in up to three pieces: digits, digits behind a point, and an exponent. The
scanner finds the pieces again where the text does not go on like a number, and the number that was
written is the one that they denote exactly. So different numbers have different texts
(`writeNumber_append_inj`). An integer is also read as the number that was written; of a double this
is not sure, as it is read step by step. -/

namespace AuditTrail.Json
set_option autoImplicit false

open scoped CoreInstances

open Decimal

/-- What stands behind a number does not go on like one. -/
def NumberEnd (cs : List Char) : Prop :=
  ∀ c ∈ cs.head?, isDigit c = false ∧ c ≠ '.' ∧ c ≠ 'e' ∧ c ≠ 'E'

theorem NumberEnd.nil : NumberEnd [] := by
  intro c hc
  cases hc

theorem NumberEnd.cons {c : Char} (h : isDigit c = false ∧ c ≠ '.' ∧ c ≠ 'e' ∧ c ≠ 'E')
    (cs : List Char) : NumberEnd (c :: cs) := by
  intro d hd
  rw [List.head?_cons, Option.mem_some_iff] at hd
  rw [← hd]
  exact h

theorem NumberEnd.noDigitFront {cs : List Char} (h : NumberEnd cs) : NoDigitFront cs :=
  fun c hc => (h c hc).1

/-! ## The pieces -/

theorem scanPart_none {rest : List Char} (h : rest.head? ≠ some '.') :
    scanPart rest = some (none, rest) := by
  unfold scanPart
  split
  · exact absurd rfl h
  · rfl

theorem scanPart_digits {ds rest : List Char} (hd : AreDigits ds) (hne : ds ≠ [])
    (hr : NoDigitFront rest) : scanPart ('.' :: ds ++ rest) = some (some ds, rest) := by
  rw [List.cons_append, scanPart]
  simp only [takeWhile_digits_append hd hr, dropWhile_digits_append hd hr]
  rw [if_neg (by rw [List.isEmpty_iff]; exact hne)]

theorem scanExponent_none {rest : List Char} (h : NumberEnd rest) :
    scanExponent rest = some (none, rest) := by
  cases rest with
  | nil => rfl
  | cons c rest =>
    obtain ⟨-, -, hsmall, hbig⟩ := h c rfl
    rw [scanExponent, if_neg (by rintro (he | he) <;> contradiction)]

theorem scanExponent_mark (e : Int) {rest : List Char} (hr : NoDigitFront rest) :
    scanExponent (exponentMark e ++ rest) = some (some e, rest) := by
  have hd : AreDigits (digits e.natAbs) := areDigits_toDigits e.natAbs
  have hval : digitsValue (digits e.natAbs) = e.natAbs := digitsValue_toDigits e.natAbs
  have hne : ¬(digits e.natAbs).isEmpty = true := by
    rw [List.isEmpty_iff]
    exact Nat.toDigits_ne_nil
  unfold exponentMark
  by_cases he : 0 ≤ e
  · rw [if_pos he]
    simp only [List.cons_append, List.nil_append, scanExponent, true_or, if_true, splitSign,
      takeWhile_digits_append hd hr, dropWhile_digits_append hd hr, if_neg hne, hval,
      Bool.false_eq_true, if_false]
    congr 3
    omega
  · rw [if_neg he]
    simp only [List.cons_append, List.nil_append, scanExponent, true_or, if_true, splitSign,
      takeWhile_digits_append hd hr, dropWhile_digits_append hd hr, if_neg hne, hval]
    congr 3
    omega

/-- A text without a sign in the pieces that the scanner finds in it. -/
structure HasPieces (cs whole : List Char) (part : Option (List Char)) (exponent : Option Int) :
    Prop where
  digits : AreDigits whole
  nonempty : whole ≠ []
  /-- Only a single digit may be a zero in front. -/
  front : whole.head? = some '0' → whole.length = 1
  /-- What stands behind the first piece. -/
  tail : ∃ tail, cs = whole ++ tail ∧ ∀ rest, NumberEnd rest →
    NoDigitFront (tail ++ rest) ∧ ∃ behind, scanPart (tail ++ rest) = some (part, behind) ∧
      scanExponent behind = some (exponent, rest)

/-- The number of some pieces and what follows it, the sign being known. -/
def scanPieces (negative : Bool) (unsigned : List Char) : Option (Json × List Char) :=
  let whole := unsigned.takeWhile isDigit
  if whole.isEmpty || (whole.head? == some '0' && 1 < whole.length) then none
  else
    match scanPart (unsigned.dropWhile isDigit) with
    | none => none
    | some (part, behind) =>
      match scanExponent behind with
      | none => none
      | some (exponent, rest) => some (numberOf negative whole part exponent, rest)

/-- A number is read from its pieces, behind a minus if there is one. -/
theorem scanNumber_cases (cs : List Char) :
    (∃ rest, cs = '-' :: rest ∧ scanNumber cs = scanPieces true rest) ∨
    (cs.head? ≠ some '-' ∧ scanNumber cs = scanPieces false cs) := by
  cases cs with
  | nil => exact Or.inr ⟨by simp, rfl⟩
  | cons c rest =>
    by_cases hc : c = '-'
    · exact Or.inl ⟨rest, by rw [hc], by rw [hc]; rfl⟩
    · refine Or.inr ⟨by simpa using hc, ?_⟩
      unfold scanNumber
      split
      rename_i negative unsigned hsign
      split at hsign
      · rename_i hminus
        exact absurd (List.cons.inj hminus).1 hc
      · cases hsign
        rfl

theorem scanNumber_digit {c : Char} (h : isDigit c = true) (cs : List Char) :
    scanNumber (c :: cs) = scanPieces false (c :: cs) := by
  rcases scanNumber_cases (c :: cs) with ⟨rest, hminus, -⟩ | ⟨-, hscan⟩
  · rw [(List.cons.inj hminus).1] at h
    cases h
  · exact hscan

theorem HasPieces.scan {cs whole : List Char} {part : Option (List Char)} {exponent : Option Int}
    (h : HasPieces cs whole part exponent) (negative : Bool) {rest : List Char}
    (hr : NumberEnd rest) :
    scanPieces negative (cs ++ rest) = some (numberOf negative whole part exponent, rest) := by
  obtain ⟨tail, hcs, htail⟩ := h.tail
  obtain ⟨hfront, behind, hpart, hexponent⟩ := htail rest hr
  have htake := takeWhile_digits_append h.digits hfront
  have hdrop := dropWhile_digits_append h.digits hfront
  have hguard : ¬(whole.isEmpty || (whole.head? == some '0' && decide (1 < whole.length))) = true := by
    rw [Bool.or_eq_true, Bool.and_eq_true, List.isEmpty_iff, decide_eq_true_eq, beq_iff_eq]
    rintro (hempty | ⟨hzero, hlong⟩)
    · exact h.nonempty hempty
    · rw [h.front hzero] at hlong
      exact absurd hlong (by decide)
  rw [hcs, List.append_assoc, scanPieces]
  simp only [htake, hdrop, if_neg hguard, hpart, hexponent]

theorem HasPieces.front_digit {cs whole : List Char} {part : Option (List Char)}
    {exponent : Option Int} (h : HasPieces cs whole part exponent) :
    ∃ c rest, cs = c :: rest ∧ isDigit c = true := by
  obtain ⟨tail, hcs, -⟩ := h.tail
  have hd := h.digits
  cases hw : whole with
  | nil => exact absurd hw h.nonempty
  | cons c ds =>
    rw [hw] at hd hcs
    exact ⟨c, ds ++ tail, hcs, hd c List.mem_cons_self⟩

theorem HasPieces.scanNumber {cs whole : List Char} {part : Option (List Char)}
    {exponent : Option Int} (h : HasPieces cs whole part exponent) (negative : Bool)
    {rest : List Char} (hr : NumberEnd rest) :
    scanNumber ((if negative then ['-'] else []) ++ cs ++ rest) =
      some (numberOf negative whole part exponent, rest) := by
  have hscan := h.scan negative hr
  cases negative with
  | true => exact hscan
  | false =>
    obtain ⟨c, cs', hcs, hc⟩ := h.front_digit
    rw [hcs, List.cons_append] at hscan
    rw [← hscan, hcs]
    exact scanNumber_digit hc _

/-! ## Integers -/

theorem hasPieces_toDigits (n : Nat) :
    HasPieces (Nat.toDigits 10 n) (Nat.toDigits 10 n) none none where
  digits := areDigits_toDigits n
  nonempty := Nat.toDigits_ne_nil
  front := length_digits_of_head_zero
  tail := by
    refine ⟨[], (List.append_nil _).symm, ?_⟩
    intro rest hr
    refine ⟨hr.noDigitFront, rest, scanPart_none ?_, scanExponent_none hr⟩
    intro hdot
    exact (hr '.' hdot).2.1 rfl

theorem numberOf_natural (n : UInt64) :
    numberOf false (Nat.toDigits 10 n.toNat) none none = .number (.natural n) := by
  simp only [numberOf, digitsValue_toDigits, Option.isSome_none, Bool.or_self, Bool.false_eq_true,
    if_false, if_pos n.toNat_lt, UInt64.ofNat_toNat]

theorem numberOf_negative {n : UInt64} (h : 0 < n.toNat ∧ n.toNat ≤ 2 ^ (63 : Nat)) :
    numberOf true (Nat.toDigits 10 n.toNat) none none = .number (.negative n) := by
  have hguard : ¬(n.toNat = 0 ∨ 2 ^ (63 : Nat) < n.toNat) := by omega
  simp only [numberOf, digitsValue_toDigits, Option.isSome_none, Bool.or_self, Bool.false_eq_true,
    if_false, if_true, if_neg hguard, UInt64.ofNat_toNat]

/-! ## Doubles -/

section Pieces
variable {whole ds : List Char} (hd : AreDigits whole) (hne : whole ≠ [])
  (hfront : whole.head? = some '0' → whole.length = 1)
include hd hne hfront

theorem hasPieces_part (hds : AreDigits ds) (hds' : ds ≠ []) :
    HasPieces (whole ++ '.' :: ds) whole (some ds) none := by
  refine ⟨hd, hne, hfront, '.' :: ds, rfl, ?_⟩
  intro rest hr
  exact ⟨NoDigitFront.cons (by decide) _, rest, scanPart_digits hds hds' hr.noDigitFront,
    scanExponent_none hr⟩

theorem hasPieces_exponent (e : Int) :
    HasPieces (whole ++ exponentMark e) whole none (some e) := by
  refine ⟨hd, hne, hfront, exponentMark e, rfl, ?_⟩
  intro rest hr
  refine ⟨NoDigitFront.cons (by decide) _, exponentMark e ++ rest, scanPart_none ?_,
    scanExponent_mark e hr.noDigitFront⟩
  intro h
  exact absurd (Option.some.inj h) (by decide)

theorem hasPieces_part_exponent (hds : AreDigits ds) (hds' : ds ≠ []) (e : Int) :
    HasPieces (whole ++ '.' :: ds ++ exponentMark e) whole (some ds) (some e) := by
  refine ⟨hd, hne, hfront, '.' :: ds ++ exponentMark e, List.append_assoc _ _ _, ?_⟩
  intro rest hr
  refine ⟨NoDigitFront.cons (by decide) _, exponentMark e ++ rest, ?_,
    scanExponent_mark e hr.noDigitFront⟩
  rw [List.append_assoc]
  exact scanPart_digits hds hds' (NoDigitFront.cons (by decide) _)

end Pieces

/-- The pieces and the decimal have the same nearest double. -/
def StandsFor (d : Numeral) (whole : List Char) (part : Option (List Char)) (exponent : Option Int) :
    Prop :=
  (part.isSome || exponent.isSome) = true ∧ ∀ negative,
    Binary64.ofDecimal? negative (digitsValue (whole ++ part.getD []))
      (exponent.getD 0 - (part.getD []).length) =
    Binary64.ofDecimal? negative d.coefficient d.exponent

/-- A text has pieces that stand for the decimal. -/
def Reads (d : Numeral) (cs : List Char) : Prop :=
  ∃ whole part exponent, HasPieces cs whole part exponent ∧ StandsFor d whole part exponent

theorem reads_whole {d : Numeral} (he : 0 ≤ d.exponent) :
    Reads d (digits (d.coefficient * 10 ^ d.exponent.toNat) ++ ['.', '0']) := by
  refine ⟨_, some ['0'], none, hasPieces_part (areDigits_digits _) (digits_ne_nil _)
    length_digits_of_head_zero (areDigits_replicate_zero 1) (List.cons_ne_nil _ _), rfl, ?_⟩
  intro negative
  have hshift := ofDecimal?_shift negative d.coefficient (d.exponent.toNat + 1) d.exponent
  have hexp : (0 : Int) - (1 : Nat) = d.exponent - ((d.exponent.toNat + 1 : Nat) : Int) := by omega
  have hvalue : digitsValue ['0'] = 0 := rfl
  rw [← hshift, ← hexp, Option.getD_some, digitsValue_append, digitsValue_digits, hvalue,
    Nat.add_zero, List.length_singleton, Nat.mul_assoc, ← Nat.pow_add]
  rfl

theorem reads_pointed {d : Numeral} {whole ds : List Char} (h : IsPointed d whole ds) :
    Reads d (whole ++ '.' :: ds) := by
  refine ⟨whole, some ds, none, hasPieces_part h.whole_digits h.whole_nonempty h.front h.part_digits
    h.part_nonempty, rfl, ?_⟩
  intro negative
  rw [Option.getD_some, h.value, Option.getD_none, Int.zero_sub, h.places]

theorem reads_exponent (d : Numeral) : Reads d (match digits d.coefficient with
    | [] => exponentMark (d.exponent + (digits d.coefficient).length - 1)
    | [only] => only :: exponentMark (d.exponent + (digits d.coefficient).length - 1)
    | first :: others =>
      first :: '.' :: others ++ exponentMark (d.exponent + (digits d.coefficient).length - 1)) := by
  have hds := areDigits_digits d.coefficient
  have hval := digitsValue_digits d.coefficient
  split
  · rename_i h
    exact absurd h (digits_ne_nil _)
  · rename_i only h
    rw [h] at hds hval ⊢
    refine ⟨[only], none, some _, hasPieces_exponent hds (List.cons_ne_nil _ _) (fun _ => rfl) _,
      rfl, ?_⟩
    intro negative
    rw [Option.getD_none, List.append_nil, hval, Option.getD_some]
    congr 1
    simp only [List.length_singleton, List.length_nil]
    omega
  · rename_i first others hothers h
    rw [h] at hds hval ⊢
    have hfirst : AreDigits [first] := hds.take 1
    have hrest : AreDigits others := hds.drop 1
    refine ⟨[first], some others, some _,
      hasPieces_part_exponent hfirst (List.cons_ne_nil _ _) (fun _ => rfl) hrest hothers _, rfl, ?_⟩
    intro negative
    rw [Option.getD_some, Option.getD_some, List.singleton_append, hval]
    congr 1
    simp only [List.length_cons]
    omega

theorem reads_layout {d : Numeral} (hzero : d.coefficient ≠ 0 ∨ d = ⟨0, 0⟩) :
    Reads d (Layout.json.write d) := by
  by_cases hpositional :
      Layout.json.isPositional (d.exponent + (digits d.coefficient).length - 1) = true
  · rcases Layout.write_positional hzero .json hpositional with ⟨he, htext⟩ | ⟨whole, ds, hd, htext⟩
    · rw [htext]
      exact reads_whole he
    · rw [htext]
      exact reads_pointed hd
  · simp only [Layout.write, if_neg hpositional]
    exact reads_exponent d

/-! ## All numbers -/

/-- The number that pieces denote exactly: an integer where there is neither a point nor an exponent,
and else the nearest double. -/
def denoted? (negative : Bool) (whole : List Char) (part : Option (List Char))
    (exponent : Option Int) : Option Number :=
  if part.isSome || exponent.isSome then
    (Binary64.ofDecimal? negative (digitsValue (whole ++ part.getD []))
      (exponent.getD 0 - (part.getD []).length)).map .double
  else some ((if negative then Number.negative else .natural) (UInt64.ofNat (digitsValue whole)))

theorem denoted?_double {x : Binary64} {d : Numeral} {whole : List Char} {part : Option (List Char)}
    {exponent : Option Int} (h : StandsFor d whole part exponent)
    (hx : Binary64.ofDecimal? x.isNegative d.coefficient d.exponent = some x) :
    denoted? x.isNegative whole part exponent = some (.double x) := by
  rw [denoted?, if_pos h.1, h.2, hx]
  rfl

theorem denoted?_toDigits (negative : Bool) (n : UInt64) :
    denoted? negative (Nat.toDigits 10 n.toNat) none none =
      some ((if negative then Number.negative else .natural) n) := by
  simp [denoted?, digitsValue_toDigits]

/-- A text has the pieces of a number behind its sign: they denote the number, and an integer is what
they are read as. -/
structure WritesNumber (n : Number) (negative : Bool) (cs whole : List Char)
    (part : Option (List Char)) (exponent : Option Int) : Prop where
  text : writeNumber n = (if negative then ['-'] else []) ++ cs
  pieces : HasPieces cs whole part exponent
  denotes : denoted? negative whole part exponent = some n
  integer : (∀ x, n ≠ .double x) → numberOf negative whole part exponent = .number n

theorem exists_writesNumber {n : Number} (hn : n.isNormal = true) :
    ∃ negative cs whole part exponent, WritesNumber n negative cs whole part exponent := by
  cases n with
  | natural n =>
    exact ⟨false, _, _, _, _, rfl, hasPieces_toDigits n.toNat, denoted?_toDigits false n,
      fun _ => numberOf_natural n⟩
  | negative n =>
    exact ⟨true, _, _, _, _, rfl, hasPieces_toDigits n.toNat, denoted?_toDigits true n,
      fun _ => numberOf_negative (of_decide_eq_true hn)⟩
  | double x =>
    have hfinite : x.isFinite = true := hn
    obtain ⟨whole, part, exponent, hpieces, hstands⟩ :=
      reads_layout (shortest_coefficient .toEven hfinite)
    exact ⟨x.isNegative, _, whole, part, exponent, Binary64.write_of_isFinite .json hfinite, hpieces,
      denoted?_double hstands (ofDecimal?_shortest .toEven hfinite), fun h => absurd rfl (h x)⟩

theorem writeNumber_front {n : Number} (hn : n.isNormal = true) :
    ∃ c cs, writeNumber n = c :: cs ∧ (c = '-' ∨ isDigit c = true) := by
  obtain ⟨negative, cs, whole, part, exponent, h⟩ := exists_writesNumber hn
  cases negative with
  | true => exact ⟨'-', cs, h.text, Or.inl rfl⟩
  | false =>
    obtain ⟨c, rest, hc, hd⟩ := h.pieces.front_digit
    refine ⟨c, rest, ?_, Or.inr hd⟩
    rw [h.text, hc]
    rfl

/-- What a number's text is read as does not depend on what follows that is no part of it. -/
theorem scanNumber_append {n : Number} (hn : n.isNormal = true) :
    ∃ j, (∀ rest, NumberEnd rest → scanNumber (writeNumber n ++ rest) = some (j, rest)) ∧
      ((∀ x, n ≠ .double x) → j = .number n) := by
  obtain ⟨negative, cs, whole, part, exponent, h⟩ := exists_writesNumber hn
  refine ⟨_, fun rest hr => ?_, h.integer⟩
  rw [h.text, h.pieces.scanNumber negative hr]

/-! ## Different numbers -/

/-- The pieces of a text are found whatever follows that is no part of them. -/
theorem HasPieces.unique {cs cs' whole whole' rest rest' : List Char}
    {part part' : Option (List Char)} {exponent exponent' : Option Int}
    (h : HasPieces cs whole part exponent) (h' : HasPieces cs' whole' part' exponent')
    (hr : NumberEnd rest) (hr' : NumberEnd rest') (heq : cs ++ rest = cs' ++ rest') :
    whole = whole' ∧ part = part' ∧ exponent = exponent' ∧ rest = rest' := by
  obtain ⟨tail, rfl, htail⟩ := h.tail
  obtain ⟨tail', rfl, htail'⟩ := h'.tail
  obtain ⟨hfront, behind, hpart, hexponent⟩ := htail rest hr
  obtain ⟨hfront', behind', hpart', hexponent'⟩ := htail' rest' hr'
  rw [List.append_assoc, List.append_assoc] at heq
  -- The digits in front end where the digits of the whole text end, and the scanner does the rest.
  have hwhole := congrArg (List.takeWhile isDigit) heq
  rw [takeWhile_digits_append h.digits hfront, takeWhile_digits_append h'.digits hfront'] at hwhole
  rw [hwhole] at heq
  rw [List.append_cancel_left heq, hpart'] at hpart
  cases hpart
  rw [hexponent'] at hexponent
  cases hexponent
  exact ⟨hwhole, rfl, rfl, rfl⟩

/-- Where texts go on that begin with numbers in normal form, the numbers can be told. -/
theorem writeNumber_append_inj {m n : Number} (hm : m.isNormal = true) (hn : n.isNormal = true)
    {rest rest' : List Char} (hr : NumberEnd rest) (hr' : NumberEnd rest')
    (heq : writeNumber m ++ rest = writeNumber n ++ rest') : m = n ∧ rest = rest' := by
  obtain ⟨negative, cs, whole, part, exponent, h⟩ := exists_writesNumber hm
  obtain ⟨negative', cs', whole', part', exponent', h'⟩ := exists_writesNumber hn
  have hdenotes := h.denotes
  obtain ⟨c, ds, hcs, hc⟩ := h.pieces.front_digit
  obtain ⟨c', ds', hcs', hc'⟩ := h'.pieces.front_digit
  rw [h.text, h'.text] at heq
  -- No digit is a minus.
  have hsign : negative = negative' ∧ cs ++ rest = cs' ++ rest' := by
    cases negative <;> cases negative'
    case false.false => exact ⟨rfl, heq⟩
    case false.true =>
      rw [hcs] at heq
      rw [(List.cons.inj heq).1] at hc
      cases hc
    case true.false =>
      rw [hcs'] at heq
      rw [← (List.cons.inj heq).1] at hc'
      cases hc'
    case true.true => exact ⟨rfl, (List.cons.inj heq).2⟩
  obtain ⟨rfl, hunsigned⟩ := hsign
  obtain ⟨rfl, rfl, rfl, hrest⟩ := h.pieces.unique h'.pieces hr hr' hunsigned
  exact ⟨Option.some.inj (hdenotes.symm.trans h'.denotes), hrest⟩

end AuditTrail.Json
