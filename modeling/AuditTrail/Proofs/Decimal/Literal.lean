import AuditTrail.Proofs.Text.Digits
import Mathlib.Data.List.TakeWhile
/-! # The literals of numbers

Which texts a setting counts as numbers, said by a grammar (`double?_isSome_iff`), and what the ones
that are written out in digits are read as. Every integer is a literal of a double. -/

namespace AuditTrail.Decimal
set_option autoImplicit false

open scoped CoreInstances

/-! ## The grammar -/

/-- What may stand before a number to tell its side of zero. -/
def IsSign (cs : List Char) : Prop := cs = [] ∨ cs = ['+'] ∨ cs = ['-']

/-- The end of a literal: nothing, or a letter and an integer. -/
inductive IsExponent : List Char → Prop where
  | none : IsExponent []
  | mark (c : Char) (hc : c = 'e' ∨ c = 'E') (sign ds : List Char) (hsign : IsSign sign)
    (hdigits : AreDigits ds) (hne : ds ≠ []) : IsExponent (c :: (sign ++ ds))

/-- A word for an infinity or for no number, in letters of either size. -/
def IsWord (cs : List Char) : Prop :=
  String.ofList (cs.map Char.toLower) ∈ ["inf", "infinity", "nan"]

/-- A literal without its sign: digits with at most one point among them and an exponent behind, or a
word in letters of either size. -/
inductive IsMagnitude : List Char → Prop where
  | whole (ds tail : List Char) (hdigits : AreDigits ds) (hne : ds ≠ []) (htail : IsExponent tail) :
    IsMagnitude (ds ++ tail)
  | pointed (ds es tail : List Char) (hwhole : AreDigits ds) (hpart : AreDigits es)
    (hne : ds ++ es ≠ []) (htail : IsExponent tail) : IsMagnitude (ds ++ '.' :: (es ++ tail))
  | word (cs : List Char) (hword : IsWord cs) : IsMagnitude cs

/-- The literal of a double. -/
def IsNumeral (cs : List Char) : Prop :=
  ∃ sign magnitude, cs = sign ++ magnitude ∧ IsSign sign ∧ IsMagnitude magnitude

/-! ## Signs and integers -/

/-- The text does not begin with a sign. -/
def NoSignFront (cs : List Char) : Prop := cs.head? ≠ some '+' ∧ cs.head? ≠ some '-'

theorem NoSignFront.of_digits {ds : List Char} (h : AreDigits ds) (rest : List Char)
    (hne : ds ≠ []) : NoSignFront (ds ++ rest) := by
  cases ds with
  | nil => exact absurd rfl hne
  | cons d ds =>
    have hd := h d List.mem_cons_self
    constructor <;>
    · intro hfront
      rw [Option.some.inj hfront] at hd
      exact absurd hd (by decide)

theorem splitSign_of_noSignFront {cs : List Char} (h : NoSignFront cs) :
    splitSign cs = (false, cs) := by
  unfold splitSign
  split
  · exact absurd rfl h.2
  · exact absurd rfl h.1
  · rfl

/-- A sign is split off before what does not begin with one. -/
theorem splitSign_append {sign cs : List Char} (hsign : IsSign sign) (h : NoSignFront cs) :
    splitSign (sign ++ cs) = (decide (sign = ['-']), cs) := by
  rcases hsign with rfl | rfl | rfl
  · exact splitSign_of_noSignFront h
  · rfl
  · rfl

theorem splitSign_cases (cs : List Char) :
    ∃ sign, IsSign sign ∧ cs = sign ++ (splitSign cs).2 := by
  unfold splitSign
  split
  · exact ⟨['-'], Or.inr (Or.inr rfl), rfl⟩
  · exact ⟨['+'], Or.inr (Or.inl rfl), rfl⟩
  · exact ⟨[], Or.inl rfl, rfl⟩

theorem integer?_append {sign ds : List Char} (hsign : IsSign sign) (hds : AreDigits ds)
    (hne : ds ≠ []) : integer? (sign ++ ds) =
      some (if sign = ['-'] then -(digitsValue ds : Int) else digitsValue ds) := by
  have hfront := NoSignFront.of_digits hds [] hne
  rw [List.append_nil] at hfront
  have hempty : ds.isEmpty = false := by
    rw [Bool.eq_false_iff, ne_eq, List.isEmpty_iff]
    exact hne
  have hall : ds.all isDigit = true := List.all_eq_true.mpr hds
  rw [integer?, splitSign_append hsign hfront]
  simp only [hempty, hall, Bool.not_true, Bool.or_self, Bool.false_eq_true, if_false,
    decide_eq_true_eq]

/-- An integer is digits with or without a sign. -/
theorem exists_of_integer? {cs : List Char} {n : Int} (h : integer? cs = some n) :
    ∃ sign ds, cs = sign ++ ds ∧ IsSign sign ∧ AreDigits ds ∧ ds ≠ [] := by
  obtain ⟨sign, hsign, hcs⟩ := splitSign_cases cs
  refine ⟨sign, (splitSign cs).2, hcs, hsign, ?_⟩
  by_cases hguard : ((splitSign cs).2.isEmpty || !(splitSign cs).2.all isDigit) = true
  · simp only [integer?, if_pos hguard] at h
    cases h
  · rw [Bool.or_eq_true, not_or, Bool.not_eq_true', Bool.not_eq_false, List.isEmpty_iff] at hguard
    exact ⟨List.all_eq_true.mp hguard.2, hguard.1⟩

theorem isNumeral_of_integer? {cs : List Char} {n : Int} (h : integer? cs = some n) :
    IsNumeral cs := by
  obtain ⟨sign, ds, hcs, hsign, hds, hne⟩ := exists_of_integer? h
  refine ⟨sign, ds, hcs, hsign, ?_⟩
  have hwhole := IsMagnitude.whole ds [] hds hne .none
  rwa [List.append_nil] at hwhole

/-! ## Digits, points and exponents -/

theorem exponent?_isSome_iff (cs : List Char) : (exponent? cs).isSome = true ↔ IsExponent cs := by
  cases cs with
  | nil => exact iff_of_true rfl .none
  | cons c rest =>
    rw [exponent?]
    constructor
    · intro h
      split at h
      · rename_i hc
        obtain ⟨n, hn⟩ := Option.isSome_iff_exists.mp h
        obtain ⟨sign, ds, rfl, hsign, hds, hne⟩ := exists_of_integer? hn
        exact .mark c hc sign ds hsign hds hne
      · cases h
    · intro h
      cases h with
      | mark _ hc sign ds hsign hds hne =>
        rw [if_pos hc, integer?_append hsign hds hne]
        rfl

/-- What ends a literal goes on neither with a digit nor with a point. -/
theorem IsExponent.front {cs : List Char} (h : IsExponent cs) :
    NoDigitFront cs ∧ cs.head? ≠ some '.' := by
  cases h with
  | none => exact ⟨nofun, nofun⟩
  | mark c hc sign ds =>
    rcases hc with rfl | rfl
    · exact ⟨.cons (by decide) _, by simp⟩
    · exact ⟨.cons (by decide) _, by simp⟩

theorem unsigned?_whole (negative : Bool) {ds tail : List Char} (hds : AreDigits ds) (hne : ds ≠ [])
    (htail : IsExponent tail) : unsigned? negative (ds ++ tail) =
      (exponent? tail).map fun e => Binary64.ofDecimal negative (digitsValue ds) e := by
  obtain ⟨hfront, hpoint⟩ := htail.front
  have hempty : ds.isEmpty = false := by
    rw [Bool.eq_false_iff, ne_eq, List.isEmpty_iff]
    exact hne
  simp only [unsigned?, takeWhile_digits_append hds hfront, dropWhile_digits_append hds hfront]
  cases tail with
  | nil => simp [hempty]
  | cons c rest =>
    have hc : c ≠ '.' := fun hc => hpoint (congrArg some hc)
    simp [hempty, hc]

theorem unsigned?_pointed (negative : Bool) {ds es tail : List Char} (hds : AreDigits ds)
    (hes : AreDigits es) (hne : ds ++ es ≠ []) (htail : IsExponent tail) :
    unsigned? negative (ds ++ '.' :: (es ++ tail)) =
      (exponent? tail).map fun e =>
        Binary64.ofDecimal negative (digitsValue (ds ++ es)) (e - es.length) := by
  have hpoint : NoDigitFront ('.' :: (es ++ tail)) := .cons (by decide) _
  have hempty : (ds.isEmpty && es.isEmpty) = false := by
    rw [Bool.eq_false_iff, ne_eq, Bool.and_eq_true, List.isEmpty_iff, List.isEmpty_iff,
      ← List.append_eq_nil_iff]
    exact hne
  unfold unsigned?
  simp only [takeWhile_digits_append hds hpoint, dropWhile_digits_append hds hpoint,
    takeWhile_digits_append hes htail.front.1, dropWhile_digits_append hes htail.front.1, hempty,
    Bool.false_eq_true, if_false]

/-- A literal that is no word stands in digits. -/
theorem isMagnitude_of_unsigned? {negative : Bool} {cs : List Char}
    (h : (unsigned? negative cs).isSome = true) : IsMagnitude cs := by
  have hwhole : AreDigits (cs.takeWhile isDigit) := fun c hc => List.mem_takeWhile_imp hc
  have hcs : cs.takeWhile isDigit ++ cs.dropWhile isDigit = cs := List.takeWhile_append_dropWhile
  rw [unsigned?] at h
  generalize cs.takeWhile isDigit = ds at h hwhole hcs
  generalize cs.dropWhile isDigit = rest at h hcs
  subst hcs
  split at h
  rename_i part tail hparts
  split at h
  · cases h
  rename_i hne
  rw [Option.isSome_map, exponent?_isSome_iff] at h
  rw [Bool.and_eq_true, List.isEmpty_iff, List.isEmpty_iff, ← List.append_eq_nil_iff] at hne
  -- behind the first digits stands a point, or what ends the literal
  split at hparts
  · rename_i tail'
    cases hparts
    have hpart : AreDigits (tail'.takeWhile isDigit) := fun c hc => List.mem_takeWhile_imp hc
    have hpointed := IsMagnitude.pointed ds _ _ hwhole hpart hne h
    rwa [List.takeWhile_append_dropWhile] at hpointed
  · cases hparts
    rw [List.append_nil] at hne
    exact .whole ds rest hwhole hne h

/-! ## Doubles -/

theorem isWord_iff (cs : List Char) : IsWord cs ↔ cs.map Char.toLower = ['i', 'n', 'f'] ∨
    cs.map Char.toLower = ['i', 'n', 'f', 'i', 'n', 'i', 't', 'y'] ∨
    cs.map Char.toLower = ['n', 'a', 'n'] := by
  have hlist (word : String) : String.ofList (cs.map Char.toLower) = word ↔
      cs.map Char.toLower = word.toList := by
    rw [← String.toList_inj, String.toList_ofList]
  rw [IsWord, List.mem_cons, List.mem_cons, List.mem_singleton, hlist, hlist, hlist]
  rfl

/-- A word begins with one of two letters. -/
theorem IsWord.front {c : Char} {cs : List Char} (h : IsWord (c :: cs)) :
    c.toLower = 'i' ∨ c.toLower = 'n' := by
  rw [isWord_iff, List.map_cons, List.cons.injEq, List.cons.injEq, List.cons.injEq] at h
  rcases h with h | h | h
  · exact Or.inl h.1
  · exact Or.inl h.1
  · exact Or.inr h.1

theorem IsMagnitude.noSignFront {cs : List Char} (h : IsMagnitude cs) : NoSignFront cs := by
  cases h with
  | whole ds tail hdigits hne htail => exact .of_digits hdigits tail hne
  | pointed ds es tail hwhole hpart hne htail =>
    cases ds with
    | nil => exact ⟨by simp, by simp⟩
    | cons d ds => exact .of_digits hwhole _ (List.cons_ne_nil d ds)
  | word _ hword =>
    cases cs with
    | nil => exact ⟨nofun, nofun⟩
    | cons c cs =>
      have hc := hword.front
      constructor <;>
      · intro hfront
        rw [Option.some.inj hfront] at hc
        exact absurd hc (by decide)

/-- What is no word is read as digits. -/
theorem double?_append {sign cs : List Char} (hsign : IsSign sign) (hfront : NoSignFront cs)
    (hword : ¬ IsWord cs) : double? (sign ++ cs) = unsigned? (decide (sign = ['-'])) cs := by
  rw [IsWord, List.mem_cons, List.mem_cons, List.mem_singleton, not_or, not_or] at hword
  rw [double?, splitSign_append hsign hfront]
  simp only [hword.1, hword.2.1, hword.2.2, or_self, if_false]

theorem toLower_of_isDigit {c : Char} (h : isDigit c = true) : c.toLower = c := by
  have hc := (isDigit_iff c).mp h
  have hcapital : ¬ (c.val ≥ 'A'.val ∧ c.val ≤ 'Z'.val) := by
    rintro ⟨hge, -⟩
    have hge' : 65 ≤ c.toNat := UInt32.le_iff_toNat_le.mp hge
    omega
  exact dif_neg hcapital

theorem not_isWord_of_digits {ds : List Char} (h : AreDigits ds) (hne : ds ≠ [])
    (rest : List Char) : ¬ IsWord (ds ++ rest) := by
  intro hword
  cases ds with
  | nil => exact hne rfl
  | cons d ds =>
    have hd := h d List.mem_cons_self
    have hfront := hword.front
    rw [toLower_of_isDigit hd] at hfront
    rcases hfront with rfl | rfl
    · exact absurd hd (by decide)
    · exact absurd hd (by decide)

theorem double?_whole {sign ds tail : List Char} (hsign : IsSign sign) (hds : AreDigits ds)
    (hne : ds ≠ []) (htail : IsExponent tail) : double? (sign ++ (ds ++ tail)) =
      (exponent? tail).map fun e => Binary64.ofDecimal (decide (sign = ['-'])) (digitsValue ds) e := by
  rw [double?_append hsign (.of_digits hds tail hne) (not_isWord_of_digits hds hne tail),
    unsigned?_whole _ hds hne htail]

theorem double?_pointed {sign ds es tail : List Char} (hsign : IsSign sign) (hds : AreDigits ds)
    (hes : AreDigits es) (hne : ds ++ es ≠ []) (htail : IsExponent tail) :
    double? (sign ++ (ds ++ '.' :: (es ++ tail))) = (exponent? tail).map fun e =>
      Binary64.ofDecimal (decide (sign = ['-'])) (digitsValue (ds ++ es)) (e - es.length) := by
  have hword : ¬ IsWord (ds ++ '.' :: (es ++ tail)) := by
    cases ds with
    | nil =>
      intro hword
      exact absurd hword.front (by decide)
    | cons d ds => exact not_isWord_of_digits hds (List.cons_ne_nil d ds) _
  rw [double?_append hsign (IsMagnitude.pointed ds es tail hds hes hne htail).noSignFront hword,
    unsigned?_pointed _ hds hes hne htail]

/-- The literals of doubles are the texts of the grammar. -/
theorem double?_isSome_iff (cs : List Char) : (double? cs).isSome = true ↔ IsNumeral cs := by
  constructor
  · intro h
    obtain ⟨sign, hsign, hcs⟩ := splitSign_cases cs
    refine ⟨sign, (splitSign cs).2, hcs, hsign, ?_⟩
    by_cases hword : IsWord (splitSign cs).2
    · exact .word _ hword
    · rw [IsWord, List.mem_cons, List.mem_cons, List.mem_singleton, not_or, not_or] at hword
      simp only [double?, hword.1, hword.2.1, hword.2.2, or_self, if_false] at h
      exact isMagnitude_of_unsigned? h
  · rintro ⟨sign, magnitude, rfl, hsign, hmagnitude⟩
    cases hmagnitude with
    | whole ds tail hdigits hne htail =>
      rw [double?_whole hsign hdigits hne htail, Option.isSome_map]
      exact (exponent?_isSome_iff tail).mpr htail
    | pointed ds es tail hwhole hpart hne htail =>
      rw [double?_pointed hsign hwhole hpart hne htail, Option.isSome_map]
      exact (exponent?_isSome_iff tail).mpr htail
    | word _ hword =>
      rw [double?, splitSign_append hsign (IsMagnitude.word _ hword).noSignFront]
      rw [IsWord, List.mem_cons, List.mem_cons, List.mem_singleton, ← or_assoc] at hword
      rcases hword with hword | hword
      · simp only [if_pos hword, Option.isSome_some]
      · by_cases hinf : String.ofList (magnitude.map Char.toLower) = "inf" ∨
            String.ofList (magnitude.map Char.toLower) = "infinity"
        · simp only [if_pos hinf, Option.isSome_some]
        · simp only [if_neg hinf, if_pos hword, Option.isSome_some]

end AuditTrail.Decimal
