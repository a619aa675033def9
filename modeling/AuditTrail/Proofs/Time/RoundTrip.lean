import AuditTrail.CoreInstances
import AuditTrail.Proofs.Text.Digits
import AuditTrail.Proofs.Time.Day
/-! # Instants read back

Both written forms of an instant, the one of records and the one that is hashed, are read as the
instant itself, whatever its year and also within a leap second. So different instants have
different texts in either form. -/

namespace AuditTrail
set_option autoImplicit false

open scoped CoreInstances

open Decimal
open Text (isBlank dropBlanks)

/-! ## Single readers -/

theorem isBlank_of_isDigit {c : Char} (h : isDigit c = true) : isBlank c = false := by
  rw [isDigit_iff] at h
  rw [Bool.eq_false_iff]
  intro hb
  simp only [isBlank, Text.blankRanges, List.any_cons, List.any_nil, Bool.or_eq_true,
    Bool.and_eq_true, decide_eq_true_eq, Bool.false_eq_true, or_false] at hb
  omega

theorem dropBlanks_of_front {c : Char} (h : isBlank c = false) (cs : List Char) :
    dropBlanks (c :: cs) = c :: cs := by
  rw [dropBlanks, List.dropWhile_cons_of_neg (by rw [h]; decide)]

theorem dropBlanks_digits_append {ds : List Char} (hd : AreDigits ds) (hne : ds ≠ [])
    (rest : List Char) : dropBlanks (ds ++ rest) = ds ++ rest := by
  cases ds with
  | nil => exact absurd rfl hne
  | cons d ds => exact dropBlanks_of_front (isBlank_of_isDigit (hd d List.mem_cons_self)) _

theorem readMark_cons {mark : Char} (h : isBlank mark = false) (rest : List Char) :
    readMark mark (mark :: rest) = some rest := by
  simp only [readMark, dropBlanks_of_front h, if_true]

theorem readNumber_append {ds : List Char} (hd : AreDigits ds) (hne : ds ≠ []) (width : Nat)
    (rest : List Char) (hw : ds.length = width ∨ ds.length ≤ width ∧ NoDigitFront rest) :
    readNumber width (ds ++ rest) = some (digitsValue ds, rest) := by
  rw [readNumber, dropBlanks_digits_append hd hne, splitDigits_append hd width hw]
  cases ds with
  | nil => exact absurd rfl hne
  | cons d ds => rfl

theorem readNumber_lastDigits {width n : Nat} (hpos : 0 < width) (hn : n < 10 ^ width)
    (rest : List Char) : readNumber width (lastDigits width n ++ rest) = some (n, rest) := by
  have hlen := length_lastDigits width n
  have hne : lastDigits width n ≠ [] := by
    intro h
    rw [h] at hlen
    exact absurd hlen.symm (Nat.pos_iff_ne_zero.mp hpos)
  rw [readNumber_append (areDigits_lastDigits width n) hne width rest (Or.inl hlen),
    digitsValue_lastDigits_of_lt hn]

theorem readLongNumber_append {ds rest : List Char} (hd : AreDigits ds) (hne : ds ≠ [])
    (hr : NoDigitFront rest) : readLongNumber (ds ++ rest) = some (digitsValue ds, rest) := by
  rw [readLongNumber, takeWhile_digits_append hd hr, dropWhile_digits_append hd hr]
  cases ds with
  | nil => exact absurd rfl hne
  | cons d ds => rfl

/-! ## Dates -/

theorem areDigits_atLeastFour (n : Nat) : AreDigits (atLeastFour n) := by
  unfold atLeastFour
  split
  · exact areDigits_lastDigits 4 n
  · exact areDigits_toDigits n

theorem atLeastFour_ne_nil (n : Nat) : atLeastFour n ≠ [] := by
  unfold atLeastFour
  split
  · intro h
    have hlen := length_lastDigits 4 n
    rw [h] at hlen
    cases hlen
  · exact Nat.toDigits_ne_nil

theorem digitsValue_atLeastFour (n : Nat) : digitsValue (atLeastFour n) = n := by
  unfold atLeastFour
  split
  · rename_i h
    exact digitsValue_lastDigits_of_lt h
  · exact digitsValue_toDigits n

theorem readYear_write (year : Int) (rest : List Char) (hr : NoDigitFront rest) :
    readYear (writeYear year ++ rest) = some (year, rest) := by
  have hlong := readLongNumber_append (areDigits_atLeastFour year.natAbs)
    (atLeastFour_ne_nil year.natAbs) hr
  rw [digitsValue_atLeastFour] at hlong
  unfold writeYear
  by_cases hy : 0 ≤ year ∧ year ≤ 9999
  · rw [if_pos hy]
    have hlt : year.toNat < 10 ^ (4 : Nat) := by omega
    have hnum := readNumber_lastDigits (by decide) hlt rest
    have hdig : AreDigits (lastDigits 4 year.toNat) := areDigits_lastDigits 4 year.toNat
    have hval : ((year.toNat : Nat) : Int) = year := by omega
    cases hds : lastDigits 4 year.toNat with
    | nil =>
      have hlen := length_lastDigits 4 year.toNat
      rw [hds] at hlen
      cases hlen
    | cons d ds =>
      rw [hds] at hnum hdig
      have hd := hdig d List.mem_cons_self
      rw [readYear, List.cons_append, dropBlanks_of_front (isBlank_of_isDigit hd)]
      have hminus : d ≠ '-' := by
        intro h
        rw [h] at hd
        cases hd
      have hplus : d ≠ '+' := by
        intro h
        rw [h] at hd
        cases hd
      split
      · rename_i h
        exact absurd (List.cons.inj h).1 hminus
      · rename_i h
        exact absurd (List.cons.inj h).1 hplus
      · rw [← List.cons_append, hnum, Option.map_some]
        simp only [hval]
  · rw [if_neg hy]
    by_cases hneg : year < 0
    · rw [if_pos hneg, List.cons_append, readYear, dropBlanks_of_front (by decide)]
      simp only [hlong, Option.map_some]
      congr 2
      omega
    · rw [if_neg hneg, List.cons_append, readYear, dropBlanks_of_front (by decide)]
      simp only [hlong, Option.map_some]
      congr 2
      omega

theorem Date.month_day_lt (d : Date) : d.month < 10 ^ (2 : Nat) ∧ d.day < 10 ^ (2 : Nat) := by
  have h := d.valid
  rw [isDate, decide_eq_true_eq] at h
  have hday := daysInMonth_le d.year d.month
  omega

theorem Date.ofParts?_self (d : Date) : Date.ofParts? d.year d.month d.day = some d := by
  rw [Date.ofParts?, dif_pos d.valid]

theorem readDate_write (d : Date) (rest : List Char) :
    readDate (d.write ++ rest) = some (d, rest) := by
  obtain ⟨hmonth, hday⟩ := d.month_day_lt
  rw [Date.write, List.append_assoc, List.append_assoc, List.cons_append, List.cons_append]
  simp only [readDate, Option.bind_eq_bind, Option.pure_def]
  rw [readYear_write _ _ (NoDigitFront.cons (by decide) _), Option.bind_some,
    readMark_cons (by decide), Option.bind_some, readNumber_lastDigits (by decide) hmonth,
    Option.bind_some, readMark_cons (by decide), Option.bind_some,
    readNumber_lastDigits (by decide) hday, Option.bind_some, Date.ofParts?_self, Option.bind_some]

/-! ## Times of day -/

namespace Instant

/-- A text of a fraction that stands for some nanoseconds. -/
def IsFraction (cs : List Char) (nano : Nat) : Prop :=
  ∀ rest, NoDigitFront rest → rest.head? ≠ some '.' → readFraction (cs ++ rest) = some (nano, rest)

theorem isFraction_nil : IsFraction [] 0 := by
  intro rest _ hdot
  rw [List.nil_append]
  unfold readFraction
  split
  · exact absurd rfl hdot
  · rfl

theorem isFraction_digits {width n : Nat} (hpos : 0 < width) (hw : width ≤ 9)
    (hn : n < 10 ^ width) : IsFraction ('.' :: lastDigits width n) (n * 10 ^ (9 - width)) := by
  intro rest hr _
  have hlen := length_lastDigits width n
  have htake := takeWhile_digits_append (areDigits_lastDigits width n) hr
  have hdrop := dropWhile_digits_append (areDigits_lastDigits width n) hr
  rw [List.cons_append, readFraction]
  simp only [htake, hdrop]
  rw [if_neg (by rw [List.isEmpty_iff_length_eq_zero, hlen]; omega), nanosOf,
    List.take_of_length_le (by omega), digitsValue_lastDigits_of_lt hn, hlen]

theorem shownNano_lt (t : Instant) : t.shownNano < 1000000000 := Nat.mod_lt _ (by decide)

theorem isFraction_full (t : Instant) : IsFraction t.fullFraction t.shownNano := by
  have h := @isFraction_digits 9 _ (by decide) (by decide) t.shownNano_lt
  rw [Nat.sub_self, Nat.pow_zero, Nat.mul_one] at h
  exact h

theorem isFraction_brief (t : Instant) : IsFraction t.briefFraction t.shownNano := by
  have hlt := t.shownNano_lt
  unfold briefFraction
  simp only
  split
  · rename_i h
    rw [h]
    exact isFraction_nil
  · split
    · rename_i h
      have hf := @isFraction_digits 3 (t.shownNano / 1000000) (by decide) (by decide)
        (by omega)
      rwa [show t.shownNano / 1000000 * 10 ^ (9 - 3) = t.shownNano by omega] at hf
    · split
      · rename_i h
        have hf := @isFraction_digits 6 (t.shownNano / 1000) (by decide) (by decide)
          (by omega)
        rwa [show t.shownNano / 1000 * 10 ^ (9 - 6) = t.shownNano by omega] at hf
      · exact t.isFraction_full

theorem bounds (t : Instant) : t.second < 86400 ∧ t.nano < 2000000000 ∧
    (1000000000 ≤ t.nano → t.second % 60 = 59) := by
  have h := t.valid
  rwa [isTimeOfDay, decide_eq_true_eq] at h

theorem readClock_write (t : Instant) {fraction : List Char}
    (hf : IsFraction fraction t.shownNano) (rest : List Char) (hr : NoDigitFront rest)
    (hdot : rest.head? ≠ some '.') :
    readClock (t.writeClock ++ fraction ++ rest) = some ((t.second, t.nano), rest) := by
  obtain ⟨hsecond, hnano, hleap⟩ := t.bounds
  have hhour : t.hour < 10 ^ (2 : Nat) := by rw [hour]; omega
  have hminute : t.minute < 10 ^ (2 : Nat) := by rw [minute]; omega
  have hshown : t.shownSecond < 10 ^ (2 : Nat) := by rw [shownSecond]; omega
  rw [writeClock, List.append_assoc, List.append_assoc, List.append_assoc, List.cons_append,
    List.cons_append]
  simp only [readClock, Option.bind_eq_bind, Option.pure_def]
  rw [readNumber_lastDigits (by decide) hhour, Option.bind_some, readMark_cons (by decide),
    Option.bind_some, readNumber_lastDigits (by decide) hminute, Option.bind_some,
    readMark_cons (by decide), Option.bind_some, readNumber_lastDigits (by decide) hshown,
    Option.bind_some, hf rest hr hdot, Option.bind_some]
  have hguard : ¬(23 < t.hour ∨ 59 < t.minute ∨ 60 < t.shownSecond) := by
    rw [hour, minute, shownSecond]
    omega
  simp only [if_neg hguard]
  by_cases hsixty : t.shownSecond = 60
  · rw [if_pos hsixty]
    rw [shownSecond] at hsixty
    have hsec : t.hour * 3600 + t.minute * 60 + 59 = t.second := by rw [hour, minute]; omega
    have hns : t.shownNano + 1000000000 = t.nano := by rw [shownNano]; omega
    rw [hsec, hns]
  · rw [if_neg hsixty]
    rw [shownSecond] at hsixty
    have hsec : t.hour * 3600 + t.minute * 60 + t.shownSecond = t.second := by
      rw [hour, minute, shownSecond]
      omega
    have hns : t.shownNano = t.nano := by rw [shownNano]; omega
    rw [hsec, hns]

/-! ## Whole texts -/

theorem ofParts?_self (t : Instant) : Instant.ofParts? t.date t.second t.nano = some t := by
  rw [Instant.ofParts?, dif_pos t.valid]

theorem ofLocal?_zero (t : Instant) : Instant.ofLocal? t.date t.second t.nano 0 = some t := by
  obtain ⟨hsecond, -, -⟩ := t.bounds
  simp only [Instant.ofLocal?]
  rw [if_neg (by decide), if_neg (by omega), if_neg (by omega)]
  have hn : ((t.second : Int) - 0 * 60).toNat = t.second := by omega
  rw [hn, ofParts?_self]

theorem ofChars?_of_fraction (t : Instant) {fraction : List Char}
    (hf : IsFraction fraction t.shownNano) :
    Instant.ofChars? (t.date.write ++ 'T' :: t.writeClock ++ fraction ++ ['Z']) = some t := by
  have hclock := t.readClock_write hf ['Z'] (NoDigitFront.cons (by decide) _) (by decide)
  have hoffset : readOffset (dropBlanks ['Z']) = some (0, []) := by decide
  rw [List.append_assoc, List.append_assoc, List.cons_append, ← List.append_assoc (t.writeClock)]
  simp only [Instant.ofChars?, Option.bind_eq_bind]
  rw [readDate_write, Option.bind_some]
  simp only [true_or, if_true]
  rw [hclock, Option.bind_some, hoffset, Option.bind_some]
  exact t.ofLocal?_zero

theorem ofChars?_write (t : Instant) : Instant.ofChars? t.write = some t :=
  t.ofChars?_of_fraction t.isFraction_brief

/-- The text that records hold is read as the instant. -/
theorem read?_text (t : Instant) : Instant.read? t.text = some t := by
  rw [Instant.read?, text, String.toList_ofList, ofChars?_write]

theorem text_injective {t u : Instant} (h : t.text = u.text) : t = u := by
  have ht := t.read?_text
  rw [h, u.read?_text] at ht
  exact (Option.some.inj ht).symm

end Instant

theorem Json.asInstant_text (t : Instant) : Json.asInstant (.string t.text) = .ok t := by
  rw [Json.asInstant, t.read?_text]

end AuditTrail
