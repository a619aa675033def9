import AuditTrail.Proofs.Json.Depth
import AuditTrail.Proofs.Json.Number
import AuditTrail.Proofs.Json.String
/-! # Values read back

Reading step by step does not give back every double, so it is a property of some of them
(`ReadsBack`). The text of a sound value whose doubles have it is read as the value, cut off where the
reader has no level left, whatever follows that does not go on like a number, as long as the reader
has fuel enough (`isFound_of_isSound`). Three units of fuel for each character suffice, which is what
`read` has. -/

namespace AuditTrail.Json
set_option autoImplicit false

open Decimal (Binary64 isDigit)

/-! ## The front of a text -/

/-- The characters that a value may begin with when it is written. -/
def IsFront (c : Char) : Prop :=
  c = 'n' ∨ c = 't' ∨ c = 'f' ∨ c = '"' ∨ c = '[' ∨ c = '{' ∨ c = '-' ∨ isDigit c = true

theorem IsFront.not_space {c : Char} (h : IsFront c) : isSpace c = false := by
  rcases h with rfl | rfl | rfl | rfl | rfl | rfl | rfl | h
  case inr.inr.inr.inr.inr.inr.inr =>
    rw [Decimal.isDigit_iff] at h
    rw [Bool.eq_false_iff]
    intro hs
    simp only [isSpace, Bool.or_eq_true, beq_iff_eq] at hs
    rcases hs with ((rfl | rfl) | rfl) | rfl
    all_goals exact absurd h (by decide)
  all_goals decide

theorem IsFront.not_close {c : Char} (h : IsFront c) : c ≠ ']' ∧ c ≠ '}' := by
  rcases h with rfl | rfl | rfl | rfl | rfl | rfl | rfl | h
  case inr.inr.inr.inr.inr.inr.inr =>
    constructor
    · rintro rfl
      cases h
    · rintro rfl
      cases h
  all_goals decide

theorem write_front (j : Json) (h : j.isSound = true) :
    ∃ c cs, j.write = c :: cs ∧ IsFront c := by
  cases j with
  | null => exact ⟨_, _, rfl, by simp [IsFront]⟩
  | bool b => cases b <;> exact ⟨_, _, rfl, by simp [IsFront]⟩
  | number n =>
    obtain ⟨c, cs, hcs, hc⟩ := writeNumber_front h
    refine ⟨c, cs, by rw [write, hcs], ?_⟩
    rcases hc with hc | hc <;> simp [IsFront, hc]
  | string s => exact ⟨_, _, rfl, by simp [IsFront]⟩
  | array items => exact ⟨_, _, rfl, by simp [IsFront]⟩
  | object members => exact ⟨_, _, rfl, by simp [IsFront]⟩
  | flawed flaw => cases h

theorem skipSpace_cons {c : Char} (h : isSpace c = false) (cs : List Char) :
    skipSpace (c :: cs) = c :: cs := by
  rw [skipSpace, List.dropWhile_cons_of_neg (by rw [h]; decide)]

theorem length_write_pos {j : Json} (h : j.isSound = true) : 0 < j.write.length := by
  obtain ⟨c, cs, hcs, -⟩ := write_front j h
  rw [hcs]
  exact Nat.succ_pos _

/-! ## One step of the reader -/

section Step
variable (fuel levels : Nat) (rest : List Char)

theorem readValue_string (s : String) :
    readValue (fuel + 1) levels (writeString s ++ rest) = (.string s, rest) := by
  rw [writeString_append, readValue, skipSpace_cons (by decide)]
  simp only [scanString_write, if_true, String.ofList_toList]

theorem readValue_null : readValue (fuel + 1) levels (write .null ++ rest) = (.null, rest) := by
  rw [write, readValue, List.cons_append, skipSpace_cons (by decide)]
  rfl

theorem readValue_bool (b : Bool) :
    readValue (fuel + 1) levels (write (.bool b) ++ rest) = (.bool b, rest) := by
  cases b with
  | false =>
    rw [write, readValue, List.cons_append, skipSpace_cons (by decide)]
    rfl
  | true =>
    rw [write, readValue, List.cons_append, skipSpace_cons (by decide)]
    rfl

theorem readValue_array (cs : List Char) :
    readValue (fuel + 1) levels ('[' :: cs) =
      (if levels = 0 then tooDeep (.array (readItems fuel (levels - 1) cs).1)
        else .array (readItems fuel (levels - 1) cs).1, (readItems fuel (levels - 1) cs).2) := by
  rw [readValue, skipSpace_cons (by decide)]
  rfl

theorem readValue_object (cs : List Char) :
    readValue (fuel + 1) levels ('{' :: cs) =
      (if levels = 0 then tooDeep (.object (readMembers fuel (levels - 1) cs).1)
        else .object (readMembers fuel (levels - 1) cs).1,
       (readMembers fuel (levels - 1) cs).2) := by
  rw [readValue, skipSpace_cons (by decide)]
  rfl

theorem readValue_scan {c : Char} (hc : c = '-' ∨ isDigit c = true) (cs : List Char) :
    readValue (fuel + 1) levels (c :: cs) = (scanNumber (c :: cs)).getD broken := by
  have hfront : IsFront c := by rcases hc with hc | hc <;> simp [IsFront, hc]
  have hother : ∀ d, d = '"' ∨ d = '[' ∨ d = '{' ∨ d = 'n' ∨ d = 't' ∨ d = 'f' → c ≠ d := by
    rintro d hd rfl
    rcases hd with rfl | rfl | rfl | rfl | rfl | rfl <;> exact absurd hc (by decide)
  rw [readValue, skipSpace_cons hfront.not_space]
  split
  all_goals rename_i heq
  case h_1 => cases heq
  case h_2 => exact absurd (List.cons.inj heq).1 (hother _ (by simp))
  case h_3 => exact absurd (List.cons.inj heq).1 (hother _ (by simp))
  case h_4 => exact absurd (List.cons.inj heq).1 (hother _ (by simp))
  case h_5 => exact absurd (List.cons.inj heq).1 (hother _ (by simp))
  case h_6 => exact absurd (List.cons.inj heq).1 (hother _ (by simp))
  case h_7 => exact absurd (List.cons.inj heq).1 (hother _ (by simp))
  case h_8 => rw [← heq]

theorem readItems_close : readItems (fuel + 1) levels (']' :: rest) = ([], rest) := by
  rw [readItems, skipSpace_cons (by decide)]
  rfl

theorem readMoreItems_close : readMoreItems (fuel + 1) levels (']' :: rest) = ([], rest) := by
  rw [readMoreItems, skipSpace_cons (by decide)]
  rfl

theorem readMembers_close : readMembers (fuel + 1) levels ('}' :: rest) = ([], rest) := by
  rw [readMembers, skipSpace_cons (by decide)]
  rfl

theorem readMoreMembers_close : readMoreMembers (fuel + 1) levels ('}' :: rest) = ([], rest) := by
  rw [readMoreMembers, skipSpace_cons (by decide)]
  rfl

theorem readItems_other {cs : List Char} (h : (skipSpace cs).head? ≠ some ']') :
    readItems (fuel + 1) levels cs =
      ((readValue fuel levels cs).1 :: (readMoreItems fuel levels (readValue fuel levels cs).2).1,
       (readMoreItems fuel levels (readValue fuel levels cs).2).2) := by
  rw [readItems]
  split
  · rename_i heq
    exact absurd (by rw [heq]; rfl) h
  · rfl

theorem readMembers_other {cs : List Char} (h : (skipSpace cs).head? ≠ some '}') :
    readMembers (fuel + 1) levels cs =
      ((readMember fuel levels cs).1 :: (readMoreMembers fuel levels (readMember fuel levels cs).2).1,
       (readMoreMembers fuel levels (readMember fuel levels cs).2).2) := by
  rw [readMembers]
  split
  · rename_i heq
    exact absurd (by rw [heq]; rfl) h
  · rfl

theorem readItems_front {c : Char} (hc : IsFront c) (cs : List Char) :
    readItems (fuel + 1) levels (c :: cs) =
      ((readValue fuel levels (c :: cs)).1 ::
        (readMoreItems fuel levels (readValue fuel levels (c :: cs)).2).1,
       (readMoreItems fuel levels (readValue fuel levels (c :: cs)).2).2) := by
  refine readItems_other fuel levels ?_
  rw [skipSpace_cons hc.not_space, List.head?_cons]
  exact fun heq => hc.not_close.1 (Option.some.inj heq)

theorem readMembers_front {c : Char} (hc : IsFront c) (cs : List Char) :
    readMembers (fuel + 1) levels (c :: cs) =
      ((readMember fuel levels (c :: cs)).1 ::
        (readMoreMembers fuel levels (readMember fuel levels (c :: cs)).2).1,
       (readMoreMembers fuel levels (readMember fuel levels (c :: cs)).2).2) := by
  refine readMembers_other fuel levels ?_
  rw [skipSpace_cons hc.not_space, List.head?_cons]
  exact fun heq => hc.not_close.2 (Option.some.inj heq)

theorem readMoreItems_comma (cs : List Char) :
    readMoreItems (fuel + 1) levels (',' :: cs) =
      ((readValue fuel levels cs).1 :: (readMoreItems fuel levels (readValue fuel levels cs).2).1,
       (readMoreItems fuel levels (readValue fuel levels cs).2).2) := by
  rw [readMoreItems, skipSpace_cons (by decide)]
  rfl

theorem readMoreMembers_comma (cs : List Char) :
    readMoreMembers (fuel + 1) levels (',' :: cs) =
      ((readMember fuel levels cs).1 :: (readMoreMembers fuel levels (readMember fuel levels cs).2).1,
       (readMoreMembers fuel levels (readMember fuel levels cs).2).2) := by
  rw [readMoreMembers, skipSpace_cons (by decide)]
  rfl

theorem readMember_key (key : String) (cs : List Char) :
    readMember (fuel + 1) levels (writeString key ++ ':' :: cs) =
      ((key, (readValue fuel levels cs).1), (readValue fuel levels cs).2) := by
  rw [writeString_append, readMember, skipSpace_cons (by decide)]
  simp only [scanString_write, skipSpace_cons (show isSpace ':' = false by decide), keyed, if_true,
    String.ofList_toList]

end Step

/-! ## Numbers -/

/-- The text of a double is read as the double. -/
def ReadsBack (x : Binary64) : Prop := read (render (.number (.double x))) = .number (.double x)

def isDouble (x : Binary64) : Json → Bool
  | .number (.double y) => decide (y = x)
  | _ => false

theorem isDouble_iff (x : Binary64) (j : Json) : j.isDouble x = true ↔ j = .number (.double x) := by
  unfold isDouble
  split
  · simp
  · rename_i h
    exact iff_of_false Bool.false_ne_true (h x)

instance (x : Binary64) : Decidable (ReadsBack x) := decidable_of_iff _ (isDouble_iff x _)

theorem readValue_number {n : Number} (hn : n.isNormal = true) {rest : List Char}
    (hr : NumberEnd rest) (fuel levels : Nat) :
    readValue (fuel + 1) levels (writeNumber n ++ rest) = (read (render (.number n)), rest) ∧
      ((∀ x, n ≠ .double x) → read (render (.number n)) = .number n) := by
  obtain ⟨j, hscan, hinteger⟩ := scanNumber_append hn
  obtain ⟨c, cs, hcs, hc⟩ := writeNumber_front hn
  have hvalue : ∀ fuel levels rest, NumberEnd rest →
      readValue (fuel + 1) levels (writeNumber n ++ rest) = (j, rest) := by
    intro fuel levels rest hr
    have hscan := hscan rest hr
    rw [hcs, List.cons_append] at hscan ⊢
    rw [readValue_scan _ _ hc, hscan]
    rfl
  have hread : read (render (.number n)) = j := by
    have hfront := hvalue (3 * (writeNumber n).length + 2) maxLevels [] .nil
    rw [List.append_nil] at hfront
    rw [read, render, String.toList_ofList, write, readFront, hfront]
    rfl
  rw [hread]
  exact ⟨hvalue fuel levels rest hr, hinteger⟩

theorem read_number {n : Number} (hn : n.isNormal = true)
    (hdoubles : ∀ x ∈ (Json.number n).doubles, ReadsBack x) :
    read (render (.number n)) = .number n := by
  cases n with
  | double x => exact hdoubles x (List.mem_singleton_self x)
  | natural n => exact (readValue_number hn .nil 0 0).2 fun _ => Number.noConfusion
  | negative n => exact (readValue_number hn .nil 0 0).2 fun _ => Number.noConfusion

example : ReadsBack (.ofFloat 0.1) ∧ ¬ ReadsBack (.ofFloat 0.9452706955539223) := by
  decide +kernel

/-! ## Whole values -/

/-- The reader finds the value in its text, as far as it has levels. -/
def IsFound (j : Json) : Prop :=
  ∀ (fuel levels : Nat) (rest : List Char), 3 * j.write.length ≤ fuel → NumberEnd rest →
    readValue fuel levels (j.write ++ rest) = (clip levels j, rest)

theorem numberEnd_moreItems (items : List Json) (rest : List Char) :
    NumberEnd (writeMoreItems items ++ rest) := by
  cases items with
  | nil => exact NumberEnd.cons (by decide) _
  | cons j items => exact NumberEnd.cons (by decide) _

theorem numberEnd_moreMembers (members : List (String × Json)) (rest : List Char) :
    NumberEnd (writeMoreMembers members ++ rest) := by
  cases members with
  | nil => exact NumberEnd.cons (by decide) _
  | cons m members => exact NumberEnd.cons (by decide) _

theorem length_moreItems_pos (items : List Json) : 0 < (writeMoreItems items).length := by
  cases items <;> exact Nat.succ_pos _

theorem length_moreMembers_pos (members : List (String × Json)) :
    0 < (writeMoreMembers members).length := by
  cases members <;> exact Nat.succ_pos _

theorem readMoreItems_write {items : List Json} (hback : ∀ j ∈ items, IsFound j)
    (fuel levels : Nat) (rest : List Char) (hf : 3 * (writeMoreItems items).length ≤ fuel) :
    readMoreItems fuel levels (writeMoreItems items ++ rest) = (clipItems levels items, rest) := by
  induction items generalizing fuel with
  | nil =>
    obtain ⟨fuel, rfl⟩ := Nat.exists_eq_succ_of_ne_zero (show fuel ≠ 0 by
      have hpos := length_moreItems_pos []
      omega)
    exact readMoreItems_close fuel levels rest
  | cons j items ih =>
    simp only [writeMoreItems, List.cons_append, List.length_cons, List.length_append] at hf ⊢
    obtain ⟨fuel, rfl⟩ := Nat.exists_eq_succ_of_ne_zero (show fuel ≠ 0 by omega)
    have hvalue := hback j List.mem_cons_self fuel levels (writeMoreItems items ++ rest) (by omega)
      (numberEnd_moreItems items rest)
    have hmore := ih (fun i hi => hback i (List.mem_cons_of_mem _ hi)) fuel (by omega)
    rw [Nat.succ_eq_add_one, readMoreItems_comma, List.append_assoc, hvalue, hmore, clipItems]

theorem readItems_write {items : List Json} (hsound : ∀ j ∈ items, j.isSound = true)
    (hback : ∀ j ∈ items, IsFound j) (fuel levels : Nat) (rest : List Char)
    (hf : 3 * (writeItems items).length ≤ fuel) :
    readItems fuel levels (writeItems items ++ rest) = (clipItems levels items, rest) := by
  cases items with
  | nil =>
    obtain ⟨fuel, rfl⟩ := Nat.exists_eq_succ_of_ne_zero (show fuel ≠ 0 by
      simp only [writeItems, List.length_singleton] at hf
      omega)
    exact readItems_close fuel levels rest
  | cons j items =>
    have hpos := length_moreItems_pos items
    simp only [writeItems, List.length_append] at hf
    obtain ⟨fuel, rfl⟩ := Nat.exists_eq_succ_of_ne_zero (show fuel ≠ 0 by omega)
    have hvalue := hback j List.mem_cons_self fuel levels (writeMoreItems items ++ rest) (by omega)
      (numberEnd_moreItems items rest)
    have hwrite := length_write_pos (hsound j List.mem_cons_self)
    have hmore := readMoreItems_write (fun i hi => hback i (List.mem_cons_of_mem _ hi)) fuel levels
      rest (by omega)
    obtain ⟨c, cs, hcs, hc⟩ := write_front j (hsound j List.mem_cons_self)
    rw [hcs, List.cons_append] at hvalue
    rw [writeItems, List.append_assoc, hcs, List.cons_append, Nat.succ_eq_add_one,
      readItems_front _ _ hc, hvalue, hmore, clipItems]

theorem readMember_write {m : String × Json} (hback : IsFound m.2) (fuel levels : Nat)
    (rest : List Char) (hf : 3 * m.2.write.length < fuel) (hr : NumberEnd rest) :
    readMember fuel levels (writeString m.1 ++ ':' :: (m.2.write ++ rest)) =
      ((m.1, clip levels m.2), rest) := by
  obtain ⟨fuel, rfl⟩ := Nat.exists_eq_succ_of_ne_zero (show fuel ≠ 0 by omega)
  rw [Nat.succ_eq_add_one, readMember_key, hback fuel levels rest (by omega) hr]

theorem length_writeString_pos (s : String) : 0 < (writeString s).length := Nat.succ_pos _

theorem readMoreMembers_write {members : List (String × Json)}
    (hback : ∀ m ∈ members, IsFound m.2) (fuel levels : Nat) (rest : List Char)
    (hf : 3 * (writeMoreMembers members).length ≤ fuel) :
    readMoreMembers fuel levels (writeMoreMembers members ++ rest) =
      (clipMembers levels members, rest) := by
  induction members generalizing fuel with
  | nil =>
    obtain ⟨fuel, rfl⟩ := Nat.exists_eq_succ_of_ne_zero (show fuel ≠ 0 by
      have hpos := length_moreMembers_pos []
      omega)
    exact readMoreMembers_close fuel levels rest
  | cons m members ih =>
    have hkey := length_writeString_pos m.1
    simp only [writeMoreMembers, List.cons_append, List.append_assoc, List.length_cons,
      List.length_append] at hf ⊢
    obtain ⟨fuel, rfl⟩ := Nat.exists_eq_succ_of_ne_zero (show fuel ≠ 0 by omega)
    have hmember := readMember_write (hback m List.mem_cons_self) fuel levels
      (writeMoreMembers members ++ rest) (by omega) (numberEnd_moreMembers members rest)
    have hmore := ih (fun i hi => hback i (List.mem_cons_of_mem _ hi)) fuel (by omega)
    rw [Nat.succ_eq_add_one, readMoreMembers_comma, hmember, hmore, clipMembers]

theorem readMembers_write {members : List (String × Json)} (hback : ∀ m ∈ members, IsFound m.2)
    (fuel levels : Nat) (rest : List Char) (hf : 3 * (writeMembers members).length ≤ fuel) :
    readMembers fuel levels (writeMembers members ++ rest) = (clipMembers levels members, rest) := by
  cases members with
  | nil =>
    obtain ⟨fuel, rfl⟩ := Nat.exists_eq_succ_of_ne_zero (show fuel ≠ 0 by
      simp only [writeMembers, List.length_singleton] at hf
      omega)
    exact readMembers_close fuel levels rest
  | cons m members =>
    have hkey := length_writeString_pos m.1
    have hpos := length_moreMembers_pos members
    simp only [writeMembers, List.cons_append, List.append_assoc, List.length_cons,
      List.length_append] at hf ⊢
    obtain ⟨fuel, rfl⟩ := Nat.exists_eq_succ_of_ne_zero (show fuel ≠ 0 by omega)
    have hmember := readMember_write (hback m List.mem_cons_self) fuel levels
      (writeMoreMembers members ++ rest) (by omega) (numberEnd_moreMembers members rest)
    have hmore := readMoreMembers_write (fun i hi => hback i (List.mem_cons_of_mem _ hi)) fuel levels
      rest (by omega)
    have hfront : IsFront '"' := by simp [IsFront]
    rw [writeString_append] at hmember ⊢
    rw [Nat.succ_eq_add_one, readMembers_front _ _ hfront, hmember, hmore, clipMembers]

/-- **Every sound value is found in its text** if its doubles are. -/
theorem isFound_of_isSound (j : Json) (h : j.isSound = true) (hdoubles : ∀ x ∈ j.doubles, ReadsBack x) :
    IsFound j := by
  induction j using tree_induction with
  | null =>
    intro fuel levels rest hf _
    obtain ⟨fuel, rfl⟩ := Nat.exists_eq_succ_of_ne_zero (show fuel ≠ 0 by
      simp only [write, List.length_cons] at hf
      omega)
    exact readValue_null fuel levels rest
  | bool b =>
    intro fuel levels rest hf _
    obtain ⟨fuel, rfl⟩ := Nat.exists_eq_succ_of_ne_zero (show fuel ≠ 0 by
      have hpos := length_write_pos h
      omega)
    exact readValue_bool fuel levels rest b
  | number n =>
    intro fuel levels rest hf hr
    have hpos := length_write_pos h
    obtain ⟨fuel, rfl⟩ := Nat.exists_eq_succ_of_ne_zero (show fuel ≠ 0 by omega)
    rw [write, Nat.succ_eq_add_one, (readValue_number h hr fuel levels).1, read_number h hdoubles]
    rfl
  | string s =>
    intro fuel levels rest hf _
    have hpos := length_write_pos h
    obtain ⟨fuel, rfl⟩ := Nat.exists_eq_succ_of_ne_zero (show fuel ≠ 0 by omega)
    exact readValue_string fuel levels rest s
  | array items ih =>
    intro fuel levels rest hf _
    have hskip := tooDeep_clipItems h
    rw [isSound, areSound_iff] at h
    have hfound : ∀ j ∈ items, IsFound j := fun j hj => ih j hj (h j hj)
      fun x hx => hdoubles x ((mem_doublesOfItems items x).mpr ⟨j, hj, hx⟩)
    simp only [write, List.length_cons] at hf
    obtain ⟨fuel, rfl⟩ := Nat.exists_eq_succ_of_ne_zero (show fuel ≠ 0 by omega)
    have hitems := readItems_write h hfound fuel (levels - 1) rest (by omega)
    rw [write, List.cons_append, Nat.succ_eq_add_one, readValue_array, hitems, hskip, clip]
  | object members ih =>
    intro fuel levels rest hf _
    have hskip := tooDeep_clipMembers h
    rw [isSound, haveSound_iff] at h
    have hfound : ∀ m ∈ members, IsFound m.2 := fun m hm => ih m hm (h m hm)
      fun x hx => hdoubles x ((mem_doublesOfMembers members x).mpr ⟨m, hm, hx⟩)
    simp only [write, List.length_cons] at hf
    obtain ⟨fuel, rfl⟩ := Nat.exists_eq_succ_of_ne_zero (show fuel ≠ 0 by omega)
    have hmembers := readMembers_write hfound fuel (levels - 1) rest (by omega)
    rw [write, List.cons_append, Nat.succ_eq_add_one, readValue_object, hmembers, hskip, clip]
  | flawed flaw => cases h

/-- A text of a sound value is read as the value, cut off at the levels of the reader. -/
theorem read_render_eq {j : Json} (h : j.isSound = true) (hdoubles : ∀ x ∈ j.doubles, ReadsBack x) :
    read j.render = clip maxLevels j := by
  have hfound := isFound_of_isSound j h hdoubles (3 * j.write.length + 3) maxLevels [] (by omega)
    NumberEnd.nil
  rw [List.append_nil] at hfound
  rw [read, render, String.toList_ofList, readFront, hfound]
  rfl

theorem read_render {j : Json} (h : j.isSound = true) (hdoubles : ∀ x ∈ j.doubles, ReadsBack x)
    (hl : j.levels ≤ maxLevels) : read j.render = j := by
  rw [read_render_eq h hdoubles, clip_of_levels_le j hl]

end AuditTrail.Json
