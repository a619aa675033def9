import AuditTrail.Proofs.Json.Value
/-! # Different values have different texts

A value ends where its text ends: where two texts go on that begin with sound values, the values and
what follows can be told (`isTold_of_isSound`). The first character tells what kind of value begins,
and a number ends where the text does not go on like one. How numbers are read does not matter. -/

namespace AuditTrail.Json
set_option autoImplicit false

/-! ## The first character -/

/-- A character for each kind of value. -/
def opening : Json → Char
  | .null => 'n'
  | .bool _ => 'b'
  | .number _ => '0'
  | .string _ => '"'
  | .array _ => '['
  | .object _ => '{'
  | .flawed _ => ' '

/-- The character for the kind of value that begins like this. -/
def openingOf (c : Char) : Char :=
  if c = '-' ∨ Decimal.isDigit c = true then '0'
  else if c = 't' ∨ c = 'f' then 'b'
  else c

theorem write_opening {j : Json} (h : j.isSound = true) :
    ∃ c cs, j.write = c :: cs ∧ openingOf c = j.opening := by
  cases j with
  | null => exact ⟨_, _, rfl, rfl⟩
  | bool b => cases b <;> exact ⟨_, _, rfl, rfl⟩
  | number n =>
    obtain ⟨c, cs, hcs, hc⟩ := writeNumber_front h
    exact ⟨c, cs, by rw [write, hcs], if_pos hc⟩
  | string s => exact ⟨_, _, rfl, rfl⟩
  | array items => exact ⟨_, _, rfl, rfl⟩
  | object members => exact ⟨_, _, rfl, rfl⟩
  | flawed flaw => cases h

theorem opening_eq {i j : Json} (hi : i.isSound = true) (hj : j.isSound = true)
    {rest rest' : List Char} (h : i.write ++ rest = j.write ++ rest') : i.opening = j.opening := by
  obtain ⟨c, cs, hcs, hc⟩ := write_opening hi
  obtain ⟨c', cs', hcs', hc'⟩ := write_opening hj
  rw [hcs, hcs'] at h
  rw [← hc, ← hc', (List.cons.inj h).1]

theorem write_ne_close {j : Json} (h : j.isSound = true) (cs rest : List Char) :
    j.write ++ cs ≠ ']' :: rest := by
  obtain ⟨c, ds, hds, hc⟩ := write_front j h
  rw [hds]
  exact fun heq => hc.not_close.1 (List.cons.inj heq).1

theorem writeString_append_inj {s t : String} {rest rest' : List Char}
    (h : writeString s ++ rest = writeString t ++ rest') : s = t ∧ rest = rest' := by
  rw [writeString_append, writeString_append, List.cons.injEq] at h
  have hscan := scanString_write s.toList rest
  rw [h.2, scanString_write] at hscan
  obtain ⟨hchars, -, hrest⟩ := Scan.mk.inj (Option.some.inj hscan)
  exact ⟨(String.toList_inj.mp hchars).symm, hrest.symm⟩

/-! ## Whole values -/

/-- The value can be told from every other one, whatever follows. -/
def IsTold (i : Json) : Prop :=
  ∀ (j : Json) (rest rest' : List Char), j.isSound = true → NumberEnd rest → NumberEnd rest' →
    i.write ++ rest = j.write ++ rest' → i = j ∧ rest = rest'

variable {rest rest' : List Char}

theorem writeMoreItems_append_inj {items items' : List Json} (htold : ∀ i ∈ items, IsTold i)
    (hsound : ∀ j ∈ items', j.isSound = true)
    (h : writeMoreItems items ++ rest = writeMoreItems items' ++ rest') :
    items = items' ∧ rest = rest' := by
  induction items generalizing items' with
  | nil =>
    cases items' with
    | nil => exact ⟨rfl, (List.cons.inj h).2⟩
    | cons j items' => exact absurd (List.cons.inj h).1 (by decide)
  | cons i items ih =>
    cases items' with
    | nil => exact absurd (List.cons.inj h).1 (by decide)
    | cons j items' =>
      simp only [writeMoreItems, List.cons_append, List.append_assoc, List.cons.injEq, true_and] at h
      obtain ⟨rfl, hmore⟩ := htold i List.mem_cons_self j _ _ (hsound j List.mem_cons_self)
        (numberEnd_moreItems items rest) (numberEnd_moreItems items' rest') h
      obtain ⟨rfl, hrest⟩ := ih (fun k hk => htold k (List.mem_cons_of_mem _ hk))
        (fun k hk => hsound k (List.mem_cons_of_mem _ hk)) hmore
      exact ⟨rfl, hrest⟩

theorem writeItems_append_inj {items items' : List Json} (htold : ∀ i ∈ items, IsTold i)
    (hsound : ∀ i ∈ items, i.isSound = true) (hsound' : ∀ j ∈ items', j.isSound = true)
    (h : writeItems items ++ rest = writeItems items' ++ rest') : items = items' ∧ rest = rest' := by
  cases items with
  | nil =>
    cases items' with
    | nil => exact ⟨rfl, (List.cons.inj h).2⟩
    | cons j items' =>
      rw [writeItems, writeItems, List.append_assoc] at h
      exact absurd h.symm (write_ne_close (hsound' j List.mem_cons_self) _ _)
  | cons i items =>
    cases items' with
    | nil =>
      rw [writeItems, writeItems, List.append_assoc] at h
      exact absurd h (write_ne_close (hsound i List.mem_cons_self) _ _)
    | cons j items' =>
      rw [writeItems, writeItems, List.append_assoc, List.append_assoc] at h
      obtain ⟨rfl, hmore⟩ := htold i List.mem_cons_self j _ _ (hsound' j List.mem_cons_self)
        (numberEnd_moreItems items rest) (numberEnd_moreItems items' rest') h
      obtain ⟨rfl, hrest⟩ := writeMoreItems_append_inj
        (fun k hk => htold k (List.mem_cons_of_mem _ hk))
        (fun k hk => hsound' k (List.mem_cons_of_mem _ hk)) hmore
      exact ⟨rfl, hrest⟩

theorem writeMember_append_inj {m m' : String × Json} (htold : IsTold m.2)
    (hsound : m'.2.isSound = true) (hr : NumberEnd rest) (hr' : NumberEnd rest')
    (h : writeString m.1 ++ ':' :: (m.2.write ++ rest) =
      writeString m'.1 ++ ':' :: (m'.2.write ++ rest')) : m = m' ∧ rest = rest' := by
  obtain ⟨hkey, hvalue⟩ := writeString_append_inj h
  obtain ⟨hsame, hrest⟩ := htold m'.2 rest rest' hsound hr hr' (List.cons.inj hvalue).2
  exact ⟨Prod.ext hkey hsame, hrest⟩

theorem writeMoreMembers_append_inj {members members' : List (String × Json)}
    (htold : ∀ m ∈ members, IsTold m.2) (hsound : ∀ m ∈ members', m.2.isSound = true)
    (h : writeMoreMembers members ++ rest = writeMoreMembers members' ++ rest') :
    members = members' ∧ rest = rest' := by
  induction members generalizing members' with
  | nil =>
    cases members' with
    | nil => exact ⟨rfl, (List.cons.inj h).2⟩
    | cons m members' => exact absurd (List.cons.inj h).1 (by decide)
  | cons m members ih =>
    cases members' with
    | nil => exact absurd (List.cons.inj h).1 (by decide)
    | cons m' members' =>
      simp only [writeMoreMembers, List.cons_append, List.append_assoc, List.cons.injEq, true_and] at h
      obtain ⟨rfl, hmore⟩ := writeMember_append_inj (htold m List.mem_cons_self)
        (hsound m' List.mem_cons_self) (numberEnd_moreMembers members rest)
        (numberEnd_moreMembers members' rest') h
      obtain ⟨rfl, hrest⟩ := ih (fun n hn => htold n (List.mem_cons_of_mem _ hn))
        (fun n hn => hsound n (List.mem_cons_of_mem _ hn)) hmore
      exact ⟨rfl, hrest⟩

theorem writeMembers_append_inj {members members' : List (String × Json)}
    (htold : ∀ m ∈ members, IsTold m.2) (hsound : ∀ m ∈ members', m.2.isSound = true)
    (h : writeMembers members ++ rest = writeMembers members' ++ rest') :
    members = members' ∧ rest = rest' := by
  cases members with
  | nil =>
    cases members' with
    | nil => exact ⟨rfl, (List.cons.inj h).2⟩
    | cons m members' => exact absurd (List.cons.inj h).1 (by decide)
  | cons m members =>
    cases members' with
    | nil => exact absurd (List.cons.inj h).1 (by decide)
    | cons m' members' =>
      simp only [writeMembers, List.cons_append, List.append_assoc] at h
      obtain ⟨rfl, hmore⟩ := writeMember_append_inj (htold m List.mem_cons_self)
        (hsound m' List.mem_cons_self) (numberEnd_moreMembers members rest)
        (numberEnd_moreMembers members' rest') h
      obtain ⟨rfl, hrest⟩ := writeMoreMembers_append_inj
        (fun n hn => htold n (List.mem_cons_of_mem _ hn))
        (fun n hn => hsound n (List.mem_cons_of_mem _ hn)) hmore
      exact ⟨rfl, hrest⟩

/-- **Every sound value can be told from every other one by its text.** -/
theorem isTold_of_isSound (i : Json) (hi : i.isSound = true) : IsTold i := by
  induction i using tree_induction with
  | null =>
    intro j rest rest' hj _ _ h
    have hopening := opening_eq hi hj h
    cases j with
    | null => exact ⟨rfl, List.append_cancel_left h⟩
    | _ => exact absurd hopening (by simp [opening])
  | bool b =>
    intro j rest rest' hj _ _ h
    have hopening := opening_eq hi hj h
    cases j with
    | bool b' =>
      -- Two of these texts agree in their first characters only where they are the same.
      obtain rfl : b = b' := by cases b <;> cases b' <;> simp [write] at h ⊢
      exact ⟨rfl, List.append_cancel_left h⟩
    | _ => exact absurd hopening (by simp [opening])
  | number n =>
    intro j rest rest' hj hr hr' h
    have hopening := opening_eq hi hj h
    cases j with
    | number m =>
      obtain ⟨rfl, hrest⟩ := writeNumber_append_inj hi hj hr hr' h
      exact ⟨rfl, hrest⟩
    | _ => exact absurd hopening (by simp [opening])
  | string s =>
    intro j rest rest' hj _ _ h
    have hopening := opening_eq hi hj h
    cases j with
    | string t =>
      obtain ⟨rfl, hrest⟩ := writeString_append_inj h
      exact ⟨rfl, hrest⟩
    | _ => exact absurd hopening (by simp [opening])
  | array items ih =>
    intro j rest rest' hj _ _ h
    have hopening := opening_eq hi hj h
    cases j with
    | array items' =>
      rw [isSound, areSound_iff] at hi hj
      obtain ⟨rfl, hrest⟩ := writeItems_append_inj (fun k hk => ih k hk (hi k hk)) hi hj
        (List.cons.inj h).2
      exact ⟨rfl, hrest⟩
    | _ => exact absurd hopening (by simp [opening])
  | object members ih =>
    intro j rest rest' hj _ _ h
    have hopening := opening_eq hi hj h
    cases j with
    | object members' =>
      rw [isSound, haveSound_iff] at hi hj
      obtain ⟨rfl, hrest⟩ := writeMembers_append_inj (fun m hm => ih m hm (hi m hm)) hj
        (List.cons.inj h).2
      exact ⟨rfl, hrest⟩
    | _ => exact absurd hopening (by simp [opening])
  | flawed flaw => cases hi

/-- Sound values with equal texts are equal, however deep they are. -/
theorem write_injective {i j : Json} (hi : i.isSound = true) (hj : j.isSound = true)
    (h : i.write = j.write) : i = j :=
  (isTold_of_isSound i hi j [] [] hj .nil .nil (by rw [h])).1

end AuditTrail.Json
