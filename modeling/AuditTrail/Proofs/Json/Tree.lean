import AuditTrail.Json.Basic
/-! # Trees

Induction over values goes through the items of arrays and the members of objects. What holds of a
value through all its depth holds of every item and of every member's value, and the doubles of a
value are those of all of them. -/

namespace AuditTrail.Json
set_option autoImplicit false

/-- What holds of a value when it holds of all items, or of all values of members, holds of every
value. -/
theorem tree_induction {motive : Json → Prop} (null : motive .null) (bool : ∀ b, motive (.bool b))
    (number : ∀ n, motive (.number n)) (string : ∀ s, motive (.string s))
    (array : ∀ items, (∀ j ∈ items, motive j) → motive (.array items))
    (object : ∀ members, (∀ m ∈ members, motive m.2) → motive (.object members))
    (flawed : ∀ flaw, motive (.flawed flaw)) (j : Json) : motive j := by
  refine @Json.rec motive (fun items => ∀ j ∈ items, motive j)
    (fun members => ∀ m ∈ members, motive m.2) (fun m => motive m.2)
    null bool number string array object flawed ?_ ?_ ?_ ?_ ?_ j
  · intro j hj
    cases hj
  · intro head tail hhead htail j hj
    rcases List.mem_cons.mp hj with h | h
    · rw [h]
      exact hhead
    · exact htail j h
  · intro m hm
    cases hm
  · intro head tail hhead htail m hm
    rcases List.mem_cons.mp hm with h | h
    · rw [h]
      exact hhead
    · exact htail m h
  · intro name j hj
    exact hj

/-! ## Items and members one by one -/

theorem areSound_iff (items : List Json) : areSound items = true ↔ ∀ j ∈ items, isSound j = true := by
  induction items with
  | nil => simp [areSound]
  | cons j rest ih => simp [areSound, ih]

theorem haveSound_iff (members : List (String × Json)) :
    haveSound members = true ↔ ∀ m ∈ members, isSound m.2 = true := by
  induction members with
  | nil => simp [haveSound]
  | cons m rest ih =>
    obtain ⟨k, j⟩ := m
    simp [haveSound, ih]

theorem areNormal_iff (items : List Json) :
    areNormal items = true ↔ ∀ j ∈ items, isNormal j = true := by
  induction items with
  | nil => simp [areNormal]
  | cons j rest ih => simp [areNormal, ih]

theorem haveNormal_iff (members : List (String × Json)) :
    haveNormal members = true ↔ ∀ m ∈ members, isNormal m.2 = true := by
  induction members with
  | nil => simp [haveNormal]
  | cons m rest ih =>
    obtain ⟨k, j⟩ := m
    simp [haveNormal, ih]

theorem levelsOfItems_le_iff (items : List Json) (n : Nat) :
    levelsOfItems items ≤ n ↔ ∀ j ∈ items, levels j ≤ n := by
  induction items with
  | nil => simp [levelsOfItems]
  | cons j rest ih => rw [levelsOfItems, Nat.max_le, ih, List.forall_mem_cons]

theorem levelsOfMembers_le_iff (members : List (String × Json)) (n : Nat) :
    levelsOfMembers members ≤ n ↔ ∀ m ∈ members, levels m.2 ≤ n := by
  induction members with
  | nil => simp [levelsOfMembers]
  | cons m rest ih =>
    obtain ⟨k, j⟩ := m
    rw [levelsOfMembers, Nat.max_le, ih, List.forall_mem_cons]

/-! ## Doubles -/

mutual

/-- The doubles at any depth of a value. -/
def doubles : Json → List Decimal.Binary64
  | .number (.double x) => [x]
  | .array items => doublesOfItems items
  | .object members => doublesOfMembers members
  | .null | .bool _ | .number _ | .string _ | .flawed _ => []

def doublesOfItems : List Json → List Decimal.Binary64
  | [] => []
  | j :: rest => doubles j ++ doublesOfItems rest

def doublesOfMembers : List (String × Json) → List Decimal.Binary64
  | [] => []
  | (_, j) :: rest => doubles j ++ doublesOfMembers rest

end

theorem mem_doublesOfItems (items : List Json) (x : Decimal.Binary64) :
    x ∈ doublesOfItems items ↔ ∃ j ∈ items, x ∈ j.doubles := by
  induction items with
  | nil => simp [doublesOfItems]
  | cons j rest ih => simp [doublesOfItems, ih]

theorem mem_doublesOfMembers (members : List (String × Json)) (x : Decimal.Binary64) :
    x ∈ doublesOfMembers members ↔ ∃ m ∈ members, x ∈ m.2.doubles := by
  induction members with
  | nil => simp [doublesOfMembers]
  | cons m rest ih =>
    obtain ⟨k, j⟩ := m
    simp [doublesOfMembers, ih]

/-! ## Sound and normal -/

theorem isSound_of_isNormal (j : Json) (h : j.isNormal = true) : j.isSound = true := by
  induction j using tree_induction with
  | null => rfl
  | bool b => rfl
  | number n => exact h
  | string s => rfl
  | array items ih =>
    rw [isSound, areSound_iff]
    rw [isNormal, areNormal_iff] at h
    intro j hj
    exact ih j hj (h j hj)
  | object members ih =>
    rw [isSound, haveSound_iff]
    rw [isNormal, Bool.and_eq_true, haveNormal_iff] at h
    intro m hm
    exact ih m hm (h.2 m hm)
  | flawed flaw => exact h

end AuditTrail.Json
