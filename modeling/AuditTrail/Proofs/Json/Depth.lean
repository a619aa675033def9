import AuditTrail.Json.Reader
import AuditTrail.Proofs.Json.Tree
/-! # Levels

A reader with some levels cannot hold what nests deeper: `clip` is what it holds of a value. A value
within the levels is held as it is, and one that is not is unusable. Whatever the text is, a reader
holds nothing deeper than its levels (`levels_read_le`). -/

namespace AuditTrail.Json
set_option autoImplicit false

/-! ## Values cut off -/

mutual

/-- The value with the arrays and objects for which no level is left made unusable. -/
def clip (levels : Nat) : Json → Json
  | .array items =>
    if levels = 0 then .flawed .unusable else .array (clipItems (levels - 1) items)
  | .object members =>
    if levels = 0 then .flawed .unusable else .object (clipMembers (levels - 1) members)
  | .null => .null
  | .bool b => .bool b
  | .number n => .number n
  | .string s => .string s
  | .flawed flaw => .flawed flaw

def clipItems (levels : Nat) : List Json → List Json
  | [] => []
  | j :: rest => clip levels j :: clipItems levels rest

def clipMembers (levels : Nat) : List (String × Json) → List (String × Json)
  | [] => []
  | (k, j) :: rest => (k, clip levels j) :: clipMembers levels rest

end

theorem clipItems_eq_map (levels : Nat) (items : List Json) :
    clipItems levels items = items.map (clip levels) := by
  induction items with
  | nil => rfl
  | cons j rest ih => rw [clipItems, ih, List.map_cons]

theorem clipMembers_eq_map (levels : Nat) (members : List (String × Json)) :
    clipMembers levels members = members.map fun m => (m.1, clip levels m.2) := by
  induction members with
  | nil => rfl
  | cons m rest ih =>
    obtain ⟨k, j⟩ := m
    rw [clipMembers, ih, List.map_cons]

theorem clip_of_levels_le (j : Json) {n : Nat} (h : j.levels ≤ n) : clip n j = j := by
  induction j using tree_induction generalizing n with
  | null => rfl
  | bool b => rfl
  | number m => rfl
  | string s => rfl
  | array items ih =>
    rw [levels] at h
    have hitems := (levelsOfItems_le_iff items (n - 1)).mp (by omega)
    have hmap : items.map (clip (n - 1)) = items.map id :=
      List.map_congr_left fun j hj => ih j hj (hitems j hj)
    rw [clip, if_neg (by omega), clipItems_eq_map, hmap, List.map_id]
  | object members ih =>
    rw [levels] at h
    have hmembers := (levelsOfMembers_le_iff members (n - 1)).mp (by omega)
    have hmap : (members.map fun m => (m.1, clip (n - 1) m.2)) = members.map id :=
      List.map_congr_left fun m hm => Prod.ext rfl (ih m hm (hmembers m hm))
    rw [clip, if_neg (by omega), clipMembers_eq_map, hmap, List.map_id]
  | flawed flaw => rfl

theorem areSkippable_iff (items : List Json) :
    areSkippable items = true ↔ ∀ j ∈ items, isSkippable j = true := by
  induction items with
  | nil => simp [areSkippable]
  | cons j rest ih => simp [areSkippable, ih]

theorem haveSkippable_iff (members : List (String × Json)) :
    haveSkippable members = true ↔ ∀ m ∈ members, isSkippable m.2 = true := by
  induction members with
  | nil => simp [haveSkippable]
  | cons m rest ih =>
    obtain ⟨k, j⟩ := m
    simp [haveSkippable, ih]

/-- What is cut off is still JSON. -/
theorem isSkippable_clip (j : Json) (h : j.isSound = true) (n : Nat) :
    (clip n j).isSkippable = true := by
  induction j using tree_induction generalizing n with
  | null => rfl
  | bool b => rfl
  | number m => rfl
  | string s => rfl
  | array items ih =>
    rw [isSound, areSound_iff] at h
    rw [clip]
    split
    · rfl
    · rw [isSkippable, areSkippable_iff, clipItems_eq_map, List.forall_mem_map]
      exact fun j hj => ih j hj (h j hj) _
  | object members ih =>
    rw [isSound, haveSound_iff] at h
    rw [clip]
    split
    · rfl
    · rw [isSkippable, haveSkippable_iff, clipMembers_eq_map, List.forall_mem_map]
      exact fun m hm => ih m hm (h m hm) _
  | flawed flaw => cases h

theorem tooDeep_clipItems {items : List Json} (h : (array items).isSound = true) (n : Nat) :
    tooDeep (.array (clipItems n items)) = .flawed .unusable := by
  have hskip := isSkippable_clip _ h (n + 1)
  rw [clip, if_neg (Nat.succ_ne_zero n), Nat.add_sub_cancel] at hskip
  rw [tooDeep, if_pos hskip]

theorem tooDeep_clipMembers {members : List (String × Json)} (h : (object members).isSound = true)
    (n : Nat) : tooDeep (.object (clipMembers n members)) = .flawed .unusable := by
  have hskip := isSkippable_clip _ h (n + 1)
  rw [clip, if_neg (Nat.succ_ne_zero n), Nat.add_sub_cancel] at hskip
  rw [tooDeep, if_pos hskip]

/-- A value that nests deeper than the levels is cut off somewhere. -/
theorem isSound_clip_of_deep (j : Json) {n : Nat} (hn : n < j.levels) :
    (clip n j).isSound = false := by
  induction j using tree_induction generalizing n with
  | null => cases hn
  | bool b => cases hn
  | number m => cases hn
  | string s => cases hn
  | array items ih =>
    rw [clip, Bool.eq_false_iff]
    split
    · exact Bool.false_ne_true
    · intro hsound
      rw [isSound, areSound_iff, clipItems_eq_map, List.forall_mem_map] at hsound
      have hitems : levelsOfItems items ≤ n - 1 := by
        rw [levelsOfItems_le_iff]
        intro j hj
        refine Nat.le_of_not_lt fun hlt => ?_
        exact absurd (hsound j hj) (Bool.eq_false_iff.mp (ih j hj hlt))
      rw [levels] at hn
      omega
  | object members ih =>
    rw [clip, Bool.eq_false_iff]
    split
    · exact Bool.false_ne_true
    · intro hsound
      rw [isSound, haveSound_iff, clipMembers_eq_map, List.forall_mem_map] at hsound
      have hmembers : levelsOfMembers members ≤ n - 1 := by
        rw [levelsOfMembers_le_iff]
        intro m hm
        refine Nat.le_of_not_lt fun hlt => ?_
        exact absurd (hsound m hm) (Bool.eq_false_iff.mp (ih m hm hlt))
      rw [levels] at hn
      omega
  | flawed flaw => cases hn

/-! ## What a reader holds -/

theorem levels_numberOf (negative : Bool) (whole : List Char) (part : Option (List Char))
    (exponent : Option Int) : (numberOf negative whole part exponent).levels = 0 := by
  unfold numberOf
  cases Decimal.stepwise? negative whole (part.getD []) (exponent.getD 0) <;> simp only <;>
    repeat' split
  all_goals rfl

theorem levels_scanNumber (cs : List Char) : ((scanNumber cs).getD broken).1.levels = 0 := by
  unfold scanNumber
  simp only
  repeat' split
  all_goals first | rfl | exact levels_numberOf ..

/-- What each of the readers holds has no more levels than the reader. -/
structure ReadersHold (fuel : Nat) : Prop where
  value : ∀ n cs, (readValue fuel n cs).1.levels ≤ n
  items : ∀ n cs, levelsOfItems (readItems fuel n cs).1 ≤ n
  moreItems : ∀ n cs, levelsOfItems (readMoreItems fuel n cs).1 ≤ n
  members : ∀ n cs, levelsOfMembers (readMembers fuel n cs).1 ≤ n
  moreMembers : ∀ n cs, levelsOfMembers (readMoreMembers fuel n cs).1 ≤ n
  member : ∀ n cs, (readMember fuel n cs).1.2.levels ≤ n

theorem levels_tooDeep (j : Json) : (tooDeep j).levels = 0 := by
  unfold tooDeep
  split <;> rfl

theorem levels_keyed_le (key : Scan) (j : Json) : (keyed key j).2.levels ≤ j.levels := by
  unfold keyed
  split
  · exact Nat.le_refl _
  · exact Nat.zero_le _

theorem readersHold (fuel : Nat) : ReadersHold fuel := by
  induction fuel with
  | zero =>
    constructor <;> intro n cs <;>
      simp [readValue, readItems, readMoreItems, readMembers, readMoreMembers, readMember, broken,
        levels, levelsOfItems, levelsOfMembers]
  | succ fuel ih =>
    constructor
    case value =>
      intro n cs
      rw [readValue]
      split
      case h_3 rest _ =>
        have hitems := ih.items (n - 1) rest
        simp only
        split
        · rw [levels_tooDeep]
          exact Nat.zero_le _
        · rw [levels]
          omega
      case h_4 rest _ =>
        have hmembers := ih.members (n - 1) rest
        simp only
        split
        · rw [levels_tooDeep]
          exact Nat.zero_le _
        · rw [levels]
          omega
      case h_2 =>
        split
        · exact Nat.zero_le _
        · simp only
          split <;> exact Nat.zero_le _
      case h_8 =>
        rw [levels_scanNumber]
        exact Nat.zero_le _
      all_goals exact Nat.zero_le _
    case items =>
      intro n cs
      rw [readItems]
      split
      · exact Nat.zero_le _
      · exact Nat.max_le.mpr ⟨ih.value n _, ih.moreItems n _⟩
    case moreItems =>
      intro n cs
      rw [readMoreItems]
      split
      · exact Nat.zero_le _
      · exact Nat.max_le.mpr ⟨ih.value n _, ih.moreItems n _⟩
      · exact Nat.zero_le _
    case members =>
      intro n cs
      rw [readMembers]
      split
      · exact Nat.zero_le _
      · exact Nat.max_le.mpr ⟨ih.member n _, ih.moreMembers n _⟩
    case moreMembers =>
      intro n cs
      rw [readMoreMembers]
      split
      · exact Nat.zero_le _
      · exact Nat.max_le.mpr ⟨ih.member n _, ih.moreMembers n _⟩
      · exact Nat.zero_le _
    case member =>
      intro n cs
      rw [readMember]
      split
      · split
        · exact Nat.zero_le _
        · split
          · exact Nat.le_trans (levels_keyed_le _ _) (ih.value n _)
          · exact Nat.le_trans (levels_keyed_le _ _) (Nat.zero_le _)
      · exact Nat.zero_le _

theorem levels_read_le (s : String) : (read s).levels ≤ maxLevels := by
  unfold read readFront
  simp only
  split
  · exact (readersHold _).value _ _
  · exact Nat.zero_le _

end AuditTrail.Json
