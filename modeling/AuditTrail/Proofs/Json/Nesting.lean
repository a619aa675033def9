import AuditTrail.Proofs.Json.Embedded
import AuditTrail.Proofs.Json.Fuel
/-! # Texts inside texts

A string that is read is shorter than the text it is read from (`reach_read_le`). So a text holds no
more texts inside each other than it has characters, and what takes its place does not depend on the
bound that `embedded` sets (`embedded_eq`). -/

namespace AuditTrail.Json
set_option autoImplicit false

/-! ## How long strings are -/

mutual

/-- One more than the length of the longest string at any depth, and zero where there is no string. -/
def reach : Json → Nat
  | .string s => s.length + 1
  | .array items => reachOfItems items
  | .object members => reachOfMembers members
  | .null | .bool _ | .number _ | .flawed _ => 0

def reachOfItems : List Json → Nat
  | [] => 0
  | j :: rest => max (reach j) (reachOfItems rest)

def reachOfMembers : List (String × Json) → Nat
  | [] => 0
  | (_, j) :: rest => max (reach j) (reachOfMembers rest)

end

theorem reachOfItems_le_iff (items : List Json) (n : Nat) :
    reachOfItems items ≤ n ↔ ∀ j ∈ items, reach j ≤ n := by
  induction items with
  | nil => simp [reachOfItems]
  | cons j rest ih => rw [reachOfItems, Nat.max_le, ih, List.forall_mem_cons]

theorem reachOfMembers_le_iff (members : List (String × Json)) (n : Nat) :
    reachOfMembers members ≤ n ↔ ∀ m ∈ members, reach m.2 ≤ n := by
  induction members with
  | nil => simp [reachOfMembers]
  | cons m rest ih =>
    obtain ⟨k, j⟩ := m
    rw [reachOfMembers, Nat.max_le, ih, List.forall_mem_cons]

/-! ## Strings that are read -/

/-- The characters of a scanned string and what follows it are fewer than the text has. -/
def Scan.FitsIn (s : Scan) (cs : List Char) : Prop := s.chars.length + s.rest.length < cs.length

theorem fitsIn_of_mem_map {found : Option Scan} {cs : List Char} (h : ∀ s ∈ found, s.FitsIn cs)
    {f : Scan → Scan}
    (hf : ∀ s, (f s).rest = s.rest ∧ (f s).chars.length ≤ s.chars.length + 1) (c : Char)
    (front : List Char) : ∀ s ∈ found.map f, s.FitsIn (c :: front ++ cs) := by
  intro s hs
  obtain ⟨found, hfound, rfl⟩ := Option.map_eq_some_iff.mp hs
  have hfits := h found hfound
  obtain ⟨hrest, hchars⟩ := hf found
  simp only [Scan.FitsIn, hrest, List.length_append, List.length_cons] at hfits ⊢
  omega

@[simp] theorem Scan.chars_push (c : Char) (s : Scan) : (s.push c).chars = c :: s.chars := rfl

@[simp] theorem Scan.chars_spoil (s : Scan) : s.spoil.chars = s.chars := rfl

@[simp] theorem Scan.chars_settle (pending : Option Nat) (s : Scan) :
    (s.settle pending).chars = s.chars := by
  rw [settle]
  split <;> rfl

theorem scanString_fitsIn (pending : Option Nat) (cs : List Char) :
    ∀ s ∈ scanString pending cs, s.FitsIn cs := by
  fun_induction scanString pending cs with
  | case1 => simp
  | case2 pending rest => simp [Scan.FitsIn]
  | case3 => simp
  | case4 pending a b c d rest unit _ _ ih =>
    exact fitsIn_of_mem_map ih (by simp) '\\' ['u', a, b, c, d]
  | case5 a b c d rest unit _ _ _ high ih =>
    exact fitsIn_of_mem_map ih (by simp) '\\' ['u', a, b, c, d]
  | case6 a b c d rest unit _ _ _ ih =>
    exact fitsIn_of_mem_map ih (by simp) '\\' ['u', a, b, c, d]
  | case7 pending a b c d rest unit _ _ _ ih =>
    exact fitsIn_of_mem_map ih (by simp) '\\' ['u', a, b, c, d]
  | case8 => simp
  | case9 pending c rest _ e _ ih => exact fitsIn_of_mem_map ih (by simp) '\\' [c]
  | case10 => simp
  | case11 pending c rest _ _ _ _ ih => exact fitsIn_of_mem_map ih (by simp) c []

theorem reach_numberOf (negative : Bool) (whole : List Char) (part : Option (List Char))
    (exponent : Option Int) : (numberOf negative whole part exponent).reach = 0 := by
  unfold numberOf
  cases Decimal.stepwise? negative whole (part.getD []) (exponent.getD 0) <;> simp only <;>
    repeat' split
  all_goals rfl

theorem reach_scanNumber (cs : List Char) : ((scanNumber cs).getD broken).1.reach = 0 := by
  unfold scanNumber
  simp only
  repeat' split
  all_goals first | rfl | exact reach_numberOf ..

theorem reach_tooDeep (j : Json) : (tooDeep j).reach = 0 := by
  unfold tooDeep
  split <;> rfl

theorem reach_keyed_le (key : Scan) (j : Json) : (keyed key j).2.reach ≤ j.reach := by
  unfold keyed
  split
  · exact Nat.le_refl _
  · exact Nat.zero_le _

/-- What each of the readers takes from a text is within the length of the text. -/
structure ReadersTakeShorter (fuel : Nat) : Prop where
  value : ∀ n cs, (readValue fuel n cs).1.reach ≤ cs.length
  items : ∀ n cs, reachOfItems (readItems fuel n cs).1 ≤ cs.length
  moreItems : ∀ n cs, reachOfItems (readMoreItems fuel n cs).1 ≤ cs.length
  members : ∀ n cs, reachOfMembers (readMembers fuel n cs).1 ≤ cs.length
  moreMembers : ∀ n cs, reachOfMembers (readMoreMembers fuel n cs).1 ≤ cs.length
  member : ∀ n cs, (readMember fuel n cs).1.2.reach ≤ cs.length

theorem readersTakeShorter (fuel : Nat) : ReadersTakeShorter fuel := by
  -- What one reader leaves to the next is no longer than what it was given (`readersLeave`).
  induction fuel with
  | zero =>
    constructor <;> intro n cs <;>
      simp [readValue, readItems, readMoreItems, readMembers, readMoreMembers, readMember, broken,
        reach, reachOfItems, reachOfMembers]
  | succ fuel ih =>
    have hleave := readersLeave fuel
    constructor
    case value =>
      intro n cs
      rw [readValue]
      split
      case h_2 rest hfront =>
        have hshort := length_le_of_skipSpace hfront
        split
        · exact Nat.zero_le _
        · rename_i s hs
          have hfits := scanString_fitsIn _ _ s hs
          simp only
          split
          · rw [reach, String.length_ofList]
            rw [Scan.FitsIn] at hfits
            omega
          · exact Nat.zero_le _
      case h_3 rest hfront =>
        have hshort := length_le_of_skipSpace hfront
        have hitems := ih.items (n - 1) rest
        simp only
        split
        · rw [reach_tooDeep]
          exact Nat.zero_le _
        · rw [reach]
          omega
      case h_4 rest hfront =>
        have hshort := length_le_of_skipSpace hfront
        have hmembers := ih.members (n - 1) rest
        simp only
        split
        · rw [reach_tooDeep]
          exact Nat.zero_le _
        · rw [reach]
          omega
      case h_8 =>
        rw [reach_scanNumber]
        exact Nat.zero_le _
      all_goals exact Nat.zero_le _
    case items =>
      intro n cs
      have hrest := (hleave.value n cs).length_le
      rw [readItems]
      split
      · exact Nat.zero_le _
      · exact Nat.max_le.mpr ⟨ih.value n cs, Nat.le_trans (ih.moreItems n _) hrest⟩
    case moreItems =>
      intro n cs
      rw [readMoreItems]
      split
      · exact Nat.zero_le _
      · rename_i rest hfront
        have hshort := length_le_of_skipSpace hfront
        have hmore := ih.moreItems n (readValue fuel n rest).2
        have hrest := (hleave.value n rest).length_le
        exact Nat.max_le.mpr ⟨Nat.le_trans (ih.value n rest) (by omega), by omega⟩
      · exact Nat.zero_le _
    case members =>
      intro n cs
      have hrest := (hleave.member n cs).length_le
      rw [readMembers]
      split
      · exact Nat.zero_le _
      · exact Nat.max_le.mpr ⟨ih.member n cs, Nat.le_trans (ih.moreMembers n _) hrest⟩
    case moreMembers =>
      intro n cs
      rw [readMoreMembers]
      split
      · exact Nat.zero_le _
      · rename_i rest hfront
        have hshort := length_le_of_skipSpace hfront
        have hmore := ih.moreMembers n (readMember fuel n rest).2
        have hrest := (hleave.member n rest).length_le
        exact Nat.max_le.mpr ⟨Nat.le_trans (ih.member n rest) (by omega), by omega⟩
      · exact Nat.zero_le _
    case member =>
      intro n cs
      rw [readMember]
      split
      · rename_i rest hfront
        have hshort := length_le_of_skipSpace hfront
        split
        · exact Nat.zero_le _
        · rename_i key hkey
          have hkeyRest := (scanString_suffix _ _ key hkey).length_le
          split
          · rename_i behind hcolon
            have hbehind := length_le_of_skipSpace hcolon
            have hvalue := ih.value n behind
            have hkeyed := reach_keyed_le key (readValue fuel n behind).1
            simp only
            omega
          · exact Nat.le_trans (reach_keyed_le _ _) (Nat.zero_le _)
      · exact Nat.zero_le _

theorem reach_read_le (s : String) : (read s).reach ≤ s.length := by
  unfold read readFront
  simp only
  split
  · rw [← String.length_toList]
    exact (readersTakeShorter _).value _ _
  · exact Nat.zero_le _

/-! ## The bound does not matter -/

section Congruence
variable {inner other : String → Option Json} {n : Nat}
  (hsame : ∀ s : String, s.length < n → inner s = other s)
include hsame

/-- Only texts inside a value count for what replaces them. -/
theorem expandWith_congr (j : Json) (hreach : j.reach ≤ n) :
    expandWith inner j = expandWith other j := by
  induction j using tree_induction with
  | null => rfl
  | bool b => rfl
  | number m => rfl
  | string s => rfl
  | array items ih =>
    rw [reach, reachOfItems_le_iff] at hreach
    have hitems : expandItems inner items = expandItems other items := by
      induction items with
      | nil => rfl
      | cons j rest ihItems =>
        rw [expandItems, expandItems, ih j List.mem_cons_self (hreach j List.mem_cons_self),
          ihItems (fun k hk => ih k (List.mem_cons_of_mem _ hk))
            (fun k hk => hreach k (List.mem_cons_of_mem _ hk))]
    rw [expandWith, expandWith, hitems]
  | object members ih =>
    rw [reach, reachOfMembers_le_iff] at hreach
    have hmembers : expandMembers inner members = expandMembers other members := by
      induction members with
      | nil => rfl
      | cons m rest ihMembers =>
        obtain ⟨k, j⟩ := m
        rw [expandMembers, expandMembers,
          ih (k, j) List.mem_cons_self (hreach (k, j) List.mem_cons_self),
          ihMembers (fun m hm => ih m (List.mem_cons_of_mem _ hm))
            (fun m hm => hreach m (List.mem_cons_of_mem _ hm))]
    -- Only an object that begins with the key hands a text on, and that text is within reach.
    by_cases hkey : frontKey members = some embeddedKey
    · cases members with
      | nil => rfl
      | cons m rest =>
        obtain ⟨k, j⟩ := m
        have hk : k = embeddedKey := Option.some.inj hkey
        unfold expandWith
        simp only [if_pos hk]
        split
        · rename_i s
          exact hsame s (hreach (k, .string s) List.mem_cons_self)
        · rfl
    · rw [expandWith_object hkey, expandWith_object hkey, hmembers]
  | flawed flaw => rfl

end Congruence

theorem readEmbedded_succ {bound : Nat} {s : String} (h : s.length < bound) :
    readEmbedded (bound + 1) s = readEmbedded bound s := by
  -- A text inside is shorter, so that one unit less is enough for it.
  induction bound generalizing s with
  | zero => cases h
  | succ bound ih =>
    have hinner : expandWith (readEmbedded (bound + 1)) (read s) =
        expandWith (readEmbedded bound) (read s) :=
      expandWith_congr (fun t ht => ih (show t.length < bound by omega)) _ (reach_read_le s)
    rw [readEmbedded, readEmbedded]
    simp only [hinner]

theorem readEmbedded_eq {bound : Nat} {s : String} (h : s.length < bound) :
    readEmbedded bound s = embedded s := by
  induction bound, h using Nat.le_induction with
  | base => rfl
  | succ bound hle ih => rw [readEmbedded_succ hle, ih]

/-- **What takes the place of a text**: what the text writes, with every text inside it replaced in
the same way, as long as it is sound. -/
theorem embedded_eq (s : String) :
    embedded s = if (read s).isSound then expandWith embedded (read s) else none := by
  have hinner : expandWith (readEmbedded s.length) (read s) = expandWith embedded (read s) :=
    expandWith_congr (fun t ht => readEmbedded_eq ht) _ (reach_read_le s)
  rw [embedded, readEmbedded]
  simp only [hinner]

end AuditTrail.Json
