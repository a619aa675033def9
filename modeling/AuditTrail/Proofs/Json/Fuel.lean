import AuditTrail.Proofs.Json.Value
/-! # Fuel of the readers

What a reader leaves of a text is an end of the text (`readersLeave`). So two units of fuel for each
character are enough: from there on one unit more changes nothing (`readersSettle`). -/

namespace AuditTrail.Json
set_option autoImplicit false

/-! ## What is left -/

@[simp] theorem Scan.rest_push (c : Char) (s : Scan) : (s.push c).rest = s.rest := rfl

@[simp] theorem Scan.rest_spoil (s : Scan) : s.spoil.rest = s.rest := rfl

@[simp] theorem Scan.rest_settle (pending : Option Nat) (s : Scan) :
    (s.settle pending).rest = s.rest := by
  rw [settle]
  split <;> rfl

/-- What is read behind some front leaves an end of the text with the front. -/
theorem suffix_of_mem_map {found : Option Scan} {cs : List Char}
    (h : ∀ s ∈ found, s.rest <:+ cs) {f : Scan → Scan} (hf : ∀ s, (f s).rest = s.rest)
    (front : List Char) : ∀ s ∈ found.map f, s.rest <:+ front ++ cs := by
  intro s hs
  obtain ⟨found, hfound, rfl⟩ := Option.map_eq_some_iff.mp hs
  rw [hf]
  exact (h found hfound).trans (List.suffix_append front cs)

theorem scanString_suffix (pending : Option Nat) (cs : List Char) :
    ∀ s ∈ scanString pending cs, s.rest <:+ cs := by
  fun_induction scanString pending cs with
  | case1 => simp
  | case2 pending rest => simp
  | case3 => simp
  | case4 pending a b c d rest unit _ _ ih =>
    exact suffix_of_mem_map ih (by simp) ['\\', 'u', a, b, c, d]
  | case5 a b c d rest unit _ _ _ high ih =>
    exact suffix_of_mem_map ih (by simp) ['\\', 'u', a, b, c, d]
  | case6 a b c d rest unit _ _ _ ih =>
    exact suffix_of_mem_map ih (by simp) ['\\', 'u', a, b, c, d]
  | case7 pending a b c d rest unit _ _ _ ih =>
    exact suffix_of_mem_map ih (by simp) ['\\', 'u', a, b, c, d]
  | case8 => simp
  | case9 pending c rest _ e _ ih => exact suffix_of_mem_map ih (by simp) ['\\', c]
  | case10 => simp
  | case11 pending c rest _ _ _ _ ih => exact suffix_of_mem_map ih (by simp) [c]

theorem scanPart_suffix (cs : List Char) : ∀ p ∈ scanPart cs, p.2 <:+ cs := by
  fun_cases scanPart cs with
  | case1 => simp
  | case2 rest ds _ =>
    rintro p ⟨rfl⟩
    exact (List.dropWhile_suffix _).trans (List.suffix_cons _ _)
  | case3 cs _ =>
    rintro p ⟨rfl⟩
    exact List.suffix_rfl

theorem splitSign_suffix (cs : List Char) : (Decimal.splitSign cs).2 <:+ cs := by
  fun_cases Decimal.splitSign cs
  · exact List.suffix_cons _ _
  · exact List.suffix_cons _ _
  · exact List.suffix_rfl

theorem scanExponent_suffix (cs : List Char) : ∀ p ∈ scanExponent cs, p.2 <:+ cs := by
  cases cs with
  | nil => simp [scanExponent]
  | cons c rest =>
    rw [scanExponent]
    split
    · dsimp only
      split
      · simp
      · rintro p ⟨rfl⟩
        exact (List.dropWhile_suffix _).trans
          ((splitSign_suffix rest).trans (List.suffix_cons _ _))
    · rintro p ⟨rfl⟩
      exact List.suffix_rfl

theorem scanPieces_suffix (negative : Bool) (unsigned : List Char) :
    ∀ p ∈ scanPieces negative unsigned, p.2 <:+ unsigned := by
  intro p hp
  rw [scanPieces] at hp
  split at hp
  · cases hp
  · split at hp
    · cases hp
    · rename_i part behind hpart
      split at hp
      · cases hp
      · rename_i exponent rest hexponent
        cases hp
        exact (scanExponent_suffix _ _ hexponent).trans
          ((scanPart_suffix _ _ hpart).trans (List.dropWhile_suffix _))

theorem scanNumber_suffix (cs : List Char) : ((scanNumber cs).getD broken).2 <:+ cs := by
  rcases scanNumber_cases cs with ⟨rest, rfl, hscan⟩ | ⟨-, hscan⟩
  · rw [hscan]
    cases hfound : scanPieces true rest with
    | none => exact List.nil_suffix
    | some p => exact (scanPieces_suffix _ _ p hfound).trans (List.suffix_cons _ _)
  · rw [hscan]
    cases hfound : scanPieces false cs with
    | none => exact List.nil_suffix
    | some p => exact scanPieces_suffix _ _ p hfound

/-- What each of the readers leaves of a text is an end of the text. -/
structure ReadersLeave (fuel : Nat) : Prop where
  value : ∀ n cs, (readValue fuel n cs).2 <:+ cs
  items : ∀ n cs, (readItems fuel n cs).2 <:+ cs
  moreItems : ∀ n cs, (readMoreItems fuel n cs).2 <:+ cs
  members : ∀ n cs, (readMembers fuel n cs).2 <:+ cs
  moreMembers : ∀ n cs, (readMoreMembers fuel n cs).2 <:+ cs
  member : ∀ n cs, (readMember fuel n cs).2 <:+ cs

theorem suffix_of_skipSpace {cs rest : List Char} (front : List Char)
    (h : skipSpace cs = front ++ rest) : rest <:+ cs :=
  (List.suffix_append front rest).trans (h ▸ List.dropWhile_suffix _)

theorem readersLeave (fuel : Nat) : ReadersLeave fuel := by
  induction fuel with
  | zero =>
    constructor <;> intro n cs <;>
      simp [readValue, readItems, readMoreItems, readMembers, readMoreMembers, readMember, broken]
  | succ fuel ih =>
    constructor
    case value =>
      intro n cs
      rw [readValue]
      split
      case h_1 => exact List.nil_suffix
      case h_2 rest hfront =>
        split
        · exact List.nil_suffix
        · rename_i s hs
          exact (scanString_suffix _ _ s hs).trans (suffix_of_skipSpace ['"'] hfront)
      case h_3 rest hfront => exact (ih.items _ rest).trans (suffix_of_skipSpace ['['] hfront)
      case h_4 rest hfront => exact (ih.members _ rest).trans (suffix_of_skipSpace ['\x7b'] hfront)
      case h_5 rest hfront => exact suffix_of_skipSpace ['n', 'u', 'l', 'l'] hfront
      case h_6 rest hfront => exact suffix_of_skipSpace ['t', 'r', 'u', 'e'] hfront
      case h_7 rest hfront => exact suffix_of_skipSpace ['f', 'a', 'l', 's', 'e'] hfront
      case h_8 c rest _ _ _ _ _ _ hfront =>
        exact (scanNumber_suffix _).trans (suffix_of_skipSpace [] hfront)
    case items =>
      intro n cs
      rw [readItems]
      split
      · rename_i rest hfront
        exact suffix_of_skipSpace [']'] hfront
      · exact (ih.moreItems n _).trans (ih.value n cs)
    case moreItems =>
      intro n cs
      rw [readMoreItems]
      split
      · rename_i rest hfront
        exact suffix_of_skipSpace [']'] hfront
      · rename_i rest hfront
        exact ((ih.moreItems n _).trans (ih.value n rest)).trans (suffix_of_skipSpace [','] hfront)
      · exact List.nil_suffix
    case members =>
      intro n cs
      rw [readMembers]
      split
      · rename_i rest hfront
        exact suffix_of_skipSpace ['\x7d'] hfront
      · exact (ih.moreMembers n _).trans (ih.member n cs)
    case moreMembers =>
      intro n cs
      rw [readMoreMembers]
      split
      · rename_i rest hfront
        exact suffix_of_skipSpace ['\x7d'] hfront
      · rename_i rest hfront
        exact ((ih.moreMembers n _).trans (ih.member n rest)).trans
          (suffix_of_skipSpace [','] hfront)
      · exact List.nil_suffix
    case member =>
      intro n cs
      rw [readMember]
      split
      · rename_i rest hfront
        split
        · exact List.nil_suffix
        · rename_i key hkey
          have hrest := (scanString_suffix _ _ key hkey).trans (suffix_of_skipSpace ['"'] hfront)
          split
          · rename_i behind hcolon
            exact ((ih.value n _).trans (suffix_of_skipSpace [':'] hcolon)).trans hrest
          · exact List.nil_suffix
      · exact List.nil_suffix

/-! ## Fuel enough -/

/-- Two units of fuel for each character are enough, and one more where a bracket or a brace has just
been opened. -/
structure ReadersSettle (fuel : Nat) : Prop where
  value : ∀ n cs, 2 * cs.length ≤ fuel → readValue (fuel + 1) n cs = readValue fuel n cs
  items : ∀ n cs, 2 * cs.length < fuel → readItems (fuel + 1) n cs = readItems fuel n cs
  moreItems : ∀ n cs, 2 * cs.length ≤ fuel →
    readMoreItems (fuel + 1) n cs = readMoreItems fuel n cs
  members : ∀ n cs, 2 * cs.length < fuel → readMembers (fuel + 1) n cs = readMembers fuel n cs
  moreMembers : ∀ n cs, 2 * cs.length ≤ fuel →
    readMoreMembers (fuel + 1) n cs = readMoreMembers fuel n cs
  member : ∀ n cs, 2 * cs.length ≤ fuel → readMember (fuel + 1) n cs = readMember fuel n cs

theorem length_le_of_skipSpace {cs rest : List Char} {c : Char} (h : skipSpace cs = c :: rest) :
    rest.length + 1 ≤ cs.length := by
  have hsuffix : c :: rest <:+ cs := suffix_of_skipSpace [] h
  exact hsuffix.length_le

/-- A bracket or a brace costs one unit, and so does the value or member right behind it, which is read
from the same text. -/
theorem readersSettle (fuel : Nat) : ReadersSettle fuel := by
  induction fuel with
  | zero =>
    constructor
    case items => exact fun n cs hlen => absurd hlen (Nat.not_lt_zero _)
    case members => exact fun n cs hlen => absurd hlen (Nat.not_lt_zero _)
    all_goals
      intro n cs hlen
      obtain rfl : cs = [] := List.length_eq_zero_iff.mp (by omega)
      simp [readValue, readMoreItems, readMoreMembers, readMember, broken, skipSpace]
  | succ fuel ih =>
    have hleave := readersLeave fuel
    constructor
    case value =>
      intro n cs hlen
      rw [readValue, readValue]
      split
      case h_3 rest hfront =>
        have hshort := length_le_of_skipSpace hfront
        rw [ih.items _ rest (by omega)]
      case h_4 rest hfront =>
        have hshort := length_le_of_skipSpace hfront
        rw [ih.members _ rest (by omega)]
      all_goals rfl
    case items =>
      intro n cs hlen
      have hrest := (hleave.value n cs).length_le
      have hmore := ih.moreItems n (readValue fuel n cs).2 (by omega)
      rw [readItems, readItems, ih.value n cs (by omega)]
      split
      · rfl
      · change (_ :: (readMoreItems (fuel + 1) n _).1, (readMoreItems (fuel + 1) n _).2) = _
        rw [hmore]
    case moreItems =>
      intro n cs hlen
      rw [readMoreItems, readMoreItems]
      split
      case h_2 rest hfront =>
        have hshort := length_le_of_skipSpace hfront
        have hrest := (hleave.value n rest).length_le
        have hmore := ih.moreItems n (readValue fuel n rest).2 (by omega)
        rw [ih.value n rest (by omega)]
        change (_ :: (readMoreItems (fuel + 1) n _).1, (readMoreItems (fuel + 1) n _).2) = _
        rw [hmore]
      all_goals rfl
    case members =>
      intro n cs hlen
      have hrest := (hleave.member n cs).length_le
      have hmore := ih.moreMembers n (readMember fuel n cs).2 (by omega)
      rw [readMembers, readMembers, ih.member n cs (by omega)]
      split
      · rfl
      · change (_ :: (readMoreMembers (fuel + 1) n _).1, (readMoreMembers (fuel + 1) n _).2) = _
        rw [hmore]
    case moreMembers =>
      intro n cs hlen
      rw [readMoreMembers, readMoreMembers]
      split
      case h_2 rest hfront =>
        have hshort := length_le_of_skipSpace hfront
        have hrest := (hleave.member n rest).length_le
        have hmore := ih.moreMembers n (readMember fuel n rest).2 (by omega)
        rw [ih.member n rest (by omega)]
        change (_ :: (readMoreMembers (fuel + 1) n _).1, (readMoreMembers (fuel + 1) n _).2) = _
        rw [hmore]
      all_goals rfl
    case member =>
      intro n cs hlen
      rw [readMember, readMember]
      split
      case h_1 rest hfront =>
        have hshort := length_le_of_skipSpace hfront
        split
        · rfl
        · rename_i key hkey
          have hkeyRest := (scanString_suffix _ _ key hkey).length_le
          split
          · rename_i behind hcolon
            have hbehind := length_le_of_skipSpace hcolon
            rw [ih.value n behind (by omega)]
          · rfl
      all_goals rfl

/-- More fuel than two units for each character changes nothing. -/
theorem readValue_of_le {cs : List Char} {fuel more : Nat} (hlen : 2 * cs.length ≤ fuel)
    (hmore : fuel ≤ more) (n : Nat) : readValue more n cs = readValue fuel n cs := by
  induction more, hmore using Nat.le_induction with
  | base => rfl
  | succ more hle ih => rw [(readersSettle more).value n cs (by omega), ih]

end AuditTrail.Json
