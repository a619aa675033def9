import AuditTrail.Proofs.Json.Fuel
/-! # A space at the end of a text

One more space at the end of a text changes nothing of what is read (`read_append_space`): whatever a
reader takes from the text it takes from the longer one as well, and leaves the same end, or the same
end and the space. -/

namespace AuditTrail.Json
set_option autoImplicit false

open Decimal (isDigit)

variable {w : Char} {cs ds : List Char}

/-! ## Where a space cannot stand -/

theorem eq_of_isSpace (h : isSpace w = true) : w = ' ' ∨ w = '\n' ∨ w = '\t' ∨ w = '\r' := by
  simpa [isSpace, or_assoc] using h

theorem isDigit_of_isSpace (h : isSpace w = true) : isDigit w = false := by
  rcases eq_of_isSpace h with rfl | rfl | rfl | rfl <;> rfl

theorem hexValue?_of_isSpace (h : isSpace w = true) : hexValue? w = none := by
  rcases eq_of_isSpace h with rfl | rfl | rfl | rfl <;> rfl

theorem shortEscape?_of_isSpace (h : isSpace w = true) : shortEscape? w = none := by
  rcases eq_of_isSpace h with rfl | rfl | rfl | rfl <;> rfl

theorem codeUnit?_of_isSpace (h : isSpace w = true) (a b c : Char) : codeUnit? a b c w = none := by
  rw [codeUnit?, hexValue?_of_isSpace h]
  cases hexValue? a <;> cases hexValue? b <;> cases hexValue? c <;> rfl

/-- A front without spaces of the longer text is a front of the text. -/
theorem exists_of_append_space (h : isSpace w = true) (front : List Char)
    (hfront : front.any isSpace = false) {rest : List Char} (heq : cs ++ [w] = front ++ rest) :
    ∃ rest', cs = front ++ rest' := by
  have hprefix : front <+: cs ++ [w] := ⟨rest, heq.symm⟩
  rcases List.prefix_concat_iff.mp hprefix with hall | hprefix
  · rw [hall, List.any_append, List.any_cons, h, Bool.true_or, Bool.or_true] at hfront
    cases hfront
  · obtain ⟨rest', hrest⟩ := hprefix
    exact ⟨rest', hrest.symm⟩

/-! ## Strings and numbers -/

/-- The scan of a string with a space behind what is left. -/
def Scan.spaced (w : Char) (s : Scan) : Scan := { s with rest := s.rest ++ [w] }

theorem Scan.spaced_push (c : Char) (s : Scan) : (s.push c).spaced w = (s.spaced w).push c := rfl

theorem Scan.spaced_spoil (s : Scan) : s.spoil.spaced w = (s.spaced w).spoil := rfl

theorem Scan.spaced_settle (pending : Option Nat) (s : Scan) :
    (s.settle pending).spaced w = (s.spaced w).settle pending := by
  rw [settle, settle]
  split <;> rfl

theorem map_spaced {found : Option Scan} {f : Scan → Scan}
    (hf : ∀ s, (f s).spaced w = f (s.spaced w)) :
    (found.map (Scan.spaced w)).map f = (found.map f).map (Scan.spaced w) := by
  rw [Option.map_map, Option.map_map]
  exact Option.map_congr fun s _ => (hf s).symm

theorem scanString_append_space (h : isSpace w = true) (pending : Option Nat) (cs : List Char) :
    scanString pending (cs ++ [w]) = (scanString pending cs).map (Scan.spaced w) := by
  fun_induction scanString pending cs with
  | case1 pending =>
    rcases eq_of_isSpace h with rfl | rfl | rfl | rfl <;> rfl
  | case2 pending rest => rfl
  | case3 pending a b c d rest hunit =>
    simp only [List.cons_append, scanString, hunit, Option.map_none]
  | case4 pending a b c d rest unit hunit hhigh ih =>
    simp only [List.cons_append, scanString, hunit, if_pos hhigh, ih]
    exact map_spaced (Scan.spaced_settle pending)
  | case5 a b c d rest unit hunit hhigh hlow high ih =>
    simp only [List.cons_append, scanString, hunit, if_neg hhigh, if_pos hlow, ih]
    exact map_spaced (Scan.spaced_push _)
  | case6 a b c d rest unit hunit hhigh hlow ih =>
    simp only [List.cons_append, scanString, hunit, if_neg hhigh, if_pos hlow, ih]
    exact map_spaced Scan.spaced_spoil
  | case7 pending a b c d rest unit hunit hhigh hlow ih =>
    simp only [List.cons_append, scanString, hunit, if_neg hhigh, if_neg hlow, ih]
    refine map_spaced fun s => ?_
    rw [Scan.spaced_settle, Scan.spaced_push]
  | case8 pending c rest hunit hshort =>
    by_cases hc : c = 'u'
    · obtain rfl := hc
      rw [Option.map_none]
      rcases rest with _ | ⟨a, _ | ⟨b, _ | ⟨c, _ | ⟨d, rest⟩⟩⟩⟩
      case cons.cons.cons.nil => simp [scanString, codeUnit?_of_isSpace h]
      case cons.cons.cons.cons => exact absurd rfl (hunit a b c d rest rfl)
      all_goals simp [scanString, shortEscape?]
    · rw [List.cons_append, List.cons_append, scanString]
      · simp only [hshort, Option.map_none]
      · exact fun a b c' d rest' he => absurd he hc
  | case9 pending c rest hunit e hshort ih =>
    have hc : c ≠ 'u' := by
      rintro rfl
      cases hshort
    rw [List.cons_append, List.cons_append, scanString]
    · simp only [hshort, ih]
      refine map_spaced fun s => ?_
      rw [Scan.spaced_settle, Scan.spaced_push]
    · exact fun a b c' d rest' he => absurd he hc
  | case10 pending c rest hquote hunit hslash hlow =>
    by_cases hc : c = '\\'
    · obtain rfl := hc
      cases rest with
      | nil => simp [scanString, shortEscape?_of_isSpace h]
      | cons c' rest' => exact absurd rfl (hslash c' rest' rfl)
    · rw [List.cons_append, scanString, if_pos hlow, Option.map_none]
      · exact hquote
      · exact fun a b c' d rest' he => absurd he hc
      · exact fun c' rest' he => absurd he hc
  | case11 pending c rest hquote hunit hslash hlow ih =>
    have hc : c ≠ '\\' := fun hc => hlow (Or.inl hc)
    rw [List.cons_append, scanString]
    · simp only [if_neg hlow, ih]
      refine map_spaced fun s => ?_
      rw [Scan.spaced_settle, Scan.spaced_push]
    · exact hquote
    · exact fun a b c' d rest' he => absurd he hc
    · exact fun c' rest' he => absurd he hc

theorem takeWhile_append_space (h : isSpace w = true) (cs : List Char) :
    (cs ++ [w]).takeWhile isDigit = cs.takeWhile isDigit := by
  rw [List.takeWhile_append, List.takeWhile_cons_of_neg (by simp [isDigit_of_isSpace h])]
  split
  · rename_i hall
    rw [List.append_nil, List.IsPrefix.eq_of_length (List.takeWhile_prefix _) hall]
  · rfl

theorem dropWhile_append_space (h : isSpace w = true) (cs : List Char) :
    (cs ++ [w]).dropWhile isDigit = cs.dropWhile isDigit ++ [w] := by
  rw [List.dropWhile_append]
  split
  · rename_i hall
    rw [List.isEmpty_iff.mp hall, List.dropWhile_cons_of_neg (by simp [isDigit_of_isSpace h])]
    rfl
  · rfl

/-- What was taken from a text, and what is left of it with a space at the end. -/
def spacedPair {α : Type} (w : Char) (p : α × List Char) : α × List Char := (p.1, p.2 ++ [w])

theorem scanPart_append_space (h : isSpace w = true) (cs : List Char) :
    scanPart (cs ++ [w]) = (scanPart cs).map (spacedPair w) := by
  have hpoint : w ≠ '.' := by rcases eq_of_isSpace h with rfl | rfl | rfl | rfl <;> decide
  cases cs with
  | nil => exact scanPart_none (by simpa using hpoint)
  | cons c rest =>
    by_cases hc : c = '.'
    · rw [hc, List.cons_append, scanPart, scanPart, takeWhile_append_space h,
        dropWhile_append_space h]
      split <;> rfl
    · rw [List.cons_append, scanPart_none (by simpa using hc), scanPart_none (by simpa using hc)]
      rfl

theorem splitSign_append_space (h : isSpace w = true) (cs : List Char) :
    Decimal.splitSign (cs ++ [w]) = spacedPair w (Decimal.splitSign cs) := by
  cases cs with
  | nil => rcases eq_of_isSpace h with rfl | rfl | rfl | rfl <;> rfl
  | cons c rest =>
    by_cases hminus : c = '-'
    · rw [hminus]
      rfl
    by_cases hplus : c = '+'
    · rw [hplus]
      rfl
    have hsplit : ∀ tail, Decimal.splitSign (c :: tail) = (false, c :: tail) := by
      intro tail
      rw [Decimal.splitSign]
      · exact fun rest' heq => absurd (List.cons.inj heq).1 hminus
      · exact fun rest' heq => absurd (List.cons.inj heq).1 hplus
    rw [List.cons_append, hsplit, hsplit]
    rfl

theorem scanExponent_append_space (h : isSpace w = true) (cs : List Char) :
    scanExponent (cs ++ [w]) = (scanExponent cs).map (spacedPair w) := by
  cases cs with
  | nil => rcases eq_of_isSpace h with rfl | rfl | rfl | rfl <;> rfl
  | cons c rest =>
    rw [List.cons_append, scanExponent, scanExponent, splitSign_append_space h]
    split
    · obtain ⟨negative, digits⟩ := Decimal.splitSign rest
      dsimp only [spacedPair]
      rw [takeWhile_append_space h, dropWhile_append_space h]
      split <;> rfl
    · rfl

theorem scanPieces_append_space (h : isSpace w = true) (negative : Bool) (cs : List Char) :
    scanPieces negative (cs ++ [w]) = (scanPieces negative cs).map (spacedPair w) := by
  rw [scanPieces, scanPieces, takeWhile_append_space h, dropWhile_append_space h,
    scanPart_append_space h]
  split
  · rfl
  · cases scanPart (cs.dropWhile isDigit) with
    | none => rfl
    | some p =>
      obtain ⟨part, behind⟩ := p
      simp only [Option.map_some, spacedPair]
      rw [scanExponent_append_space h]
      cases scanExponent behind <;> rfl

theorem scanNumber_append_space (h : isSpace w = true) (cs : List Char) :
    scanNumber (cs ++ [w]) = (scanNumber cs).map (spacedPair w) := by
  rcases scanNumber_cases cs with ⟨rest, rfl, hscan⟩ | ⟨hminus, hscan⟩
  · rw [hscan, ← scanPieces_append_space h]
    rfl
  · rw [hscan, ← scanPieces_append_space h]
    rcases scanNumber_cases (cs ++ [w]) with ⟨rest, heq, -⟩ | ⟨-, hscan'⟩
    · obtain ⟨rest', hcs⟩ := exists_of_append_space h ['-'] rfl heq
      exact absurd (by rw [hcs]; rfl) hminus
    · exact hscan'

/-! ## Trees -/

/-- A text, or the text with the space at its end. -/
inductive OrSpaced (w : Char) (cs : List Char) : List Char → Prop where
  | same : OrSpaced w cs cs
  | spaced : OrSpaced w cs (cs ++ [w])

theorem OrSpaced.skipSpace (h : isSpace w = true) (hcs : OrSpaced w cs ds) :
    skipSpace cs = [] ∧ skipSpace ds = [] ∨
    ∃ c rest rest', skipSpace cs = c :: rest ∧ skipSpace ds = c :: rest' ∧ OrSpaced w rest rest' := by
  cases hskip : Json.skipSpace cs with
  | nil =>
    refine Or.inl ⟨rfl, ?_⟩
    cases hcs with
    | same => exact hskip
    | spaced =>
      rw [Json.skipSpace] at hskip ⊢
      simp [List.dropWhile_append, hskip, h]
  | cons c rest =>
    refine Or.inr ⟨c, rest, ?_⟩
    cases hcs with
    | same => exact ⟨rest, rfl, hskip, .same⟩
    | spaced =>
      refine ⟨rest ++ [w], rfl, ?_, .spaced⟩
      rw [Json.skipSpace] at hskip ⊢
      simp [List.dropWhile_append, hskip]

theorem OrSpaced.cons (hcs : OrSpaced w cs ds) (c : Char) : OrSpaced w (c :: cs) (c :: ds) := by
  cases hcs with
  | same => exact .same
  | spaced => exact .spaced

theorem OrSpaced.front (h : isSpace w = true) (hcs : OrSpaced w cs ds) (front : List Char)
    (hfront : front.any isSpace = false) {rest : List Char} (heq : ds = front ++ rest) :
    ∃ rest', cs = front ++ rest' := by
  cases hcs with
  | same => exact ⟨rest, heq⟩
  | spaced => exact exists_of_append_space h front hfront heq

/-- The same was taken, and the same is left or the same and the space. -/
structure Agree {α : Type} (w : Char) (a b : α × List Char) : Prop where
  taken : b.1 = a.1
  left : OrSpaced w a.2 b.2

theorem OrSpaced.scanString (h : isSpace w = true) (hcs : OrSpaced w cs ds) :
    scanString none cs = none ∧ scanString none ds = none ∨
    ∃ s t, scanString none cs = some s ∧ scanString none ds = some t ∧ t.chars = s.chars ∧
      t.isClean = s.isClean ∧ OrSpaced w s.rest t.rest := by
  cases hscan : Json.scanString none cs with
  | none =>
    refine Or.inl ⟨rfl, ?_⟩
    cases hcs with
    | same => exact hscan
    | spaced => rw [scanString_append_space h, hscan, Option.map_none]
  | some s =>
    refine Or.inr ⟨s, ?_⟩
    cases hcs with
    | same => exact ⟨s, rfl, hscan, rfl, rfl, .same⟩
    | spaced =>
      refine ⟨s.spaced w, rfl, ?_, rfl, rfl, .spaced⟩
      rw [scanString_append_space h, hscan, Option.map_some]

theorem OrSpaced.scanNumber (h : isSpace w = true) (hcs : OrSpaced w cs ds) :
    Agree w ((scanNumber cs).getD broken) ((scanNumber ds).getD broken) := by
  cases hcs with
  | same => exact ⟨rfl, .same⟩
  | spaced =>
    rw [scanNumber_append_space h]
    cases Json.scanNumber cs with
    | none => exact ⟨rfl, .same⟩
    | some p => exact ⟨rfl, .spaced⟩

/-- Each of the readers takes the same from a text and from the text with a space at its end. -/
structure ReadersAgree (w : Char) (fuel : Nat) : Prop where
  value : ∀ n cs ds, OrSpaced w cs ds → Agree w (readValue fuel n cs) (readValue fuel n ds)
  items : ∀ n cs ds, OrSpaced w cs ds → Agree w (readItems fuel n cs) (readItems fuel n ds)
  moreItems : ∀ n cs ds, OrSpaced w cs ds →
    Agree w (readMoreItems fuel n cs) (readMoreItems fuel n ds)
  members : ∀ n cs ds, OrSpaced w cs ds → Agree w (readMembers fuel n cs) (readMembers fuel n ds)
  moreMembers : ∀ n cs ds, OrSpaced w cs ds →
    Agree w (readMoreMembers fuel n cs) (readMoreMembers fuel n ds)
  member : ∀ n cs ds, OrSpaced w cs ds → Agree w (readMember fuel n cs) (readMember fuel n ds)

theorem ReadersAgree.zero : ReadersAgree w 0 := by
  constructor <;> intro n cs ds _
  · rw [readValue, readValue]
    exact ⟨rfl, .same⟩
  · rw [readItems, readItems]
    exact ⟨rfl, .same⟩
  · rw [readMoreItems, readMoreItems]
    exact ⟨rfl, .same⟩
  · rw [readMembers, readMembers]
    exact ⟨rfl, .same⟩
  · rw [readMoreMembers, readMoreMembers]
    exact ⟨rfl, .same⟩
  · rw [readMember, readMember]
    exact ⟨rfl, .same⟩

theorem ReadersAgree.readValue {fuel : Nat} (h : isSpace w = true) (ih : ReadersAgree w fuel)
    (n : Nat) (hcs : OrSpaced w cs ds) :
    Agree w (readValue (fuel + 1) n cs) (readValue (fuel + 1) n ds) := by
  rw [Json.readValue, Json.readValue]
  rcases hcs.skipSpace h with ⟨hfront, hfront'⟩ | ⟨c, rest, rest', hfront, hfront', hrest⟩
  · rw [hfront, hfront']
    exact ⟨rfl, .same⟩
  · rw [hfront, hfront']
    split
    -- A number, or nothing: neither text begins like anything else, as no word ends in a space.
    case h_8 c' tail hquote hbracket hbrace hnull htrue hfalse heq =>
      obtain ⟨rfl, rfl⟩ := List.cons.inj heq
      have hall := hrest.cons c
      split
      case h_1 heq' => cases heq'
      case h_2 heq' => exact (hquote (List.cons.inj heq').1).elim
      case h_3 heq' => exact (hbracket (List.cons.inj heq').1).elim
      case h_4 heq' => exact (hbrace (List.cons.inj heq').1).elim
      case h_5 heq' =>
        obtain ⟨tail, htail⟩ := hall.front h ['n', 'u', 'l', 'l'] rfl heq'
        exact (hnull tail (List.cons.inj htail).1 (List.cons.inj htail).2).elim
      case h_6 heq' =>
        obtain ⟨tail, htail⟩ := hall.front h ['t', 'r', 'u', 'e'] rfl heq'
        exact (htrue tail (List.cons.inj htail).1 (List.cons.inj htail).2).elim
      case h_7 heq' =>
        obtain ⟨tail, htail⟩ := hall.front h ['f', 'a', 'l', 's', 'e'] rfl heq'
        exact (hfalse tail (List.cons.inj htail).1 (List.cons.inj htail).2).elim
      case h_8 heq' =>
        rw [← heq']
        exact hall.scanNumber h
    all_goals rename_i heq
    case h_1 => cases heq
    case h_2 =>
      obtain ⟨rfl, rfl⟩ := List.cons.inj heq
      simp only
      rcases hrest.scanString h with ⟨hscan, hscan'⟩ | ⟨s, t, hscan, hscan', hchars, hclean, hleft⟩
      · rw [hscan, hscan']
        exact ⟨rfl, .same⟩
      · rw [hscan, hscan']
        simp only [hchars, hclean]
        exact ⟨rfl, hleft⟩
    case h_3 =>
      obtain ⟨rfl, rfl⟩ := List.cons.inj heq
      obtain ⟨htaken, hleft⟩ := ih.items (n - 1) _ _ hrest
      simp only [htaken]
      exact ⟨rfl, hleft⟩
    case h_4 =>
      obtain ⟨rfl, rfl⟩ := List.cons.inj heq
      obtain ⟨htaken, hleft⟩ := ih.members (n - 1) _ _ hrest
      simp only [htaken]
      exact ⟨rfl, hleft⟩
    all_goals
      obtain ⟨rfl, rfl⟩ := List.cons.inj heq
      cases hrest with
      | same => exact ⟨rfl, .same⟩
      | spaced => exact ⟨rfl, .spaced⟩

theorem ReadersAgree.readItems {fuel : Nat} (h : isSpace w = true) (ih : ReadersAgree w fuel)
    (n : Nat) (hcs : OrSpaced w cs ds) :
    Agree w (readItems (fuel + 1) n cs) (readItems (fuel + 1) n ds) := by
  have hfirst := ih.value n cs ds hcs
  have hmore := ih.moreItems n _ _ hfirst.left
  rcases hcs.skipSpace h with ⟨hfront, hfront'⟩ | ⟨c, rest, rest', hfront, hfront', hrest⟩
  · rw [readItems_other fuel n (by simp [hfront]), readItems_other fuel n (by simp [hfront'])]
    exact ⟨congrArg₂ _ hfirst.taken hmore.taken, hmore.left⟩
  · by_cases hc : c = ']'
    · rw [Json.readItems, Json.readItems, hfront, hfront', hc]
      exact ⟨rfl, hrest⟩
    · rw [readItems_other fuel n (by simpa [hfront] using hc),
        readItems_other fuel n (by simpa [hfront'] using hc)]
      exact ⟨congrArg₂ _ hfirst.taken hmore.taken, hmore.left⟩

theorem ReadersAgree.readMoreItems {fuel : Nat} (h : isSpace w = true) (ih : ReadersAgree w fuel)
    (n : Nat) (hcs : OrSpaced w cs ds) :
    Agree w (readMoreItems (fuel + 1) n cs) (readMoreItems (fuel + 1) n ds) := by
  rw [Json.readMoreItems, Json.readMoreItems]
  rcases hcs.skipSpace h with ⟨hfront, hfront'⟩ | ⟨c, rest, rest', hfront, hfront', hrest⟩
  · rw [hfront, hfront']
    exact ⟨rfl, .same⟩
  · rw [hfront, hfront']
    split
    case h_1 heq =>
      obtain ⟨rfl, rfl⟩ := List.cons.inj heq
      exact ⟨rfl, hrest⟩
    case h_2 heq =>
      obtain ⟨rfl, rfl⟩ := List.cons.inj heq
      have hfirst := ih.value n _ _ hrest
      have hmore := ih.moreItems n _ _ hfirst.left
      exact ⟨congrArg₂ _ hfirst.taken hmore.taken, hmore.left⟩
    case h_3 hclose hcomma =>
      split
      case h_1 heq => exact (hclose rest (by rw [(List.cons.inj heq).1])).elim
      case h_2 heq => exact (hcomma rest (by rw [(List.cons.inj heq).1])).elim
      case h_3 => exact ⟨rfl, .same⟩

theorem ReadersAgree.readMembers {fuel : Nat} (h : isSpace w = true) (ih : ReadersAgree w fuel)
    (n : Nat) (hcs : OrSpaced w cs ds) :
    Agree w (readMembers (fuel + 1) n cs) (readMembers (fuel + 1) n ds) := by
  have hfirst := ih.member n cs ds hcs
  have hmore := ih.moreMembers n _ _ hfirst.left
  rcases hcs.skipSpace h with ⟨hfront, hfront'⟩ | ⟨c, rest, rest', hfront, hfront', hrest⟩
  · rw [readMembers_other fuel n (by simp [hfront]), readMembers_other fuel n (by simp [hfront'])]
    exact ⟨congrArg₂ _ hfirst.taken hmore.taken, hmore.left⟩
  · by_cases hc : c = '}'
    · rw [Json.readMembers, Json.readMembers, hfront, hfront', hc]
      exact ⟨rfl, hrest⟩
    · rw [readMembers_other fuel n (by simpa [hfront] using hc),
        readMembers_other fuel n (by simpa [hfront'] using hc)]
      exact ⟨congrArg₂ _ hfirst.taken hmore.taken, hmore.left⟩

theorem ReadersAgree.readMoreMembers {fuel : Nat} (h : isSpace w = true) (ih : ReadersAgree w fuel)
    (n : Nat) (hcs : OrSpaced w cs ds) :
    Agree w (readMoreMembers (fuel + 1) n cs) (readMoreMembers (fuel + 1) n ds) := by
  rw [Json.readMoreMembers, Json.readMoreMembers]
  rcases hcs.skipSpace h with ⟨hfront, hfront'⟩ | ⟨c, rest, rest', hfront, hfront', hrest⟩
  · rw [hfront, hfront']
    exact ⟨rfl, .same⟩
  · rw [hfront, hfront']
    split
    case h_1 heq =>
      obtain ⟨rfl, rfl⟩ := List.cons.inj heq
      exact ⟨rfl, hrest⟩
    case h_2 heq =>
      obtain ⟨rfl, rfl⟩ := List.cons.inj heq
      have hfirst := ih.member n _ _ hrest
      have hmore := ih.moreMembers n _ _ hfirst.left
      exact ⟨congrArg₂ _ hfirst.taken hmore.taken, hmore.left⟩
    case h_3 hclose hcomma =>
      split
      case h_1 heq => exact (hclose rest (by rw [(List.cons.inj heq).1])).elim
      case h_2 heq => exact (hcomma rest (by rw [(List.cons.inj heq).1])).elim
      case h_3 => exact ⟨rfl, .same⟩

theorem ReadersAgree.readMember {fuel : Nat} (h : isSpace w = true) (ih : ReadersAgree w fuel)
    (n : Nat) (hcs : OrSpaced w cs ds) :
    Agree w (readMember (fuel + 1) n cs) (readMember (fuel + 1) n ds) := by
  rw [Json.readMember, Json.readMember]
  rcases hcs.skipSpace h with ⟨hfront, hfront'⟩ | ⟨c, rest, rest', hfront, hfront', hrest⟩
  · rw [hfront, hfront']
    exact ⟨rfl, .same⟩
  · rw [hfront, hfront']
    split
    case h_1 heq =>
      obtain ⟨rfl, rfl⟩ := List.cons.inj heq
      simp only
      rcases hrest.scanString h with ⟨hscan, hscan'⟩ | ⟨s, t, hscan, hscan', hchars, hclean, hleft⟩
      · rw [hscan, hscan']
        exact ⟨rfl, .same⟩
      · have hkeyed : ∀ j, keyed t j = keyed s j := by
          intro j
          rw [keyed, keyed, hchars, hclean]
        rw [hscan, hscan']
        simp only
        rcases hleft.skipSpace h with ⟨hcolon, hcolon'⟩ |
          ⟨c, behind, behind', hcolon, hcolon', hbehind⟩
        · rw [hcolon, hcolon']
          exact ⟨hkeyed _, .same⟩
        · rw [hcolon, hcolon']
          split
          case h_1 heq =>
            obtain ⟨rfl, rfl⟩ := List.cons.inj heq
            have hvalue := ih.value n _ _ hbehind
            exact ⟨(hkeyed _).trans (congrArg _ hvalue.taken), hvalue.left⟩
          case h_2 hother =>
            split
            case h_1 heq => exact (hother behind (by rw [(List.cons.inj heq).1])).elim
            case h_2 => exact ⟨hkeyed _, .same⟩
    case h_2 hother =>
      split
      case h_1 heq => exact (hother rest (by rw [(List.cons.inj heq).1])).elim
      case h_2 => exact ⟨rfl, .same⟩

theorem readersAgree (h : isSpace w = true) (fuel : Nat) : ReadersAgree w fuel := by
  induction fuel with
  | zero => exact .zero
  | succ fuel ih =>
    exact ⟨fun n _ _ => ih.readValue h n, fun n _ _ => ih.readItems h n,
      fun n _ _ => ih.readMoreItems h n, fun n _ _ => ih.readMembers h n,
      fun n _ _ => ih.readMoreMembers h n, fun n _ _ => ih.readMember h n⟩

/-! ## Whole texts -/

/-- **One more space at the end of a text changes nothing of what is read.** -/
theorem read_append_space (h : isSpace w = true) (s : String) :
    read (s ++ String.singleton w) = read s := by
  have hfuel : readValue (3 * (s.toList ++ [w]).length + 3) maxLevels s.toList =
      readFront s.toList :=
    readValue_of_le (by omega) (by rw [List.length_append]; omega) maxLevels
  have hagree : Agree w (readFront s.toList) (readFront (s.toList ++ [w])) := by
    rw [← hfuel]
    exact (readersAgree h _).value maxLevels _ _ .spaced
  have hempty : (skipSpace (readFront (s.toList ++ [w])).2).isEmpty =
      (skipSpace (readFront s.toList).2).isEmpty := by
    rcases hagree.left.skipSpace h with ⟨hfront, hfront'⟩ | ⟨c, rest, rest', hfront, hfront', -⟩
    · rw [hfront, hfront']
    · rw [hfront, hfront']
      rfl
  have htext : (s ++ String.singleton w).toList = s.toList ++ [w] := by
    rw [String.toList_append, String.toList_singleton]
  rw [read, read, htext]
  change (if (skipSpace (readFront (s.toList ++ [w])).2).isEmpty = true
    then (readFront (s.toList ++ [w])).1 else .flawed .malformed) = _
  rw [hempty, hagree.taken]

end AuditTrail.Json
