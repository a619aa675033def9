import AuditTrail.Proofs.LedgerFile.Lines
/-! # Lines of any file

`AreLines` says what the lines of some bytes are: a line ends at a line feed, with a carriage return in
front of it if there is one, and the last line needs no end. There are always such lines, and no others
(`exists_areLines`, `AreLines.unique`). They are the pieces between the line feeds, of which some have
one carriage return more at their end (`AreLines.pieces`). -/

namespace AuditTrail.LedgerFile
set_option autoImplicit false

variable {bytes : List UInt8} {lines : List (List UInt8)}

/-- The lines of some bytes. A carriage return at the end of a last line that has no line feed belongs
to the line. -/
inductive AreLines : List UInt8 → List (List UInt8) → Prop where
  | nil : AreLines [] []
  | last (line : List UInt8) (hne : line ≠ []) (hfeed : 10 ∉ line) : AreLines line [line]
  | feed (line bytes : List UInt8) (lines : List (List UInt8)) (hfeed : 10 ∉ line)
    (hreturn : line.getLast? ≠ some 13) (hrest : AreLines bytes lines) :
    AreLines (line ++ 10 :: bytes) (line :: lines)
  | returnFeed (line bytes : List UInt8) (lines : List (List UInt8)) (hfeed : 10 ∉ line)
    (hrest : AreLines bytes lines) : AreLines (line ++ 13 :: 10 :: bytes) (line :: lines)

theorem dropReturn_concat (line : List UInt8) : dropReturn (line ++ [13]) = line := by
  rw [dropReturn, if_pos List.getLast?_concat, List.dropLast_concat]

/-! ## There are lines, and no others -/

theorem exists_areLines (bytes : List UInt8) : ∃ lines, AreLines bytes lines := by
  induction hlen : bytes.length using Nat.strong_induction_on generalizing bytes with
  | _ n ih =>
    by_cases hfeed : (10 : UInt8) ∈ bytes
    · obtain ⟨line, more, rfl, hline⟩ := List.eq_append_cons_of_mem hfeed
      obtain ⟨lines, hlines⟩ := ih more.length (by rw [← hlen]; simp; omega) more rfl
      by_cases hreturn : line.getLast? = some 13
      · obtain ⟨front, rfl⟩ := List.getLast?_eq_some_iff.mp hreturn
        rw [List.append_assoc]
        exact ⟨front :: lines, .returnFeed _ _ _ (fun hmem => hline (by simp [hmem])) hlines⟩
      · exact ⟨line :: lines, .feed _ _ _ hline hreturn hlines⟩
    · by_cases hne : bytes = []
      · exact ⟨[], hne ▸ .nil⟩
      · exact ⟨[bytes], .last _ hne hfeed⟩

/-- What stands in front of the first line feed, and what stands behind it. -/
theorem append_feed_inj {line line' more more' : List UInt8} (hline : 10 ∉ line)
    (hline' : 10 ∉ line') (h : line ++ 10 :: more = line' ++ 10 :: more') :
    line = line' ∧ more = more' := by
  induction line generalizing line' with
  | nil =>
    cases line' with
    | nil => exact ⟨rfl, (List.cons.inj h).2⟩
    | cons b rest => exact absurd (by rw [(List.cons.inj h).1]; simp) hline'
  | cons b rest ih =>
    cases line' with
    | nil => exact absurd (by rw [← (List.cons.inj h).1]; simp) hline
    | cons b' rest' =>
      rw [List.mem_cons, not_or] at hline hline'
      obtain ⟨hb, hrest⟩ := List.cons.inj h
      obtain ⟨hrests, hmore⟩ := ih hline.2 hline'.2 hrest
      exact ⟨by rw [hb, hrests], hmore⟩

theorem AreLines.of_feed {line : List UInt8} (h : AreLines (line ++ 10 :: bytes) lines)
    (hfeed : 10 ∉ line) : ∃ rest, AreLines bytes rest ∧ lines = dropReturn line :: rest := by
  generalize hall : line ++ 10 :: bytes = all at h
  cases h with
  | nil => cases List.append_ne_nil_of_right_ne_nil _ (List.cons_ne_nil _ _) hall
  | last _ _ hnone => exact absurd (by rw [← hall]; simp) hnone
  | feed line' bytes' lines' hfeed' hreturn hrest =>
    obtain ⟨rfl, rfl⟩ := append_feed_inj hfeed hfeed' hall
    exact ⟨lines', hrest, by rw [dropReturn, if_neg hreturn]⟩
  | returnFeed line' bytes' lines' hfeed' hrest =>
    have hfeed'' : (10 : UInt8) ∉ line' ++ [13] := by simpa using hfeed'
    rw [List.append_cons line' 13] at hall
    obtain ⟨rfl, rfl⟩ := append_feed_inj hfeed hfeed'' hall
    exact ⟨lines', hrest, by rw [dropReturn_concat]⟩

theorem AreLines.of_last {line : List UInt8} (h : AreLines line lines) (hfeed : 10 ∉ line) :
    lines = if line = [] then [] else [line] := by
  cases h with
  | nil => rfl
  | last _ hne _ => rw [if_neg hne]
  | feed => exact absurd (by simp) hfeed
  | returnFeed => exact absurd (by simp) hfeed

theorem AreLines.unique {other : List (List UInt8)} (h : AreLines bytes lines)
    (h' : AreLines bytes other) : other = lines := by
  induction h generalizing other with
  | nil => exact h'.of_last (by simp)
  | last line hne hfeed => rw [h'.of_last hfeed, if_neg hne]
  | feed line bytes lines hfeed hreturn _ ih =>
    obtain ⟨rest, hrest, rfl⟩ := h'.of_feed hfeed
    rw [ih hrest, dropReturn, if_neg hreturn]
  | returnFeed line bytes lines hfeed _ ih =>
    rw [List.append_cons line 13] at h'
    obtain ⟨rest, hrest, rfl⟩ := h'.of_feed (by simpa using hfeed)
    rw [ih hrest, dropReturn_concat]

/-! ## Pieces between line feeds -/

/-- A piece is its line, or the line and a carriage return. -/
def IsPiece (piece line : List UInt8) : Prop := piece = line ∨ piece = line ++ [13]

theorem splitLines_last {line : List UInt8} (hne : line ≠ []) (hfeed : (10 : UInt8) ∉ line) :
    splitLines line = [line] := by
  induction line with
  | nil => exact absurd rfl hne
  | cons b rest ih =>
    rw [List.mem_cons, not_or] at hfeed
    have hb : b ≠ 10 := fun hb => hfeed.1 hb.symm
    rw [splitLines_cons]
    cases rest with
    | nil => exact if_neg hb
    | cons c others =>
      rw [ih (List.cons_ne_nil _ _) hfeed.2]
      exact if_neg hb

theorem AreLines.pieces (h : AreLines bytes lines) :
    List.Forall₂ IsPiece (splitLines bytes) lines := by
  induction h with
  | nil => exact .nil
  | last line hne hfeed =>
    rw [splitLines_last hne hfeed]
    exact .cons (Or.inl rfl) .nil
  | feed line bytes lines hfeed _ _ ih =>
    rw [splitLines_line hfeed]
    exact .cons (Or.inl rfl) ih
  | returnFeed line bytes lines hfeed _ ih =>
    rw [List.append_cons line 13, splitLines_line (by simpa using hfeed)]
    exact .cons (Or.inr rfl) ih

end AuditTrail.LedgerFile
