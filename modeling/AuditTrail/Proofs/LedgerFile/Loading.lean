import Mathlib.Logic.Relation
import AuditTrail.Entry.Draft
import AuditTrail.Proofs.Json.TrailingSpace
import AuditTrail.Proofs.LedgerFile.Export
import AuditTrail.Proofs.LedgerFile.FileLines
/-! # Loading by lines

Every line of a file is blank, writes an entry or has a fault, and loading goes over a blank line, takes
the entry of a line that writes one and stops at a fault (`line_cases`, `readLines_blank`,
`readLines_writes`, `readLines_fault`). A carriage return more or less at the end of a line changes
nothing of this, since it is blank and no reader of JSON sees it. So a file is loaded exactly when no
line has a fault, with the entries of its lines in order, and the error names the first line that has
one (`load_by_lines`). -/

namespace AuditTrail.LedgerFile
set_option autoImplicit false

variable {piece line : List UInt8} {pieces lines rest : List (List UInt8)}

/-! ## What a line says -/

def textOf? (line : List UInt8) : Option String := String.fromUTF8? ⟨line.toArray⟩

/-- The line is a text of white space, or empty. -/
def IsBlank (line : List UInt8) : Prop :=
  ∃ text, textOf? line = some text ∧ Text.isAllBlank text = true

/-- The line is a text that writes the entry. -/
def Writes (line : List UInt8) (e : Entry) : Prop :=
  ∃ text, textOf? line = some text ∧ Text.isAllBlank text = false ∧ Entry.read? text = some e

/-- The line is a text, and an entry can be read from it if it is not blank. -/
def IsReadable (line : List UInt8) : Prop :=
  ∃ text, textOf? line = some text ∧
    (Text.isAllBlank text = false → ∃ e, Entry.read? text = some e)

/-- The error of a line with a number. -/
inductive IsFault (number : Nat) (line : List UInt8) : AuditError → Prop where
  | notText (hnone : textOf? line = none) : IsFault number line (.ledgerLine number .notText)
  | noEntry (text : String) (htext : textOf? line = some text)
    (hblank : Text.isAllBlank text = false) (hread : Entry.read? text = none) :
    IsFault number line (.ledgerEntry number)

/-- The entries of some lines, one from each line that is not blank, in the order of the lines. -/
inductive LinesRead : List (List UInt8) → List Entry → Prop where
  | nil : LinesRead [] []
  | blank {line : List UInt8} {rest : List (List UInt8)} {es : List Entry} (hline : IsBlank line)
    (hrest : LinesRead rest es) : LinesRead (line :: rest) es
  | writes {line : List UInt8} {rest : List (List UInt8)} {e : Entry} {es : List Entry}
    (hline : Writes line e) (hrest : LinesRead rest es) : LinesRead (line :: rest) (e :: es)

theorem line_cases (line : List UInt8) (number : Nat) :
    (IsBlank line ∨ ∃ e, Writes line e) ∨ ∃ e, IsFault number line e := by
  cases htext : textOf? line with
  | none => exact Or.inr ⟨_, .notText htext⟩
  | some text =>
    cases hblank : Text.isAllBlank text with
    | true => exact Or.inl (Or.inl ⟨text, htext, hblank⟩)
    | false =>
      cases hread : Entry.read? text with
      | none => exact Or.inr ⟨_, .noEntry text htext hblank hread⟩
      | some e => exact Or.inl (Or.inr ⟨e, text, htext, hblank, hread⟩)

theorem IsBlank.isReadable (h : IsBlank line) : IsReadable line := by
  obtain ⟨text, htext, hblank⟩ := h
  refine ⟨text, htext, fun hnot => ?_⟩
  rw [hblank] at hnot
  cases hnot

theorem Writes.isReadable {e : Entry} (h : Writes line e) : IsReadable line := by
  obtain ⟨text, htext, -, hread⟩ := h
  exact ⟨text, htext, fun _ => ⟨e, hread⟩⟩

theorem IsFault.detail {number : Nat} {e : AuditError} (h : IsFault number line e) :
    e.detail = "Failed to read line " ++ toString number ++
        ": " ++ FileFault.notText.message ∨
      e.detail = "Failed to parse entry at line " ++ toString number := by
  cases h with
  | notText => exact Or.inl rfl
  | noEntry => exact Or.inr rfl

theorem IsFault.not_isReadable {number : Nat} {e : AuditError} (h : IsFault number line e) :
    ¬ IsReadable line := by
  rintro ⟨text, htext, hentry⟩
  cases h with
  | notText hnone =>
    rw [hnone] at htext
    cases htext
  | noEntry text' htext' hblank hread =>
    obtain rfl : text' = text := Option.some.inj (htext'.symm.trans htext)
    obtain ⟨e, he⟩ := hentry hblank
    rw [hread] at he
    cases he

/-! ## A carriage return at the end of a line -/

theorem isAllBlank_append_return (text : String) :
    Text.isAllBlank (text ++ String.singleton '\r') = Text.isAllBlank text := by
  have hreturn : Text.isBlank '\r' = true := by decide
  simp [Text.isAllBlank, hreturn]

theorem read?_append_return (text : String) :
    Entry.read? (text ++ String.singleton '\r') = Entry.read? text := by
  rw [Entry.read?, Entry.read?, Json.read_append_space (by decide)]

/-- The text of a piece says what the text of its line says. -/
theorem IsPiece.text_cases (h : IsPiece piece line) :
    (textOf? line = none ∧ lineText? piece = none) ∨
    ∃ text text', textOf? line = some text ∧ lineText? piece = some text' ∧
      Text.isAllBlank text' = Text.isAllBlank text ∧ Entry.read? text' = Entry.read? text := by
  have hsame : textOf? line = lineText? piece ∨
      textOf? line = (lineText? piece).map (· ++ String.singleton '\r') := by
    rcases h with rfl | rfl
    · by_cases hreturn : piece.getLast? = some 13
      · obtain ⟨front, rfl⟩ := List.getLast?_eq_some_iff.mp hreturn
        rw [lineText?, dropReturn_concat]
        exact Or.inr (Text.fromUTF8?_append_return front)
      · rw [lineText?, dropReturn, if_neg hreturn]
        exact Or.inl rfl
    · rw [lineText?, dropReturn_concat]
      exact Or.inl rfl
  cases hpiece : lineText? piece with
  | none =>
    refine Or.inl ⟨?_, rfl⟩
    rw [hpiece] at hsame
    exact hsame.elim id id
  | some text =>
    rw [hpiece] at hsame
    rcases hsame with hsame | hsame
    · exact Or.inr ⟨text, text, hsame, rfl, rfl, rfl⟩
    · exact Or.inr ⟨_, text, hsame, rfl, (isAllBlank_append_return text).symm,
        (read?_append_return text).symm⟩

/-! ## One line -/

theorem readLines_blank (h : IsPiece piece line) (hline : IsBlank line) (number : Nat) :
    readLines number (piece :: rest) = readLines (number + 1) rest := by
  obtain ⟨text, htext, hblank⟩ := hline
  rcases h.text_cases with ⟨hnone, -⟩ | ⟨_, text', hline, hpiece, hblank', -⟩
  · rw [hnone] at htext
    cases htext
  · obtain rfl := Option.some.inj (htext.symm.trans hline)
    rw [readLines, hpiece]
    exact if_pos (hblank'.trans hblank)

theorem readLines_writes (h : IsPiece piece line) {e : Entry} (hline : Writes line e)
    (number : Nat) :
    readLines number (piece :: rest) = (readLines (number + 1) rest).map (e :: ·) := by
  obtain ⟨text, htext, hblank, hread⟩ := hline
  rcases h.text_cases with ⟨hnone, -⟩ | ⟨_, text', hline, hpiece, hblank', hread'⟩
  · rw [hnone] at htext
    cases htext
  · obtain rfl := Option.some.inj (htext.symm.trans hline)
    rw [readLines, hpiece]
    simp only [hblank', hblank, if_neg Bool.false_ne_true, hread', hread]

theorem readLines_fault (h : IsPiece piece line) {number : Nat} {e : AuditError}
    (hline : IsFault number line e) : readLines number (piece :: rest) = .error e := by
  rcases h.text_cases with ⟨hnone, hpiece⟩ | ⟨text, text', htext, hpiece, hblank', hread'⟩
  · cases hline with
    | notText => rw [readLines, hpiece]
    | noEntry text htext =>
      rw [hnone] at htext
      cases htext
  · cases hline with
    | notText hnone =>
      rw [hnone] at htext
      cases htext
    | noEntry _ hline hblank hread =>
      obtain rfl := Option.some.inj (htext.symm.trans hline)
      rw [readLines, hpiece]
      simp only [hblank', hblank, if_neg Bool.false_ne_true, hread', hread]

/-! ## All lines -/

theorem LinesRead.readLines {es : List Entry} (hread : LinesRead lines es)
    (h : List.Forall₂ IsPiece pieces lines) (number : Nat) : readLines number pieces = .ok es := by
  induction h generalizing number es with
  | nil =>
    cases hread
    rfl
  | cons hpiece _ ih =>
    cases hread with
    | blank hline hrest => rw [readLines_blank hpiece hline, ih hrest]
    | writes hline hrest =>
      rw [readLines_writes hpiece hline, ih hrest]
      rfl

theorem LinesRead.isReadable {es : List Entry} (h : LinesRead lines es) :
    ∀ line ∈ lines, IsReadable line := by
  induction h with
  | nil => exact fun line hline => absurd hline List.not_mem_nil
  | blank hline _ ih => exact List.forall_mem_cons.mpr ⟨hline.isReadable, ih⟩
  | writes hline _ ih => exact List.forall_mem_cons.mpr ⟨hline.isReadable, ih⟩

/-- Some pieces are read as the entries of their lines, or fail for the first line that has a fault. -/
theorem readLines_cases (h : List.Forall₂ IsPiece pieces lines) (number : Nat) :
    (∃ es, LinesRead lines es ∧ readLines number pieces = .ok es) ∨
    ∃ before line after e, lines = before ++ line :: after ∧ (∀ l ∈ before, IsReadable l) ∧
      IsFault (number + before.length) line e ∧ readLines number pieces = .error e := by
  induction h generalizing number with
  | nil => exact Or.inl ⟨[], .nil, rfl⟩
  | @cons piece line pieces lines hpiece _ ih =>
    rcases line_cases line number with hline | ⟨e, hfault⟩
    · have hreadable : IsReadable line := by
        rcases hline with hblank | ⟨e, hwrites⟩
        · exact hblank.isReadable
        · exact hwrites.isReadable
      rcases ih (number + 1) with ⟨es, hes, hok⟩ | ⟨before, bad, after, e, rfl, hbefore, hbad, herr⟩
      · rcases hline with hblank | ⟨e, hwrites⟩
        · exact Or.inl ⟨es, .blank hblank hes, by rw [readLines_blank hpiece hblank, hok]⟩
        · refine Or.inl ⟨e :: es, .writes hwrites hes, ?_⟩
          rw [readLines_writes hpiece hwrites, hok]
          rfl
      · refine Or.inr ⟨line :: before, bad, after, e, rfl,
          List.forall_mem_cons.mpr ⟨hreadable, hbefore⟩, ?_, ?_⟩
        · rw [List.length_cons, Nat.add_comm before.length, ← Nat.add_assoc]
          exact hbad
        · rcases hline with hblank | ⟨e', hwrites⟩
          · rw [readLines_blank hpiece hblank, herr]
          · rw [readLines_writes hpiece hwrites, herr]
            rfl
    · exact Or.inr ⟨[], line, lines, e, rfl, fun l hl => absurd hl List.not_mem_nil, hfault,
        readLines_fault hpiece hfault⟩

theorem readLines_eq_ok_iff (h : List.Forall₂ IsPiece pieces lines) (number : Nat)
    (es : List Entry) : readLines number pieces = .ok es ↔ LinesRead lines es := by
  constructor
  · intro hok
    rcases readLines_cases h number with ⟨es', hread, hok'⟩ | ⟨-, -, -, e, -, -, -, herr⟩
    · rw [hok] at hok'
      rw [Except.ok.inj hok']
      exact hread
    · rw [hok] at herr
      cases herr
  · exact fun hread => hread.readLines h number

/-! ## Changes of the line ends -/

theorem forall₂_isPiece_self (pieces : List (List UInt8)) : List.Forall₂ IsPiece pieces pieces :=
  List.forall₂_same.mpr fun _ _ => Or.inl rfl

theorem linesRead_pieces_iff (h : List.Forall₂ IsPiece pieces lines) (es : List Entry) :
    LinesRead pieces es ↔ LinesRead lines es := by
  rw [← readLines_eq_ok_iff (forall₂_isPiece_self pieces) 1, readLines_eq_ok_iff h]

theorem linesRead_blank_iff (hline : IsBlank line) (es : List Entry) :
    LinesRead (line :: rest) es ↔ LinesRead rest es := by
  rw [← readLines_eq_ok_iff (forall₂_isPiece_self _) 1, readLines_blank (Or.inl rfl) hline,
    readLines_eq_ok_iff (forall₂_isPiece_self _)]

/-- What is read from the lines behind some front decides what is read from all of them. -/
theorem linesRead_append_congr (front : List (List UInt8)) {behind behind' : List (List UInt8)}
    (h : ∀ es, LinesRead behind es ↔ LinesRead behind' es) (es : List Entry) :
    LinesRead (front ++ behind) es ↔ LinesRead (front ++ behind') es := by
  induction front generalizing es with
  | nil => exact h es
  | cons line front ih =>
    constructor
    · intro hread
      cases hread with
      | blank hline hrest => exact .blank hline ((ih _).mp hrest)
      | writes hline hrest => exact .writes hline ((ih _).mp hrest)
    · intro hread
      cases hread with
      | blank hline hrest => exact .blank hline ((ih _).mpr hrest)
      | writes hline hrest => exact .writes hline ((ih _).mpr hrest)

/-- A change of a file that leaves its entries alone. A blank line is put in front of some line, a
carriage return in front of some line feed, or a line feed behind the last line. -/
inductive Relined : List UInt8 → List UInt8 → Prop where
  | blankLine (before line after : List UInt8) (hended : Ended before) (hfeed : 10 ∉ line)
    (hblank : IsBlank line) : Relined (before ++ after) (before ++ (line ++ 10 :: after))
  | returned (before after : List UInt8) : Relined (before ++ 10 :: after) (before ++ 13 :: 10 :: after)
  | lastEnd (bytes : List UInt8) : Relined bytes (bytes ++ [10])

/-- Some bytes are lines that have ended and the front of a line. -/
theorem exists_ended_append (bytes : List UInt8) :
    ∃ before line, bytes = before ++ line ∧ Ended before ∧ (10 : UInt8) ∉ line := by
  induction bytes using List.reverseRecOn with
  | nil => exact ⟨[], [], rfl, ended_nil, List.not_mem_nil⟩
  | append_singleton bytes b ih =>
    by_cases hb : b = 10
    · refine ⟨bytes ++ [b], [], (List.append_nil _).symm, ?_, List.not_mem_nil⟩
      rw [Ended, List.getLast?_concat]
      rintro c ⟨rfl⟩
      exact hb
    · obtain ⟨before, line, rfl, hended, hline⟩ := ih
      refine ⟨before, line ++ [b], List.append_assoc _ _ _, hended, ?_⟩
      rw [List.mem_append, List.mem_singleton, not_or]
      exact ⟨hline, fun h => hb h.symm⟩

theorem isBlank_nil : IsBlank [] := ⟨"", (Text.fromUTF8?_toUTF8 ""), rfl⟩

theorem Relined.linesRead_iff {bytes bytes' : List UInt8} (h : Relined bytes bytes')
    (es : List Entry) : LinesRead (splitLines bytes) es ↔ LinesRead (splitLines bytes') es := by
  cases h with
  | blankLine before line after hended hfeed hblank =>
    rw [splitLines_append hended, splitLines_append hended, splitLines_line hfeed]
    exact linesRead_append_congr _ (fun es => (linesRead_blank_iff hblank es).symm) es
  | returned before after =>
    obtain ⟨before, line, rfl, hended, hline⟩ := exists_ended_append before
    have hline' : (10 : UInt8) ∉ line ++ [13] := by simpa using hline
    rw [List.append_assoc, List.append_assoc, List.append_cons line 13, splitLines_append hended,
      splitLines_append hended, splitLines_line hline, splitLines_line hline']
    refine linesRead_append_congr _ (fun es => (linesRead_pieces_iff ?_ es).symm) es
    exact .cons (Or.inr rfl) (forall₂_isPiece_self _)
  | lastEnd =>
    obtain ⟨before, line, rfl, hended, hline⟩ := exists_ended_append bytes
    rw [List.append_assoc, splitLines_append hended, splitLines_append hended,
      splitLines_line hline]
    refine linesRead_append_congr _ (fun es => ?_) es
    by_cases hne : line = []
    · rw [hne]
      exact (linesRead_blank_iff isBlank_nil es).symm
    · rw [splitLines_last hne hline]
      rfl

theorem linesRead_iff_of_relined {bytes bytes' : List UInt8}
    (h : Relation.EqvGen Relined bytes bytes') (es : List Entry) :
    LinesRead (splitLines bytes) es ↔ LinesRead (splitLines bytes') es := by
  induction h with
  | rel _ _ hchange => exact hchange.linesRead_iff es
  | refl => rfl
  | symm _ _ _ ih => exact ih.symm
  | trans _ _ _ _ _ ih ih' => exact ih.trans ih'

/-! ## Whole files -/

/-- **A file is loaded by its lines.** It is loaded exactly when each of its lines is a text, and writes
an entry unless it is blank; the entries are then those of its lines, in order. Otherwise the error is
that of the first line which is no text, or is not blank and writes no entry, and names its number, the
blank lines before it counted. Blank lines that are put in or taken out, other line ends, and an end of
the last line that is put in or taken out change nothing of what is loaded. -/
theorem load_by_lines {store : FileStore} {path : String} {bytes : ByteArray}
    (hfile : store.find path = .ok (.file bytes)) :
    ∃ lines, AreLines bytes.data.toList lines ∧
      (∀ other, AreLines bytes.data.toList other → other = lines) ∧
      ((∃ es, load store path = .ok es) ↔ ∀ line ∈ lines, IsReadable line) ∧
      (∀ es, load store path = .ok es ↔ LinesRead lines es) ∧
      (∀ e, load store path = .error e → ∃ before line after,
        lines = before ++ line :: after ∧ (∀ l ∈ before, IsReadable l) ∧
        IsFault (before.length + 1) line e ∧
        (e.detail = "Failed to read line " ++ toString (before.length + 1) ++
            ": " ++ FileFault.notText.message ∨
          e.detail = "Failed to parse entry at line " ++ toString (before.length + 1))) ∧
      ∀ (store' : FileStore) (path' : String) (bytes' : ByteArray),
        store'.find path' = .ok (.file bytes') →
        Relation.EqvGen Relined bytes.data.toList bytes'.data.toList →
        ∀ es, load store' path' = .ok es ↔ load store path = .ok es := by
  obtain ⟨lines, hlines⟩ := exists_areLines bytes.data.toList
  have hload : ∀ {store : FileStore} {path : String} {bytes : ByteArray},
      store.find path = .ok (.file bytes) →
        load store path = readLines 1 (splitLines bytes.data.toList) := by
    intro store path bytes hfile
    rw [load, hfile]
    rfl
  have hok : ∀ es, load store path = .ok es ↔ LinesRead lines es := by
    intro es
    rw [hload hfile, readLines_eq_ok_iff hlines.pieces]
  refine ⟨lines, hlines, fun other => hlines.unique, ?_, hok, ?_, ?_⟩
  · constructor
    · rintro ⟨es, hes⟩
      exact ((hok es).mp hes).isReadable
    · intro hreadable
      rcases readLines_cases hlines.pieces 1 with
        ⟨es, hread, -⟩ | ⟨before, line, after, e, rfl, -, hfault, -⟩
      · exact ⟨es, (hok es).mpr hread⟩
      · exact absurd (hreadable line (by simp)) hfault.not_isReadable
  · intro e herr
    rcases readLines_cases hlines.pieces 1 with
      ⟨es, hread, -⟩ | ⟨before, line, after, e', hsplit, hbefore, hfault, herr'⟩
    · rw [(hok es).mpr hread] at herr
      cases herr
    · rw [hload hfile, herr'] at herr
      obtain rfl := Except.error.inj herr
      rw [Nat.add_comm] at hfault
      exact ⟨before, line, after, hsplit, hbefore, hfault, hfault.detail⟩
  · intro store' path' bytes' hfile' hchange es
    rw [hload hfile, hload hfile', readLines_eq_ok_iff (forall₂_isPiece_self _),
      readLines_eq_ok_iff (forall₂_isPiece_self _)]
    exact (linesRead_iff_of_relined hchange es).symm

/-- The line of an entry is changed when its end is taken off and a blank line is put in front of it. -/
theorem relined_writeLine (e : Entry) : Relation.EqvGen Relined (writeLine e).data.toList
    ([32, 13] ++ 10 :: entryLine e) := by
  have hend : Relined (entryLine e) (writeLine e).data.toList := by
    rw [writeLine_bytes]
    exact .lastEnd _
  have hblank : IsBlank [32, 13] := ⟨" \r", Text.fromUTF8?_toUTF8 " \r", rfl⟩
  have hput : Relined (entryLine e) ([32, 13] ++ 10 :: entryLine e) :=
    .blankLine [] [32, 13] (entryLine e) ended_nil (by decide) hblank
  exact .trans _ _ _ (.symm _ _ (.rel _ _ hend)) (.rel _ _ hput)

/-- A line of one entry, and the same without its end behind a blank line that has a carriage return. -/
theorem load_by_lines_unended : ∃ (e : Entry) (bytes bytes' : ByteArray),
    (storeOf bytes).find "ledger" = .ok (.file bytes) ∧
    (storeOf bytes').find "ledger" = .ok (.file bytes') ∧
    Relation.EqvGen Relined bytes.data.toList bytes'.data.toList ∧
    (∀ lines, AreLines bytes.data.toList lines → ∀ line ∈ lines, IsReadable line) ∧
    load (storeOf bytes) "ledger" = .ok [e] ∧ load (storeOf bytes') "ledger" = .ok [e] := by
  obtain ⟨e, hread⟩ : ∃ e, Entry.read? e.render = some e := by
    refine ⟨.draft .standard "AE-1" (.startOf ⟨2024, 3, 5, by decide⟩) 1
      (.reinstatement "cid" "user-1" "reason"), ?_⟩
    exact (Entry.read?_render_iff _ (Entry.doublesReadBack_of_nil rfl)
      ((Entry.levels_toJson_le_iff _ (by decide)).mpr (by decide))).mpr rfl
  refine ⟨e, writeLine e, ⟨([32, 13] ++ 10 :: entryLine e).toArray⟩, ?_⟩
  have hfind := (holds_storeOf (writeLine e)).find
  have hfind' := (holds_storeOf ⟨([32, 13] ++ 10 :: entryLine e).toArray⟩).find
  have hload : load (storeOf (writeLine e)) "ledger" = .ok [e] := by
    rw [(holds_storeOf (writeLine e)).load, read, writeLine_bytes,
      splitLines_line (lineFeed_notMem_entryLine e)]
    exact (readLines_entryLines_iff [e] 1).mpr (List.forall_mem_singleton.mpr hread)
  obtain ⟨lines, hlines, hunique, hsuccess, -, -, hsame⟩ := load_by_lines hfind
  refine ⟨hfind, hfind', relined_writeLine e, ?_, hload, ?_⟩
  · intro other hother
    rw [hunique other hother]
    exact hsuccess.mp ⟨_, hload⟩
  · exact (hsame _ _ _ hfind' (relined_writeLine e) _).mpr hload

end AuditTrail.LedgerFile
