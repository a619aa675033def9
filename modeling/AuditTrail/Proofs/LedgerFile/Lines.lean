import AuditTrail.LedgerFile
import AuditTrail.Proofs.Entry.Codec
import AuditTrail.Proofs.Json.Controls
/-! # Lines of ledger files

Lines that are added to a file whose last line has ended are read after the lines that are there. A
line that an entry is written as is the text of the entry, which is neither blank nor followed by a
carriage return. So a file that read as some entries reads, with further entries written behind it,
as those entries and the further ones exactly when each of these is read back from its text
(`read_copied_iff`). -/

namespace AuditTrail.LedgerFile
set_option autoImplicit false

open Text (NoControls)

/-! ## Lines of bytes -/

/-- The last line has ended. -/
def Ended (bytes : List UInt8) : Prop := ∀ b ∈ bytes.getLast?, b = 10

theorem ended_nil : Ended [] := by
  intro b hb
  cases hb

theorem splitLines_cons (b : UInt8) (bytes : List UInt8) :
    splitLines (b :: bytes) = consByte b (splitLines bytes) := rfl

theorem consByte_ne_nil (b : UInt8) (lines : List (List UInt8)) : consByte b lines ≠ [] := by
  unfold consByte
  split
  · exact List.cons_ne_nil _ _
  · split <;> exact List.cons_ne_nil _ _

theorem consByte_append {lines : List (List UInt8)} (h : lines ≠ []) (b : UInt8)
    (more : List (List UInt8)) : consByte b (lines ++ more) = consByte b lines ++ more := by
  cases lines with
  | nil => exact absurd rfl h
  | cons line rest =>
    unfold consByte
    split <;> rfl

theorem splitLines_append {bytes : List UInt8} (h : Ended bytes) (more : List UInt8) :
    splitLines (bytes ++ more) = splitLines bytes ++ splitLines more := by
  induction bytes with
  | nil => rfl
  | cons b rest ih =>
    rw [List.cons_append, splitLines_cons, splitLines_cons]
    cases rest with
    | nil =>
      have hb : b = 10 := h b rfl
      rw [hb]
      rfl
    | cons c others =>
      have hrest : Ended (c :: others) := by
        rw [Ended, List.getLast?_cons_cons] at h
        exact h
      have hlines : splitLines (c :: others) ≠ [] := consByte_ne_nil c _
      rw [ih hrest, consByte_append hlines]

theorem splitLines_line {line : List UInt8} (h : (10 : UInt8) ∉ line) (more : List UInt8) :
    splitLines (line ++ 10 :: more) = line :: splitLines more := by
  induction line with
  | nil => rfl
  | cons b rest ih =>
    rw [List.mem_cons, not_or] at h
    have hb : b ≠ 10 := fun hb => h.1 hb.symm
    rw [List.cons_append, splitLines_cons, ih h.2]
    exact if_neg hb

/-! ## Lines read one after the other -/

/-- What a line gives that is read stands in front of what the lines behind it give. -/
theorem readLines_cons {line : List UInt8} {rest : List (List UInt8)} {number : Nat}
    {es : List Entry} (h : readLines number (line :: rest) = .ok es) :
    ∃ front others, readLines (number + 1) rest = .ok others ∧ es = front ++ others ∧
      ∀ more, readLines number (line :: more) = (readLines (number + 1) more).map (front ++ ·) := by
  rw [readLines] at h
  cases htext : lineText? line with
  | none =>
    rw [htext] at h
    cases h
  | some text =>
    simp only [htext] at h
    split at h
    · rename_i hblank
      refine ⟨[], es, h, rfl, ?_⟩
      intro more
      rw [readLines, htext]
      simp only [if_pos hblank]
      cases readLines (number + 1) more <;> rfl
    · rename_i hblank
      cases hentry : Entry.read? text with
      | none =>
        rw [hentry] at h
        cases h
      | some e =>
        simp only [hentry] at h
        cases hrest : readLines (number + 1) rest with
        | error fault =>
          rw [hrest] at h
          cases h
        | ok others =>
          rw [hrest] at h
          refine ⟨[e], others, rfl, (Except.ok.inj h).symm, ?_⟩
          intro more
          rw [readLines, htext]
          simp only [if_neg hblank, hentry]
          rfl

theorem readLines_append {lines : List (List UInt8)} {number : Nat} {es : List Entry}
    (h : readLines number lines = .ok es) (more : List (List UInt8)) :
    readLines number (lines ++ more) =
      (readLines (number + lines.length) more).map (es ++ ·) := by
  induction lines generalizing number es with
  | nil =>
    cases h
    cases hmore : readLines number more <;> simp [hmore, Except.map]
  | cons line rest ih =>
    obtain ⟨front, others, hrest, hes, hline⟩ := readLines_cons h
    have hnumber : number + (line :: rest).length = number + 1 + rest.length := by
      rw [List.length_cons]
      omega
    rw [List.cons_append, hline, ih hrest, hnumber, hes]
    cases readLines (number + 1 + rest.length) more <;> simp [Except.map]

/-! ## The line of an entry -/

/-- The bytes of an entry on its line. -/
def entryLine (e : Entry) : List UInt8 := e.write.flatMap String.utf8EncodeChar

theorem writeLine_bytes (e : Entry) : (writeLine e).data.toList = entryLine e ++ [10] := by
  rw [writeLine, Text.utf8_ofList, List.flatMap_append]
  rfl

theorem le_of_mem_entryLine {e : Entry} {b : UInt8} (h : b ∈ entryLine e) : 32 ≤ b.toNat :=
  e.toJson.noControls_write.le_of_mem h

theorem lineFeed_notMem_entryLine (e : Entry) : (10 : UInt8) ∉ entryLine e := by
  intro h
  exact absurd (le_of_mem_entryLine h) (by decide)

theorem dropReturn_entryLine (e : Entry) : dropReturn (entryLine e) = entryLine e := by
  rw [dropReturn, if_neg]
  intro h
  exact absurd (le_of_mem_entryLine (List.mem_of_getLast? h)) (by decide)

theorem lineText?_entryLine (e : Entry) : lineText? (entryLine e) = some e.render := by
  have hbytes : (⟨(entryLine e).toArray⟩ : ByteArray) = e.render.toUTF8 := by
    refine ByteArray.ext (Array.toList_inj.mp ?_)
    rw [Entry.render, Text.utf8_ofList]
    rfl
  rw [lineText?, dropReturn_entryLine, hbytes, Text.fromUTF8?_toUTF8]

theorem not_isAllBlank_render (e : Entry) : Text.isAllBlank e.render = false := by
  obtain ⟨cs, hcs⟩ : ∃ cs, e.write = '{' :: cs := ⟨_, rfl⟩
  rw [Text.isAllBlank, Entry.render, String.toList_ofList, hcs, List.all_cons]
  rfl

theorem readLines_entryLine (e : Entry) (number : Nat) (more : List (List UInt8)) :
    readLines number (entryLine e :: more) =
      match Entry.read? e.render with
      | none => .error (.ledgerEntry number)
      | some e' => (readLines (number + 1) more).map (e' :: ·) := by
  rw [readLines, lineText?_entryLine]
  exact if_neg (Bool.eq_false_iff.mp (not_isAllBlank_render e))

theorem readLines_entryLines_iff (es : List Entry) (number : Nat) :
    readLines number (es.map entryLine) = .ok es ↔ ∀ e ∈ es, Entry.read? e.render = some e := by
  induction es generalizing number with
  | nil => simp [readLines]
  | cons e rest ih =>
    rw [List.map_cons, readLines_entryLine, List.forall_mem_cons]
    cases hread : Entry.read? e.render with
    | none =>
      constructor
      · intro h
        cases h
      · intro h
        cases h.1
    | some e' =>
      simp only
      constructor
      · intro h
        cases hrest : readLines (number + 1) (rest.map entryLine) with
        | error fault =>
          rw [hrest] at h
          cases h
        | ok others =>
          rw [hrest] at h
          obtain ⟨rfl, rfl⟩ := List.cons.inj (Except.ok.inj h)
          exact ⟨rfl, (ih _).mp hrest⟩
      · intro h
        obtain ⟨rfl⟩ := h.1
        rw [(ih _).mpr h.2]
        rfl

/-! ## Entries copied behind a file -/

/-- The content of a file with the lines of some entries added at its end. -/
def copied (bytes : ByteArray) (es : List Entry) : ByteArray :=
  es.foldl (fun content e => content ++ writeLine e) bytes

theorem copied_concat (bytes : ByteArray) (es : List Entry) (e : Entry) :
    copied bytes (es ++ [e]) = copied bytes es ++ writeLine e := by
  rw [copied, List.foldl_append]
  rfl

theorem splitLines_copied (bytes : ByteArray) (h : Ended bytes.data.toList) (es : List Entry) :
    splitLines (copied bytes es).data.toList =
      splitLines bytes.data.toList ++ es.map entryLine := by
  induction es generalizing bytes with
  | nil => rw [List.map_nil, List.append_nil, copied, List.foldl_nil]
  | cons e rest ih =>
    have hbytes : (bytes ++ writeLine e).data.toList =
        bytes.data.toList ++ (entryLine e ++ [10]) := by
      rw [ByteArray.data_append, Array.toList_append, writeLine_bytes]
    have hended : Ended (bytes ++ writeLine e).data.toList := by
      rw [hbytes, Ended, ← List.append_assoc, List.getLast?_concat]
      intro b hb
      exact (Option.some.inj hb).symm
    have hline : splitLines (entryLine e ++ [10]) = [entryLine e] :=
      splitLines_line (lineFeed_notMem_entryLine e) []
    change splitLines (copied (bytes ++ writeLine e) rest).data.toList = _
    rw [ih _ hended, hbytes, splitLines_append h, hline, List.append_assoc]
    rfl

/-- **Entries copied behind a file are read after the entries of the file exactly when each is read
back from its text.** -/
theorem read_copied_iff {bytes : ByteArray} (h : Ended bytes.data.toList) {before : List Entry}
    (hread : read bytes = .ok before) (es : List Entry) :
    read (copied bytes es) = .ok (before ++ es) ↔ ∀ e ∈ es, Entry.read? e.render = some e := by
  rw [read] at hread
  rw [read, splitLines_copied bytes h, readLines_append hread, ← readLines_entryLines_iff]
  cases readLines (1 + (splitLines bytes.data.toList).length) (es.map entryLine) with
  | error fault =>
    constructor
    · intro h
      cases h
    · intro h
      cases h
  | ok es' =>
    constructor
    · intro h
      rw [List.append_cancel_left (Except.ok.inj h)]
    · intro h
      rw [Except.ok.inj h]
      rfl

end AuditTrail.LedgerFile
