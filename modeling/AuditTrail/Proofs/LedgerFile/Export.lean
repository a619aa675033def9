import AuditTrail.Proofs.File.Store
import AuditTrail.Proofs.LedgerFile.Lines
/-! # The export file

Opening the export file makes it where nothing lies and leaves it as it is where it lies, and each
write that succeeds adds its bytes at the end of it. -/

namespace AuditTrail.LedgerFile
set_option autoImplicit false

variable {files files' : FileStore} {path : String} {place : Place} {bytes : ByteArray}

/-- A path leads to a file with some bytes at a place. -/
structure Holds (files : FileStore) (path : String) (place : Place) (bytes : ByteArray) : Prop where
  ne_nil : place ≠ []
  resolve : files.resolve path = .ok (.found place (.file bytes))

theorem Holds.node (h : Holds files path place bytes) :
    files.node? place = some (.file bytes) :=
  FileStore.resolve_found h.resolve

theorem Holds.find (h : Holds files path place bytes) : files.find path = .ok (.file bytes) := by
  rw [FileStore.find, h.resolve]

theorem Holds.load (h : Holds files path place bytes) : load files path = read bytes := by
  rw [LedgerFile.load, h.find]
  rfl

theorem Holds.verify (h : Holds files path place bytes) (checker : Option Signer) (now : Instant) :
    verify files path checker now = (read bytes).map (Verification.of checker now) := by
  have hhas : files.has path = true := by
    rw [FileStore.has, h.find]
    rfl
  rw [LedgerFile.verify, if_pos hhas, h.load]

/-- A store with one file. -/
def storeOf (bytes : ByteArray) : FileStore := ⟨[(["ledger"], .file bytes)], [], fun _ => none, 0⟩

theorem holds_storeOf (bytes : ByteArray) : Holds (storeOf bytes) "ledger" ["ledger"] bytes :=
  ⟨List.cons_ne_nil _ _, rfl⟩

/-! ## Opening -/

/-- Nothing lies at a place, or a file that reads as some entries and whose last line has ended. -/
def Ready (files : FileStore) (place : Place) (before : List Entry) : Prop :=
  match files.node? place with
  | none => before = []
  | some (.file bytes) => Ended bytes.data.toList ∧ read bytes = .ok before
  | some .folder => False
  | some .full => False

/-- Nothing lies at a place, or an empty file. -/
def Fresh (files : FileStore) (place : Place) : Prop :=
  files.node? place = none ∨ files.node? place = some (.file .empty)

theorem ready_of_fresh (h : Fresh files place) : Ready files place [] := by
  rcases h with h | h
  · rw [Ready, h]
  · rw [Ready, h]
    exact ⟨ended_nil, rfl⟩

theorem Ready.eq_nil_of_fresh {before : List Entry} (h : Ready files place before)
    (hfresh : Fresh files place) : before = [] := by
  rcases hfresh with hnode | hnode
  · rw [Ready, hnode] at h
    exact h
  · rw [Ready, hnode] at h
    exact (Except.ok.inj h.2).symm

theorem openForAppending_cases (h : files.openForAppending path = .ok (place, files')) :
    (∃ node, files.resolve path = .ok (.found place node) ∧ node ≠ .folder ∧ files' = files) ∨
    (files.resolve path = .ok (.free place false) ∧ files' = files.put place (.file .empty)) := by
  rw [FileStore.openForAppending] at h
  split at h
  · cases h
  · split at h
    · cases h
    · cases h
    · rename_i hnode hfound
      cases h
      exact Or.inl ⟨_, hfound, hnode, rfl⟩
    · cases h
    · rename_i hfree
      cases h
      exact Or.inr ⟨hfree, rfl⟩

/-- What opening the export file leaves behind. -/
theorem openExport_holds {before : List Entry} (ready : Ready files place before)
    (h : openExport files path = .ok (place, files')) :
    ∃ bytes, Holds files' path place bytes ∧ Ended bytes.data.toList ∧ read bytes = .ok before ∧
      files'.failures = files.failures ∧ files'.writes = files.writes := by
  unfold openExport at h
  split at h
  · cases h
  rename_i made hmade
  split at h
  · cases h
  rename_i opened hopened
  cases h
  have hgrown := FileStore.grown_makeFolders hmade
  rcases openForAppending_cases hopened with ⟨node, hfound, hfolder, rfl⟩ | ⟨hfree, rfl⟩
  · have hnode := FileStore.resolve_found hfound
    have hsame : files.node? place = some node := by
      rcases hgrown.node place with hq | ⟨-, hq⟩
      · rw [← hq, hnode]
      · rw [hnode] at hq
        exact absurd (Option.some.inj hq) hfolder
    rw [Ready, hsame] at ready
    cases node with
    | folder => exact ready.elim
    | full => exact ready.elim
    | file bytes =>
      have hne : place ≠ [] := by
        intro hp
        rw [hp] at hsame
        cases hsame
      exact ⟨bytes, ⟨hne, hfound⟩, ready.1, ready.2, hgrown.failures, hgrown.writes⟩
  · obtain ⟨hnone, hne⟩ := FileStore.resolve_free hfree
    have hsame : files.node? place = none := by
      rcases hgrown.node place with hq | ⟨hq, -⟩
      · rw [← hq, hnone]
      · exact hq
    rw [Ready, hsame] at ready
    have hput := FileStore.resolve_put hfree ⟨rfl, rfl⟩ hne (by simp [hnone]) .empty
    refine ⟨.empty, ⟨hne, hput⟩, ended_nil, ?_, hgrown.failures, hgrown.writes⟩
    rw [ready]
    rfl

/-! ## Writing -/

/-- A write that succeeds adds its bytes to the file. -/
theorem Holds.append (h : Holds files path place bytes) (hok : files.failures files.writes = none)
    (more : ByteArray) : Holds (files.append place more).2 path place (bytes ++ more) ∧
      (files.append place more).2.failures = files.failures ∧
      (files.append place more).2.writes = files.writes + 1 := by
  have happend : (files.append place more).2 =
      { files.put place (.file (bytes ++ more)) with writes := files.writes + 1 } := by
    rw [FileStore.append, h.node]
    simp only [hok]
    rfl
  have hput := FileStore.resolve_put h.resolve rfl h.ne_nil (by simp [h.node]) (bytes ++ more)
  rw [← FileStore.resolve_writes _ (files.writes + 1)] at hput
  rw [happend]
  exact ⟨⟨h.ne_nil, hput⟩, rfl, rfl⟩

end AuditTrail.LedgerFile
