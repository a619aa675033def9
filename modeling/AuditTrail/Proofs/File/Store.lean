import AuditTrail.File.Store
/-! # Files that stay where they are

A path leads to the place where something lies, or to a free place. Once a file is put there, the
path leads to that file (`resolve_put`), and making folders changes nothing that was there
(`Grown`). -/

namespace AuditTrail.FileStore
set_option autoImplicit false

variable {store store' : FileStore} {place : Place}

/-! ## What lies at a place -/

theorem lookup_filter_ne {q : Place} (h : q ≠ place) (nodes : List (Place × FileNode)) :
    (nodes.filter fun entry => entry.1 != place).lookup q = nodes.lookup q := by
  induction nodes with
  | nil => rfl
  | cons entry rest ih =>
    obtain ⟨p, node⟩ := entry
    rcases Decidable.em (p = place) with hp | hp
    · have hq : (q == p) = false := by
        rw [beq_eq_false_iff_ne, hp]
        exact h
      rw [List.filter_cons_of_neg (by simp [hp]), ih, List.lookup_cons, hq]
    · rw [List.filter_cons_of_pos (by simp [hp]), List.lookup_cons, List.lookup_cons, ih]

theorem node?_put_self (hp : place ≠ []) (store : FileStore) (node : FileNode) :
    (store.put place node).node? place = some node := by
  rw [node?, if_neg hp]
  exact List.lookup_cons_self

theorem node?_put_ne {q : Place} (h : q ≠ place) (store : FileStore) (node : FileNode) :
    (store.put place node).node? q = store.node? q := by
  have hq : (q == place) = false := beq_eq_false_iff_ne.mpr h
  rw [node?, node?]
  split
  · rfl
  · change ((place, node) :: _).lookup q = _
    rw [List.lookup_cons, hq]
    exact lookup_filter_ne h store.nodes

/-! ## One piece of a path -/

/-- A piece that names something in a folder. -/
def IsName (piece : String) : Prop :=
  ¬(piece = "" ∨ piece = ".") ∧ piece ≠ ".." ∧ ¬maxNameBytes < piece.utf8ByteSize

/-- The piece of a path that leads from a folder to a place. -/
inductive Next (store : FileStore) (start : Place) : String → Place → Prop
  | idle {piece : String} (h : piece = "" ∨ piece = ".") : Next store start piece start
  | up : Next store start ".." start.dropLast
  | into {piece : String} (name : IsName piece)
    (there : (store.node? (start ++ [piece])).isSome = true) :
    Next store start piece (start ++ [piece])

theorem descend_next {start next : Place} {piece : String} (h : Next store start piece next)
    (hfolder : store.node? start = some .folder) (rest : List String) :
    store.descend start (piece :: rest) = store.descend next rest := by
  rw [descend, if_pos hfolder]
  cases h with
  | idle h => rw [if_pos h]
  | up => rw [if_neg (by decide), if_pos rfl]
  | into name there => rw [if_neg name.1, if_neg name.2.1, if_neg name.2.2, if_pos there]

/-- A path either leads on from its first piece, or that piece names what is not there and nothing
but empty pieces stand behind it. -/
theorem descend_cons {start : Place} {piece : String} {rest : List String} {spot : Spot}
    (h : store.descend start (piece :: rest) = .ok spot) :
    store.node? start = some .folder ∧
    ((∃ next, Next store start piece next ∧ store.descend next rest = .ok spot) ∨
     (IsName piece ∧ store.node? (start ++ [piece]) = none ∧
      spot = .free (start ++ [piece]) !rest.isEmpty)) := by
  rw [descend] at h
  split at h
  case isFalse => cases h
  rename_i hfolder
  refine ⟨hfolder, ?_⟩
  split at h
  · rename_i hidle
    exact Or.inl ⟨start, .idle hidle, h⟩
  rename_i hidle
  split at h
  · rename_i hup
    rw [hup]
    exact Or.inl ⟨start.dropLast, .up, h⟩
  rename_i hup
  split at h
  · cases h
  rename_i hlong
  split at h
  · rename_i there
    exact Or.inl ⟨start ++ [piece], .into ⟨hidle, hup, hlong⟩ there, h⟩
  rename_i hnone
  split at h
  · cases h
    exact Or.inr ⟨⟨hidle, hup, hlong⟩, Option.not_isSome_iff_eq_none.mp hnone, rfl⟩
  · cases h

/-! ## Where paths lead -/

/-- The pieces of a path lead to something that lies at the place, or to the place, which is free
for a file. -/
def LeadsTo (place : Place) : Spot → Prop
  | .found p _ => p = place
  | .free p asFolder => p = place ∧ asFolder = false

theorem descend_nil {start : Place} {spot : Spot} (h : store.descend start [] = .ok spot) :
    ∃ node, store.node? start = some node ∧ spot = .found start node := by
  rw [descend] at h
  split at h
  · rename_i node hnode
    exact ⟨node, hnode, (Except.ok.inj h).symm⟩
  · cases h

theorem descend_found {start : Place} {pieces : List String} {node : FileNode}
    (h : store.descend start pieces = .ok (.found place node)) : store.node? place = some node := by
  induction pieces generalizing start with
  | nil =>
    obtain ⟨node', hnode, hspot⟩ := descend_nil h
    cases hspot
    exact hnode
  | cons piece rest ih =>
    obtain ⟨-, ⟨next, -, hnext⟩ | ⟨-, -, hspot⟩⟩ := descend_cons h
    · exact ih hnext
    · cases hspot

theorem descend_free {start : Place} {pieces : List String} {asFolder : Bool}
    (h : store.descend start pieces = .ok (.free place asFolder)) :
    store.node? place = none ∧ place ≠ [] := by
  induction pieces generalizing start with
  | nil =>
    obtain ⟨node, -, hspot⟩ := descend_nil h
    cases hspot
  | cons piece rest ih =>
    obtain ⟨-, ⟨next, -, hnext⟩ | ⟨-, hnone, hspot⟩⟩ := descend_cons h
    · exact ih hnext
    · cases hspot
      exact ⟨hnone, List.append_ne_nil_of_right_ne_nil _ (List.cons_ne_nil _ _)⟩

theorem Next.put {start next : Place} {piece : String} (h : Next store start piece next)
    (hp : place ≠ []) (node : FileNode) : Next (store.put place node) start piece next := by
  cases h with
  | idle h => exact .idle h
  | up => exact .up
  | into name there =>
    refine .into name ?_
    rcases Decidable.em (start ++ [piece] = place) with hq | hq
    · rw [hq, node?_put_self hp]
      rfl
    · rw [node?_put_ne hq]
      exact there

theorem descend_put (hp : place ≠ []) (hnode : store.node? place ≠ some .folder) (bytes : ByteArray)
    {start : Place} {pieces : List String} {spot : Spot}
    (h : store.descend start pieces = .ok spot) (hspot : LeadsTo place spot) :
    (store.put place (.file bytes)).descend start pieces = .ok (.found place (.file bytes)) := by
  have hself : (store.put place (.file bytes)).node? place = some (.file bytes) :=
    node?_put_self hp store _
  have hend : (store.put place (.file bytes)).descend place [] = .ok (.found place (.file bytes)) := by
    rw [descend, hself]
  induction pieces generalizing start with
  | nil =>
    obtain ⟨node, -, rfl⟩ := descend_nil h
    have hstart : start = place := hspot
    rw [hstart, hend]
  | cons piece rest ih =>
    obtain ⟨hfolder, hstep⟩ := descend_cons h
    have hstart : start ≠ place := by
      intro hs
      rw [hs] at hfolder
      exact hnode hfolder
    have hfolder' : (store.put place (.file bytes)).node? start = some .folder := by
      rw [node?_put_ne hstart, hfolder]
    rcases hstep with ⟨next, hnext, hrest⟩ | ⟨name, -, rfl⟩
    · rw [descend_next (hnext.put hp _) hfolder']
      exact ih hrest
    · obtain ⟨hq, hlast⟩ : start ++ [piece] = place ∧ (!rest.isEmpty) = false := hspot
      have hnil : rest = [] := by simpa using hlast
      have hnext : Next (store.put place (.file bytes)) start piece (start ++ [piece]) := by
        refine .into name ?_
        rw [hq, hself]
        rfl
      rw [descend_next hnext hfolder', hnil, hq, hend]

theorem descend_congr {other : FileStore} (h : ∀ q, other.node? q = store.node? q) (start : Place)
    (pieces : List String) : other.descend start pieces = store.descend start pieces := by
  induction pieces generalizing start with
  | nil => rw [descend, descend, h]
  | cons piece rest ih => rw [descend, descend, h, h, ih, ih, ih]

theorem resolve_eq_descend {path : String} {spot : Spot} (h : store.resolve path = .ok spot) :
    ∃ start, store.descend start (Path.split path) = .ok spot ∧
      ∀ other : FileStore, other.home = store.home →
        other.resolve path = other.descend start (Path.split path) := by
  rw [resolve, resolvePieces] at h
  split at h
  · cases h
  split at h
  · cases h
  split at h
  · cases h
  rename_i hname hempty hlong
  refine ⟨_, h, ?_⟩
  intro other hhome
  rw [resolve, resolvePieces, if_neg hname, if_neg hempty, if_neg hlong, hhome]

/-- Where a path leads does not hang on how many writes there have been. -/
theorem resolve_writes (store : FileStore) (count : Nat) (path : String) :
    { store with writes := count }.resolve path = store.resolve path := by
  have hdescend : ∀ start pieces, { store with writes := count }.descend start pieces =
      store.descend start pieces := descend_congr fun _ => rfl
  rw [resolve, resolve, resolvePieces, resolvePieces, hdescend]

theorem resolve_found {path : String} {node : FileNode}
    (h : store.resolve path = .ok (.found place node)) : store.node? place = some node := by
  obtain ⟨start, hstart, -⟩ := resolve_eq_descend h
  exact descend_found hstart

theorem resolve_free {path : String} {asFolder : Bool}
    (h : store.resolve path = .ok (.free place asFolder)) :
    store.node? place = none ∧ place ≠ [] := by
  obtain ⟨start, hstart, -⟩ := resolve_eq_descend h
  exact descend_free hstart

/-- **With a file put at the place where a path leads, the path leads to that file.** -/
theorem resolve_put {path : String} {spot : Spot} (h : store.resolve path = .ok spot)
    (hspot : LeadsTo place spot) (hp : place ≠ []) (hnode : store.node? place ≠ some .folder)
    (bytes : ByteArray) :
    (store.put place (.file bytes)).resolve path = .ok (.found place (.file bytes)) := by
  obtain ⟨start, hstart, hother⟩ := resolve_eq_descend h
  rw [hother (store.put place (.file bytes)) rfl]
  exact descend_put hp hnode bytes hstart hspot

/-! ## Making folders -/

/-- One store has folders where the other had nothing, and is the other in all else. -/
structure Grown (store store' : FileStore) : Prop where
  failures : store'.failures = store.failures
  writes : store'.writes = store.writes
  node : ∀ q, store'.node? q = store.node? q ∨
    (store.node? q = none ∧ store'.node? q = some .folder)

theorem Grown.refl (store : FileStore) : Grown store store := ⟨rfl, rfl, fun _ => Or.inl rfl⟩

theorem Grown.trans {last : FileStore} (h : Grown store store') (h' : Grown store' last) :
    Grown store last where
  failures := h'.failures.trans h.failures
  writes := h'.writes.trans h.writes
  node := by
    intro q
    rcases h.node q with hq | ⟨hq, hq'⟩
    · rw [← hq]
      exact h'.node q
    · rcases h'.node q with hl | ⟨hl, -⟩
      · exact Or.inr ⟨hq, hl.trans hq'⟩
      · rw [hq'] at hl
        cases hl

theorem grown_makeFolder {path : String} (h : store.makeFolder path = .ok store') :
    Grown store store' := by
  rw [makeFolder] at h
  split at h
  · cases h
  · cases h
  · rename_i place asFolder hfree
    cases h
    obtain ⟨hnone, hp⟩ := resolve_free hfree
    refine ⟨rfl, rfl, ?_⟩
    intro q
    rcases Decidable.em (q = place) with hq | hq
    · rw [hq]
      exact Or.inr ⟨hnone, node?_put_self hp store .folder⟩
    · exact Or.inl (node?_put_ne hq store .folder)

theorem grown_makeFoldersUpTo {bound : Nat} {path : String}
    (h : makeFoldersUpTo bound path store = .ok store') : Grown store store' := by
  induction bound generalizing path store store' with
  | zero =>
    cases h
    exact Grown.refl store
  | succ bound ih =>
    rw [makeFoldersUpTo] at h
    split at h
    · cases h
      exact Grown.refl store
    · split at h
      · rename_i hmade
        cases h
        exact grown_makeFolder hmade
      · split at h
        · cases h
        · rename_i middle hmiddle
          split at h
          · rename_i hmade
            cases h
            exact (ih hmiddle).trans (grown_makeFolder hmade)
          · split at h
            · cases h
              exact ih hmiddle
            · cases h
      · split at h
        · cases h
          exact Grown.refl store
        · cases h

theorem grown_makeFolders {path : String} (h : store.makeFolders path = .ok store') :
    Grown store store' := by
  rw [makeFolders] at h
  split at h
  · cases h
    exact Grown.refl store
  · exact grown_makeFoldersUpTo h

end AuditTrail.FileStore
