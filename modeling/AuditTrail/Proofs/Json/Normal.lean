import AuditTrail.Proofs.Json.Tree
/-! # Normal values

Members in normal order are a finite map: two rows of them with the same value behind every key are
equal, and putting members in normal order keeps the last value of every key. A value in normal form
is left as it is, and a sound value has a normal form. -/

namespace AuditTrail.Json
set_option autoImplicit false

/-! ## Rows of members in the order of their keys -/

theorem lt_of_not_lt_of_ne {k l : String} (h : ¬k < l) (hne : k ≠ l) : l < k := by
  apply String.not_le.mp
  intro hle
  exact hne (String.le_antisymm hle h)

/-- The keys of some members increase. -/
def Ordered (members : List (String × Json)) : Prop := members.Pairwise fun m n => m.1 < n.1

theorem ordered_cons_iff (m : String × Json) (rest : List (String × Json)) :
    Ordered (m :: rest) ↔ (∀ n ∈ rest, m.1 < n.1) ∧ Ordered rest := List.pairwise_cons

theorem keysIncrease_iff (members : List (String × Json)) :
    keysIncrease members = true ↔ Ordered members := by
  induction members with
  | nil => simp [keysIncrease, Ordered]
  | cons m rest ih =>
    cases rest with
    | nil => simp [keysIncrease, Ordered]
    | cons n rest =>
      rw [keysIncrease, Bool.and_eq_true, decide_eq_true_eq, ih, ordered_cons_iff m]
      constructor
      · rintro ⟨hlt, ho⟩
        refine ⟨?_, ho⟩
        intro p hp
        rcases List.mem_cons.mp hp with hp | hp
        · rw [hp]
          exact hlt
        · exact String.lt_trans hlt (((ordered_cons_iff n rest).mp ho).1 p hp)
      · rintro ⟨hall, ho⟩
        exact ⟨hall n List.mem_cons_self, ho⟩

theorem lookup_eq_none_of_lt {key : String} {members : List (String × Json)}
    (h : ∀ m ∈ members, key < m.1) : members.lookup key = none := by
  rw [List.lookup_eq_none_iff]
  intro m hm
  rw [bne_iff_ne]
  exact String.ne_of_lt (h m hm)

theorem lookup_cons_self (key : String) (j : Json) (rest : List (String × Json)) :
    List.lookup key ((key, j) :: rest) = some j := by
  rw [List.lookup_cons, beq_self_eq_true]

theorem lookup_cons_ne {key k : String} (h : key ≠ k) (j : Json) (rest : List (String × Json)) :
    List.lookup key ((k, j) :: rest) = rest.lookup key := by
  rw [List.lookup_cons, beq_eq_false_iff_ne.mpr h]

theorem mem_of_lookup {key : String} {j : Json} {members : List (String × Json)}
    (h : members.lookup key = some j) : (key, j) ∈ members := by
  obtain ⟨l, r, hsplit, -⟩ := List.lookup_eq_some_iff.mp h
  rw [hsplit]
  simp

theorem Ordered.ext {ms ns : List (String × Json)} (hm : Ordered ms) (hn : Ordered ns)
    (h : ∀ key, ms.lookup key = ns.lookup key) : ms = ns := by
  induction ms generalizing ns with
  | nil =>
    cases ns with
    | nil => rfl
    | cons n ns =>
      have hkey := h n.1
      rw [lookup_cons_self] at hkey
      cases hkey
  | cons m ms ih =>
    cases ns with
    | nil =>
      have hkey := h m.1
      rw [lookup_cons_self] at hkey
      cases hkey
    | cons n ns =>
      obtain ⟨k, a⟩ := m
      obtain ⟨l, b⟩ := n
      obtain ⟨hk, hms⟩ := (ordered_cons_iff _ _).mp hm
      obtain ⟨hl, hns⟩ := (ordered_cons_iff _ _).mp hn
      have hkl : k = l := by
        rcases Decidable.em (k = l) with heq | hne
        · exact heq
        · have hkey := h k
          have hkey' := h l
          rw [lookup_cons_self, lookup_cons_ne hne] at hkey
          rw [lookup_cons_self, lookup_cons_ne (Ne.symm hne)] at hkey'
          exact absurd (hk _ (mem_of_lookup hkey')) (String.lt_asymm (hl _ (mem_of_lookup hkey.symm)))
      subst hkl
      have hab := h k
      rw [lookup_cons_self, lookup_cons_self] at hab
      have htail : ms = ns := by
        apply ih hms hns
        intro key
        by_cases hkey : key = k
        · rw [hkey, lookup_eq_none_of_lt hk, lookup_eq_none_of_lt hl]
        · have hrest := h key
          rwa [lookup_cons_ne hkey, lookup_cons_ne hkey] at hrest
      rw [htail, Option.some.inj hab]

/-! ## Putting members in order -/

theorem mem_insertAbsent {key : String} {value : Json} {members : List (String × Json)}
    {m : String × Json} (h : m ∈ insertAbsent key value members) :
    m = (key, value) ∨ m ∈ members := by
  induction members with
  | nil => exact Or.inl (List.mem_singleton.mp h)
  | cons n rest ih =>
    obtain ⟨k, j⟩ := n
    rw [insertAbsent] at h
    split at h
    · exact List.mem_cons.mp h
    · split at h
      · exact Or.inr h
      · rcases List.mem_cons.mp h with h | h
        · exact Or.inr (by rw [h]; exact List.mem_cons_self)
        · rcases ih h with h | h
          · exact Or.inl h
          · exact Or.inr (List.mem_cons_of_mem _ h)

theorem Ordered.insertAbsent {members : List (String × Json)} (h : Ordered members) (key : String)
    (value : Json) : Ordered (insertAbsent key value members) := by
  induction members with
  | nil => exact List.pairwise_singleton _ _
  | cons n rest ih =>
    obtain ⟨k, j⟩ := n
    obtain ⟨hk, hrest⟩ := (ordered_cons_iff _ _).mp h
    rw [Json.insertAbsent]
    split
    · rename_i hlt
      rw [ordered_cons_iff]
      refine ⟨?_, h⟩
      intro m hm
      rcases List.mem_cons.mp hm with hm | hm
      · rw [hm]
        exact hlt
      · exact String.lt_trans hlt (hk m hm)
    · split
      · exact h
      · rename_i hlt hne
        rw [ordered_cons_iff]
        refine ⟨?_, ih hrest⟩
        intro m hm
        rcases mem_insertAbsent hm with hm | hm
        · rw [hm]
          exact lt_of_not_lt_of_ne hlt hne
        · exact hk m hm

/-- A new member counts only where its key is not there yet. -/
theorem lookup_insertAbsent {members : List (String × Json)} (h : Ordered members) (key name : String)
    (value : Json) : (insertAbsent key value members).lookup name =
      (members.lookup name).or (if name = key then some value else none) := by
  induction members with
  | nil =>
    rw [Json.insertAbsent]
    by_cases hname : name = key
    · rw [hname, lookup_cons_self, if_pos rfl]
      rfl
    · rw [lookup_cons_ne hname, if_neg hname]
      rfl
  | cons n rest ih =>
    obtain ⟨k, j⟩ := n
    obtain ⟨hk, hrest⟩ := (ordered_cons_iff _ _).mp h
    rw [Json.insertAbsent]
    split
    · rename_i hlt
      by_cases hname : name = key
      · have hnone : List.lookup key ((k, j) :: rest) = none := by
          apply lookup_eq_none_of_lt
          intro m hm
          rcases List.mem_cons.mp hm with hm | hm
          · rw [hm]
            exact hlt
          · exact String.lt_trans hlt (hk m hm)
        rw [hname, lookup_cons_self, hnone, if_pos rfl]
        rfl
      · rw [lookup_cons_ne hname, if_neg hname, Option.or_none]
    · split
      · rename_i hkey
        by_cases hname : name = key
        · rw [hname, hkey, lookup_cons_self]
          rfl
        · rw [if_neg hname, Option.or_none]
      · by_cases hname : name = k
        · rw [hname, lookup_cons_self, lookup_cons_self]
          rfl
        · rw [lookup_cons_ne hname, lookup_cons_ne hname, ih hrest]

theorem ordered_normalizeMembers (members : List (String × Json)) :
    Ordered (normalizeMembers members) := by
  induction members with
  | nil => exact List.Pairwise.nil
  | cons m rest ih =>
    obtain ⟨k, j⟩ := m
    rw [normalizeMembers]
    exact ih.insertAbsent k j.normalize

/-- Normal order keeps the last value of every key. -/
theorem lookup_normalizeMembers (members : List (String × Json)) (name : String) :
    (normalizeMembers members).lookup name = (members.reverse.lookup name).map normalize := by
  induction members with
  | nil => rfl
  | cons m rest ih =>
    obtain ⟨k, j⟩ := m
    rw [normalizeMembers, lookup_insertAbsent (ordered_normalizeMembers rest), ih, List.reverse_cons,
      List.lookup_append, Option.map_or]
    by_cases hname : name = k
    · rw [if_pos hname, hname, lookup_cons_self, Option.map_some]
    · rw [if_neg hname, lookup_cons_ne hname]
      rfl

theorem normalizeItems_eq_map (items : List Json) : normalizeItems items = items.map normalize := by
  induction items with
  | nil => rfl
  | cons j rest ih => rw [normalizeItems, ih, List.map_cons]

/-! ## Normal forms -/

theorem mem_normalizeMembers {members : List (String × Json)} {m : String × Json}
    (h : m ∈ normalizeMembers members) : ∃ n ∈ members, m = (n.1, n.2.normalize) := by
  induction members with
  | nil => cases h
  | cons n rest ih =>
    obtain ⟨k, j⟩ := n
    rw [normalizeMembers] at h
    rcases mem_insertAbsent h with h | h
    · exact ⟨(k, j), List.mem_cons_self, h⟩
    · obtain ⟨n, hn, hm⟩ := ih h
      exact ⟨n, List.mem_cons_of_mem _ hn, hm⟩

theorem isNormal_normalize (j : Json) (h : j.isSound = true) : j.normalize.isNormal = true := by
  induction j using tree_induction with
  | null => rfl
  | bool b => rfl
  | number n => exact h
  | string s => rfl
  | array items ih =>
    rw [isSound, areSound_iff] at h
    rw [normalize, isNormal, areNormal_iff, normalizeItems_eq_map]
    intro i hi
    obtain ⟨j, hj, rfl⟩ := List.mem_map.mp hi
    exact ih j hj (h j hj)
  | object members ih =>
    rw [isSound, haveSound_iff] at h
    rw [normalize, isNormal, Bool.and_eq_true, haveNormal_iff, keysIncrease_iff]
    refine ⟨ordered_normalizeMembers members, ?_⟩
    intro m hm
    obtain ⟨n, hn, rfl⟩ := mem_normalizeMembers hm
    exact ih n hn (h n hn)
  | flawed flaw => cases h

theorem insertAbsent_front {key : String} {value : Json} {members : List (String × Json)}
    (h : ∀ m ∈ members, key < m.1) : insertAbsent key value members = (key, value) :: members := by
  cases members with
  | nil => rfl
  | cons m rest => rw [insertAbsent, if_pos (h m List.mem_cons_self)]

theorem normalizeMembers_eq_map {members : List (String × Json)} (h : Ordered members) :
    normalizeMembers members = members.map fun m => (m.1, m.2.normalize) := by
  induction members with
  | nil => rfl
  | cons m rest ih =>
    obtain ⟨k, j⟩ := m
    obtain ⟨hk, hrest⟩ := (ordered_cons_iff _ _).mp h
    rw [normalizeMembers, ih hrest, insertAbsent_front, List.map_cons]
    intro m hm
    obtain ⟨n, hn, rfl⟩ := List.mem_map.mp hm
    exact hk n hn

theorem normalizeMembers_of_ordered {members : List (String × Json)} (h : Ordered members)
    (hvalues : ∀ m ∈ members, m.2.normalize = m.2) : normalizeMembers members = members := by
  have hmap : (members.map fun m => (m.1, m.2.normalize)) = members.map id :=
    List.map_congr_left fun m hm => Prod.ext rfl (hvalues m hm)
  rw [normalizeMembers_eq_map h, hmap, List.map_id]

theorem normalize_of_isNormal (j : Json) (h : j.isNormal = true) : j.normalize = j := by
  induction j using tree_induction with
  | null => rfl
  | bool b => rfl
  | number n => rfl
  | string s => rfl
  | array items ih =>
    rw [isNormal, areNormal_iff] at h
    have hmap : items.map normalize = items.map id :=
      List.map_congr_left (fun j hj => ih j hj (h j hj))
    rw [normalize, normalizeItems_eq_map, hmap, List.map_id]
  | object members ih =>
    rw [isNormal, Bool.and_eq_true, haveNormal_iff, keysIncrease_iff] at h
    rw [normalize, normalizeMembers_of_ordered h.1 (fun m hm => ih m hm (h.2 m hm))]
  | flawed flaw => cases h

end AuditTrail.Json
