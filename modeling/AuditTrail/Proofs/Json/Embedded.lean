import AuditTrail.Json.Embedded
import AuditTrail.Proofs.Json.Normal
/-! # Free-form values read back

A free-form value is plain when no object inside it begins with the key that stands for a text. Plain
values are left as they are when the texts inside a value are replaced. What takes the place of a text
never holds again an object that stands for one (`isTextFree_of_expandWith`), so no other value comes
back, and of a value that was read only a plain one is read again. -/

namespace AuditTrail.Json
set_option autoImplicit false

/-- The first key of some members. -/
def frontKey (members : List (String × Json)) : Option String := members.head?.map Prod.fst

mutual

/-- No object in the value begins with the key that stands for a text. -/
def isPlain : Json → Bool
  | .array items => arePlain items
  | .object members => decide (frontKey members ≠ some embeddedKey) && havePlain members
  | .null | .bool _ | .number _ | .string _ | .flawed _ => true

/-- Every item is plain. -/
def arePlain : List Json → Bool
  | [] => true
  | j :: rest => isPlain j && arePlain rest

/-- Every member's value is plain. -/
def havePlain : List (String × Json) → Bool
  | [] => true
  | (_, j) :: rest => isPlain j && havePlain rest

end

theorem arePlain_iff (items : List Json) : arePlain items = true ↔ ∀ j ∈ items, isPlain j = true := by
  induction items with
  | nil => simp [arePlain]
  | cons j rest ih => simp [arePlain, ih]

theorem havePlain_iff (members : List (String × Json)) :
    havePlain members = true ↔ ∀ m ∈ members, isPlain m.2 = true := by
  induction members with
  | nil => simp [havePlain]
  | cons m rest ih =>
    obtain ⟨k, j⟩ := m
    simp [havePlain, ih]

/-- The members of an object that stands for a text. -/
def areText : List (String × Json) → Bool
  | [(key, .string _)] => decide (key = embeddedKey)
  | _ => false

mutual

/-- No object in the value stands for a text. -/
def isTextFree : Json → Bool
  | .array items => areTextFree items
  | .object members => !areText members && haveTextFree members
  | .null | .bool _ | .number _ | .string _ | .flawed _ => true

/-- No object in an item stands for a text. -/
def areTextFree : List Json → Bool
  | [] => true
  | j :: rest => isTextFree j && areTextFree rest

/-- No object in a member's value stands for a text. -/
def haveTextFree : List (String × Json) → Bool
  | [] => true
  | (_, j) :: rest => isTextFree j && haveTextFree rest

end

theorem areTextFree_iff (items : List Json) :
    areTextFree items = true ↔ ∀ j ∈ items, isTextFree j = true := by
  induction items with
  | nil => simp [areTextFree]
  | cons j rest ih => simp [areTextFree, ih]

theorem haveTextFree_iff (members : List (String × Json)) :
    haveTextFree members = true ↔ ∀ m ∈ members, isTextFree m.2 = true := by
  induction members with
  | nil => simp [haveTextFree]
  | cons m rest ih =>
    obtain ⟨k, j⟩ := m
    simp [haveTextFree, ih]

theorem areText_iff (members : List (String × Json)) :
    areText members = true ↔ ∃ s, members = [(embeddedKey, .string s)] := by
  unfold areText
  split
  · simp
  · next h => exact iff_of_false Bool.false_ne_true fun ⟨s, hs⟩ => h _ _ hs

section Expand
variable {inner : String → Option Json}

/-! ## Replacing the texts inside a value -/

theorem expandWith_object {members : List (String × Json)} (h : frontKey members ≠ some embeddedKey) :
    expandWith inner (.object members) = (expandMembers inner members).map .object := by
  cases members with
  | nil => rfl
  | cons m rest =>
    obtain ⟨k, j⟩ := m
    have hk : ¬k = embeddedKey := fun he => h (congrArg some he)
    unfold expandWith
    simp only [if_neg hk]

/-- An object that begins with the key stands for a text, or nothing takes its place. -/
theorem expandWith_embedded {members : List (String × Json)} {j' : Json}
    (hkey : frontKey members = some embeddedKey)
    (h : expandWith inner (.object members) = some j') :
    ∃ s, members = [(embeddedKey, .string s)] ∧ inner s = some j' := by
  cases members with
  | nil => cases hkey
  | cons m rest =>
    obtain ⟨k, j⟩ := m
    have hk : k = embeddedKey := Option.some.inj hkey
    unfold expandWith at h
    simp only [if_pos hk] at h
    split at h
    · rename_i s
      exact ⟨s, by rw [hk], h⟩
    · cases h

theorem expandItems_cons {j : Json} {items items' : List Json}
    (h : expandItems inner (j :: items) = some items') : ∃ j' rest', items' = j' :: rest' ∧
      expandWith inner j = some j' ∧ expandItems inner items = some rest' := by
  rw [expandItems] at h
  cases hj : expandWith inner j with
  | none =>
    rw [hj] at h
    cases h
  | some j' =>
    cases hr : expandItems inner items with
    | none =>
      rw [hj, hr] at h
      cases h
    | some rest' =>
      rw [hj, hr] at h
      cases h
      exact ⟨j', rest', rfl, rfl, rfl⟩

theorem expandMembers_cons {k : String} {j : Json} {members members' : List (String × Json)}
    (h : expandMembers inner ((k, j) :: members) = some members') :
    ∃ j' rest', members' = (k, j') :: rest' ∧ expandWith inner j = some j' ∧
      expandMembers inner members = some rest' := by
  rw [expandMembers] at h
  cases hj : expandWith inner j with
  | none =>
    rw [hj] at h
    cases h
  | some j' =>
    cases hr : expandMembers inner members with
    | none =>
      rw [hj, hr] at h
      cases h
    | some rest' =>
      rw [hj, hr] at h
      cases h
      exact ⟨j', rest', rfl, rfl, rfl⟩

/-- What takes the place of a member has its key. -/
theorem exists_of_mem_expandMembers {members members' : List (String × Json)}
    (h : expandMembers inner members = some members') {m' : String × Json} (hm : m' ∈ members') :
    ∃ m ∈ members, m'.1 = m.1 ∧ expandWith inner m.2 = some m'.2 := by
  induction members generalizing members' with
  | nil =>
    cases h
    cases hm
  | cons m rest ih =>
    obtain ⟨k, j⟩ := m
    obtain ⟨j', rest', rfl, hj, hrest⟩ := expandMembers_cons h
    rcases List.mem_cons.mp hm with rfl | hm
    · exact ⟨(k, j), List.mem_cons_self, rfl, hj⟩
    · obtain ⟨n, hn, hsame⟩ := ih hrest hm
      exact ⟨n, List.mem_cons_of_mem _ hn, hsame⟩

theorem exists_of_mem_expandItems {items items' : List Json}
    (h : expandItems inner items = some items') {j' : Json} (hj : j' ∈ items') :
    ∃ j ∈ items, expandWith inner j = some j' := by
  induction items generalizing items' with
  | nil =>
    cases h
    cases hj
  | cons j rest ih =>
    obtain ⟨i', rest', rfl, hi, hrest⟩ := expandItems_cons h
    rcases List.mem_cons.mp hj with rfl | hj
    · exact ⟨j, List.mem_cons_self, hi⟩
    · obtain ⟨i, hmem, hsame⟩ := ih hrest hj
      exact ⟨i, List.mem_cons_of_mem _ hmem, hsame⟩

theorem expandWith_isSome_of_mem_members {members members' : List (String × Json)}
    (h : expandMembers inner members = some members') {m : String × Json} (hm : m ∈ members) :
    ∃ j', expandWith inner m.2 = some j' := by
  induction members generalizing members' with
  | nil => cases hm
  | cons n rest ih =>
    obtain ⟨k, j⟩ := n
    obtain ⟨j', rest', rfl, hj, hrest⟩ := expandMembers_cons h
    rcases List.mem_cons.mp hm with rfl | hm
    · exact ⟨j', hj⟩
    · exact ih hrest hm

theorem expandWith_isSome_of_mem_items {items items' : List Json}
    (h : expandItems inner items = some items') {j : Json} (hj : j ∈ items) :
    ∃ j', expandWith inner j = some j' := by
  induction items generalizing items' with
  | nil => cases hj
  | cons i rest ih =>
    obtain ⟨i', rest', rfl, hi, hrest⟩ := expandItems_cons h
    rcases List.mem_cons.mp hj with rfl | hj
    · exact ⟨i', hi⟩
    · exact ih hrest hj

/-! ## Plain values -/

theorem expandItems_of_plain {items : List Json} (hplain : arePlain items = true)
    (h : ∀ j ∈ items, isPlain j = true → expandWith inner j = some j) :
    expandItems inner items = some items := by
  induction items with
  | nil => rfl
  | cons j rest ih =>
    rw [arePlain, Bool.and_eq_true] at hplain
    rw [expandItems, h j List.mem_cons_self hplain.1,
      ih hplain.2 (fun i hi => h i (List.mem_cons_of_mem _ hi))]
    rfl

theorem expandMembers_of_plain {members : List (String × Json)} (hplain : havePlain members = true)
    (h : ∀ m ∈ members, isPlain m.2 = true → expandWith inner m.2 = some m.2) :
    expandMembers inner members = some members := by
  induction members with
  | nil => rfl
  | cons m rest ih =>
    obtain ⟨k, j⟩ := m
    rw [havePlain, Bool.and_eq_true] at hplain
    rw [expandMembers, h (k, j) List.mem_cons_self hplain.1,
      ih hplain.2 (fun n hn => h n (List.mem_cons_of_mem _ hn))]
    rfl

theorem expandWith_of_plain (j : Json) (h : j.isPlain = true) : expandWith inner j = some j := by
  induction j using tree_induction with
  | null => rfl
  | bool b => rfl
  | number n => rfl
  | string s => rfl
  | array items ih =>
    rw [isPlain] at h
    rw [expandWith, expandItems_of_plain h ih]
    rfl
  | object members ih =>
    rw [isPlain, Bool.and_eq_true, decide_eq_true_eq] at h
    rw [expandWith_object h.1, expandMembers_of_plain h.2 ih]
    rfl
  | flawed flaw => rfl

/-! ## What takes the place of a text -/

/-- In normal order members whose first key is another one do not stand for a text. -/
theorem areText_normalizeMembers {k : String} {v : Json} {rest : List (String × Json)}
    (hk : k ≠ embeddedKey) : areText (normalizeMembers ((k, v) :: rest)) = false := by
  rw [Bool.eq_false_iff, Ne, areText_iff]
  rintro ⟨s, hs⟩
  -- The value of the first key, or of a later one of that name, is in the normal form as well.
  have hlookup := lookup_normalizeMembers ((k, v) :: rest) k
  rw [hs, lookup_cons_ne hk, List.lookup_nil, List.reverse_cons, List.lookup_append,
    lookup_cons_self] at hlookup
  cases hv : rest.reverse.lookup k <;> simp [hv] at hlookup

theorem haveTextFree_normalizeMembers {members : List (String × Json)}
    (h : ∀ m ∈ members, m.2.normalize.isTextFree = true) :
    haveTextFree (normalizeMembers members) = true := by
  rw [haveTextFree_iff]
  intro m hm
  obtain ⟨n, hn, rfl⟩ := mem_normalizeMembers hm
  exact h n hn

theorem isTextFree_of_expandWith (hinner : ∀ s j, inner s = some j → j.normalize.isTextFree = true)
    (j : Json) : ∀ j', expandWith inner j = some j' → j'.normalize.isTextFree = true := by
  induction j using tree_induction with
  | null => rintro j' ⟨⟩; rfl
  | bool b => rintro j' ⟨⟩; rfl
  | number n => rintro j' ⟨⟩; rfl
  | string s => rintro j' ⟨⟩; rfl
  | array items ih =>
    intro j' h
    rw [expandWith, Option.map_eq_some_iff] at h
    obtain ⟨items', hitems, rfl⟩ := h
    rw [normalize, isTextFree, areTextFree_iff, normalizeItems_eq_map, List.forall_mem_map]
    intro j' hj'
    obtain ⟨j, hj, hsame⟩ := exists_of_mem_expandItems hitems hj'
    exact ih j hj j' hsame
  | object members ih =>
    intro j' h
    by_cases hkey : frontKey members = some embeddedKey
    · obtain ⟨s, -, hs⟩ := expandWith_embedded hkey h
      exact hinner s j' hs
    · rw [expandWith_object hkey, Option.map_eq_some_iff] at h
      obtain ⟨members', hmembers, rfl⟩ := h
      have hvalues : haveTextFree (normalizeMembers members') = true := by
        apply haveTextFree_normalizeMembers
        intro m' hm'
        obtain ⟨m, hm, -, hsame⟩ := exists_of_mem_expandMembers hmembers hm'
        exact ih m hm m'.2 hsame
      have hnot : areText (normalizeMembers members') = false := by
        cases members with
        | nil =>
          cases hmembers
          rfl
        | cons m rest =>
          obtain ⟨k, j⟩ := m
          obtain ⟨v, rest', rfl, -, -⟩ := expandMembers_cons hmembers
          exact areText_normalizeMembers fun he => hkey (congrArg some he)
      rw [normalize, isTextFree, hnot, hvalues]
      rfl
  | flawed flaw => rintro j' ⟨⟩; rfl

theorem isTextFree_of_readEmbedded (bound : Nat) (s : String) (j : Json)
    (h : readEmbedded bound s = some j) : j.normalize.isTextFree = true := by
  induction bound generalizing s j with
  | zero => cases h
  | succ bound ih =>
    rw [readEmbedded] at h
    split at h
    · exact isTextFree_of_expandWith ih _ j h
    · cases h

theorem isTextFree_of_embedded (s : String) (j : Json) (h : embedded s = some j) :
    j.normalize.isTextFree = true :=
  isTextFree_of_readEmbedded _ s j h

/-- Where nothing stands for a text, an object that begins with the key is in no place of one, so that
only plain values are left to be replaced. -/
theorem isPlain_of_expandWith (j : Json) (hfree : j.isTextFree = true) :
    ∀ j', expandWith inner j = some j' → j.isPlain = true := by
  induction j using tree_induction with
  | null => exact fun _ _ => rfl
  | bool b => exact fun _ _ => rfl
  | number n => exact fun _ _ => rfl
  | string s => exact fun _ _ => rfl
  | array items ih =>
    intro j' h
    rw [isTextFree, areTextFree_iff] at hfree
    rw [expandWith, Option.map_eq_some_iff] at h
    obtain ⟨items', hitems, -⟩ := h
    rw [isPlain, arePlain_iff]
    intro j hj
    obtain ⟨j', hj'⟩ := expandWith_isSome_of_mem_items hitems hj
    exact ih j hj (hfree j hj) j' hj'
  | object members ih =>
    intro j' h
    rw [isTextFree, Bool.and_eq_true, Bool.not_eq_true', haveTextFree_iff] at hfree
    by_cases hkey : frontKey members = some embeddedKey
    · obtain ⟨s, hs, -⟩ := expandWith_embedded hkey h
      rw [(areText_iff members).mpr ⟨s, hs⟩] at hfree
      cases hfree.1
    · rw [expandWith_object hkey, Option.map_eq_some_iff] at h
      obtain ⟨members', hmembers, -⟩ := h
      rw [isPlain, Bool.and_eq_true, decide_eq_true_eq, havePlain_iff]
      refine ⟨hkey, ?_⟩
      intro m hm
      obtain ⟨j', hj'⟩ := expandWith_isSome_of_mem_members hmembers hm
      exact ih m hm (hfree.2 m hm) j' hj'
  | flawed flaw => exact fun _ _ => rfl

end Expand

/-! ## Free-form objects -/

theorem asFreeFields_ok {j : Json} {fields : FreeFields} (h : asFreeFields j = .ok fields) :
    ∃ members members', j = .object members ∧
      expandMembers (embedded) members = some members' ∧
      fields.members = normalizeMembers members' := by
  unfold asFreeFields at h
  split at h
  case h_2 => cases h
  case h_1 members =>
    cases he : expandMembers (embedded) members with
    | none =>
      rw [he] at h
      cases h
    | some members' =>
      rw [he] at h
      simp only [FreeFields.ofMembers?] at h
      split at h
      · rename_i gs hgs
        split at hgs
        · cases hgs
          cases h
          exact ⟨members, members', rfl, he, rfl⟩
        · cases hgs
      · cases h

/-- In the fields that are read nothing stands for a text. -/
theorem haveTextFree_of_asFreeFields {j : Json} {fields : FreeFields}
    (h : asFreeFields j = .ok fields) : haveTextFree fields.members = true := by
  obtain ⟨members, members', -, he, hfields⟩ := asFreeFields_ok h
  rw [hfields]
  apply haveTextFree_normalizeMembers
  intro m' hm'
  obtain ⟨m, -, -, hsame⟩ := exists_of_mem_expandMembers he hm'
  exact isTextFree_of_expandWith (isTextFree_of_embedded) m.2 m'.2 hsame

theorem havePlain_of_asFreeFields {fields gs : FreeFields} (hfree : haveTextFree fields.members = true)
    (h : asFreeFields (.object fields.members) = .ok gs) : havePlain fields.members = true := by
  obtain ⟨members, members', hmembers, he, -⟩ := asFreeFields_ok h
  cases hmembers
  rw [haveTextFree_iff] at hfree
  rw [havePlain_iff]
  intro m hm
  obtain ⟨j', hj'⟩ := expandWith_isSome_of_mem_members he hm
  exact isPlain_of_expandWith m.2 (hfree m hm) j' hj'

/-- The members of a free-form object come back exactly when their values are plain. -/
theorem asFreeFields_eq_ok_iff (fields : FreeFields) :
    asFreeFields (.object fields.members) = .ok fields ↔ havePlain fields.members = true := by
  constructor
  · exact fun h => havePlain_of_asFreeFields (haveTextFree_of_asFreeFields h) h
  · intro h
    have he := expandMembers_of_plain h
      (fun m _ hm => @expandWith_of_plain (embedded) m.2 hm)
    have hback : normalizeMembers fields.members = fields.members :=
      Json.object.inj (normalize_of_isNormal _ fields.normal)
    have hsound : haveSound fields.members = true := isSound_of_isNormal _ fields.normal
    obtain ⟨members, normal⟩ := fields
    simp only [asFreeFields, he, FreeFields.ofMembers?, hback, hsound, normal, and_self, dite_true]

end AuditTrail.Json
