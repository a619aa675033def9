import AuditTrail.Json.Tagged
/-! # Records that are written are read

A record is written with its fields in the order of its list of fields, some of them left out. Such
members fit the list, and a list without repeated names accepts all members that fit it. A record
that is accepted has passed the check of every field it holds. -/

namespace AuditTrail.Json
set_option autoImplicit false

/-- The members are those of the fields in order; a field that may be missing may be left out. -/
inductive Fits : List Field → List (String × Json) → Prop where
  | nil : Fits [] []
  | found {fields : List Field} {members : List (String × Json)} {f : Field} {j : Json}
    (passes : f.check j = .ok ()) (rest : Fits fields members) :
    Fits (f :: fields) ((f.name, j) :: members)
  | missing {fields : List Field} {members : List (String × Json)} {f : Field}
    (absent : f.absence ≠ .required) (rest : Fits fields members) : Fits (f :: fields) members

theorem find?_of_nodup {fields : List Field} (h : (fields.map Field.name).Nodup) {f : Field}
    (hf : f ∈ fields) : fields.find? (fun g => g.name == f.name) = some f := by
  induction fields with
  | nil => cases hf
  | cons g fields ih =>
    rw [List.map_cons, List.nodup_cons] at h
    rcases List.mem_cons.mp hf with rfl | hf
    · rw [List.find?_cons_of_pos (by simp)]
    · have hne : g.name ≠ f.name := by
        intro he
        exact h.1 (he ▸ List.mem_map_of_mem hf)
      rw [List.find?_cons_of_neg (by simpa using hne), ih h.2 hf]

theorem checkNamed_of_fits {all fields : List Field} {members : List (String × Json)}
    (h : Fits fields members)
    (hfind : ∀ f ∈ fields, all.find? (fun g => g.name == f.name) = some f)
    (hnodup : (fields.map Field.name).Nodup) (seen : List String)
    (hseen : ∀ f ∈ fields, f.name ∉ seen) :
    ∃ seen', checkNamed all seen members = .ok seen' ∧ (∀ name ∈ seen, name ∈ seen') ∧
      ∀ f ∈ fields, f.absence = .required → f.name ∈ seen' := by
  induction h generalizing seen with
  | nil => exact ⟨seen, rfl, fun _ hn => hn, fun _ hf => by cases hf⟩
  | @found fields members f j passes rest ih =>
    rw [List.map_cons, List.nodup_cons] at hnodup
    have hne : ∀ g ∈ fields, g.name ∉ f.name :: seen := by
      intro g hg hmem
      rcases List.mem_cons.mp hmem with he | hmem
      · exact hnodup.1 (he ▸ List.mem_map_of_mem hg)
      · exact hseen g (List.mem_cons_of_mem _ hg) hmem
    obtain ⟨seen', hcheck, hold, hnew⟩ := ih (fun g hg => hfind g (List.mem_cons_of_mem _ hg))
      hnodup.2 (f.name :: seen) hne
    have hfresh : ¬seen.contains f.name = true := by
      rw [List.contains_iff_mem]
      exact hseen f List.mem_cons_self
    refine ⟨seen', ?_, fun name hn => hold name (List.mem_cons_of_mem _ hn), ?_⟩
    · rw [checkNamed, hfind f List.mem_cons_self]
      simp only [if_neg hfresh, passes]
      exact hcheck
    · intro g hg hrequired
      rcases List.mem_cons.mp hg with rfl | hg
      · exact hold _ List.mem_cons_self
      · exact hnew g hg hrequired
  | @missing fields members f absent rest ih =>
    rw [List.map_cons, List.nodup_cons] at hnodup
    obtain ⟨seen', hcheck, hold, hnew⟩ := ih (fun g hg => hfind g (List.mem_cons_of_mem _ hg))
      hnodup.2 seen (fun g hg => hseen g (List.mem_cons_of_mem _ hg))
    refine ⟨seen', hcheck, hold, ?_⟩
    intro g hg hrequired
    rcases List.mem_cons.mp hg with rfl | hg
    · exact absurd hrequired absent
    · exact hnew g hg hrequired

theorem record_of_fits {fields : List Field} {members : List (String × Json)}
    (hnodup : (fields.map Field.name).Nodup) (h : Fits fields members) :
    record fields (.object members) = .ok members := by
  obtain ⟨seen, hcheck, -, hnew⟩ := checkNamed_of_fits h (fun f hf => find?_of_nodup hnodup hf) hnodup
    [] (fun _ _ hn => by cases hn)
  have hall : (fields.all fun f => f.absence != .required || seen.contains f.name) = true := by
    rw [List.all_eq_true]
    intro f hf
    rw [Bool.or_eq_true, bne_iff_ne, List.contains_iff_mem]
    by_cases hrequired : f.absence = .required
    · exact Or.inr (hnew f hf hrequired)
    · exact Or.inl hrequired
  rw [record, hcheck]
  simp only [if_pos hall]

theorem check_of_checkNamed {fields : List Field} {members : List (String × Json)}
    {seen seen' : List String} (h : checkNamed fields seen members = .ok seen') {m : String × Json}
    (hm : m ∈ members) {f : Field} (hf : fields.find? (fun g => g.name == m.1) = some f) :
    f.check m.2 = .ok () := by
  induction members generalizing seen with
  | nil => cases hm
  | cons n rest ih =>
    obtain ⟨k, j⟩ := n
    rw [checkNamed] at h
    rcases List.mem_cons.mp hm with rfl | hm
    · rw [hf] at h
      simp only at h
      split at h
      · cases h
      · split at h
        · cases h
        · assumption
    · split at h
      · split at h
        · exact ih h hm
        · cases h
      · split at h
        · cases h
        · split at h
          · cases h
          · exact ih h hm

/-- An accepted record has passed the check of every field that it holds. -/
theorem check_of_record {fields : List Field} {members ms : List (String × Json)}
    (h : record fields (.object members) = .ok ms) {m : String × Json} (hm : m ∈ members) {f : Field}
    (hf : fields.find? (fun g => g.name == m.1) = some f) : f.check m.2 = .ok () := by
  rw [record] at h
  cases hc : checkNamed fields [] members with
  | error fault =>
    rw [hc] at h
    cases h
  | ok seen => exact check_of_checkNamed hc hm hf

/-! ## Tagged records -/

section Tagged
variable {κ α : Type} {tagging : Tagging κ α} {kind : κ} {members others : List (String × Json)}

theorem splitTag_found (hothers : ∀ m ∈ others, m.1 ≠ tagging.tag ∧ isSound m.2 = true) :
    splitTag tagging.tag tagging.words (some kind) others = .ok (kind, others) := by
  induction others with
  | nil => rfl
  | cons m rest ih =>
    obtain ⟨name, j⟩ := m
    obtain ⟨hname, hsound⟩ := hothers (name, j) List.mem_cons_self
    rw [splitTag, if_neg hname, if_pos hsound, ih (fun n hn => hothers n (List.mem_cons_of_mem _ hn))]

/-- A record that names its shape first is what its other members are for that shape. -/
theorem asTagged_front {word : String} (hword : tagging.words.lookup word = some kind)
    (hothers : ∀ m ∈ others, m.1 ≠ tagging.tag ∧ isSound m.2 = true) :
    asTagged tagging (.object ((tagging.tag, .string word) :: others)) =
      tagging.content kind (.object others) := by
  rw [asTagged, splitTag, if_pos rfl]
  simp only [Option.isSome_none, Bool.false_eq_true, if_false, asTag, hword, splitTag_found hothers]

theorem asTagged_unsound {word : String} (hword : tagging.words.lookup word = some kind)
    {name : String} {j : Json} (hname : name ≠ tagging.tag) (hj : isSound j = false) :
    asTagged tagging (.object ((tagging.tag, .string word) :: (name, j) :: others)) =
      .error .malformed := by
  rw [asTagged, splitTag, if_pos rfl]
  simp only [Option.isSome_none, Bool.false_eq_true, if_false, asTag, hword, splitTag,
    if_neg hname, hj]

theorem content_of_fits (hnodup : ((tagging.fields kind).map Field.name).Nodup)
    (h : Fits (tagging.fields kind) members) :
    tagging.content kind (.object members) = tagging.build kind members := by
  rw [Tagging.content, record_of_fits hnodup h]

theorem content_of_fault {m : String × Json} (hm : m ∈ members) {f : Field}
    (hf : (tagging.fields kind).find? (fun g => g.name == m.1) = some f) {fault : Fault}
    (hcheck : f.check m.2 = .error fault) :
    tagging.content kind (.object members) = .error .mismatch := by
  rw [Tagging.content]
  cases hr : record (tagging.fields kind) (.object members) with
  | error fault => rfl
  | ok ms =>
    rw [check_of_record hr hm hf] at hcheck
    cases hcheck

end Tagged

/-! ## Checks of single fields -/

theorem Field.of_check {α : Type} (name : String) {read : Decoder α} {j : Json} {a : α}
    (h : read j = .ok a) : (Field.of name read).check j = .ok () := by
  change (read j).map _ = _
  rw [h]
  rfl

theorem asOption_orNull {α : Type} {read : Decoder α} {write : α → Json} {a : Option α}
    (hread : ∀ x, a = some x → read (write x) = .ok x) (hnull : ∀ x, write x ≠ .null) :
    asOption read (orNull write a) = .ok a := by
  cases a with
  | none => rfl
  | some x =>
    have hx := hread x rfl
    have hne := hnull x
    rw [orNull]
    unfold asOption
    split
    · rename_i heq
      exact absurd heq hne
    · rw [hx]
      rfl

theorem mapM_ok {α β : Type} {read : β → Except Fault α} {write : α → β}
    (h : ∀ a, read (write a) = .ok a) (as : List α) : (as.map write).mapM read = .ok as := by
  induction as with
  | nil => rfl
  | cons a as ih =>
    rw [List.map_cons, List.mapM_cons, h a, ih]
    rfl

theorem asList_strings (ss : List String) : asList asString (strings ss) = .ok ss :=
  @mapM_ok String Json asString .string (fun _ => rfl) ss

end AuditTrail.Json
