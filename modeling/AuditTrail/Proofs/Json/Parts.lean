import AuditTrail.Proofs.Json.Depth
import AuditTrail.Proofs.Json.Embedded
import AuditTrail.Proofs.Json.Record
/-! # What is read from which part

The fields of a record are read from the values that stand directly inside a tree, whether it is an
object or an array (`isPart_of_record`, `asTagged_ok`). A part has fewer levels than the whole, and a
part of a plain tree is plain. -/

namespace AuditTrail
set_option autoImplicit false

theorem bind_eq_ok_iff {ε α β : Type} {x : Except ε α} {f : α → Except ε β} {b : β} :
    (x >>= f) = .ok b ↔ ∃ a, x = .ok a ∧ f a = .ok b := by
  cases x <;> simp [bind, Except.bind]

namespace Json

/-- The value stands directly inside another one. -/
def IsPart (part : Json) : Json → Prop
  | .array items => part ∈ items
  | .object members => ∃ key, (key, part) ∈ members
  | .null | .bool _ | .number _ | .string _ | .flawed _ => False

theorem IsPart.levels_lt {part j : Json} (h : IsPart part j) : part.levels < j.levels := by
  cases j with
  | array items => exact Nat.lt_succ_of_le ((levelsOfItems_le_iff items _).mp (Nat.le_refl _) part h)
  | object members =>
    obtain ⟨key, hmem⟩ := h
    exact Nat.lt_succ_of_le ((levelsOfMembers_le_iff members _).mp (Nat.le_refl _) (key, part) hmem)
  | _ => cases h

theorem IsPart.isPlain {part j : Json} (h : IsPart part j) (hj : j.isPlain = true) :
    part.isPlain = true := by
  cases j with
  | array items =>
    rw [Json.isPlain, arePlain_iff] at hj
    exact hj part h
  | object members =>
    obtain ⟨key, hmem⟩ := h
    rw [Json.isPlain, Bool.and_eq_true, havePlain_iff] at hj
    exact hj.2 (key, part) hmem
  | _ => cases h

/-! ## Records -/

theorem mem_of_checkPlaced {fields : List Field} {items : List Json} {members : List (String × Json)}
    (h : checkPlaced fields items = .ok members) {m : String × Json} (hm : m ∈ members) :
    m.2 ∈ items := by
  induction fields generalizing items members with
  | nil =>
    cases items with
    | nil =>
      cases h
      cases hm
    | cons j items => cases h
  | cons f fields ih =>
    cases items with
    | nil =>
      rw [checkPlaced] at h
      split at h
      · exact ih h hm
      · cases h
    | cons j items =>
      rw [checkPlaced] at h
      split at h
      · cases h
      · split at h
        · cases h
        · rename_i ms hms
          cases h
          rcases List.mem_cons.mp hm with rfl | hm
          · exact List.mem_cons_self
          · exact List.mem_cons_of_mem _ (ih hms hm)

theorem isPart_of_record {fields : List Field} {j : Json} {members : List (String × Json)}
    (h : record fields j = .ok members) {m : String × Json} (hm : m ∈ members) : IsPart m.2 j := by
  unfold record at h
  split at h
  case h_1 =>
    split at h
    · cases h
    · split at h
      · cases h
        exact ⟨m.1, hm⟩
      · cases h
  case h_2 => exact mem_of_checkPlaced h hm
  case h_3 => cases h

theorem required_ok {α : Type} {name : String} {read : Decoder α} {members : List (String × Json)}
    {a : α} (h : required name read members = .ok a) : ∃ m ∈ members, read m.2 = .ok a := by
  unfold required at h
  split at h
  · rename_i j hj
    exact ⟨(name, j), mem_of_lookup hj, h⟩
  · cases h

theorem withDefault_ok {α : Type} {name : String} {read : Decoder α} {default : α}
    {members : List (String × Json)} {a : α} (h : withDefault name read default members = .ok a) :
    a = default ∨ ∃ m ∈ members, read m.2 = .ok a := by
  unfold withDefault at h
  split at h
  · rename_i j hj
    exact Or.inr ⟨(name, j), mem_of_lookup hj, h⟩
  · cases h
    exact Or.inl rfl

/-! ## Tagged records -/

theorem subset_of_splitTag {κ : Type} {tag : String} {words : List (String × κ)} {found : Option κ}
    {members others : List (String × Json)} {kind : κ}
    (h : splitTag tag words found members = .ok (kind, others)) : others ⊆ members := by
  induction members generalizing found others with
  | nil =>
    cases found with
    | none => cases h
    | some k =>
      cases h
      exact List.Subset.refl _
  | cons m rest ih =>
    obtain ⟨name, j⟩ := m
    rw [splitTag] at h
    split at h
    · split at h
      · cases h
      · split at h
        · cases h
        · exact List.subset_cons_of_subset _ (ih h)
    · split at h
      · split at h
        · cases h
        · rename_i hsplit
          cases h
          exact List.cons_subset_cons _ (ih hsplit)
      · cases h

theorem content_ok {κ α : Type} {tagging : Tagging κ α} {kind : κ} {j : Json} {a : α}
    (h : tagging.content kind j = .ok a) :
    ∃ members, tagging.build kind members = .ok a ∧ ∀ m ∈ members, IsPart m.2 j := by
  unfold Tagging.content at h
  split at h
  · cases h
  · rename_i members hrecord
    exact ⟨members, h, fun m hm => isPart_of_record hrecord hm⟩

theorem asTagged_ok {κ α : Type} {tagging : Tagging κ α} {j : Json} {a : α}
    (h : asTagged tagging j = .ok a) :
    ∃ kind members, tagging.build kind members = .ok a ∧ ∀ m ∈ members, IsPart m.2 j := by
  unfold asTagged at h
  split at h
  case h_1 =>
    split at h
    · cases h
    · rename_i kind others hsplit
      obtain ⟨members, hbuild, hparts⟩ := content_ok h
      refine ⟨kind, members, hbuild, fun m hm => ?_⟩
      obtain ⟨key, hmem⟩ := hparts m hm
      exact ⟨key, subset_of_splitTag hsplit hmem⟩
  case h_2 => cases h
  case h_3 =>
    split at h
    · cases h
    · rename_i kind _
      split at h
      · obtain ⟨members, hbuild, hparts⟩ := content_ok h
        exact ⟨kind, members, hbuild, fun m hm => List.mem_cons_of_mem _ (hparts m hm)⟩
      · cases h
  case h_4 => cases h

/-! ## Free-form objects -/

theorem levels_normalize_le (j : Json) : j.normalize.levels ≤ j.levels := by
  induction j using tree_induction with
  | array items ih =>
    rw [normalize, levels, levels, Nat.add_le_add_iff_right, levelsOfItems_le_iff,
      normalizeItems_eq_map, List.forall_mem_map]
    intro j hj
    have hpart : IsPart j (.array items) := hj
    exact Nat.le_trans (ih j hj) (Nat.le_of_lt_succ hpart.levels_lt)
  | object members ih =>
    rw [normalize, levels, levels, Nat.add_le_add_iff_right, levelsOfMembers_le_iff]
    intro m hm
    obtain ⟨n, hn, rfl⟩ := mem_normalizeMembers hm
    have hpart : IsPart n.2 (.object members) := ⟨n.1, hn⟩
    exact Nat.le_trans (ih n hn) (Nat.le_of_lt_succ hpart.levels_lt)
  | _ => exact Nat.le_refl _

/-- Fields that are read from a plain object nest no deeper than it does. -/
theorem levels_of_asFreeFields {j : Json} {fields : FreeFields} (h : asFreeFields j = .ok fields)
    (hplain : j.isPlain = true) : (Json.object fields.members).levels ≤ j.levels := by
  obtain ⟨members, members', rfl, he, hfields⟩ := asFreeFields_ok h
  rw [isPlain, Bool.and_eq_true] at hplain
  have hsame := expandMembers_of_plain hplain.2
    (fun m _ hm => @expandWith_of_plain embedded m.2 hm)
  rw [hsame] at he
  cases he
  rw [hfields]
  exact levels_normalize_le (.object members)

end Json

end AuditTrail
