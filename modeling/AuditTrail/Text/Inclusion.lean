/-!
# Text inside text

A text includes another when it can be cut into a front, the other and a rest.
-/

namespace AuditTrail.Text

/-- The characters of `part` stand somewhere in a row. -/
def includesChars (part : List Char) : List Char → Bool
  | [] => part.isEmpty
  | c :: cs => part.isPrefixOf (c :: cs) || includesChars part cs

/-- The text includes `part`. -/
def includes (s part : String) : Bool := includesChars part.toList s.toList

/-- The text begins with `part`. -/
def beginsWith (s part : String) : Bool := part.toList.isPrefixOf s.toList

theorem includesChars_iff {part cs : List Char} :
    includesChars part cs = true ↔ ∃ front rest, cs = front ++ part ++ rest := by
  induction cs with
  | nil =>
    simp only [includesChars, List.isEmpty_iff]
    constructor
    · rintro rfl; exact ⟨[], [], rfl⟩
    · rintro ⟨front, rest, h⟩; simp_all
  | cons c cs ih =>
    simp only [includesChars, Bool.or_eq_true, List.isPrefixOf_iff_prefix, ih]
    constructor
    · rintro (⟨rest, h⟩ | ⟨front, rest, h⟩)
      · exact ⟨[], rest, by simpa using h.symm⟩
      · exact ⟨c :: front, rest, by simp [h]⟩
    · rintro ⟨front, rest, h⟩
      cases front with
      | nil => exact Or.inl ⟨rest, by simpa using h.symm⟩
      | cons d front =>
        obtain ⟨rfl, tail⟩ := List.cons.inj h
        exact Or.inr ⟨front, rest, tail⟩

end AuditTrail.Text
