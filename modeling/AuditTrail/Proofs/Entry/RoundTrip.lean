import AuditTrail.Entry.Draft
import AuditTrail.Proofs.Entry.Codec
import AuditTrail.Proofs.Json.Controls
import AuditTrail.Proofs.Json.Parts
/-! # Entries written and read

An entry is read back from its text exactly when its details are plain and the reader has levels
enough for it. An entry that was read from some text is read again from its own text, or not at all:
never as another one (`Entry.reads_back`). -/

namespace AuditTrail
set_option autoImplicit false

/-! ## Details -/

namespace EventDetails

/-- Free-form details come from the fields of a part, unless they are left out. -/
theorem generic_of_ofJson {j : Json} {fields : FreeFields} (h : ofJson j = .ok (.generic fields)) :
    fields = .empty ∨ ∃ part, Json.IsPart part j ∧ Json.asFreeFields part = .ok fields := by
  obtain ⟨kind, members, hbuild, hparts⟩ := Json.asTagged_ok h
  cases kind with
  | generic =>
    obtain ⟨gs, hgs, hsame⟩ := bind_eq_ok_iff.mp hbuild
    cases hsame
    rcases Json.withDefault_ok hgs with hempty | ⟨m, hm, hread⟩
    · exact Or.inl hempty
    · exact Or.inr ⟨m.2, hparts m hm, hread⟩
  | _ => simp [tagging, Kind.build, bind_eq_ok_iff, pure, Except.pure] at hbuild

/-- Details that were read once are read again only when they are plain. -/
theorem isPlain_of_ofJson {j : Json} {d d' : EventDetails} (hread : ofJson j = .ok d)
    (hagain : ofJson d.toJson = .ok d') : d.isPlain = true := by
  cases d with
  | generic fields =>
    have hfree : Json.haveTextFree fields.members = true := by
      rcases generic_of_ofJson hread with rfl | ⟨part, -, hpart⟩
      · rfl
      · exact Json.haveTextFree_of_asFreeFields hpart
    rw [ofJson_generic] at hagain
    split at hagain
    · rename_i gs hgs
      exact Json.havePlain_of_asFreeFields hfree hgs
    · cases hagain
  | _ => rfl

theorem levels_toJson_generic (fields : FreeFields) :
    (toJson (.generic fields)).levels = (Json.object fields.members).levels + 1 := by
  simp [toJson, Json.levels, Json.levelsOfMembers]

/-- Details that are read from a plain tree nest no deeper than it does, save that the fields are
written even where they are left out. -/
theorem levels_of_ofJson {j : Json} {d : EventDetails} (h : ofJson j = .ok d)
    (hplain : j.isPlain = true) : d.toJson.levels ≤ max 2 j.levels := by
  cases d with
  | generic fields =>
    rw [levels_toJson_generic]
    rcases generic_of_ofJson h with rfl | ⟨part, hpart, hfields⟩
    · exact Nat.le_max_left _ _
    · have hle := Json.levels_of_asFreeFields hfields (hpart.isPlain hplain)
      have hlt := hpart.levels_lt
      omega
  | _ => exact Nat.le_trans (by decide : 1 ≤ 2) (Nat.le_max_left _ _)

/-- Details for which the reader has too few levels are not read. -/
theorem ofJson_clip_of_deep {d : EventDetails} {n : Nat} (hn : 0 < n) (h : n < d.toJson.levels) :
    ofJson (Json.clip n d.toJson) = .error .malformed := by
  cases d with
  | generic fields =>
    rw [levels_toJson_generic] at h
    have hunsound : Json.isSound (Json.clip (n - 1) (.object fields.members)) = false :=
      Json.isSound_clip_of_deep _ (by omega)
    have hclip : Json.clip n (toJson (.generic fields)) = .object
        [("kind", .string "generic"), ("fields", Json.clip (n - 1) (.object fields.members))] := by
      rw [toJson, Json.clip, if_neg (by omega)]
      rfl
    rw [hclip]
    exact @Json.asTagged_unsound Kind EventDetails tagging .generic [] "generic" rfl "fields" _
      (by decide) hunsound
  | _ =>
    simp [toJson, Json.levels, Json.levelsOfMembers, Json.nat] at h
    omega

end EventDetails

/-! ## Entries -/

namespace Entry

theorem details_part {j : Json} {e : Entry} (h : ofJson j = .ok e) :
    ∃ part, Json.IsPart part j ∧ EventDetails.ofJson part = .ok e.details := by
  simp only [ofJson, bind_eq_ok_iff, pure, Except.pure, Except.ok.injEq] at h
  obtain ⟨members, hrecord, h⟩ := h
  have hdetails : Json.required "action_details" EventDetails.ofJson members = .ok e.details := by
    grind
  obtain ⟨m, hm, hread⟩ := Json.required_ok hdetails
  exact ⟨m.2, Json.isPart_of_record hrecord hm, hread⟩

section Printed
variable {e : Entry} (hdoubles : e.DoublesReadBack)
include hdoubles

theorem read_render_eq : Json.read e.render = Json.clip Json.maxLevels e.toJson :=
  Json.read_render_eq e.isSound_toJson hdoubles

/-- An entry that is read back has details that are read back. -/
theorem exists_details_of_read? {e' : Entry} (h : Entry.read? e.render = some e') :
    ∃ details,
      EventDetails.ofJson (Json.clip (Json.maxLevels - 1) e.details.toJson) = .ok details := by
  rw [read?_eq_some_iff, read_render_eq hdoubles, toJson, Json.clip, if_neg (by decide),
    Json.clipMembers_eq_map] at h
  exact details_of_ofJson h (List.mem_map_of_mem (e.details_mem rfl))

theorem read?_render_of_deep (h : Json.maxLevels < e.toJson.levels) :
    Entry.read? e.render = none := by
  cases hread : Entry.read? e.render with
  | none => rfl
  | some e' =>
    have hdeep : Json.maxLevels - 1 < e.details.toJson.levels := by
      have hpos : 3 ≤ Json.maxLevels := by decide
      have hlevels := e.levels_toJson_le_iff hpos
      omega
    obtain ⟨details, hdetails⟩ := exists_details_of_read? hdoubles hread
    rw [EventDetails.ofJson_clip_of_deep (by decide) hdeep] at hdetails
    cases hdetails

/-- The details of an entry that was read from some text and is read again from its own are plain. -/
theorem isPlain_of_read? {s : String} {e' : Entry} (hread : Entry.read? s = some e)
    (hagain : Entry.read? e.render = some e') (hl : e.toJson.levels ≤ Json.maxLevels) :
    e.details.isPlain = true := by
  obtain ⟨part, -, hpart⟩ := details_part ((read?_eq_some_iff s e).mp hread)
  obtain ⟨details, hdetails⟩ := exists_details_of_read? hdoubles hagain
  have hlevels := (e.levels_toJson_le_iff (show 3 ≤ Json.maxLevels by decide)).mp hl
  rw [Json.clip_of_levels_le _ (by omega)] at hdetails
  exact EventDetails.isPlain_of_ofJson hpart hdetails

end Printed

/-- An entry that is read from a plain tree is within the levels of the reader. -/
theorem levels_of_read? {s : String} {e : Entry} (hread : Entry.read? s = some e)
    (hplain : (Json.read s).isPlain = true) : e.toJson.levels ≤ Json.maxLevels := by
  obtain ⟨part, hpart, hdetails⟩ := details_part ((read?_eq_some_iff s e).mp hread)
  have hle := EventDetails.levels_of_ofJson hdetails (hpart.isPlain hplain)
  have hlt := hpart.levels_lt
  have hmax := Json.levels_read_le s
  rw [e.levels_toJson_le_iff (by decide)]
  have htwo : 2 < Json.maxLevels := by decide
  omega

/-- **Entries come back from their texts.** Let the text of each double in an entry be read as the
double. Then the entry is read back from its text, with every field as it was, exactly when its details
are plain and it nests no deeper than a reader can follow. Its text stands on one line. An entry that
was read from any text whatever is read again from its own text under the same two conditions, and as
no other entry when they fail; it nests too deep only when an object in the text stood for a text
inside it. -/
theorem reads_back (e : Entry) (hdoubles : e.DoublesReadBack) :
    (Entry.read? e.render = some e ↔
      e.details.isPlain = true ∧ e.toJson.levels ≤ Json.maxLevels) ∧
    ('\n' ∉ e.render.toList ∧ '\r' ∉ e.render.toList) ∧
    ∀ s : String, Entry.read? s = some e →
      (Entry.read? e.render =
        if e.details.isPlain = true ∧ e.toJson.levels ≤ Json.maxLevels then some e else none) ∧
      ((Json.read s).isPlain = true → e.toJson.levels ≤ Json.maxLevels) := by
  have hback : Entry.read? e.render = some e ↔
      e.details.isPlain = true ∧ e.toJson.levels ≤ Json.maxLevels := by
    by_cases hl : e.toJson.levels ≤ Json.maxLevels
    · simp [hl, e.read?_render_iff hdoubles hl]
    · simp [hl, read?_render_of_deep hdoubles (Nat.lt_of_not_le hl)]
  have hcontrols : Text.NoControls e.render.toList := by
    rw [render, String.toList_ofList]
    exact Json.noControls_write e.toJson
  refine ⟨hback, ⟨?_, ?_⟩, fun s hread => ⟨?_, levels_of_read? hread⟩⟩
  · exact fun h => absurd (hcontrols _ h) (by decide)
  · exact fun h => absurd (hcontrols _ h) (by decide)
  · split
    case isTrue h => exact hback.mpr h
    case isFalse h =>
      cases hagain : Entry.read? e.render with
      | none => rfl
      | some e' =>
        by_cases hl : e.toJson.levels ≤ Json.maxLevels
        · exact absurd ⟨isPlain_of_read? hdoubles hread hagain hl, hl⟩ h
        · rw [read?_render_of_deep hdoubles (Nat.lt_of_not_le hl)] at hagain
          cases hagain

/-- An entry about something, with free-form details. -/
def about (details : FreeFields) : Entry :=
  .draft .standard "AE-1" (.startOf ⟨2024, 2, 29, by decide⟩) 1
    (.plain "user_report" "user-1" "cid" "flagged" (.generic details))

/-- Details that hold a double, an array of objects, and the key of embedded texts behind another
key. -/
def nestedDetails : FreeFields where
  members := [("evidence", .array [.object [("#", .nat 1), (Json.embeddedKey, .string "1")], .null]),
    ("share", .real 0.5)]
  normal := by decide +kernel

theorem reads_back_nested :
    (about nestedDetails).DoublesReadBack ∧
    (about nestedDetails).details.isPlain = true ∧
    (about nestedDetails).toJson.levels ≤ Json.maxLevels ∧
    Entry.read? (about nestedDetails).render = some (about nestedDetails) ∧
    (Json.read (about nestedDetails).render).isPlain = true := by
  have hdoubles : (about nestedDetails).DoublesReadBack := by
    rw [doublesReadBack_iff]
    decide +kernel
  have hplain : (about nestedDetails).details.isPlain = true := by decide
  have hlevels : (about nestedDetails).toJson.levels ≤ Json.maxLevels :=
    (levels_toJson_le_iff _ (by decide)).mpr (by decide +kernel)
  have htext : (Json.read (about nestedDetails).render).isPlain = true := by
    rw [read_render_eq hdoubles, Json.clip_of_levels_le _ hlevels]
    decide
  obtain ⟨hback, -, hagain⟩ := reads_back (about nestedDetails) hdoubles
  obtain ⟨hsame, hdeep⟩ := hagain (about nestedDetails).render (hback.mpr ⟨hplain, hlevels⟩)
  rw [if_pos ⟨hplain, hdeep htext⟩] at hsame
  exact ⟨hdoubles, hplain, hlevels, hsame, htext⟩

/-- Details in which an object begins with the key of embedded texts. -/
def lookalikeDetails : FreeFields where
  members := [("evidence", .object [(Json.embeddedKey, .string "1"), ("note", .string "seen")])]
  normal := by decide +kernel

/-- An entry without doubles that is not read back from its text, although the reader has levels
enough for it. -/
theorem reads_back_fails_on_lookalike :
    (about lookalikeDetails).toJson.doubles = [] ∧
    (about lookalikeDetails).toJson.levels ≤ Json.maxLevels ∧
    Entry.read? (about lookalikeDetails).render ≠ some (about lookalikeDetails) := by
  have hnone : (about lookalikeDetails).toJson.doubles = [] := rfl
  have hdoubles : (about lookalikeDetails).DoublesReadBack := doublesReadBack_of_nil rfl
  have hlevels : (about lookalikeDetails).toJson.levels ≤ Json.maxLevels :=
    (levels_toJson_le_iff _ (by decide)).mpr (by decide)
  refine ⟨hnone, hlevels, ?_⟩
  rw [Ne, read?_render_iff _ hdoubles hlevels]
  decide

end Entry

end AuditTrail
