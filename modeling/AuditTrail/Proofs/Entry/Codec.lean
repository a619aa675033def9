import AuditTrail.Entry.Codec
import AuditTrail.Proofs.Entry.Details
import AuditTrail.Proofs.Json.Record
import AuditTrail.Proofs.Json.Value
import AuditTrail.Proofs.Time.RoundTrip
/-! # Entries read back

The record of an entry is read as the entry with whatever its details are read as, and as nothing
where its details are not read. So an entry within the levels of the reader is read back from its
text exactly when its details are plain (`Entry.read?_render_iff`), if the doubles in its details are
read back from theirs. -/

namespace AuditTrail
set_option autoImplicit false

theorem Json.isSound_strings (ss : List String) : (Json.strings ss).isSound = true := by
  rw [strings, isSound, areSound_iff]
  intro j hj
  obtain ⟨s, -, rfl⟩ := List.mem_map.mp hj
  rfl

/-! ## Legal context and retention -/

namespace LegalContext

theorem fits (c : LegalContext) {members : List (String × Json)} (h : c.toJson = .object members) :
    Json.Fits fields members := by
  obtain ⟨jurisdiction, laws, basis, reason, hold, number⟩ := c
  have hlaws := Json.Field.of_check "applicable_laws" (Json.asList_strings laws)
  cases hold with
  | none =>
    cases number with
    | none =>
      cases h
      exact .found rfl (.found hlaws (.found rfl (.found rfl
        (.missing (by decide) (.missing (by decide) .nil)))))
    | some n =>
      cases h
      exact .found rfl (.found hlaws (.found rfl (.found rfl
        (.missing (by decide) (.found rfl .nil)))))
  | some s =>
    cases number with
    | none =>
      cases h
      exact .found rfl (.found hlaws (.found rfl (.found rfl
        (.found rfl (.missing (by decide) .nil)))))
    | some n =>
      cases h
      exact .found rfl (.found hlaws (.found rfl (.found rfl (.found rfl (.found rfl .nil)))))

theorem ofJson_toJson (c : LegalContext) : ofJson c.toJson = .ok c := by
  have hrecord : Json.record fields c.toJson = .ok _ := Json.record_of_fits (by decide) (c.fits rfl)
  obtain ⟨jurisdiction, laws, basis, reason, hold, number⟩ := c
  have hlaws := Json.asList_strings laws
  unfold ofJson
  rw [hrecord]
  cases hold <;> cases number <;>
    simp [bind, Except.bind, pure, Except.pure, Except.map, Json.required, Json.optional,
      Json.memberIfSome, List.lookup_cons, hlaws, Json.asString, Json.asOption]

theorem toJson_ne_null (c : LegalContext) : c.toJson ≠ .null := Json.noConfusion

theorem isSound_toJson (c : LegalContext) : c.toJson.isSound = true := by
  obtain ⟨jurisdiction, laws, basis, reason, hold, number⟩ := c
  have hlaws : (Json.strings laws).isSound = true := Json.isSound_strings laws
  cases hold <;> cases number <;>
    simp [toJson, Json.memberIfSome, Json.isSound, Json.haveSound, hlaws]

end LegalContext

namespace Retention

theorem asOption_destruction (destruction : Option Instant) :
    Json.asOption Json.asInstant (Json.orNull (fun t => .string t.text) destruction) =
      .ok destruction :=
  Json.asOption_orNull (fun t _ => Json.asInstant_text t) (fun _ => Json.noConfusion)

theorem fits (r : Retention) {members : List (String × Json)} (h : r.toJson = .object members) :
    Json.Fits fields members := by
  have hdays := Json.Field.of_check "retention_days" (EventDetails.asDays_nat r.days)
  have hdestruction : (Json.Field.nullable "destruction_date" Json.asInstant).check
      (Json.orNull (fun t => .string t.text) r.destruction) = .ok () := by
    change (Json.asOption _ _).map _ = _
    rw [asOption_destruction]
    rfl
  cases h
  exact .found hdays (.found rfl (.found hdestruction (.found rfl (.found rfl .nil))))

theorem ofJson_toJson (r : Retention) : ofJson r.toJson = .ok r := by
  have hrecord : Json.record fields r.toJson = .ok _ := Json.record_of_fits (by decide) (r.fits rfl)
  have hdays := EventDetails.asDays_nat r.days
  have hdestruction := asOption_destruction r.destruction
  unfold ofJson
  rw [hrecord]
  simp [bind, Except.bind, pure, Except.pure, Json.required, Json.optional, List.lookup_cons, hdays,
    hdestruction, Json.asString, Json.asBool]

theorem toJson_ne_null (r : Retention) : r.toJson ≠ .null := Json.noConfusion

theorem isSound_toJson (r : Retention) : r.toJson.isSound = true := by
  cases r with
  | mk days reason destruction legalHold complianceClass =>
    cases destruction <;> rfl

end Retention

/-! ## Entries -/

theorem Json.isSound_orNull {α : Type} {write : α → Json} (h : ∀ a, (write a).isSound = true)
    (a : Option α) : (Json.orNull write a).isSound = true := by
  cases a with
  | none => rfl
  | some a => exact h a

theorem Category.asWordOf_name (c : Category) : Json.asWordOf words (.string c.name) = .ok c := by
  cases c <;> rfl

theorem Severity.asWordOf_name (s : Severity) : Json.asWordOf words (.string s.name) = .ok s := by
  cases s <;> rfl

theorem TargetKind.asWordOf_name (k : TargetKind) : Json.asWordOf words (.string k.name) = .ok k := by
  cases k <;> rfl

namespace Entry

theorem isSound_toJson (e : Entry) : e.toJson.isSound = true := by
  have hdetails := e.details.isSound_toJson
  have hlegal := Json.isSound_orNull LegalContext.isSound_toJson e.legal
  have hretention := Json.isSound_orNull Retention.isSound_toJson e.retention
  have htags := Json.isSound_strings e.tags
  cases hms : e.processingMs <;>
    simp [toJson, hms, Json.memberIfSome, Json.isSound, Json.haveSound, Json.word, Number.isNormal,
      hdetails, hlegal, hretention, htags]

theorem asOption_legal (legal : Option LegalContext) : Json.asOption LegalContext.ofJson
    (Json.orNull LegalContext.toJson legal) = .ok legal :=
  Json.asOption_orNull (fun c _ => c.ofJson_toJson) LegalContext.toJson_ne_null

theorem asOption_retention (retention : Option Retention) : Json.asOption Retention.ofJson
    (Json.orNull Retention.toJson retention) = .ok retention :=
  Json.asOption_orNull (fun r _ => r.ofJson_toJson) Retention.toJson_ne_null

theorem fits (e : Entry) {details : EventDetails}
    (hdetails : EventDetails.ofJson e.details.toJson = .ok details) {members : List (String × Json)}
    (h : e.toJson = .object members) : Json.Fits fields members := by
  have htime := Json.Field.of_check "timestamp" (Json.asInstant_text e.time)
  have hcategory := Json.Field.of_check "event_category" e.category.asWordOf_name
  have hseverity := Json.Field.of_check "severity" e.severity.asWordOf_name
  have hkind := Json.Field.of_check "target_type" e.targetKind.asWordOf_name
  have hfacts := Json.Field.of_check "action_details" hdetails
  have hlegal : (Json.Field.nullable "legal_context" LegalContext.ofJson).check
      (Json.orNull LegalContext.toJson e.legal) = .ok () := by
    change (Json.asOption _ _).map _ = _
    rw [asOption_legal]
    rfl
  have hretention : (Json.Field.nullable "data_retention" Retention.ofJson).check
      (Json.orNull Retention.toJson e.retention) = .ok () := by
    change (Json.asOption _ _).map _ = _
    rw [asOption_retention]
    rfl
  have htags : (Json.Field.defaulted "tags" (Json.asList Json.asString)).check
      (Json.strings e.tags) = .ok () := by
    change (Json.asList _ _).map _ = _
    rw [Json.asList_strings]
    rfl
  rw [toJson] at h
  cases hms : e.processingMs with
  | none =>
    rw [hms] at h
    cases h
    exact .found rfl (.found htime (.found rfl (.found rfl (.found hcategory (.found hseverity
      (.found rfl (.found rfl (.found hkind (.found rfl (.found hfacts (.found rfl (.found hlegal
      (.found rfl (.found hretention (.found rfl (.found rfl (.found rfl (.found rfl
      (.missing (by decide) (.found htags .nil))))))))))))))))))))
  | some ms =>
    rw [hms] at h
    cases h
    exact .found rfl (.found htime (.found rfl (.found rfl (.found hcategory (.found hseverity
      (.found rfl (.found rfl (.found hkind (.found rfl (.found hfacts (.found rfl (.found hlegal
      (.found rfl (.found hretention (.found rfl (.found rfl (.found rfl (.found rfl
      (.found rfl (.found htags .nil))))))))))))))))))))

theorem ofJson_toJson_of (e : Entry) {details : EventDetails}
    (hdetails : EventDetails.ofJson e.details.toJson = .ok details) :
    ofJson e.toJson = .ok { e with details } := by
  have hrecord : Json.record fields e.toJson = .ok _ :=
    Json.record_of_fits (by decide) (e.fits hdetails rfl)
  have hword : ∀ w, Json.asWord (.word w) = .ok w := fun _ => rfl
  have hsome : ∀ w, Json.asOption Json.asWord (.word w) = .ok (some w) := fun _ => rfl
  unfold ofJson
  rw [hrecord]
  cases hms : e.processingMs <;>
    simp [bind, Except.bind, pure, Except.pure, Json.required, Json.optional, Json.withDefault,
      Json.memberIfSome, List.lookup_cons, hdetails, hword, hsome, Json.asInstant_text,
      Category.asWordOf_name, Severity.asWordOf_name, TargetKind.asWordOf_name, asOption_legal,
      asOption_retention, Json.asList_strings, Json.asString]

/-- An entry is read only where its details are. -/
theorem details_of_ofJson {members : List (String × Json)} {e : Entry}
    (h : ofJson (.object members) = .ok e) {d : Json} (hd : ("action_details", d) ∈ members) :
    ∃ details, EventDetails.ofJson d = .ok details := by
  have hrecord : ∃ ms, Json.record fields (.object members) = .ok ms := by
    unfold ofJson at h
    cases hr : Json.record fields (.object members) with
    | ok ms => exact ⟨ms, rfl⟩
    | error fault =>
      rw [hr] at h
      cases h
  obtain ⟨ms, hrecord⟩ := hrecord
  have hcheck := @Json.check_of_record fields members ms hrecord ("action_details", d) hd
    (.of "action_details" EventDetails.ofJson) rfl
  change (EventDetails.ofJson d).map _ = _ at hcheck
  cases hread : EventDetails.ofJson d with
  | ok details => exact ⟨details, rfl⟩
  | error fault =>
    rw [hread] at hcheck
    cases hcheck

theorem details_mem (e : Entry) {members : List (String × Json)} (h : e.toJson = .object members) :
    ("action_details", e.details.toJson) ∈ members := by
  cases h
  simp

theorem ofJson_toJson_iff (e : Entry) : ofJson e.toJson = .ok e ↔ e.details.isPlain = true := by
  rw [← EventDetails.ofJson_toJson_iff]
  constructor
  · intro h
    obtain ⟨details, hdetails⟩ := details_of_ofJson h (e.details_mem rfl)
    rw [e.ofJson_toJson_of hdetails] at h
    have hsame : details = e.details := congrArg Entry.details (Except.ok.inj h)
    rw [hdetails, hsame]
  · intro h
    rw [e.ofJson_toJson_of h]

theorem read?_eq_some_iff (s : String) (e : Entry) :
    Entry.read? s = some e ↔ ofJson (Json.read s) = .ok e := by
  rw [Entry.read?]
  cases ofJson (Json.read s) <;> simp [Except.toOption]

/-- The text of each double in the entry is read as the double. -/
def DoublesReadBack (e : Entry) : Prop := ∀ x ∈ e.toJson.doubles, Json.ReadsBack x

/-- **An entry within the levels of the reader, whose doubles are read back from their texts, is read
back from its own exactly when its details are plain.** -/
theorem read?_render_iff (e : Entry) (hdoubles : e.DoublesReadBack)
    (hl : e.toJson.levels ≤ Json.maxLevels) :
    Entry.read? e.render = some e ↔ e.details.isPlain = true := by
  rw [read?_eq_some_iff, Entry.render, Entry.write, ← Json.render,
    Json.read_render e.isSound_toJson hdoubles hl, ofJson_toJson_iff]

end Entry

/-! ## How deep entries nest -/

theorem Json.levels_strings (ss : List String) : (Json.strings ss).levels = 1 := by
  have hflat : Json.levelsOfItems (ss.map Json.string) = 0 := by
    rw [← Nat.le_zero, Json.levelsOfItems_le_iff]
    intro j hj
    obtain ⟨s, -, rfl⟩ := List.mem_map.mp hj
    exact Nat.le_refl _
  rw [strings, levels, hflat]

theorem LegalContext.levels_toJson (c : LegalContext) : c.toJson.levels = 2 := by
  obtain ⟨jurisdiction, laws, basis, reason, hold, number⟩ := c
  have hlaws : (Json.strings laws).levels = 1 := Json.levels_strings laws
  cases hold <;> cases number <;>
    simp [toJson, Json.memberIfSome, Json.levels, Json.levelsOfMembers, hlaws]

theorem Retention.levels_toJson (r : Retention) : r.toJson.levels = 1 := by
  cases r with
  | mk days reason destruction legalHold complianceClass =>
    cases destruction <;> rfl

/-- An entry nests as deep as some bound from three on when its details stay below the bound. -/
theorem Entry.levels_toJson_le_iff (e : Entry) {n : Nat} (hn : 3 ≤ n) :
    e.toJson.levels ≤ n ↔ e.details.toJson.levels < n := by
  have htags : (Json.strings e.tags).levels = 1 := Json.levels_strings e.tags
  cases hl : e.legal <;> cases hr : e.retention <;> cases hms : e.processingMs <;>
    simp [toJson, hl, hr, hms, Json.memberIfSome, Json.orNull, Json.levels, Json.levelsOfMembers,
      Json.word, LegalContext.levels_toJson, Retention.levels_toJson, htags] <;>
    omega

/-! ## Doubles in entries -/

theorem Json.doubles_strings (ss : List String) : (Json.strings ss).doubles = [] := by
  rw [strings, doubles, List.eq_nil_iff_forall_not_mem]
  intro x hx
  obtain ⟨j, hj, hx⟩ := (Json.mem_doublesOfItems _ x).mp hx
  obtain ⟨s, -, rfl⟩ := List.mem_map.mp hj
  cases hx

theorem LegalContext.doubles_toJson (c : LegalContext) : c.toJson.doubles = [] := by
  obtain ⟨jurisdiction, laws, basis, reason, hold, number⟩ := c
  have hlaws : (Json.strings laws).doubles = [] := Json.doubles_strings laws
  cases hold <;> cases number <;>
    simp [toJson, Json.memberIfSome, Json.doubles, Json.doublesOfMembers, hlaws]

theorem Retention.doubles_toJson (r : Retention) : r.toJson.doubles = [] := by
  cases r with
  | mk days reason destruction legalHold complianceClass =>
    cases destruction <;> rfl

/-- The doubles of an entry are those of its details. -/
theorem Entry.doublesReadBack_iff (e : Entry) :
    e.DoublesReadBack ↔ ∀ x ∈ e.details.toJson.doubles, Json.ReadsBack x := by
  suffices hsame : e.toJson.doubles = e.details.toJson.doubles by rw [DoublesReadBack, hsame]
  have htags : (Json.strings e.tags).doubles = [] := Json.doubles_strings e.tags
  cases hl : e.legal <;> cases hr : e.retention <;> cases hms : e.processingMs <;>
    simp [toJson, hl, hr, hms, Json.memberIfSome, Json.orNull, Json.doubles, Json.doublesOfMembers,
      Json.word, LegalContext.doubles_toJson, Retention.doubles_toJson, htags]

theorem Entry.doublesReadBack_of_nil {e : Entry} (h : e.details.toJson.doubles = []) :
    e.DoublesReadBack := by
  rw [doublesReadBack_iff, h]
  exact fun x hx => absurd hx List.not_mem_nil

end AuditTrail
