import AuditTrail.Entry.Details
import AuditTrail.Proofs.Json.Embedded
import AuditTrail.Proofs.Json.Record
import AuditTrail.Proofs.Time.RoundTrip
/-! # Details read back

Details of a fixed shape are always read back from their record, free-form details exactly when
their values are plain (`EventDetails.ofJson_toJson_iff`). -/

namespace AuditTrail
set_option autoImplicit false

namespace EventDetails

/-- No free-form object inside the details begins with the key that stands for a text. -/
def isPlain : EventDetails → Bool
  | .takedown _ _ _ _ | .counterNotice _ _ _ _ | .reinstatement _ _ _ => true
  | .generic fields => Json.havePlain fields.members

theorem isSound_toJson (d : EventDetails) : d.toJson.isSound = true := by
  cases d with
  | takedown takedownId requestor work framework => rfl
  | counterNotice noticeId date framework days => rfl
  | reinstatement reason framework manner => rfl
  | generic fields =>
    have hfields := Json.isSound_of_isNormal _ fields.normal
    simp only [toJson, Json.isSound, Json.haveSound, Bool.and_true, Bool.true_and] at hfields ⊢
    exact hfields

theorem asDays_nat (days : UInt32) : asDays (.nat days.toNat) = .ok days := by
  have hlt := days.toNat_lt
  simp [asDays, Json.asNatBelow, Json.asWord, Json.nat, hlt]

theorem ofJson_takedown (takedownId requestor work framework : String) :
    ofJson (toJson (.takedown takedownId requestor work framework)) =
      .ok (.takedown takedownId requestor work framework) := rfl

theorem ofJson_reinstatement (reason framework manner : String) :
    ofJson (toJson (.reinstatement reason framework manner)) =
      .ok (.reinstatement reason framework manner) := rfl

theorem ofJson_counterNotice (noticeId : String) (date : Instant) (framework : String)
    (days : UInt32) : ofJson (toJson (.counterNotice noticeId date framework days)) =
      .ok (.counterNotice noticeId date framework days) := by
  have hdate := Json.asInstant_text date
  have hdays := asDays_nat days
  have hothers : ∀ m ∈ [("counter_notice_id", .string noticeId),
      ("reinstatement_date", .string date.text), ("legal_framework", .string framework),
      ("waiting_period_days", .nat days.toNat)],
      m.1 ≠ tagging.tag ∧ Json.isSound m.2 = true := by
    intro m hm
    simp only [List.mem_cons, List.not_mem_nil, or_false] at hm
    rcases hm with rfl | rfl | rfl | rfl
    all_goals exact ⟨by simp [tagging], rfl⟩
  have hfront := @Json.asTagged_front Kind EventDetails tagging .counterNotice _ "counter_notice" rfl
    hothers
  refine hfront.trans ?_
  rw [Json.content_of_fits (by decide)]
  · simp [tagging, Kind.build, bind, Except.bind, pure, Except.pure, Json.required, List.lookup_cons,
      hdate, hdays, Json.asString]
  · exact .found rfl (.found (Json.Field.of_check _ hdate) (.found rfl
      (.found (Json.Field.of_check _ hdays) .nil)))

theorem ofJson_generic (fields : FreeFields) : ofJson (toJson (.generic fields)) =
    match Json.asFreeFields (.object fields.members) with
    | .ok gs => .ok (.generic gs)
    | .error _ => .error .mismatch := by
  have hothers : ∀ m ∈ [("fields", Json.object fields.members)],
      m.1 ≠ tagging.tag ∧ Json.isSound m.2 = true := by
    intro m hm
    rw [List.mem_singleton.mp hm]
    exact ⟨by simp [tagging], Json.isSound_of_isNormal _ fields.normal⟩
  have hfront := @Json.asTagged_front Kind EventDetails tagging .generic _ "generic" rfl hothers
  have hcheck : (Json.Field.defaulted "fields" Json.asFreeFields).check (.object fields.members) =
      (Json.asFreeFields (.object fields.members)).map fun _ => () := rfl
  refine hfront.trans ?_
  cases hread : Json.asFreeFields (.object fields.members) with
  | error fault =>
    rw [hread] at hcheck
    exact Json.content_of_fault List.mem_cons_self rfl hcheck
  | ok gs =>
    rw [hread] at hcheck
    rw [Json.content_of_fits (by decide) (.found hcheck .nil)]
    simp [tagging, Kind.build, bind, Except.bind, pure, Except.pure, Json.withDefault, hread]

theorem ofJson_toJson_iff (d : EventDetails) : ofJson d.toJson = .ok d ↔ d.isPlain = true := by
  cases d with
  | takedown takedownId requestor work framework =>
    exact iff_of_true (ofJson_takedown takedownId requestor work framework) rfl
  | counterNotice noticeId date framework days =>
    exact iff_of_true (ofJson_counterNotice noticeId date framework days) rfl
  | reinstatement reason framework manner =>
    exact iff_of_true (ofJson_reinstatement reason framework manner) rfl
  | generic fields =>
    rw [isPlain, ← Json.asFreeFields_eq_ok_iff, ofJson_generic]
    cases hread : Json.asFreeFields (.object fields.members) with
    | error fault => simp
    | ok gs => simp

end EventDetails

end AuditTrail
