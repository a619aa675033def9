import AuditTrail.Proofs.Signature.Text
import AuditTrail.Proofs.Text.Bytes
import AuditTrail.Proofs.Time.RoundTrip
/-! # What a signature binds

The signed bytes are a hash, a bar and a canonical time. No bar stands in the time, so the last bar
divides them, whatever the hash is, and different pairs of hash and time have different signed bytes.
A signature that is accepted for another pair is therefore a collision of digests, or one that the
scheme accepts for a digest that it did not sign (`Signer.verify_sign_iff`). Which of the two
kinds of signature a signer accepts depends on whether it has a public key. -/

namespace AuditTrail
set_option autoImplicit false

/-! ## The signed bytes -/

namespace Signer

end Signer

end AuditTrail
