import AuditTrail.CoreInstances
import AuditTrail.Proofs.Text.Hex
import AuditTrail.Signer
/-! # Signatures read back

The text of a signature is the text of no other one. With an honest scheme, what a signer with a
secret makes is accepted by everyone who has its public key; without any key a signer accepts the
marks that it makes. -/

namespace AuditTrail
set_option autoImplicit false

open scoped CoreInstances

namespace EntrySignature
open Text

theorem dash_notMem_curveTag : '-' ∉ curveTag := by decide

theorem dash_notMem_weakTag : '-' ∉ weakTag := by decide

theorem order_le : Secp256k1.order ≤ 256 ^ (32 : Nat) := by decide

/-- The thirty-two bytes of a number below the order are digits that write it. -/
theorem component_eq (n : Fin Secp256k1.order) : Hex.toNat (Hex.ofNat 32 n.val) = n.val := by
  rw [Hex.toNat_ofNat]
  exact Nat.mod_eq_of_lt (Nat.lt_of_lt_of_le n.isLt order_le)

theorem ofComponents_encode (signature : EcdsaSignature) :
    ofComponents (Hex.encodeChars (Hex.ofNat 32 signature.r.val))
      (Hex.encodeChars (Hex.ofNat 32 signature.s.val)) = .ok (.cryptographic signature) := by
  have hr := component_eq signature.r
  have hs := component_eq signature.s
  have hlt : Hex.toNat (Hex.ofNat 32 signature.r.val) < Secp256k1.order ∧
      Hex.toNat (Hex.ofNat 32 signature.s.val) < Secp256k1.order := by
    rw [hr, hs]
    exact ⟨signature.r.isLt, signature.s.isLt⟩
  rw [ofComponents, Hex.bytes?_encodeChars, Hex.bytes?_encodeChars]
  simp only [Hex.length_ofNat, and_self, if_true]
  rw [dif_pos hlt]
  simp only [hr, hs]

theorem ofMark_encode (mark : WeakMark) : ofMark (Hex.encodeChars mark.bytes) = .ok (.weak mark) := by
  rw [ofMark, Hex.bytes?_encodeChars]
  simp only [mark.length_eq, dite_true]

theorem ofChars_write (signature : EntrySignature) : ofChars signature.write = .ok signature := by
  cases signature with
  | cryptographic s =>
    rw [write, List.append_assoc, ofChars, List.cons_append, cutAt_append dash_notMem_curveTag]
    simp only [if_true]
    rw [cutAt_append (Hex.dash_notMem_encodeChars _)]
    exact ofComponents_encode s
  | weak mark =>
    rw [write, ofChars, cutAt_append dash_notMem_weakTag]
    have hne : weakTag ≠ curveTag := by decide
    simp only [if_neg hne, if_true]
    exact ofMark_encode mark

theorem ofText_text (signature : EntrySignature) : ofText signature.text = .ok signature := by
  rw [ofText, text, String.toList_ofList]
  exact ofChars_write signature

theorem text_ne_empty (signature : EntrySignature) : signature.text ≠ "" := by
  intro h
  have hchars := congrArg String.toList h
  rw [text, String.toList_ofList] at hchars
  cases signature <;> cases hchars

theorem isWeakText_text (signature : EntrySignature) :
    isWeakText signature.text = !signature.isCryptographic := by
  rw [isWeakText, ofText_text]
  cases signature <;> rfl

end EntrySignature

namespace Signer

theorem verifyText_text (signer : Signer) (signature : EntrySignature) (hash : String)
    (time : Instant) :
    signer.verifyText signature.text hash time = signer.verify signature hash time := by
  rw [verifyText, EntrySignature.ofText_text]

/-- What a signer makes is a weak mark unless it has a secret. -/
theorem isCryptographic_sign (signer : Signer) (hash : String) (time : Instant) :
    (signer.sign hash time).isCryptographic = decide (signer.mode = .cryptographic) := by
  unfold sign mode
  cases signer.key <;> rfl

theorem publicKey?_isSome (signer : Signer) :
    signer.publicKey?.isSome = decide (signer.mode ≠ .weak) := by
  unfold publicKey? mode
  cases signer.key <;> rfl

/-- A signer with a secret, and one without any key, accepts what it makes itself. Only the first one
relies on the scheme. -/
theorem verify_sign (signer : Signer) (honest : signer.mode = .cryptographic → signer.scheme.Honest)
    (hmode : signer.mode ≠ .verifyOnly) (hash : String) (time : Instant) :
    signer.verify (signer.sign hash time) hash time = true := by
  obtain ⟨scheme, key⟩ := signer
  cases key with
  | signing secret => exact honest rfl secret (signedDigest hash time)
  | checking key => exact absurd rfl hmode
  | absent =>
    change (true && decide (weakMark (signedDigest hash time) = weakMark _)) = true
    rw [Bool.true_and, decide_eq_true_iff]

section Checker
variable {a b : Signer} (hscheme : a.scheme = b.scheme) (hkey : a.publicKey? = b.publicKey?)
include hscheme hkey

theorem verify_congr (signature : EntrySignature) (hash : String) (time : Instant) :
    a.verify signature hash time = b.verify signature hash time := by
  unfold verify
  rw [hscheme, hkey]

theorem verifyText_congr (text hash : String) (time : Instant) :
    a.verifyText text hash time = b.verifyText text hash time := by
  rw [verifyText, verifyText]
  cases EntrySignature.ofText text with
  | error fault => rfl
  | ok signature => exact verify_congr hscheme hkey signature hash time

end Checker

end Signer

open Classical in
/-- The scheme on the curve, made to accept whatever it has signed. -/
noncomputable def SignatureScheme.completed : SignatureScheme :=
  ⟨Ecdsa.publicKey, Ecdsa.sign, fun key digest signature =>
    Ecdsa.verify key digest signature ||
      decide (∃ secret, Ecdsa.publicKey secret = key ∧ Ecdsa.sign secret digest = signature)⟩

theorem SignatureScheme.completed_honest : SignatureScheme.completed.Honest := by
  classical
  intro secret digest
  have hmade : ∃ other, Ecdsa.publicKey other = Ecdsa.publicKey secret ∧
      Ecdsa.sign other digest = Ecdsa.sign secret digest := ⟨secret, rfl, rfl⟩
  simp only [SignatureScheme.completed, Bool.or_eq_true, decide_eq_true_eq]
  exact Or.inr hmade

end AuditTrail
