import AuditTrail.Signature
import AuditTrail.Text.Blank
import AuditTrail.Time.Printer
/-!
# Signers

A signer signs and checks entries. What is signed is the digest of an entry's hash, a bar and its
canonical time. With a secret a signer makes signatures on the curve; with a public key alone, or
with no key, it can only make weak marks. A signer that has a public key accepts no weak mark.
-/

namespace AuditTrail

/-- What a signer knows. -/
inductive SigningKey where
  /-- A secret, and with it its public key. -/
  | signing (key : SecretKey)
  /-- A public key alone. -/
  | checking (key : PublicKey)
  /-- No key. -/
  | absent
deriving DecidableEq

/-- What a signer can do. -/
inductive SigningMode where
  | cryptographic
  | verifyOnly
  | weak
deriving DecidableEq, Repr

def SigningMode.name : SigningMode → String
  | .cryptographic => "Cryptographic"
  | .verifyOnly => "VerifyOnly"
  | .weak => "Weak"

/-- A key and the scheme it is used with. -/
structure Signer where
  scheme : SignatureScheme
  key : SigningKey

/-- Why a text is no secret key. -/
inductive SecretFault where
  | notHex (fault : Text.Hex.Fault)
  | outOfRange
deriving DecidableEq, Repr

/-- The wording of a fault. -/
def SecretFault.message : SecretFault → String
  | .notHex fault => "Invalid signing key hex: " ++ fault.message
  | .outOfRange => "Invalid signing key: malformed or out-of-range secret key"

namespace Signer

/-- The signer without a key. -/
def keyless (scheme : SignatureScheme) : Signer := ⟨scheme, .absent⟩

/-- The signer that only checks. -/
def verifier (scheme : SignatureScheme) (key : PublicKey) : Signer := ⟨scheme, .checking key⟩

/-- The signer with the secret that a text of hexadecimal digits writes, blanks at its ends
aside. -/
def ofSecretHex (scheme : SignatureScheme) (s : String) : Except SecretFault Signer :=
  match Text.Hex.decode (Text.trim s) with
  | .error fault => .error (.notHex fault)
  | .ok bytes =>
    match SecretKey.ofBytes? bytes with
    | none => .error .outOfRange
    | some key => .ok ⟨scheme, .signing key⟩

/-- The mode that a key allows. -/
def mode (signer : Signer) : SigningMode :=
  match signer.key with
  | .signing _ => .cryptographic
  | .checking _ => .verifyOnly
  | .absent => .weak

def publicKey? (signer : Signer) : Option PublicKey :=
  match signer.key with
  | .signing key => some (signer.scheme.publicKey key)
  | .checking key => some key
  | .absent => none

def publicKeyText? (signer : Signer) : Option String := signer.publicKey?.map PublicKey.text

def signedBytes (hash : String) (time : Instant) : List UInt8 :=
  String.toUTF8 (hash ++ "|" ++ time.canonical) |>.toList

def signedDigest (hash : String) (time : Instant) : Digest := sha256 (signedBytes hash time)

/-- The first half of a digest. -/
def weakMark (digest : Digest) : WeakMark :=
  ⟨digest.bytes.take 16, by simp [digest.length_eq]⟩

/-- The signature of a hash and a time. -/
def sign (signer : Signer) (hash : String) (time : Instant) : EntrySignature :=
  let digest := signedDigest hash time
  match signer.key with
  | .signing key => .cryptographic (signer.scheme.sign key digest)
  | .checking _ | .absent => .weak (weakMark digest)

/-- The signature is one of the hash and the time, as far as the signer can tell. -/
def verify (signer : Signer) (signature : EntrySignature) (hash : String) (time : Instant) : Bool :=
  let digest := signedDigest hash time
  match signature with
  | .cryptographic s =>
    match signer.publicKey? with
    | none => false
    | some key => signer.scheme.verify key digest s
  | .weak mark => signer.publicKey?.isNone && decide (weakMark digest = mark)

/-- The same for the text of a signature; what is no signature is not accepted. -/
def verifyText (signer : Signer) (text : String) (hash : String) (time : Instant) : Bool :=
  match EntrySignature.ofText text with
  | .ok signature => signer.verify signature hash time
  | .error _ => false

/-- What a signer shows of itself: its mode and its public key, never its secret. -/
def summary (signer : Signer) : String :=
  let key := match signer.publicKeyText? with
    | none => "None"
    | some text => "Some(\"" ++ text ++ "\")"
  "IntegritySigner \x7b mode: " ++ signer.mode.name ++ ", public_key: " ++ key ++ " \x7d"

end Signer

end AuditTrail
