import AuditTrail.Curve.Secp256k1
import AuditTrail.Digest.Sha256
/-!
# Signatures on the curve

Signing and verifying of digests. The nonce of a signature is derived from key and digest by a keyed
digest, so that equal inputs have equal signatures; of the two signatures that a nonce gives, the
one whose second number is at most half the order is used, and only such signatures are accepted.

`SignatureScheme` is what the ledger needs of all this. Whatever is said about the ledger is said
for every scheme; `secp256k1` is the one that runs.
-/

namespace AuditTrail

open Secp256k1 (order)

/-- A secret number: neither zero nor as large as the order. -/
structure SecretKey where
  value : Nat
  inRange : 0 < value ∧ value < order
deriving DecidableEq

/-- The secret number that thirty-two bytes write. -/
def SecretKey.ofBytes? (bytes : List UInt8) : Option SecretKey :=
  if bytes.length = 32 then
    if h : 0 < Text.Hex.toNat bytes ∧ Text.Hex.toNat bytes < order then
      some ⟨Text.Hex.toNat bytes, h⟩
    else none
  else none

/-- A point that signatures are checked against. -/
structure PublicKey where
  point : Secp256k1.Point
deriving DecidableEq

/-- The compressed form of the point in hexadecimal digits. -/
def PublicKey.text (key : PublicKey) : String := Text.Hex.encode key.point.compressed

/-- The key that a hexadecimal text of a point stands for. -/
def PublicKey.ofHex? (s : String) : Option PublicKey :=
  (Text.Hex.bytes? s.toList).bind fun bytes =>
    (Secp256k1.Point.ofBytes? bytes).map PublicKey.mk

/-- Two numbers below the order. -/
structure EcdsaSignature where
  r : Fin order
  s : Fin order
deriving DecidableEq

namespace Ecdsa

/-- A number below the order; larger ones are reduced. -/
def scalar (n : Nat) : Fin order := ⟨n % order, Nat.mod_lt n (by decide)⟩

/-- The state of the generator of nonces: a key and the value it last produced. -/
structure NonceState where
  key : List UInt8
  value : List UInt8

/-- The generator stirred with some data. -/
def NonceState.stir (state : NonceState) (data : List UInt8) : NonceState :=
  let key := (hmacSha256 state.key (state.value ++ data)).bytes
  ⟨key, (hmacSha256 key state.value).bytes⟩

/-- The generator for a secret and a digest. -/
def NonceState.start (secret : SecretKey) (digest : Digest) : NonceState :=
  let data := Text.Hex.ofNat 32 secret.value ++ digest.bytes
  let state : NonceState := ⟨List.replicate 32 0, List.replicate 32 1⟩
  (state.stir (0 :: data)).stir (1 :: data)

/-- The signature that a nonce gives, if it gives one. -/
def withNonce? (secret : SecretKey) (digest : Digest) (nonce : Nat) : Option EcdsaSignature :=
  if nonce = 0 ∨ order ≤ nonce then none
  else
    match (Secp256k1.base.multiple nonce).plain? with
    | none => none
    | some p =>
      let r := p.x % order
      let s :=
        Secp256k1.inverse order nonce * (Text.Hex.toNat digest.bytes + r * secret.value) % order
      if r = 0 ∨ s = 0 then none
      else some ⟨scalar r, scalar (if 2 * s ≤ order then s else order - s)⟩

/-- The signature of the first nonce that gives one; the fuel bounds how many are tried. -/
def firstSignature (secret : SecretKey) (digest : Digest) : Nat → NonceState → EcdsaSignature
  | 0, _ => ⟨scalar 0, scalar 0⟩
  | fuel + 1, state =>
    let value := (hmacSha256 state.key state.value).bytes
    match withNonce? secret digest (Text.Hex.toNat value) with
    | some signature => signature
    | none => firstSignature secret digest fuel (NonceState.stir ⟨state.key, value⟩ [0])

/-- The signature of a digest. -/
def sign (secret : SecretKey) (digest : Digest) : EcdsaSignature :=
  firstSignature secret digest 128 (NonceState.start secret digest)

/-- The key that checks what a secret signs. -/
def publicKey (secret : SecretKey) : PublicKey :=
  ⟨(Secp256k1.base.multiple secret.value).plain?.getD Secp256k1.base⟩

/-- A signature is accepted when its second number is neither zero nor above half the order, and
the point computed from it has its first number for first coordinate. -/
def verify (key : PublicKey) (digest : Digest) (signature : EcdsaSignature) : Bool :=
  let r := signature.r.val
  let s := signature.s.val
  if r = 0 ∨ s = 0 ∨ order < 2 * s then false
  else
    let inv := Secp256k1.inverse order s
    let first := Text.Hex.toNat digest.bytes % order * inv % order
    let second := r * inv % order
    let sum := (Secp256k1.base.multiple first).add (key.point.multiple second)
    match sum.plain? with
    | none => false
    | some p => p.x % order == r

end Ecdsa

/-- What signs digests and checks their signatures. -/
structure SignatureScheme where
  /-- The key that checks what a secret signs. -/
  publicKey : SecretKey → PublicKey
  /-- The signature of a digest. -/
  sign : SecretKey → Digest → EcdsaSignature
  /-- The signature is one of the digest under the key. -/
  verify : PublicKey → Digest → EcdsaSignature → Bool

/-- Signatures made with a secret are accepted under its key. -/
def SignatureScheme.Honest (scheme : SignatureScheme) : Prop :=
  ∀ secret digest, scheme.verify (scheme.publicKey secret) digest (scheme.sign secret digest) = true

/-- The scheme on the curve. -/
def SignatureScheme.secp256k1 : SignatureScheme := ⟨Ecdsa.publicKey, Ecdsa.sign, Ecdsa.verify⟩

end AuditTrail
