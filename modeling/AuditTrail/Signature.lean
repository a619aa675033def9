import AuditTrail.Curve.Ecdsa
import AuditTrail.Text.Split
/-!
# Entry signatures

An entry carries its signature as text. The text names its scheme: a signature on the curve, or a
weak mark, the first half of a digest, which anyone can make. `ofText` accepts exactly the texts of
the two forms, with hexadecimal digits in either case, and `text` writes them in lower case.
-/

namespace AuditTrail

/-- Sixteen bytes. -/
structure WeakMark where
  bytes : List UInt8
  length_eq : bytes.length = 16
deriving DecidableEq

/-- A signature as it is read from its text. -/
inductive EntrySignature where
  /-- A signature on the curve. -/
  | cryptographic (signature : EcdsaSignature)
  /-- The first half of the digest; it binds nobody. -/
  | weak (mark : WeakMark)
deriving DecidableEq

/-- Why a text is no signature. -/
inductive SignatureFault where
  | missingTag
  | missingComponents
  | firstNotHex
  | secondNotHex
  | componentLength
  | outOfRange
  | markNotHex
  | markLength
  | unknownScheme (tag : String)
deriving DecidableEq, Repr

/-- The wording of a fault. -/
def SignatureFault.message : SignatureFault → String
  | .missingTag => "missing scheme tag"
  | .missingComponents => "expected r and s components"
  | .firstNotHex => "r is not hex"
  | .secondNotHex => "s is not hex"
  | .componentLength => "r and s must be 32 bytes each"
  | .outOfRange => "malformed signature"
  | .markNotHex => "digest is not hex"
  | .markLength => "weak signature has the wrong length"
  | .unknownScheme tag => "unknown scheme " ++ tag

namespace EntrySignature

open Text (Hex.bytes? Hex.encodeChars Hex.ofNat Hex.toNat)

def curveTag : List Char := ['E', 'C', 'D', 'S', 'A']

def weakTag : List Char := ['H', 'A', 'S', 'H']

/-- The tag that stands in front of the text. -/
def scheme : EntrySignature → String
  | .cryptographic _ => String.ofList curveTag
  | .weak _ => String.ofList weakTag

/-- The signature was made with a key. -/
def isCryptographic : EntrySignature → Bool
  | .cryptographic _ => true
  | .weak _ => false

/-- The characters of a signature. -/
def write : EntrySignature → List Char
  | .cryptographic signature =>
    curveTag ++ '-' :: Hex.encodeChars (Hex.ofNat 32 signature.r.val) ++
      '-' :: Hex.encodeChars (Hex.ofNat 32 signature.s.val)
  | .weak mark => weakTag ++ '-' :: Hex.encodeChars mark.bytes

def text (signature : EntrySignature) : String := String.ofList signature.write

/-- The signature that two components of hexadecimal digits stand for. -/
def ofComponents (first second : List Char) : Except SignatureFault EntrySignature :=
  match Hex.bytes? first, Hex.bytes? second with
  | none, _ => .error .firstNotHex
  | some _, none => .error .secondNotHex
  | some r, some s =>
    if r.length = 32 ∧ s.length = 32 then
      if h : Hex.toNat r < Secp256k1.order ∧ Hex.toNat s < Secp256k1.order then
        .ok (.cryptographic ⟨⟨Hex.toNat r, h.1⟩, ⟨Hex.toNat s, h.2⟩⟩)
      else .error .outOfRange
    else .error .componentLength

/-- The mark that hexadecimal digits stand for. -/
def ofMark (digits : List Char) : Except SignatureFault EntrySignature :=
  match Hex.bytes? digits with
  | none => .error .markNotHex
  | some bytes => if h : bytes.length = 16 then .ok (.weak ⟨bytes, h⟩) else .error .markLength

def ofChars (cs : List Char) : Except SignatureFault EntrySignature :=
  match Text.cutAt '-' cs with
  | none => .error .missingTag
  | some (tag, body) =>
    if tag = curveTag then
      match Text.cutAt '-' body with
      | none => .error .missingComponents
      | some (first, second) => ofComponents first second
    else if tag = weakTag then ofMark body
    else .error (.unknownScheme (String.ofList tag))

def ofText (s : String) : Except SignatureFault EntrySignature := ofChars s.toList

def isWeakText (s : String) : Bool :=
  match ofText s with
  | .ok (.weak _) => true
  | _ => false

end EntrySignature

end AuditTrail
