import AuditTrail.Json.Reader
import AuditTrail.Json.Printer
import AuditTrail.Json.Tagged
/-!
# Breaches

What can be wrong with an entry at its place in a ledger.
-/

namespace AuditTrail

/-- Something wrong with an entry. -/
inductive Breach where
  /-- The stored hash is not the one that the facts ask for. -/
  | hashMismatch (sequence : UInt64) (id : String)
  /-- The hash of the entry before is not the one that the entry names. -/
  | chainBreak (sequence : UInt64) (id expected found : String)
  /-- The number of the entry is not the one of its place. -/
  | sequenceGap (id : String) (expected found : UInt64)
  /-- The entry is older than the one before. -/
  | timeRegression (sequence : UInt64) (id : String)
  | invalidSignature (sequence : UInt64) (id : String)
  /-- A weak mark where a signature was expected. -/
  | signatureDowngrade (sequence : UInt64) (id : String)
deriving DecidableEq, Repr

namespace Breach

/-- The entry that is affected. -/
def entryId : Breach → String
  | .hashMismatch _ id | .chainBreak _ id _ _ | .sequenceGap id _ _ | .timeRegression _ id
  | .invalidSignature _ id | .signatureDowngrade _ id => id

/-- A number behind a hash sign. -/
def numbered (n : UInt64) : String := "#" ++ toString n.toNat

/-- An entry by its id and number. -/
def subject (sequence : UInt64) (id : String) : String := id ++ " (" ++ numbered sequence ++ ")"

/-- A line about the breach for people to read. -/
def text : Breach → String
  | .hashMismatch sequence id => "Hash mismatch in entry " ++ subject sequence id
  | .chainBreak sequence id expected found =>
    "Chain break at entry " ++ subject sequence id ++ ": expected previous hash " ++ expected ++
      ", got " ++ found
  | .sequenceGap id expected found =>
    "Sequence gap at entry " ++ id ++ ": expected " ++ numbered expected ++ ", got " ++
      numbered found
  | .timeRegression sequence id => "Timestamp regression at entry " ++ subject sequence id
  | .invalidSignature sequence id => "Invalid signature on entry " ++ subject sequence id
  | .signatureDowngrade sequence id =>
    "Weak signature on entry " ++ subject sequence id ++ " where ECDSA was expected"

/-- The breach spoils the proof that the entry is genuine: its hash or its signature does not
hold. -/
def spoilsProof : Breach → Bool
  | .hashMismatch _ _ | .invalidSignature _ _ | .signatureDowngrade _ _ => true
  | .chainBreak _ _ _ _ | .sequenceGap _ _ _ | .timeRegression _ _ => false

/-! ## JSON -/

inductive Kind where
  | hashMismatch
  | chainBreak
  | sequenceGap
  | timeRegression
  | invalidSignature
  | signatureDowngrade
deriving DecidableEq, Repr

def Kind.name : Kind → String
  | .hashMismatch => "hash_mismatch"
  | .chainBreak => "chain_break"
  | .sequenceGap => "sequence_gap"
  | .timeRegression => "timestamp_regression"
  | .invalidSignature => "invalid_signature"
  | .signatureDowngrade => "signature_downgrade"

/-- The names of the kinds. -/
def Kind.words : List (String × Kind) :=
  [Kind.hashMismatch, .chainBreak, .sequenceGap, .timeRegression, .invalidSignature,
    .signatureDowngrade].map fun kind => (kind.name, kind)

/-- A breach of which only the entry has to be said. -/
def plainJson (kind : Kind) (sequence : UInt64) (id : String) : Json := .object
  [("kind", .string kind.name), ("sequence_number", .word sequence), ("entry_id", .string id)]

def toJson : Breach → Json
  | .hashMismatch sequence id => plainJson .hashMismatch sequence id
  | .chainBreak sequence id expected found => .object
    [("kind", .string Kind.chainBreak.name), ("sequence_number", .word sequence),
     ("entry_id", .string id), ("expected", .string expected), ("found", .string found)]
  | .sequenceGap id expected found => .object
    [("kind", .string Kind.sequenceGap.name), ("entry_id", .string id),
     ("expected", .word expected), ("found", .word found)]
  | .timeRegression sequence id => plainJson .timeRegression sequence id
  | .invalidSignature sequence id => plainJson .invalidSignature sequence id
  | .signatureDowngrade sequence id => plainJson .signatureDowngrade sequence id

def Kind.fields : Kind → List Json.Field
  | .chainBreak =>
    [.of "sequence_number" Json.asWord, .of "entry_id" Json.asString,
     .of "expected" Json.asString, .of "found" Json.asString]
  | .sequenceGap =>
    [.of "entry_id" Json.asString, .of "expected" Json.asWord, .of "found" Json.asWord]
  | .hashMismatch | .timeRegression | .invalidSignature | .signatureDowngrade =>
    [.of "sequence_number" Json.asWord, .of "entry_id" Json.asString]

/-- The breach of a kind from the members of a record. -/
def Kind.build (members : List (String × Json)) (kind : Kind) : Except Fault Breach := do
  let id ← Json.required "entry_id" Json.asString members
  match kind with
  | .sequenceGap =>
    return .sequenceGap id (← Json.required "expected" Json.asWord members)
      (← Json.required "found" Json.asWord members)
  | .chainBreak =>
    return .chainBreak (← Json.required "sequence_number" Json.asWord members) id
      (← Json.required "expected" Json.asString members)
      (← Json.required "found" Json.asString members)
  | .hashMismatch =>
    return .hashMismatch (← Json.required "sequence_number" Json.asWord members) id
  | .timeRegression =>
    return .timeRegression (← Json.required "sequence_number" Json.asWord members) id
  | .invalidSignature =>
    return .invalidSignature (← Json.required "sequence_number" Json.asWord members) id
  | .signatureDowngrade =>
    return .signatureDowngrade (← Json.required "sequence_number" Json.asWord members) id

/-- The breach that a tree stands for. -/
def ofJson : Decoder Breach :=
  Json.asTagged ⟨"kind", Kind.words, Kind.fields, fun kind members => kind.build members⟩

def read? (s : String) : Option Breach := (ofJson (Json.read s)).toOption

end Breach

end AuditTrail
