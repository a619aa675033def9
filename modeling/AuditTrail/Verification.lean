import AuditTrail.Breach
import AuditTrail.Entry.Fingerprint
import AuditTrail.Signer
/-!
# Verification

Checks a list of entries and names everything that is wrong with it. Each entry is checked at its
place against the entry before it: its number, its hash, its link to the entry before, its time and,
when there is someone to check it, its signature. Nothing that is wrong with one entry hides what is
wrong with another.
-/

namespace AuditTrail

/-- A breach that is there when a condition holds. -/
def breachIf (condition : Bool) (breach : Breach) : List Breach :=
  if condition then [breach] else []

namespace Entry

/-- The number that belongs to the place behind `index` entries. -/
def numberAt (index : Nat) : UInt64 := UInt64.ofNat (index + 1)

/-- The hash that an entry has to name as the one before it. -/
def linkAfter : Option Entry → String
  | some before => before.hash
  | none => ""

/-- The breach of an entry that does not have the number of its place. -/
def sequenceBreach (index : Nat) (e : Entry) : List Breach :=
  breachIf (e.sequence != numberAt index) (.sequenceGap e.id (numberAt index) e.sequence)

/-- The breach of an entry whose hash does not hold. -/
def hashBreach (e : Entry) : List Breach := breachIf (!e.isIntact) (.hashMismatch e.sequence e.id)

/-- The breach of an entry that does not name the hash of the one before. -/
def linkBreach (before : Option Entry) (e : Entry) : List Breach :=
  breachIf (e.previousHash != linkAfter before)
    (.chainBreak e.sequence e.id (linkAfter before) e.previousHash)

/-- The breach of an entry that is older than the one before. -/
def timeBreach (before : Option Entry) (e : Entry) : List Breach :=
  match before with
  | some before => breachIf (decide (e.time < before.time)) (.timeRegression e.sequence e.id)
  | none => []

/-- The signature is a weak mark. -/
def isWeak (e : Entry) : Bool := EntrySignature.isWeakText e.signature

/-- The breach of an entry whose signature does not hold. -/
def signatureBreach (checker : Option Signer) (e : Entry) : List Breach :=
  match checker with
  | none => []
  | some signer =>
    if e.isWeak && signer.publicKey?.isSome then [.signatureDowngrade e.sequence e.id]
    else
      breachIf (!signer.verifyText e.signature e.hash e.time) (.invalidSignature e.sequence e.id)

/-- All that is wrong with an entry at a place. -/
def breaches (checker : Option Signer) (index : Nat) (before : Option Entry) (e : Entry) :
    List Breach :=
  e.sequenceBreach index ++ e.hashBreach ++ e.linkBreach before ++ e.timeBreach before ++
    e.signatureBreach checker

/-- The breaches of each entry of a list that stands behind `index` others. -/
def breachesFrom (checker : Option Signer) : Nat → Option Entry → List Entry → List (List Breach)
  | _, _, [] => []
  | index, before, e :: rest =>
    e.breaches checker index before :: breachesFrom checker (index + 1) (some e) rest

end Entry

/-- The outcome of a verification. -/
structure Verification where
  /-- How many entries there were. -/
  total : Nat
  /-- How many of them have a hash and, if it was checked, a signature that holds. -/
  verified : Nat
  /-- How many have a weak mark for a signature. -/
  weak : Nat
  signaturesChecked : Bool
  breaches : List Breach
  /-- When it was made. -/
  time : Instant

namespace Verification

/-- The verification of some entries. -/
def of (checker : Option Signer) (now : Instant) (entries : List Entry) : Verification :=
  let found := Entry.breachesFrom checker 0 none entries
  { total := entries.length
    verified := found.countP fun breaches => !breaches.any Breach.spoilsProof
    weak := entries.countP Entry.isWeak
    signaturesChecked := checker.isSome
    breaches := found.flatten
    time := now }

/-- Nothing is wrong. -/
def isValid (v : Verification) : Bool := v.breaches.isEmpty

/-- The breaches for people to read. -/
def descriptions (v : Verification) : List String := v.breaches.map Breach.text

/-- A line about the outcome for people to read. -/
def summary (v : Verification) : String :=
  let share := toString v.verified ++ "/" ++ toString v.total ++ " entries verified, "
  if v.isValid then
    "Audit ledger is valid (" ++ share ++ toString v.weak ++ " weak signatures)"
  else
    "Audit ledger is invalid (" ++ share ++ toString v.breaches.length ++ " breaches)"

/-- The outcome as JSON. -/
def toJson (v : Verification) : Json := .object
  [("integrity_valid", .bool v.isValid), ("total_entries", .nat v.total),
   ("verified_entries", .nat v.verified), ("weak_signatures", .nat v.weak),
   ("signatures_checked", .bool v.signaturesChecked),
   ("breaches", .array (v.breaches.map Breach.toJson)),
   ("last_verification_date", .string v.time.text)]

end Verification

/-- The numbers of the entries whose hash does not hold. -/
def tamperedSequences (entries : List Entry) : List UInt64 :=
  (entries.filter fun e => !e.isIntact).map Entry.sequence

/-! ## Gaps -/

/-- What is missing between two neighbours. -/
inductive GapKind where
  /-- Nothing was recorded for a long time. -/
  | quiet (minutes : Int)
  /-- The second entry does not name the hash of the first. -/
  | chain
deriving DecidableEq, Repr

/-- A gap between two neighbours, told by their numbers. -/
structure Gap where
  kind : GapKind
  start : UInt64
  finish : UInt64
deriving DecidableEq, Repr

namespace Gap

/-- A line about the gap for people to read. -/
def text (gap : Gap) : String :=
  let place := "between entries " ++ Breach.numbered gap.start ++ " and " ++
    Breach.numbered gap.finish
  match gap.kind with
  | .quiet minutes => "Time gap of " ++ toString minutes ++ " minutes " ++ place
  | .chain => "Hash chain gap " ++ place

/-- The gaps between two neighbours, given the longest time of quiet in nanoseconds. -/
def between (maxQuiet : Int) (before e : Entry) : List Gap :=
  let quiet := e.time.nanosSince before.time
  (if maxQuiet < quiet then
    [⟨.quiet (Int.tdiv quiet 60000000000), before.sequence, e.sequence⟩] else []) ++
  (if e.previousHash != before.hash then [⟨.chain, before.sequence, e.sequence⟩] else [])

/-- The gaps of a list of entries. -/
def find (maxQuiet : Int) : List Entry → List Gap
  | before :: e :: rest => between maxQuiet before e ++ find maxQuiet (e :: rest)
  | [_] | [] => []

end Gap

end AuditTrail
