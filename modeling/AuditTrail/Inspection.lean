import AuditTrail.CoreInstances
import AuditTrail.LedgerFile
import AuditTrail.Report.Statistics
/-!
# Inspecting a ledger file

The check that an operator makes of a ledger file: what verification finds, which gaps there are
and, when asked for, a summary. The verdict is that of the verification; gaps and summary are for
information only.
-/

namespace AuditTrail

open scoped CoreInstances

/-- What an operator asks for. -/
structure Inspection where
  path : String
  /-- The public key, in hexadecimal digits, that signatures are checked with. -/
  keyText : Option String
  /-- The longest time of quiet, in minutes, that is no gap. -/
  maxGapMinutes : Int
  /-- A summary is wanted. -/
  verbose : Bool

/-- Why an inspection cannot be made. -/
inductive InspectionError where
  | notFound (path : String)
  | badKey
  | unreadable (e : AuditError)
  | noEntries

/-- The wording of an error. -/
def InspectionError.message : InspectionError → String
  | .notFound path => "Audit ledger not found: " ++ path
  | .badKey => "Invalid public key: malformed public key"
  | .unreadable e => e.message
  | .noEntries => "Audit ledger is empty"

/-- What an inspection comes to: whether the ledger is valid, and the lines that are shown on the
way there. -/
structure InspectionOutcome where
  verdict : Except InspectionError Bool
  lines : List String

/-- The outcome of an inspection that cannot be made. -/
def InspectionOutcome.refused (e : InspectionError) : InspectionOutcome := ⟨.error e, []⟩

namespace Inspection

/-- The signer that signatures are checked with, if a key is given. -/
def checker (scheme : SignatureScheme) (inspection : Inspection) :
    Except InspectionError (Option Signer) :=
  match inspection.keyText with
  | none => .ok none
  | some text =>
    match PublicKey.ofHex? (Text.trim text) with
    | some key => .ok (some (Signer.verifier scheme key))
    | none => .error .badKey

/-- The most minutes whose milliseconds fit 63 bits. -/
def maxMinutes : Int := (2 ^ (63 : Nat) - 1) / 60000

/-- The longest time of quiet that is no gap, in nanoseconds. -/
def maxQuiet (inspection : Inspection) : Int :=
  max 0 (min maxMinutes inspection.maxGapMinutes) * 60000000000

def verificationLines (v : Verification) : List String :=
  [v.summary] ++ v.descriptions.map ("  ✗ " ++ ·) ++
    (if v.signaturesChecked then [] else ["⚠ Signatures not checked (no --public-key given)"]) ++
    (if v.weak = 0 then []
      else ["⚠ " ++ toString v.weak ++ " entries carry weak (non-cryptographic) signatures"])

/-- The lines on gaps. -/
def gapLines (gaps : List Gap) : List String :=
  if gaps.isEmpty then []
  else ("⚠ Found " ++ toString gaps.length ++ " gaps:") :: gaps.map fun gap => "  " ++ gap.text

/-- The lines of the summary of a ledger with these first and last entries. -/
def summaryLines (first last : Entry) (entries : List Entry) : List String :=
  ["", "Audit Ledger Summary:", "  Total entries: " ++ toString entries.length,
    "  First entry: " ++ first.time.plainText, "  Last entry: " ++ last.time.plainText,
    "  Head hash: " ++ last.hash, "", "Event type distribution:"] ++
    (Counts.of (entries.map Entry.eventType)).map fun entry =>
      "  " ++ entry.1 ++ ": " ++ toString entry.2

/-- The lines on some entries, of which there is at least one. -/
def lines (inspection : Inspection) (v : Verification) (first : Entry) (rest : List Entry) :
    List String :=
  let entries := first :: rest
  verificationLines v ++ gapLines (Gap.find inspection.maxQuiet entries) ++
    (if inspection.verbose then summaryLines first (rest.getLastD first) entries else [])

/-- The outcome of an inspection. -/
def run (scheme : SignatureScheme) (store : FileStore) (now : Instant) (inspection : Inspection) :
    InspectionOutcome :=
  if store.has inspection.path then
    match inspection.checker scheme with
    | .error e => .refused e
    | .ok checker =>
      match LedgerFile.load store inspection.path with
      | .error e => .refused (.unreadable e)
      | .ok [] => .refused .noEntries
      | .ok (first :: rest) =>
        let v := Verification.of checker now (first :: rest)
        ⟨.ok v.isValid, inspection.lines v first rest⟩
  else .refused (.notFound inspection.path)

end Inspection

namespace InspectionOutcome

/-- The lines as they are shown. -/
def output (outcome : InspectionOutcome) : String :=
  String.join (outcome.lines.map fun line => line ++ "\n")

end InspectionOutcome

end AuditTrail
