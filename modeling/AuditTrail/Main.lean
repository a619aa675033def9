import AuditTrail.Decimal.Literal
import AuditTrail.Inspection
/-!
# The command line

Checks the ledger file that the arguments name and shows what is found. The exit code is zero only
for a valid ledger.
-/

namespace AuditTrail.Main

/-- The inspection that some arguments ask for, on top of what earlier ones did. -/
def ofArguments (inspection : Inspection) : List String → Option Inspection
  | [] => if inspection.path = "" then none else some inspection
  | "--log-path" :: path :: rest | "-l" :: path :: rest =>
    ofArguments { inspection with path } rest
  | "--public-key" :: key :: rest | "-k" :: key :: rest =>
    ofArguments { inspection with keyText := some key } rest
  | "--max-gap-minutes" :: minutes :: rest =>
    match Decimal.int64? minutes.toList with
    | some maxGapMinutes => ofArguments { inspection with maxGapMinutes } rest
    | none => none
  | "--verbose" :: rest | "-v" :: rest => ofArguments { inspection with verbose := true } rest
  | _ => none

/-- How the command is called. -/
def usage : String :=
  "Usage: verify-audit-log --log-path <PATH> [--public-key <HEX>] " ++
    "[--max-gap-minutes <MINUTES>] [--verbose]"

/-- A store that holds one file, or none. -/
def storeOf (content : Option ByteArray) : FileStore where
  nodes := match content with
    | some bytes => [(["ledger"], .file bytes)]
    | none => []
  home := []
  failures := fun _ => none
  writes := 0

/-- The content of the file at a path, if it can be read. -/
def contentOf (path : String) : IO (Option ByteArray) := do
  try
    return some (← IO.FS.readBinFile path)
  catch _ => return none

/-- Shows the outcome of an inspection; the exit code. -/
def present (outcome : InspectionOutcome) : IO UInt32 := do
  IO.print outcome.output
  match outcome.verdict with
  | .error e =>
    IO.eprintln ("Audit ledger verification failed: " ++ e.message)
    return 1
  | .ok true =>
    IO.println "✓ Audit ledger verification completed successfully"
    return 0
  | .ok false =>
    IO.eprintln "Audit ledger failed verification"
    return 1

end AuditTrail.Main

open AuditTrail AuditTrail.Main in
/-- Inspects the ledger file that the arguments name. -/
def main (arguments : List String) : IO UInt32 := do
  match ofArguments ⟨"", none, 60, false⟩ arguments with
  | none =>
    IO.eprintln usage
    return 2
  | some inspection =>
    match ← contentOf inspection.path with
    | none => present (.refused (.notFound inspection.path))
    | some content =>
      present (Inspection.run .secp256k1 (storeOf (some content)) Instant.unset
        { inspection with path := "ledger" })
