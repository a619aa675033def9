import AuditTrail.Config.Validation
import AuditTrail.File.Store
import AuditTrail.Signer
import AuditTrail.Text.Escaped
import AuditTrail.Time.Printer
/-!
# Errors

Why an operation fails. Every cause belongs to a family; the family gives the front of the message
and says whether the caller is to blame.
-/

namespace AuditTrail

/-- Why an operation fails. -/
inductive AuditError where
  | setting (fault : SettingFault Float)
  | secret (fault : SecretFault)
  | keyFile (path : String) (fault : FileFault)
  | configMissing (path : String)
  /-- The sources of the configuration cannot be read or do not fit it. -/
  | configUnreadable
  | timeRange (start finish : Instant)
  | unknownReport (text : String)
  | alertNotFound (id : String)
  | alertResolved (id : String)
  | exportFolder (fault : FileFault)
  | fileOpen (path : String) (fault : FileFault)
  | ledgerMissing (path : String)
  | ledgerLine (line : Nat) (fault : FileFault)
  /-- The line writes no entry. -/
  | ledgerEntry (line : Nat)
  | signatureText (fault : SignatureFault)
  | blankField (field : String)
  /-- A duration of more milliseconds than 63 bits hold. -/
  | durationTooLong (millis : UInt64)

inductive ErrorFamily where
  | configuration
  | timeRange
  | unknownReport
  | alertNotFound
  | alertResolved
  | exporting
  | validation
deriving DecidableEq, Repr

/-- The front of the messages of a family. -/
def ErrorFamily.lead : ErrorFamily → String
  | .configuration => "Configuration error: "
  | .timeRange => "Invalid time range: "
  | .unknownReport => "Unknown report type: "
  | .alertNotFound => "Alert not found: "
  | .alertResolved => "Alert already resolved: "
  | .exporting => "Export error: "
  | .validation => "Validation error: "

/-- The caller asked for something that cannot be done. -/
def ErrorFamily.isCallers : ErrorFamily → Bool
  | .configuration | .exporting => false
  | .timeRange | .unknownReport | .alertNotFound | .alertResolved | .validation => true

namespace AuditError

def family : AuditError → ErrorFamily
  | .setting _ | .secret _ | .keyFile _ _ | .configMissing _ | .configUnreadable => .configuration
  | .timeRange _ _ => .timeRange
  | .unknownReport _ => .unknownReport
  | .alertNotFound _ => .alertNotFound
  | .alertResolved _ => .alertResolved
  | .exportFolder _ | .fileOpen _ _ | .ledgerMissing _ | .ledgerLine _ _ | .ledgerEntry _ =>
    .exporting
  | .signatureText _ | .blankField _ | .durationTooLong _ => .validation

/-- What went wrong. -/
def detail : AuditError → String
  | .setting fault => fault.message
  | .secret fault => fault.message
  | .keyFile path fault =>
    "Failed to read signing key " ++ Text.quoted path ++ ": " ++ fault.message
  | .configMissing path => "Configuration file not found: " ++ Text.quoted path
  | .configUnreadable => "the settings cannot be read"
  | .timeRange start finish =>
    "start " ++ start.offsetText ++ " must be before end " ++ finish.offsetText
  | .unknownReport text => text
  | .alertNotFound id => id
  | .alertResolved id => id
  | .exportFolder fault => "Failed to create export directory: " ++ fault.message
  | .fileOpen path fault => "Failed to open " ++ Text.quoted path ++ ": " ++ fault.message
  | .ledgerMissing path => "Audit ledger file does not exist: " ++ Text.quoted path
  | .ledgerLine line fault => "Failed to read line " ++ toString line ++ ": " ++ fault.message
  | .ledgerEntry line => "Failed to parse entry at line " ++ toString line
  | .signatureText fault => "Invalid signature encoding: " ++ fault.message
  | .blankField field => field ++ " must not be empty"
  | .durationTooLong millis =>
    "processing_time_ms out of range: " ++ toString millis.toNat

def message (e : AuditError) : String := e.family.lead ++ e.detail

def isCallers (e : AuditError) : Bool := e.family.isCallers

end AuditError

end AuditTrail
