import AuditTrail.Alert
import AuditTrail.AuditError
import AuditTrail.Breach
import AuditTrail.Config.Codec
import AuditTrail.Config.Load
import AuditTrail.Http.Router
import AuditTrail.Inspection
import AuditTrail.Main
import AuditTrail.Service
import AuditTrail.Proofs.Monitor.Metrics
import AuditTrail.Proofs.Monitor.VolumeAlerts
import AuditTrail.Proofs.Service.ClosedWindow
import AuditTrail.Proofs.Verification.Removal
import AuditTrail.Proofs.Monitor.Resolution
import AuditTrail.Proofs.Service.Alerts
import AuditTrail.Proofs.Service.ExportFailure
import AuditTrail.Proofs.Http.Requests
import AuditTrail.Proofs.Signature.Binding
import AuditTrail.Proofs.Verification.Exact
import AuditTrail.Proofs.Service.AlertTallies
import AuditTrail.Proofs.Entry.RoundTrip
import AuditTrail.Proofs.Signature.Grammar
import AuditTrail.Proofs.Service.AdjoiningWindows
import AuditTrail.Proofs.Score.Completeness
import AuditTrail.Proofs.Report.Reordered
import AuditTrail.Proofs.Verification.Gaps
import AuditTrail.Proofs.Report.Leaderboard
import AuditTrail.Proofs.Report.Sections
import AuditTrail.Proofs.Service.OwnEntries
import AuditTrail.Proofs.Json.Fuel
import AuditTrail.Proofs.Json.Nesting
import AuditTrail.Proofs.Json.TrailingSpace
import AuditTrail.Proofs.LedgerFile.FileLines
import AuditTrail.Proofs.LedgerFile.Inspection
import AuditTrail.Proofs.LedgerFile.Loading
import AuditTrail.Proofs.Score.Perfect
import AuditTrail.Proofs.Service.MeanProcessing
import AuditTrail.Proofs.Config.Spans
import AuditTrail.Proofs.Decimal.Literal
import AuditTrail.Proofs.Config.Environment
import AuditTrail.Proofs.Config.TextSettings
