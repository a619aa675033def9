import AuditTrail.Ledger
import AuditTrail.LedgerFile
import AuditTrail.Monitor
import AuditTrail.Report.Basic
/-!
# The service

The ledger, the monitor that watches it and the file that it is copied to, under one configuration
and one signer. Recording an event appends an entry, copies it, and shows it to the monitor; that
the copy fails changes nothing else. A run is a row of operations, each at its own reading of the
clock.
-/

namespace AuditTrail

/-- What operations draw on: names and files. -/
structure Surroundings where
  ids : IdSupply
  files : FileStore

structure Service where
  config : Config
  signer : Signer
  ledger : Ledger
  monitor : Monitor
  /-- Where the open file lies that entries are copied to. -/
  exportPlace : Option Place

def Signer.ofKeyFile (scheme : SignatureScheme) (store : FileStore) (path : String) :
    Except AuditError Signer :=
  match store.readText path with
  | .error fault => .error (.keyFile path fault)
  | .ok text =>
    match Signer.ofSecretHex scheme text with
    | .ok signer => .ok signer
    | .error fault => .error (.secret fault)

namespace Service

/-- Opens the file that a configuration wants entries to be copied to. -/
def openExport (config : Config) (files : FileStore) :
    Except AuditError (Option Place × FileStore) :=
  match config.exportPath with
  | none => .ok (none, files)
  | some path =>
    match LedgerFile.openExport files path with
    | .ok (place, files) => .ok (some place, files)
    | .error e => .error e

/-- The service of a configuration that passes all checks and whose file can be opened. -/
def start (config : Config) (signer : Signer) (around : Surroundings) :
    Except AuditError (Service × Surroundings) :=
  match config.check with
  | .error fault => .error (.setting fault)
  | .ok _ =>
    match openExport config around.files with
    | .error e => .error e
    | .ok (exportPlace, files) =>
      .ok (⟨config, signer, .empty, .of config, exportPlace⟩, { around with files })

/-- An entry copied to the export file, if there is one. -/
def copyEntry (exportPlace : Option Place) (e : Entry) (files : FileStore) : FileStore :=
  match exportPlace with
  | some place => (files.append place (LedgerFile.writeLine e)).2
  | none => files

/-- Records an event. -/
def record (service : Service) (around : Surroundings) (now : Instant) (event : Event) :
    Entry × Service × Surroundings :=
  let e := service.ledger.entryOf service.config service.signer now (around.ids.next .entry) event
  let files := copyEntry service.exportPlace e around.files
  let (monitor, _, ids) := service.monitor.observe (around.ids.skip 1) now e
  (e, { service with ledger := service.ledger.push e, monitor }, ⟨ids, files⟩)

/-- Verifies the whole ledger with the service's own signer. -/
def verify (service : Service) (now : Instant) : Verification :=
  Verification.of (some service.signer) now service.ledger.entries

/-- The report of a named kind on a window. -/
def report (service : Service) (around : Surroundings) (now : Instant) (start finish : Instant)
    (kindText : String) : Except AuditError (Report × Surroundings) :=
  match ReportKind.read kindText with
  | .error e => .error e
  | .ok kind =>
    let entries := service.ledger.snapshot start finish
    match Report.generate service.config around.ids now kind start finish entries
        (if kind.hasIntegrity then some (service.verify now) else none)
        service.monitor.activeAlerts with
    | .error e => .error e
    | .ok (report, ids) => .ok (report, { around with ids })

/-- Resolves an alert. -/
def resolve (service : Service) (now : Instant) (id text : String) :
    Except AuditError (Alert × Service) :=
  match service.monitor.resolve now id text with
  | .error e => .error e
  | .ok (alert, monitor) => .ok (alert, { service with monitor })

/-- What the monitor shows now. -/
def metrics (service : Service) (now : Instant) : Metrics := service.monitor.metricsAt now.date

end Service

/-! ## Runs -/

/-- What can be asked of the service. -/
inductive Operation where
  | record (event : Event)
  | report (start finish : Instant) (kindText : String)
  | verify
  | resolve (id text : String)
  | metrics

inductive Answer where
  | entry (e : Entry)
  | report (r : Report)
  | verification (v : Verification)
  | alert (a : Alert)
  | metrics (m : Metrics)
  | refusal (e : AuditError)

/-- The service in its surroundings. -/
structure Site where
  service : Service
  around : Surroundings

namespace Site

/-- The answer to an operation at a reading of the clock, and what it leaves behind. -/
def perform (site : Site) (now : Instant) : Operation → Answer × Site
  | .record event =>
    let (e, service, around) := site.service.record site.around now event
    (.entry e, ⟨service, around⟩)
  | .report start finish kindText =>
    match site.service.report site.around now start finish kindText with
    | .ok (report, around) => (.report report, { site with around })
    | .error e => (.refusal e, site)
  | .verify => (.verification (site.service.verify now), site)
  | .resolve id text =>
    match site.service.resolve now id text with
    | .ok (alert, service) => (.alert alert, { site with service })
    | .error e => (.refusal e, site)
  | .metrics => (.metrics (site.service.metrics now), site)

/-- What a run leaves behind. -/
def run (site : Site) : List (Instant × Operation) → Site
  | [] => site
  | (now, operation) :: rest => (site.perform now operation).2.run rest

/-- The answers of a run. -/
def answers (site : Site) : List (Instant × Operation) → List Answer
  | [] => []
  | (now, operation) :: rest =>
    let (answer, site) := site.perform now operation
    answer :: site.answers rest

end Site

end AuditTrail
