import DiepLab.Commands.Statements
import DiepLab.Library.Table
import Mathlib.Data.List.Destutter

/-!
The onboarding of a device, one operation at a time.

A device goes from REGISTERED over VALIDATED and CERTIFIED to PRODUCTION_READY.
Each of the endpoints reads its row, decides, and updates the row by its
`device_id` alone. What the endpoints find in the other tables, in Redis and at
the broker is decided by the surroundings.
-/

namespace DiepLab.Onboarding

open StatementProgram
open Commands (RegistryRow CommandRow statusText)

/-! ### Rows -/

inductive OnboardingStatus where
  | REGISTERED | VALIDATED | CERTIFIED | PRODUCTION_READY
  deriving DecidableEq, Repr

def OnboardingStatus.text : OnboardingStatus → String
  | .REGISTERED => "REGISTERED"
  | .VALIDATED => "VALIDATED"
  | .CERTIFIED => "CERTIFIED"
  | .PRODUCTION_READY => "PRODUCTION_READY"

/-- The place in `ONBOARDING_STATES`. -/
def OnboardingStatus.rank : OnboardingStatus → ℕ
  | .REGISTERED => 0
  | .VALIDATED => 1
  | .CERTIFIED => 2
  | .PRODUCTION_READY => 3

/-- What `validate_onboarding` has found. -/
structure Checks where
  deviceRegistered : Bool
  protocolDeclared : Bool
  siteAssigned : Bool
  telemetrySeen : Bool
  passed : Bool
  deriving DecidableEq, Repr

/-- A row of `device_onboarding`. -/
structure OnboardingRow where
  id : ℕ
  deviceId : String
  siteName : Option String := none
  protocol : Option String := none
  vendor : Option String := none
  status : OnboardingStatus := .REGISTERED
  validation : Option Checks := none
  notes : Option String := none
  registeredAt : Stamp := {}
  validatedAt : Option Stamp := none
  certifiedAt : Option Stamp := none
  productionApprovedAt : Option Stamp := none
  deriving DecidableEq, Repr

/-- The column that `_advance_onboarding` stamps. -/
inductive TimestampCol where
  | validatedAt | certifiedAt
  deriving DecidableEq, Repr

/-- The updates of the table. -/
inductive OnboardingUpdate where
  /-- `_advance_onboarding`. -/
  | advance (newStatus : OnboardingStatus) (col : TimestampCol) (validation : Option Checks)
  /-- A validation that has not passed. -/
  | recordValidation (validation : Checks)
  | approve (notes : String)
  deriving DecidableEq, Repr

def OnboardingRow.stamp (row : OnboardingRow) (now : Stamp) : TimestampCol → OnboardingRow
  | .validatedAt => { row with validatedAt := some now }
  | .certifiedAt => { row with certifiedAt := some now }

def OnboardingUpdate.apply (now : Stamp) (row : OnboardingRow) : OnboardingUpdate → OnboardingRow
  | .advance newStatus col validation =>
      { row.stamp now col with status := newStatus, validation := validation.or row.validation }
  | .recordValidation validation => { row with validation := some validation }
  | .approve notes =>
      { row with
        status := .PRODUCTION_READY, productionApprovedAt := some now, notes := some notes }

@[simp] theorem OnboardingUpdate.apply_deviceId (u : OnboardingUpdate) (now : Stamp)
    (row : OnboardingRow) : (u.apply now row).deviceId = row.deviceId := by
  cases u with
  | advance newStatus col validation => cases col <;> rfl
  | _ => rfl

inductive TestResult where
  | PASS | FAIL | PENDING
  deriving DecidableEq, Repr

/-- One result of `_run_certification_tests`. -/
structure CertificationResult where
  testName : String
  result : TestResult
  details : Json

/-- A row of `device_certifications`. -/
structure Certification extends CertificationResult where
  deviceId : String
  runAt : Stamp

/-- `SELECT DISTINCT ON (test_name) ... ORDER BY test_name, run_at DESC`. -/
def latestCertifications (rows : List Certification) (deviceId : String) : List Certification :=
  let newestFirst (a b : Certification) : Bool :=
    a.testName < b.testName ∨ a.testName = b.testName ∧ b.runAt.instant ≤ a.runAt.instant
  ((rows.filter fun row => row.deviceId = deviceId).mergeSort newestFirst).destutter
    fun a b => a.testName ≠ b.testName

abbrev OnboardingTable := Table OnboardingRow.deviceId

structure OnboardingStore where
  table : OnboardingTable := {}
  /-- The next value of `device_onboarding_id_seq`. -/
  nextId : ℕ := 1
  certifications : List Certification := []

/-! ### Statements -/

/-- What `POST /onboarding` is given. -/
structure OnboardingEnrollment where
  deviceId : String
  siteName : Option String := none
  protocol : Option String := none
  vendor : Option String := none
  notes : Option String := none
  deriving DecidableEq, Repr

structure AuditEvent where
  action : String
  resource : String
  site : Option String
  detail : Dict (Option String)

inductive OnboardingStmt where
  | connect
  /-- `SELECT site_name FROM devices`. -/
  | deviceSite (deviceId : String)
  | insertAudit (event : AuditEvent)
  | deviceRow (deviceId : String)
  /-- The time of the newest reading. -/
  | latestTelemetry (deviceId : String)
  | latestCommand (deviceId : String)
  /-- How many readings the last three minutes have. -/
  | countTelemetry (deviceId : String)
  /-- `connected_slaves` of Redis. -/
  | connectedReplicas
  /-- Whether the plaintext port of the broker is open. -/
  | tcpOpen
  | now
  | insertEnrollment (enrollment : OnboardingEnrollment)
  | onboardingRow (deviceId : String)
  | update (deviceId : String) (u : OnboardingUpdate)
  | insertCertifications (deviceId : String) (results : List CertificationResult)
  | certificationsOf (deviceId : String)

@[reducible] def OnboardingResp : OnboardingStmt → Type
  | .connect => Unit
  | .deviceSite _ => Option String
  | .insertAudit _ => Unit
  | .deviceRow _ => Option RegistryRow
  | .latestTelemetry _ => Option Stamp
  | .latestCommand _ => Option CommandRow
  | .countTelemetry _ => ℕ
  | .connectedReplicas => ℤ
  | .tcpOpen => Bool
  | .now => Stamp
  -- whether the row is in
  | .insertEnrollment _ => Bool
  | .onboardingRow _ => Option OnboardingRow
  | .update .. => Unit
  | .insertCertifications .. => Unit
  | .certificationsOf _ => List Certification

/-- What the surroundings decide while one statement runs. -/
structure OnboardingChoice where
  fails : Option String := none
  now : Stamp := {}
  device : Option RegistryRow := none
  telemetry : Option Stamp := none
  command : Option CommandRow := none
  samples : ℕ := 0
  replicas : ℤ := 0
  tcpOpen : Bool := false

/-- A statement that does not fail. -/
def onboardingExec (c : OnboardingChoice) :
    (q : OnboardingStmt) → OnboardingStore → Except Exc (OnboardingResp q) × OnboardingStore
  | .connect, s => (.ok (), s)
  | .deviceSite _, s => (.ok (c.device.bind fun row => row.siteName), s)
  | .insertAudit _, s => (.ok (), s)
  | .deviceRow _, s => (.ok c.device, s)
  | .latestTelemetry _, s => (.ok c.telemetry, s)
  | .latestCommand _, s => (.ok c.command, s)
  | .countTelemetry _, s => (.ok c.samples, s)
  | .connectedReplicas, s => (.ok c.replicas, s)
  | .tcpOpen, s => (.ok c.tcpOpen, s)
  | .now, s => (.ok c.now, s)
  | .insertEnrollment enrollment, s =>
      match s.table.insert {
          id := s.nextId, deviceId := enrollment.deviceId, siteName := enrollment.siteName
          protocol := enrollment.protocol, vendor := enrollment.vendor
          notes := enrollment.notes, registeredAt := c.now } with
      | none => (.ok false, { s with nextId := s.nextId + 1 })
      | some table => (.ok true, { s with table := table, nextId := s.nextId + 1 })
  | .onboardingRow deviceId, s => (.ok (s.table.row? deviceId), s)
  | .update deviceId u, s =>
      (.ok (), { s with table := s.table.update deviceId (u.apply c.now) (u.apply_deviceId c.now) })
  | .insertCertifications deviceId results, s =>
      let rows := results.map fun r => { r with deviceId := deviceId, runAt := c.now }
      (.ok (), { s with certifications := s.certifications ++ rows })
  | .certificationsOf deviceId, s => (.ok (latestCertifications s.certifications deviceId), s)

/-- A statement that fails changes nothing. -/
def onboardingSem (c : OnboardingChoice) (q : OnboardingStmt) (s : OnboardingStore) :
    Except Exc (OnboardingResp q) × OnboardingStore :=
  match c.fails with
  | none => onboardingExec c q s
  | some m => (.error (.other m), s)

abbrev OnboardingProg := Prog OnboardingResp Exc

namespace Sql

abbrev connect : OnboardingProg Unit := Prog.call OnboardingStmt.connect

abbrev deviceSite (deviceId : String) : OnboardingProg (Option String) :=
  Prog.call (OnboardingStmt.deviceSite deviceId)

abbrev insertAudit (event : AuditEvent) : OnboardingProg Unit :=
  Prog.call (OnboardingStmt.insertAudit event)

abbrev deviceRow (deviceId : String) : OnboardingProg (Option RegistryRow) :=
  Prog.call (OnboardingStmt.deviceRow deviceId)

abbrev latestTelemetry (deviceId : String) : OnboardingProg (Option Stamp) :=
  Prog.call (OnboardingStmt.latestTelemetry deviceId)

abbrev latestCommand (deviceId : String) : OnboardingProg (Option CommandRow) :=
  Prog.call (OnboardingStmt.latestCommand deviceId)

abbrev countTelemetry (deviceId : String) : OnboardingProg ℕ :=
  Prog.call (OnboardingStmt.countTelemetry deviceId)

abbrev connectedReplicas : OnboardingProg ℤ := Prog.call OnboardingStmt.connectedReplicas

abbrev tcpOpen : OnboardingProg Bool := Prog.call OnboardingStmt.tcpOpen

abbrev now : OnboardingProg Stamp := Prog.call OnboardingStmt.now

abbrev insertEnrollment (enrollment : OnboardingEnrollment) : OnboardingProg Bool :=
  Prog.call (OnboardingStmt.insertEnrollment enrollment)

abbrev onboardingRow (deviceId : String) : OnboardingProg (Option OnboardingRow) :=
  Prog.call (OnboardingStmt.onboardingRow deviceId)

abbrev update (deviceId : String) (u : OnboardingUpdate) : OnboardingProg Unit :=
  Prog.call (OnboardingStmt.update deviceId u)

abbrev insertCertifications (deviceId : String) (results : List CertificationResult) :
    OnboardingProg Unit :=
  Prog.call (OnboardingStmt.insertCertifications deviceId results)

abbrev certificationsOf (deviceId : String) : OnboardingProg (List Certification) :=
  Prog.call (OnboardingStmt.certificationsOf deviceId)

end Sql

/-! ### The endpoints -/

/-- The site of an audit row. -/
def auditSite : Option String → Option String → OnboardingProg (Option String)
  | none, some deviceId => do
      Sql.connect
      tryCatch (Sql.deviceSite deviceId) fun _ => pure none
  | site, _ => pure site

/-- `auth.audit`. -/
def audit (action resource : String) (detail : Dict (Option String))
    (site deviceId : Option String) : OnboardingProg Unit := do
  let site ← auditSite site deviceId
  -- best effort: the row is never missed
  tryCatch (Sql.insertAudit ⟨action, resource, site, detail⟩) fun _ => pure ()

structure OnboardingRecord where
  row : OnboardingRow
  certifications : List Certification

/-- `_onboarding_record`. -/
def onboardingRecord : Option OnboardingRow → OnboardingProg OnboardingRecord
  | none => throw (.other "'NoneType' object is not iterable")
  | some row => do
      let certifications ← Sql.certificationsOf row.deviceId
      pure ⟨row, certifications⟩

/-- The answer of every endpoint: the row, read once more. -/
def answer (deviceId : String) : OnboardingProg OnboardingRecord := do
  let row ← Sql.onboardingRow deviceId
  onboardingRecord row

/-- `enroll_device`. -/
def enrollDevice (enrollment : OnboardingEnrollment) : OnboardingProg OnboardingRecord := do
  audit "onboarding_enroll" enrollment.deviceId
    [("protocol", enrollment.protocol), ("vendor", enrollment.vendor)] enrollment.siteName none
  let device ← Sql.deviceRow enrollment.deviceId
  Prog.raiseIf (device = none) (.http 404 (.text ("Unknown device '" ++ enrollment.deviceId ++
    "' — register it via POST /assets first")))
  let inserted ← Sql.insertEnrollment enrollment
  Prog.raiseIf (inserted = false)
    (.http 409 (.text ("Device '" ++ enrollment.deviceId ++ "' is already enrolled")))
  answer enrollment.deviceId

def notEnrolled (deviceId : String) : Exc :=
  .http 404 (.text ("Device '" ++ deviceId ++ "' is not enrolled in onboarding"))

/-- `_advance_onboarding`. -/
def advanceOnboarding (deviceId : String) (newStatus : OnboardingStatus) (col : TimestampCol)
    (validation : Option Checks) : OnboardingProg Unit :=
  Sql.update deviceId (.advance newStatus col validation)

/-- `validate_onboarding`. -/
def validateOnboarding (deviceId : String) : OnboardingProg OnboardingRecord := do
  audit "onboarding_validate" deviceId [] none (some deviceId)
  match ← Sql.onboardingRow deviceId with
  | none => throw (notEnrolled deviceId)
  | some row => do
      Prog.raiseIf (row.status ≠ .REGISTERED ∧ row.status ≠ .VALIDATED)
        (.http 409 (.text ("Cannot validate from status '" ++ row.status.text ++
          "' (expected REGISTERED)")))
      let device ← Sql.deviceRow deviceId
      let telemetry ← Sql.latestTelemetry deviceId
      let deviceRegistered := device.isSome
      let protocolDeclared := (given row.protocol).isSome
      let telemetrySeen := telemetry.isSome
      -- the site is advisory
      let passed := deviceRegistered && protocolDeclared && telemetrySeen
      let validation : Checks := {
        deviceRegistered := deviceRegistered, protocolDeclared := protocolDeclared
        siteAssigned := (given row.siteName).isSome, telemetrySeen := telemetrySeen
        passed := passed }
      if passed then advanceOnboarding deviceId .VALIDATED .validatedAt (some validation)
      else Sql.update deviceId (.recordValidation validation)
      answer deviceId

/-- `PASS` or `FAIL`. -/
def passFail (ok : Bool) : TestResult := if ok then .PASS else .FAIL

def freshSeconds : ℚ := 300

/-- `_run_certification_tests`; `authEnforced` is the setting of `auth`. -/
def runCertificationTests (authEnforced : Bool) (deviceId : String) :
    OnboardingProg (List CertificationResult) := do
  let now ← Sql.now
  let device ← Sql.deviceRow deviceId
  let connected := device.any fun row => upper (row.status.getD "") ∉ ["OFFLINE", "UNKNOWN"]
  let latest ← Sql.latestTelemetry deviceId
  let age := latest.map fun time => now.instant - time.instant
  let fresh := age.any fun seconds => seconds ≤ freshSeconds
  let command ← Sql.latestCommand deviceId
  let ofCommand (row : CommandRow) : Json :=
    .obj [("command_id", .str row.commandId), ("status", .str (statusText row.status))]
  let noCommand : Json := .obj [("reason", .str "no command issued yet")]
  let onCommand (name : String) (test : CommandRow → Bool) : CertificationResult :=
    match command with
    | none => ⟨name, .PENDING, noCommand⟩
    | some row => ⟨name, passFail (test row), ofCommand row⟩
  let samples ← Sql.countTelemetry deviceId
  let continuous := decide (10 ≤ samples)
  let replicas ← tryCatch Sql.connectedReplicas fun _ => pure 0
  let redundancy := decide (1 ≤ replicas)
  let plaintextOpen ← Sql.tcpOpen
  let results := [
    ⟨"connectivity", passFail connected,
      .obj [("status", .ofOption .str (device.bind fun row => row.status))]⟩,
    ⟨"telemetry", passFail fresh,
      .obj [("age_seconds", .ofOption .num age), ("window_seconds", .num freshSeconds)]⟩,
    onCommand "command" fun row => row.dispatchedAt.isSome,
    onCommand "ack" fun row => row.status = .ACKED ∨ row.status = .COMPLETED,
    ⟨"failover", passFail (continuous && redundancy),
      .obj [("telemetry_samples_3m", .num samples), ("continuous", .bool continuous),
        ("redis_connected_replicas", .num replicas), ("redundancy", .bool redundancy)]⟩,
    ⟨"security", passFail (authEnforced && ! plaintextOpen),
      .obj [("api_auth_enforced", .bool authEnforced),
        ("mqtt_plaintext_1883_open", .bool plaintextOpen),
        ("mqtt_mtls_only", .bool (! plaintextOpen))]⟩]
  Sql.insertCertifications deviceId results
  pure results

/-- What `certify_onboarding` returns. -/
structure Certified where
  deviceId : String
  certified : Bool
  failedTests : List String
  pendingTests : List String
  results : List CertificationResult
  onboarding : OnboardingRecord

/-- `certify_onboarding`. -/
def certifyOnboarding (authEnforced : Bool) (deviceId : String) : OnboardingProg Certified := do
  audit "onboarding_certify" deviceId [] none (some deviceId)
  match ← Sql.onboardingRow deviceId with
  | none => throw (notEnrolled deviceId)
  | some row => do
      -- the later states are certified again from time to time
      Prog.raiseIf (row.status = .REGISTERED)
        (.http 409 (.text ("Cannot certify from status '" ++ row.status.text ++
          "' (run /validate first)")))
      let results ← runCertificationTests authEnforced deviceId
      let failed := (results.filter fun r => r.result = .FAIL).map fun r => r.testName
      let pending := (results.filter fun r => r.result = .PENDING).map fun r => r.testName
      let certified := failed.isEmpty && pending.isEmpty
      if certified ∧ row.status = .VALIDATED then
        advanceOnboarding deviceId .CERTIFIED .certifiedAt none
      let onboarding ← answer deviceId
      pure {
        deviceId := deviceId, certified := certified, failedTests := failed
        pendingTests := pending, results := results, onboarding := onboarding }

/-- What the approval is given. -/
structure ApprovalRequest where
  approvedBy : String := "operator"
  notes : Option String := none
  deriving DecidableEq, Repr

def ApprovalRequest.note (approval : ApprovalRequest) : String :=
  match given approval.notes with
  | none => "approved by " ++ approval.approvedBy
  | some notes => "approved by " ++ approval.approvedBy ++ ": " ++ notes

/-- `approve_onboarding`. -/
def approveOnboarding (deviceId : String) (approval : ApprovalRequest) :
    OnboardingProg OnboardingRecord := do
  audit "onboarding_approve" deviceId [("approved_by", some approval.approvedBy)] none
    (some deviceId)
  match ← Sql.onboardingRow deviceId with
  | none => throw (notEnrolled deviceId)
  | some row => do
      Prog.raiseIf (row.status ≠ .CERTIFIED)
        (.http 409 (.text ("Cannot approve from status '" ++ row.status.text ++
          "' (must be CERTIFIED)")))
      Sql.update deviceId (.approve approval.note)
      answer deviceId

/-- The requests that write to the table. -/
inductive OnboardingCall where
  | enroll (enrollment : OnboardingEnrollment)
  | validate (deviceId : String)
  | certify (deviceId : String)
  | approve (deviceId : String) (approval : ApprovalRequest)

def OnboardingCall.serve (authEnforced : Bool) : OnboardingCall → OnboardingProg Unit
  | .enroll enrollment => do
      let _ ← enrollDevice enrollment
  | .validate deviceId => do
      let _ ← validateOnboarding deviceId
  | .certify deviceId => do
      let _ ← certifyOnboarding authEnforced deviceId
  | .approve deviceId approval => do
      let _ ← approveOnboarding deviceId approval

/-- Nothing but requests touches the table. -/
def noEnv : Empty → OnboardingStore → OnboardingStore := nofun

abbrev Schedule := List (Event OnboardingChoice OnboardingCall Empty)

end DiepLab.Onboarding
