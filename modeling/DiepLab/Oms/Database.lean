import DiepLab.Grid.Database

/-!
The tables of the outage management system, one statement at a time.

`Model` holds what the OMS only reads: the network model, the service points,
the devices with their latest telemetry. `OmsDb` adds its own three tables,
together with the keys that the schema puts on them. `omsExec` says what a
statement does, `omsSem` adds that the surroundings may make it fail. A statement
that fails, for whatever reason, changes nothing; the reasons that the schema
gives are part of `omsExec`.
-/

namespace DiepLab.Oms

open StatementProgram

/-! ### What is only read -/

/-- The columns of `grid_nodes` that the OMS reads. -/
structure NodeRow where
  nodeId : String
  nodeType : NodeType
  parentId : Option String := none
  deviceId : Option String := none
  name : Option String := none
  siteName : Option String := none
  deriving DecidableEq, Repr

structure ServicePointRow where
  servicePointId : String
  customerId : Option String
  nodeId : Option String
  meterDeviceId : Option String
  deriving DecidableEq, Repr

/-- The latest telemetry of a device; the age is that of the moment. -/
structure Telemetry where
  state : Option String
  age : ℚ
  deriving DecidableEq, Repr

structure Model where
  nodes : List NodeRow
  edges : List GridEdge
  servicePoints : List ServicePointRow
  devices : List Device
  customers : List String
  latest : String → Option Telemetry
  modelVersion : Option ℕ := none
  toNode_mem : ∀ e ∈ edges, e.toNode ∈ nodes.map NodeRow.nodeId
  servicePoint_mem : ∀ sp ∈ servicePoints, ∀ n ∈ sp.nodeId, n ∈ nodes.map NodeRow.nodeId

/-- `grid_nodes(node_id)`. -/
def Model.nodeIds (m : Model) : List String := m.nodes.map NodeRow.nodeId

def Model.deviceIds (m : Model) : List String := m.devices.map Device.deviceId

/-! ### The tables of the OMS -/

/-- `outage_cases.cause`. -/
inductive Cause where
  | lastGasp | heartbeat | manual | mixed | unknown
  deriving DecidableEq, Repr

/-- The values that the check constraint admits. -/
def Cause.parse (s : String) : Option Cause :=
  if s = "last_gasp" then some .lastGasp
  else if s = "heartbeat" then some .heartbeat
  else if s = "manual" then some .manual
  else if s = "mixed" then some .mixed
  else if s = "unknown" then some .unknown
  else none

/-- `OPEN_STATUSES`. -/
def isOpen (status : OutageStatus) : Bool := status = .DETECTED || status = .CONFIRMED

structure CaseRow where
  caseId : String
  status : OutageStatus
  cause : Cause
  affectedNodeId : Option String
  customersAffected : ℕ
  detectedAt : ℕ
  confirmedAt : Option ℕ := none
  restoredAt : Option ℕ := none
  closedAt : Option ℕ := none
  notes : Option String := none
  networkModelVersion : Option ℕ := none
  deriving DecidableEq, Repr

structure CaseMeter where
  caseId : String
  meterDeviceId : String
  nodeId : Option String
  deriving DecidableEq, Repr

inductive ReportStatus where
  | NEW | LINKED | CLOSED
  deriving DecidableEq, Repr

structure ReportRow where
  reportId : String
  customerId : Option String := none
  meterDeviceId : Option String := none
  nodeId : Option String := none
  callerName : Option String := none
  callerPhone : Option String := none
  description : Option String := none
  status : ReportStatus := .NEW
  caseId : Option String := none
  deriving DecidableEq, Repr

/-- A nullable foreign key. -/
def refers (ids : List String) (key : Option String) : Prop := ∀ k ∈ key, k ∈ ids

instance (ids : List String) (key : Option String) : Decidable (refers ids key) :=
  inferInstanceAs (Decidable (∀ k ∈ key, k ∈ ids))

/-- The foreign keys of a report into the network model and the devices. -/
def Model.Knows (m : Model) (r : ReportRow) : Prop :=
  refers m.deviceIds r.meterDeviceId ∧ refers m.nodeIds r.nodeId

instance (m : Model) (r : ReportRow) : Decidable (m.Knows r) :=
  inferInstanceAs (Decidable (_ ∧ _))

/-- The database of the OMS. Its last fields are keys of its tables, primary and
foreign. -/
structure OmsDb where
  model : Model
  cases : List CaseRow
  caseMeters : List CaseMeter
  reports : List ReportRow
  case_key : (cases.map CaseRow.caseId).Nodup
  case_node : ∀ c ∈ cases, refers model.nodeIds c.affectedNodeId
  caseMeter_case : ∀ m ∈ caseMeters, m.caseId ∈ cases.map CaseRow.caseId
  report_key : (reports.map ReportRow.reportId).Nodup
  report_refs : ∀ r ∈ reports, model.Knows r

/-! ### Statements -/

/-- The row of `detected_at DESC LIMIT 1`; among rows of one time the first. -/
def latestDetected : List CaseRow → Option CaseRow
  | [] => none
  | c :: rest =>
      match latestDetected rest with
      | none => some c
      | some d => if d.detectedAt ≤ c.detectedAt then some c else some d

/-- An open case of the node. -/
def openAt (node : String) (c : CaseRow) : Bool :=
  decide (c.affectedNodeId = some node) && isOpen c.status

/-- The assignments of an `UPDATE outage_cases`. -/
inductive CaseSet where
  /-- What `_upsert_case` refreshes. -/
  | impact (customersAffected : ℕ) (cause : Cause)
  /-- `_run_detection`, when a report corroborates the case. -/
  | confirm
  /-- `_run_detection`, when all meters are back. -/
  | restore
  /-- `create_case`: `confirmed_at = now()`. -/
  | stampConfirmed
  /-- `update_case`, in which a status brings its time. -/
  | patch (status : Option OutageStatus) (notes : Option String)
  deriving DecidableEq, Repr

def CaseSet.apply (now : ℕ) : CaseSet → CaseRow → CaseRow
  | .impact customersAffected cause, c =>
      { c with customersAffected := customersAffected, cause := cause }
  | .confirm, c =>
      { c with
        status := .CONFIRMED
        confirmedAt := some now
        cause := if c.cause = .manual then .manual else .mixed }
  | .restore, c => { c with status := .RESTORED, restoredAt := some now }
  | .stampConfirmed, c => { c with confirmedAt := some now }
  | .patch status notes, c =>
      let c := { c with notes := notes.or c.notes }
      match status with
      | none => c
      | some .DETECTED => { c with status := .DETECTED }
      | some .CONFIRMED => { c with status := .CONFIRMED, confirmedAt := some now }
      | some .RESTORED => { c with status := .RESTORED, restoredAt := some now }
      | some .CLOSED => { c with status := .CLOSED, closedAt := some now }

/-- The status that is written, if any. -/
def CaseSet.status : CaseSet → Option OutageStatus
  | .confirm => some .CONFIRMED
  | .restore => some .RESTORED
  | .patch status _ => status
  | _ => none

/-- An update keeps the case and its node. -/
theorem CaseSet.apply_keeps (now : ℕ) (u : CaseSet) (c : CaseRow) :
    (u.apply now c).caseId = c.caseId ∧ (u.apply now c).affectedNodeId = c.affectedNodeId ∧
      (u.apply now c).detectedAt = c.detectedAt := by
  cases u with
  | patch status notes =>
      cases status with
      | none => exact ⟨rfl, rfl, rfl⟩
      | some s => cases s <;> exact ⟨rfl, rfl, rfl⟩
  | _ => exact ⟨rfl, rfl, rfl⟩

theorem CaseSet.apply_status (now : ℕ) (u : CaseSet) (c : CaseRow) :
    (u.apply now c).status = u.status.getD c.status := by
  cases u with
  | patch status notes =>
      cases status with
      | none => rfl
      | some s => cases s <;> rfl
  | _ => rfl

/-- The rows of `outage_cases` after an update by key. -/
def updateRows (caseId : String) (f : CaseRow → CaseRow) (rows : List CaseRow) : List CaseRow :=
  rows.map fun c => if c.caseId = caseId then f c else c

theorem updateRows_ids (caseId : String) (now : ℕ) (u : CaseSet) (rows : List CaseRow) :
    (updateRows caseId (u.apply now) rows).map CaseRow.caseId = rows.map CaseRow.caseId := by
  rw [updateRows, List.map_map]
  refine List.map_congr_left fun c _ => ?_
  simp only [Function.comp_apply]
  split
  · exact (u.apply_keeps now c).1
  · rfl

/-- The rows of `outage_reports` after a link. -/
def linkRows (caseId reportId : String) (rows : List ReportRow) : List ReportRow :=
  rows.map fun r =>
    if r.reportId = reportId then { r with status := .LINKED, caseId := some caseId } else r

/-- The exception of a violated constraint. -/
def violates (constraint : String) : Exc := .other constraint

namespace OmsDb

def caseIds (db : OmsDb) : List String := db.cases.map CaseRow.caseId

def openCaseForNode (db : OmsDb) (node : String) : Option CaseRow :=
  latestDetected (db.cases.filter (openAt node))

/-- `SELECT ... FROM outage_case_meters WHERE case_id = caseId`. -/
def metersOf (db : OmsDb) (caseId : String) : List CaseMeter :=
  db.caseMeters.filter fun m => m.caseId = caseId

def updateCase (db : OmsDb) (caseId : String) (now : ℕ) (u : CaseSet) : OmsDb :=
  { db with
    cases := updateRows caseId (u.apply now) db.cases
    case_key := by
      rw [updateRows_ids]
      exact db.case_key
    caseMeter_case := by
      rw [updateRows_ids]
      exact db.caseMeter_case
    case_node := by
      intro c' hc'
      obtain ⟨c, hc, rfl⟩ := List.mem_map.mp hc'
      split
      · rw [(u.apply_keeps now c).2.1]
        exact db.case_node c hc
      · exact db.case_node c hc }

def insertCase (db : OmsDb) (c : CaseRow) : Except Exc Unit × OmsDb :=
  if hkey : c.caseId ∈ db.caseIds then (.error (violates "outage_cases_pkey"), db)
  else if hnode : refers db.model.nodeIds c.affectedNodeId then
    (.ok (), { db with
      cases := db.cases ++ [c]
      case_key := by
        rw [List.map_append, List.map_singleton, (List.perm_append_singleton _ _).nodup_iff]
        exact List.nodup_cons.mpr ⟨hkey, db.case_key⟩
      case_node := List.forall_mem_append.mpr
        ⟨db.case_node, List.forall_mem_singleton.mpr hnode⟩
      caseMeter_case := fun m hm => by
        rw [List.map_append]
        exact List.mem_append_left _ (db.caseMeter_case m hm) })
  else (.error (violates "outage_cases_affected_node_id_fkey"), db)

/-- `ON CONFLICT (case_id, meter_device_id) DO NOTHING`. -/
def insertCaseMeter (db : OmsDb) (m : CaseMeter) : Except Exc Unit × OmsDb :=
  if m.meterDeviceId ∈ (db.metersOf m.caseId).map CaseMeter.meterDeviceId then (.ok (), db)
  else if hcase : m.caseId ∈ db.caseIds then
    if m.meterDeviceId ∉ db.model.deviceIds then
      (.error (violates "outage_case_meters_meter_device_id_fkey"), db)
    else if refers db.model.nodeIds m.nodeId then
      (.ok (), { db with
        caseMeters := db.caseMeters ++ [m]
        caseMeter_case := List.forall_mem_append.mpr
          ⟨db.caseMeter_case, List.forall_mem_singleton.mpr hcase⟩ })
    else (.error (violates "outage_case_meters_node_id_fkey"), db)
  else (.error (violates "outage_case_meters_case_id_fkey"), db)

def linkReport (db : OmsDb) (caseId reportId : String) : Except Exc Unit × OmsDb :=
  if caseId ∈ db.caseIds then
    (.ok (), { db with
      reports := linkRows caseId reportId db.reports
      report_key := by
        have hids : (linkRows caseId reportId db.reports).map ReportRow.reportId =
            db.reports.map ReportRow.reportId := by
          rw [linkRows, List.map_map]
          refine List.map_congr_left fun r _ => ?_
          simp only [Function.comp_apply]
          split <;> rfl
        rw [hids]
        exact db.report_key
      report_refs := by
        intro r' hr'
        obtain ⟨r, hr, rfl⟩ := List.mem_map.mp hr'
        split
        · exact db.report_refs r hr
        · exact db.report_refs r hr })
  else (.error (violates "outage_reports_case_id_fkey"), db)

def insertReport (db : OmsDb) (r : ReportRow) : Except Exc Unit × OmsDb :=
  if hkey : r.reportId ∈ db.reports.map ReportRow.reportId then
    (.error (violates "outage_reports_pkey"), db)
  else if ¬ refers db.model.customers r.customerId then
    (.error (violates "outage_reports_customer_id_fkey"), db)
  else if hrefs : db.model.Knows r then
    (.ok (), { db with
      reports := db.reports ++ [r]
      report_key := by
        rw [List.map_append, List.map_singleton, (List.perm_append_singleton _ _).nodup_iff]
        exact List.nodup_cons.mpr ⟨hkey, db.report_key⟩
      report_refs := List.forall_mem_append.mpr
        ⟨db.report_refs, List.forall_mem_singleton.mpr hrefs⟩ })
  else if refers db.model.deviceIds r.meterDeviceId then
    (.error (violates "outage_reports_node_id_fkey"), db)
  else (.error (violates "outage_reports_meter_device_id_fkey"), db)

end OmsDb

inductive OmsStmt where
  | smartMeters
  | latestTelemetry (deviceId : String)
  | meterGridNode (deviceId : String)
  | meterServicePoint (deviceId : String)
  | customerServicePoint (customerId : String)
  | parents
  | switchFed
  | gridEdges
  | servicePointsAt (nodes : List String)
  | nodeExists (nodeId : String)
  | nodeName (nodeId : String)
  | openCaseForNode (node : String)
  | openCases
  | caseById (caseId : String)
  | caseMeters (caseId : String)
  | caseReports (caseId : String)
  | newReports
  | reportById (reportId : String)
  | currentModelVersion
  | uuid4
  | updateCase (caseId : String) (u : CaseSet)
  | insertDetected (caseId : String) (cause : Cause) (node : String) (customersAffected : ℕ)
      (version : Option ℕ)
  | insertConfirmed (caseId cause node : String) (customersAffected : ℕ) (notes : Option String)
      (version : Option ℕ)
  | insertCaseMeter (caseId deviceId : String) (nodeId : Option String)
  | linkReport (caseId reportId : String)
  | insertReport (row : ReportRow)
  deriving DecidableEq

/-- The answer to a statement. A select of one nullable column with `LIMIT 1`
answers none without a row and the column with one. -/
@[reducible] def OmsResp : OmsStmt → Type
  | .smartMeters => List String
  | .latestTelemetry _ => Option Telemetry
  | .meterGridNode _ => Option String
  | .meterServicePoint _ => Option (Option String)
  | .customerServicePoint _ => Option (Option String)
  | .parents => List (String × Option String)
  | .switchFed => List String
  | .gridEdges => List GridEdge
  | .servicePointsAt _ => List ServicePointRow
  | .nodeExists _ => Bool
  | .nodeName _ => Option NodeRow
  | .openCaseForNode _ => Option CaseRow
  | .openCases => List CaseRow
  | .caseById _ => Option CaseRow
  | .caseMeters _ => List CaseMeter
  | .caseReports _ => List ReportRow
  | .newReports => List ReportRow
  | .reportById _ => Option ReportRow
  | .currentModelVersion => Option ℕ
  | .uuid4 => String
  | _ => Unit

/-- What the surroundings decide about a statement: whether it fails, which id
is drawn and what time it is. -/
structure OmsChoice where
  fails : Option String := none
  uuid : String := ""
  now : ℕ := 0
  deriving DecidableEq

/-- What a statement does. The rows of a table are in the order of their
creation. -/
def omsExec (c : OmsChoice) : (q : OmsStmt) → OmsDb → Except Exc (OmsResp q) × OmsDb
  | .smartMeters, db =>
      (.ok ((db.model.devices.filter fun d => d.deviceType = "smartmeter").map Device.deviceId), db)
  | .latestTelemetry dev, db => (.ok (db.model.latest dev), db)
  | .meterGridNode dev, db =>
      (.ok ((db.model.nodes.find? fun n =>
        n.deviceId = some dev && n.nodeType = .meter).map NodeRow.nodeId), db)
  | .meterServicePoint dev, db =>
      (.ok ((db.model.servicePoints.find? fun sp =>
        sp.meterDeviceId = some dev).map ServicePointRow.nodeId), db)
  | .customerServicePoint cust, db =>
      (.ok ((db.model.servicePoints.find? fun sp =>
        sp.customerId = some cust).map ServicePointRow.nodeId), db)
  | .parents, db => (.ok (db.model.nodes.map fun n => (n.nodeId, n.parentId)), db)
  | .switchFed, db =>
      (.ok ((db.model.edges.filter GridEdge.isSwitchable).map GridEdge.toNode), db)
  | .gridEdges, db => (.ok db.model.edges, db)
  | .servicePointsAt nodes, db =>
      (.ok (db.model.servicePoints.filter fun sp => sp.nodeId.any (· ∈ nodes)), db)
  | .nodeExists node, db => (.ok (decide (node ∈ db.model.nodeIds)), db)
  | .nodeName node, db => (.ok (db.model.nodes.find? fun n => n.nodeId = node), db)
  | .openCaseForNode node, db => (.ok (db.openCaseForNode node), db)
  | .openCases, db => (.ok (db.cases.filter fun c => isOpen c.status), db)
  | .caseById caseId, db => (.ok (db.cases.find? fun c => c.caseId = caseId), db)
  | .caseMeters caseId, db => (.ok (db.metersOf caseId), db)
  | .caseReports caseId, db => (.ok (db.reports.filter fun r => r.caseId = some caseId), db)
  | .newReports, db => (.ok (db.reports.filter fun r => r.status = .NEW), db)
  | .reportById reportId, db => (.ok (db.reports.find? fun r => r.reportId = reportId), db)
  | .currentModelVersion, db => (.ok db.model.modelVersion, db)
  | .uuid4, db => (.ok c.uuid, db)
  | .updateCase caseId u, db => (.ok (), db.updateCase caseId c.now u)
  | .insertDetected caseId cause node customersAffected version, db =>
      db.insertCase {
        caseId := caseId
        status := .DETECTED
        cause := cause
        affectedNodeId := some node
        customersAffected := customersAffected
        detectedAt := c.now
        networkModelVersion := version }
  | .insertConfirmed caseId cause node customersAffected notes version, db =>
      match Cause.parse cause with
      | none => (.error (violates "outage_cases_cause_check"), db)
      | some cause =>
          db.insertCase {
            caseId := caseId
            status := .CONFIRMED
            cause := cause
            affectedNodeId := some node
            customersAffected := customersAffected
            detectedAt := c.now
            notes := notes
            networkModelVersion := version }
  | .insertCaseMeter caseId dev node, db => db.insertCaseMeter ⟨caseId, dev, node⟩
  | .linkReport caseId reportId, db => db.linkReport caseId reportId
  | .insertReport row, db => db.insertReport row

/-- Drawing an identifier is no statement and cannot fail. -/
def OmsStmt.failure (c : OmsChoice) : OmsStmt → Option Exc
  | .uuid4 => none
  | _ => c.fails.map .other

/-- A statement in surroundings that may make it fail. -/
def omsSem (c : OmsChoice) (q : OmsStmt) (db : OmsDb) : Except Exc (OmsResp q) × OmsDb :=
  match q.failure c with
  | some e => (.error e, db)
  | none => omsExec c q db

abbrev OmsProg := Prog OmsResp Exc

abbrev sql (q : OmsStmt) : OmsProg (OmsResp q) := Prog.call q

end DiepLab.Oms
