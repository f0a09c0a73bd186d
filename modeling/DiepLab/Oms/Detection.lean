import DiepLab.Grid.Radial
import DiepLab.Oms.Database
import DiepLab.Topology.Orientation

/-!
The requests of the outage management system.

A detection sweep groups what is out by network section, opens or extends the
case of each section, links the new reports, and closes the cases whose meters
are all back. A call records a report and then sweeps. Every statement commits
by itself, here as in the source.
-/

namespace DiepLab.Oms

open StatementProgram

/-- `OMS_HEARTBEAT_TIMEOUT_S`. -/
abbrev Timeout := ℤ

/-! ### Where a signal belongs -/

def meterNode (meterDeviceId : String) : OmsProg (Option String) := do
  match ← sql (.meterGridNode meterDeviceId) with
  | some nodeId => pure (some nodeId)
  | none =>
      match ← sql (.meterServicePoint meterDeviceId) with
      | some nodeId => pure nodeId
      | none => pure none

/-- The walk of `_section_root`: upwards until a node is switch-fed. Without a
result where the fuel runs out; with the result none where the walk leaves the
model or comes round. -/
def climb (parent : Dict (Option String)) (switchFed : List String) :
    ℕ → List String → Option String → Option (Option String)
  | 0, _, _ => none
  | _ + 1, _, none => some none
  | fuel + 1, seen, some cur =>
      if cur ∈ seen then some none
      else if cur ∈ switchFed then some (some cur)
      else climb parent switchFed fuel (cur :: seen) (parent.get? cur).join

def sectionRootOf (parents : List (String × Option String)) (switchFed : List String)
    (nodeId : String) : String :=
  match climb (Dict.update [] parents) switchFed (parents.length + 2) [] (some nodeId) with
  | some (some root) => root
  | _ => nodeId

def sectionRoot (nodeId : String) : OmsProg String := do
  let parents ← sql .parents
  let switchFed ← sql .switchFed
  pure (sectionRootOf parents switchFed nodeId)

def sectionServicePoints (nodeId : String) : OmsProg (List ServicePointRow) := do
  let edges ← sql .gridEdges
  sql (.servicePointsAt (Topology.downstreamNodeIds edges nodeId false))

/-! ### Signals -/

/-- What the latest telemetry of a meter signals. -/
def outageSignal (timeout : Timeout) (latest : Telemetry) : Option Cause :=
  if upper (latest.state.getD "") = "LAST_GASP" then some .lastGasp
  else if latest.age > timeout then some .heartbeat
  else none

/-- `_meters_out`, from the meters that remain. -/
def metersOutLoop (timeout : Timeout) : List String → Dict Cause → OmsProg (Dict Cause)
  | [], out => pure out
  | dev :: rest, out => do
      match ← sql (.latestTelemetry dev) with
      | none => metersOutLoop timeout rest out
      | some latest =>
          match outageSignal timeout latest with
          | some cause => metersOutLoop timeout rest (out.set dev cause)
          | none => metersOutLoop timeout rest out

def metersOut (timeout : Timeout) : OmsProg (Dict Cause) := do
  let meters ← sql .smartMeters
  metersOutLoop timeout meters []

def meterIsBack (timeout : Timeout) (meterDeviceId : String) : OmsProg Bool := do
  match ← sql (.latestTelemetry meterDeviceId) with
  | none => pure false
  | some latest =>
      pure (decide (upper (latest.state.getD "") ≠ "LAST_GASP" ∧ latest.age ≤ timeout))

/-- The node that a report names, or that of its meter. -/
def namedNode (r : ReportRow) : OmsProg (Option String) :=
  match given r.nodeId with
  | some nodeId => pure (some nodeId)
  | none =>
      match given r.meterDeviceId with
      | some dev => meterNode dev
      | none => pure none

def customerNode (customerId : String) : OmsProg (Option String) := do
  match ← sql (.customerServicePoint customerId) with
  | some nodeId => pure nodeId
  | none => pure none

/-- The node of a report: its own, that of its meter, or that of its customer. -/
def reportNode (r : ReportRow) : OmsProg (Option String) := do
  let mnode ← namedNode r
  match mnode, given r.customerId with
  | none, some customerId => customerNode customerId
  | _, _ => pure mnode

/-- `_section_root(mnode) if mnode else key`. -/
def rootOr (mnode : Option String) (key : String) : OmsProg String :=
  match given mnode with
  | some nodeId => sectionRoot nodeId
  | none => pure key

/-- The entry of `groups` for one section. -/
structure Group where
  meters : Dict (Option String) := []
  causes : List Cause := []
  deriving DecidableEq, Repr

/-- One call of `_add`, as far as the group is concerned. -/
def Group.add (g : Group) (dev mnode : Option String) (cause : Cause) : Group where
  meters :=
    match given dev with
    | some dev => g.meters.set dev mnode
    | none => g.meters
  causes := if cause ∈ g.causes then g.causes else g.causes ++ [cause]

/-- `_add`. -/
def addSignal (groups : Dict Group) (nodeId : String) (dev mnode : Option String)
    (cause : Cause) : Dict Group :=
  groups.set nodeId (((groups.get? nodeId).getD {}).add dev mnode cause)

def groupMeters : List (String × Cause) → Dict Group → OmsProg (Dict Group)
  | [], groups => pure groups
  | (dev, cause) :: rest, groups => do
      let mnode ← meterNode dev
      let root ← rootOr mnode dev
      groupMeters rest (addSignal groups root (some dev) mnode cause)

def groupReports : List ReportRow → Dict Group → OmsProg (Dict Group)
  | [], groups => pure groups
  | r :: rest, groups => do
      let mnode ← reportNode r
      let root ← rootOr mnode ((given r.nodeId).getD "UNKNOWN")
      groupReports rest (addSignal groups root r.meterDeviceId mnode .manual)

/-! ### The sweep -/

/-- `"mixed" if len(causes) > 1 else (next(iter(causes)) if causes else "unknown")`. -/
def groupCause : List Cause → Cause
  | [] => .unknown
  | [cause] => cause
  | _ => .mixed

def attachMeters (caseId : String) : Dict (Option String) → OmsProg Unit
  | [] => pure ()
  | (dev, mnode) :: rest => do
      sql (.insertCaseMeter caseId dev mnode)
      attachMeters caseId rest

/-- The open case of a node, refreshed, or a new one. -/
def refreshOrOpen (nodeId : String) (cause : Cause) (customersAffected : ℕ) :
    OmsProg (String × Bool) := do
  match ← sql (.openCaseForNode nodeId) with
  | some existing => do
      sql (.updateCase existing.caseId (.impact customersAffected cause))
      pure (existing.caseId, false)
  | none => do
      let caseId ← sql .uuid4
      let version ← sql .currentModelVersion
      sql (.insertDetected caseId cause nodeId customersAffected version)
      pure (caseId, true)

def upsertCase (nodeId : String) (g : Group) : OmsProg (Option CaseRow × Bool) := do
  let sps ← sectionServicePoints nodeId
  let (caseId, created) ← refreshOrOpen nodeId (groupCause g.causes) sps.length
  attachMeters caseId g.meters
  let case ← sql (.caseById caseId)
  pure (case, created)

/-- The ids of the cases that a sweep has created and updated. -/
structure Upserted where
  created : List String := []
  updated : List String := []
  deriving DecidableEq, Repr

def upsertGroups : Dict Group → Upserted → OmsProg Upserted
  | [], done => pure done
  | (nodeId, g) :: rest, done => do
      if nodeId = "UNKNOWN" then upsertGroups rest done
      else
        let (case, created) ← upsertCase nodeId g
        match case with
        | none => throw (.other "'NoneType' object is not subscriptable")
        | some c =>
            upsertGroups rest (
              if created then { done with created := done.created ++ [c.caseId] }
              else { done with updated := done.updated ++ [c.caseId] })

/-- `_section_root(mnode) if mnode else None`. -/
def reportRoot (r : ReportRow) : OmsProg (Option String) := do
  let mnode ← reportNode r
  match given mnode with
  | some nodeId => do
      let root ← sectionRoot nodeId
      pure (some root)
  | none => pure none

/-- `_open_case_for_node(root) if root else None`. -/
def coveringCase (root : Option String) : OmsProg (Option CaseRow) :=
  match given root with
  | some root => sql (.openCaseForNode root)
  | none => pure none

/-- A corroborated case is CONFIRMED. -/
def corroborate (c : CaseRow) : OmsProg Unit :=
  if c.status = .DETECTED then sql (.updateCase c.caseId .confirm) else pure ()

/-- The second phase for one report. -/
def linkToCase (r : ReportRow) : OmsProg Unit := do
  let root ← reportRoot r
  match ← coveringCase root with
  | none => pure ()
  | some c => do
      sql (.linkReport c.caseId r.reportId)
      corroborate c

def linkReports : List ReportRow → OmsProg Unit
  | [] => pure ()
  | r :: rest => do
      linkToCase r
      linkReports rest

/-- `all(_meter_is_back(m) for m in meters)`. -/
def allBack (timeout : Timeout) : List CaseMeter → OmsProg Bool
  | [] => pure true
  | m :: rest => do
      if ← meterIsBack timeout m.meterDeviceId then allBack timeout rest else pure false

/-- `meters and all(...)`. -/
def metersBack (timeout : Timeout) (meters : List CaseMeter) : OmsProg Bool :=
  if meters = [] then pure false else allBack timeout meters

def restoreCases (timeout : Timeout) : List CaseRow → List String → OmsProg (List String)
  | [], restored => pure restored
  | c :: rest, restored => do
      let meters ← sql (.caseMeters c.caseId)
      if ← metersBack timeout meters then do
        sql (.updateCase c.caseId .restore)
        restoreCases timeout rest (restored ++ [c.caseId])
      else restoreCases timeout rest restored

structure DetectionResult where
  created : List String
  updated : List String
  restored : List String
  metersOut : List String
  newReports : ℕ
  deriving DecidableEq, Repr

def runDetection (timeout : Timeout) : OmsProg DetectionResult := do
  let out ← metersOut timeout
  let groups ← groupMeters out []
  let newReports ← sql .newReports
  let groups ← groupReports newReports groups
  let upserted ← upsertGroups groups {}
  linkReports newReports
  let openCases ← sql .openCases
  let restored ← restoreCases timeout openCases []
  let signals ← metersOut timeout
  pure {
    created := upserted.created
    updated := upserted.updated
    restored := restored
    metersOut := signals.map Prod.fst
    newReports := newReports.length }

/-! ### The endpoints -/

structure CallReport where
  customerId : Option String := none
  meterDeviceId : Option String := none
  nodeId : Option String := none
  callerName : Option String := none
  callerPhone : Option String := none
  description : Option String := none
  deriving DecidableEq, Repr

structure ManualCase where
  affectedNodeId : String
  cause : String := "manual"
  notes : Option String := none
  deriving DecidableEq, Repr

structure CaseUpdate where
  status : Option String := none
  notes : Option String := none
  deriving DecidableEq, Repr

structure CallAnswer where
  report : Option ReportRow
  detection : DetectionResult
  deriving DecidableEq, Repr

def callHandler (timeout : Timeout) (report : CallReport) : OmsProg CallAnswer := do
  let reportId ← sql .uuid4
  sql (.insertReport {
    reportId := reportId
    customerId := report.customerId
    meterDeviceId := report.meterDeviceId
    nodeId := report.nodeId
    callerName := report.callerName
    callerPhone := report.callerPhone
    description := report.description })
  let detection ← runDetection timeout
  let row ← sql (.reportById reportId)
  pure { report := row, detection := detection }

def nodeName (nodeId : Option String) : OmsProg (Option String) :=
  match given nodeId with
  | none => pure none
  | some nodeId => do
      match ← sql (.nodeName nodeId) with
      | none => pure (some nodeId)
      | some row => pure (((given row.name).or (given row.siteName)).or (some nodeId))

structure CaseDetail where
  case : CaseRow
  affectedNodeName : Option String
  meters : List CaseMeter
  reports : List ReportRow
  deriving DecidableEq, Repr

def caseDetail : Option CaseRow → OmsProg CaseDetail
  | none => throw (.other "'NoneType' object is not iterable")
  | some case => do
      let name ← nodeName case.affectedNodeId
      let meters ← sql (.caseMeters case.caseId)
      let reports ← sql (.caseReports case.caseId)
      pure { case := case, affectedNodeName := name, meters := meters, reports := reports }

def createCase (body : ManualCase) : OmsProg CaseDetail := do
  let known ← sql (.nodeExists body.affectedNodeId)
  Prog.raiseIf (known = false)
    (.http 404 (.text ("unknown node '" ++ body.affectedNodeId ++ "'")))
  let caseId ← sql .uuid4
  let sps ← sectionServicePoints body.affectedNodeId
  let version ← sql .currentModelVersion
  sql (.insertConfirmed caseId body.cause body.affectedNodeId sps.length body.notes version)
  sql (.updateCase caseId .stampConfirmed)
  let case ← sql (.caseById caseId)
  caseDetail case

/-- The statuses that `update_case` takes. -/
def parseStatus (status : String) : Option OutageStatus :=
  if upper status = "DETECTED" then some .DETECTED
  else if upper status = "CONFIRMED" then some .CONFIRMED
  else if upper status = "RESTORED" then some .RESTORED
  else if upper status = "CLOSED" then some .CLOSED
  else none

def CaseUpdate.newStatus (body : CaseUpdate) : OmsProg (Option OutageStatus) :=
  match given body.status with
  | none => pure none
  | some text =>
      match parseStatus text with
      | none => throw (.http 422 (.text ("invalid status '" ++ text ++ "'")))
      | some status => pure (some status)

/-- `if sets: UPDATE outage_cases SET ...`. -/
def patchCase (caseId : String) (status : Option OutageStatus) (notes : Option String) :
    OmsProg Unit :=
  if status.isSome || notes.isSome then sql (.updateCase caseId (.patch status notes)) else pure ()

def updateCase (caseId : String) (body : CaseUpdate) : OmsProg CaseDetail := do
  let case ← sql (.caseById caseId)
  Prog.raiseIf (case = none) (.http 404 (.text ("unknown case '" ++ caseId ++ "'")))
  let status ← body.newStatus
  patchCase caseId status body.notes
  let case ← sql (.caseById caseId)
  caseDetail case

inductive OmsRequest where
  | detect
  | call (report : CallReport)
  | createCase (body : ManualCase)
  | updateCase (caseId : String) (body : CaseUpdate)
  deriving DecidableEq, Repr

/-- The requests that write cases. -/
def serveOms (timeout : Timeout) : OmsRequest → OmsProg Unit
  | .detect => do
      let _ ← runDetection timeout
      pure ()
  | .call report => do
      let _ ← callHandler timeout report
      pure ()
  | .createCase body => do
      let _ ← createCase body
      pure ()
  | .updateCase caseId body => do
      let _ ← updateCase caseId body
      pure ()

/-! ### The pilot network -/

/-- The pilot network with its customer, its meter, and a second meter that is
nowhere in the network. -/
def pilotModel (latest : String → Option Telemetry) : Model where
  nodes := [
    { nodeId := "SUB-ABUJA", nodeType := .substation },
    { nodeId := "FDR-01", nodeType := .feeder, parentId := some "SUB-ABUJA" },
    { nodeId := "TX-01", nodeType := .transformer, parentId := some "FDR-01" },
    { nodeId := "BUS-01", nodeType := .bus, parentId := some "TX-01" },
    { nodeId := "ND-METER001", nodeType := .meter, parentId := some "BUS-01"
      deviceId := some "METER001" },
    { nodeId := "TX-02", nodeType := .transformer, parentId := some "FDR-01" },
    { nodeId := "ND-MGD900", nodeType := .der, parentId := some "BUS-01" }]
  edges := pilot.edges
  servicePoints := [⟨"SP-1", some "CUST-1", some "ND-METER001", some "METER001"⟩]
  devices := [⟨"METER001", "smartmeter"⟩, ⟨"METER002", "smartmeter"⟩]
  customers := ["CUST-1"]
  latest := latest
  toNode_mem := by decide
  servicePoint_mem := by decide

/-- Meters with a last gasp, and the others reporting. -/
def gasping (meters : List String) (dev : String) : Option Telemetry :=
  some ⟨some (if dev ∈ meters then "LAST_GASP" else "OK"), 5⟩

def pilotOms (latest : String → Option Telemetry) (cases : List CaseRow)
    (caseMeters : List CaseMeter) (reports : List ReportRow)
    (case_key : (cases.map CaseRow.caseId).Nodup := by decide)
    (case_node : ∀ c ∈ cases, refers (pilotModel latest).nodeIds c.affectedNodeId := by decide)
    (caseMeter_case : ∀ m ∈ caseMeters, m.caseId ∈ cases.map CaseRow.caseId := by decide)
    (report_key : (reports.map ReportRow.reportId).Nodup := by decide)
    (report_refs : ∀ r ∈ reports, (pilotModel latest).Knows r := by decide) : OmsDb where
  model := pilotModel latest
  cases := cases
  caseMeters := caseMeters
  reports := reports
  case_key := case_key
  case_node := case_node
  caseMeter_case := caseMeter_case
  report_key := report_key
  report_refs := report_refs

end DiepLab.Oms
