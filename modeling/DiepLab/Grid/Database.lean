import DiepLab.Common
import DiepLab.Grid.Energization
import DiepLab.Library.StatementProgram
import Mathlib.Data.Rat.Init

/-!
The database as the switching code sees it, one statement at a time.

`GridStmt` lists the statements that the FLISR planner, its automation policy,
the switch handler and the device path issue: the reads of the network model
and of the customer and outage tables, the switch write, the audit row of a FLISR run,
and the statements of the command path. `gridExec` says what a statement
does, `gridSem` adds that the surroundings may make it fail. A statement that
fails changes nothing.

Every switch write carries a label, `SwitchWrite`, naming the line of the
source it stands for; no statement reads it.
-/

namespace DiepLab

open StatementProgram

/-! ### Rows -/

/-- `customers.priority`. -/
inductive Priority where
  | standard | medical | critical
  deriving DecidableEq, Repr

structure Customer where
  customerId : String
  priority : Priority := .standard
  deriving DecidableEq, Repr

structure ServicePoint where
  servicePointId : String
  customerId : Option String
  nodeId : Option String
  deriving DecidableEq, Repr

/-- A row of the join of `service_points` with `customers`. -/
structure ServedCustomer where
  customerId : Option String
  nodeId : String
  priority : Option Priority
  deriving DecidableEq, Repr

/-- `outage_cases.status`. -/
inductive OutageStatus where
  | DETECTED | CONFIRMED | RESTORED | CLOSED
  deriving DecidableEq, Repr

structure OutageCase where
  caseId : String
  status : OutageStatus
  affectedNodeId : Option String
  deriving DecidableEq, Repr

structure Device where
  deviceId : String
  deviceType : String
  deriving DecidableEq, Repr

/-- `commands.status`. -/
inductive CommandStatus where
  | PENDING | SENT | ACKED | FAILED | COMPLETED
  deriving DecidableEq, Repr

structure Command where
  commandId : String
  deviceId : String
  deviceType : String
  commandType : String
  issuedBy : String
  status : CommandStatus := .PENDING
  errorMessage : Option String := none
  deriving DecidableEq, Repr

structure FlisrEvent where
  eventId : String
  faultNode : String
  faultEdge : Option String
  isolatedEdges : List String
  restoredEdges : List String
  customersLost : ℕ
  customersRestored : ℕ
  executed : Bool
  steps : List String
  networkModelVersion : Option ℕ
  deriving DecidableEq, Repr

/-- What a device last reported: `device_state.read_device_state`. -/
structure DeviceState where
  ts : ℚ
  gridConnected : Option Bool
  setpointKw : Option ℚ
  deriving DecidableEq, Repr

structure GridDb where
  network : Network
  customers : List Customer := []
  servicePoints : List ServicePoint := []
  outageCases : List OutageCase := []
  devices : List Device := []
  commands : List Command := []
  flisrEvents : List FlisrEvent := []
  modelVersion : Option ℕ := none

namespace GridDb

/-- `service_points LEFT JOIN customers ... WHERE node_id = ANY(nodes)`. -/
def servicePointsIn (db : GridDb) (nodes : Finset String) : List ServedCustomer :=
  db.servicePoints.filterMap fun sp =>
    match sp.nodeId with
    | none => none
    | some n =>
        if n ∈ nodes then
          some {
            customerId := sp.customerId
            nodeId := n
            priority := sp.customerId.bind fun c =>
              (db.customers.find? fun row => row.customerId = c).map Customer.priority }
        else none

/-- `SELECT DISTINCT affected_node_id FROM outage_cases WHERE status IN
('DETECTED','CONFIRMED') AND affected_node_id IS NOT NULL`. -/
def activeOutageNodes (db : GridDb) : Finset String :=
  ((db.outageCases.filter fun c => c.status = .DETECTED ∨ c.status = .CONFIRMED).filterMap
    OutageCase.affectedNodeId).toFinset

/-- `SELECT case_id, affected_node_id FROM outage_cases WHERE status IN
('DETECTED','CONFIRMED') AND affected_node_id IS NOT NULL ORDER BY detected_at`;
the rows of the table are kept in the order of detection. -/
def openCases (db : GridDb) : List (String × String) :=
  (db.outageCases.filter fun c => c.status = .DETECTED ∨ c.status = .CONFIRMED).filterMap
    fun c => c.affectedNodeId.map fun n => (c.caseId, n)

end GridDb

/-! ### Statements -/

/-- The rows on which the interlocks of a switch operation were evaluated. -/
structure InterlockReads where
  edges : List GridEdge
  substationsBefore : List String
  substationsAfter : List String
  outageNodes : Finset String
  customersLost : List ServedCustomer

/-- Which line of the source a switch write stands for. -/
inductive SwitchWrite where
  /-- `SwitchOpHandler.execute`, the authoritative model actuation. -/
  | switchOp (override : Bool) (reads : InterlockReads)
  /-- `SwitchOpHandler.execute`, the revert after an echo divergence. -/
  | switchOpRevert
  /-- `SwitchOpHandler.rollback`. -/
  | switchOpRollback
  /-- `FlisrHandler.execute`, opening the isolating switch. -/
  | flisrIsolate
  /-- `FlisrHandler.execute`, closing a restoring tie. -/
  | flisrRestore
  /-- `FlisrHandler.execute`, the transactional abort. -/
  | flisrAbort
  /-- `FlisrHandler.rollback`. -/
  | flisrRollback
  /-- `flisr_simulate`, the legacy direct path. -/
  | flisrSimulate
  /-- `PATCH /topology/edges/{edge_id}/switch`. -/
  | setSwitch

inductive GridStmt where
  | loadNodes
  | loadEdges
  | servicePointsIn (nodes : Finset String)
  | substations
  | activeOutageNodes
  /-- The open outage cases with a node, oldest first. -/
  | openCases
  | setSwitch (site : SwitchWrite) (edgeId : String) (isClosed : Bool)
  | insertFlisrEvent (row : FlisrEvent)
  | currentModelVersion
  | uuid4
  | selectDevice (deviceId : String)
  | insertCommand (row : Command)
  | publish (row : Command)
  | failCommand (commandId : String) (message : String)
  | markSent (commandId : String)
  | commandStatus (commandId : String)
  | telemetry (deviceId : String)
  /-- How many turns of a polling loop fit before its deadline. -/
  | deadline
  /-- `OC_VERIFY_ECHO`. -/
  | echoEnabled

/-- The answer to a statement. -/
@[reducible] def GridResp : GridStmt → Type
  | .loadNodes => List GridNode
  | .loadEdges => List GridEdge
  | .servicePointsIn _ => List ServedCustomer
  | .substations => List String
  | .activeOutageNodes => Finset String
  | .openCases => List (String × String)
  | .setSwitch .. => Unit
  | .insertFlisrEvent _ => Unit
  | .currentModelVersion => Option ℕ
  | .uuid4 => String
  | .selectDevice _ => Option Device
  | .insertCommand _ => Unit
  | .publish _ => Unit
  | .failCommand .. => Unit
  | .markSent _ => Option CommandStatus
  | .commandStatus _ => Option CommandStatus
  | .telemetry _ => Option DeviceState
  | .deadline => ℕ
  | .echoEnabled => Bool

/-- What the surroundings decide while one statement runs. -/
structure GridChoice where
  /-- The statement raises, with this message. -/
  fails : Option String := none
  uuid : String := ""
  /-- An acknowledgement that has reached the `commands` row by now. -/
  ack : Option CommandStatus := none
  /-- The latest telemetry row of the device asked for. -/
  reported : Option DeviceState := none
  polls : ℕ := 0
  echoEnabled : Bool := true

abbrev GridProg := Prog GridResp Exc

/-! The statements as programs. -/

namespace Sql

abbrev loadNodes : GridProg (List GridNode) := Prog.call GridStmt.loadNodes

abbrev loadEdges : GridProg (List GridEdge) := Prog.call GridStmt.loadEdges

abbrev servicePointsIn (nodes : Finset String) : GridProg (List ServedCustomer) :=
  Prog.call (GridStmt.servicePointsIn nodes)

abbrev substations : GridProg (List String) := Prog.call GridStmt.substations

abbrev activeOutageNodes : GridProg (Finset String) := Prog.call GridStmt.activeOutageNodes

abbrev openCases : GridProg (List (String × String)) := Prog.call GridStmt.openCases

abbrev setSwitch (site : SwitchWrite) (edgeId : String) (isClosed : Bool) : GridProg Unit :=
  Prog.call (GridStmt.setSwitch site edgeId isClosed)

abbrev insertFlisrEvent (row : FlisrEvent) : GridProg Unit :=
  Prog.call (GridStmt.insertFlisrEvent row)

abbrev currentModelVersion : GridProg (Option ℕ) := Prog.call GridStmt.currentModelVersion

abbrev uuid4 : GridProg String := Prog.call GridStmt.uuid4

abbrev selectDevice (deviceId : String) : GridProg (Option Device) :=
  Prog.call (GridStmt.selectDevice deviceId)

abbrev insertCommand (row : Command) : GridProg Unit := Prog.call (GridStmt.insertCommand row)

abbrev publish (row : Command) : GridProg Unit := Prog.call (GridStmt.publish row)

abbrev failCommand (commandId message : String) : GridProg Unit :=
  Prog.call (GridStmt.failCommand commandId message)

abbrev markSent (commandId : String) : GridProg (Option CommandStatus) :=
  Prog.call (GridStmt.markSent commandId)

abbrev commandStatus (commandId : String) : GridProg (Option CommandStatus) :=
  Prog.call (GridStmt.commandStatus commandId)

abbrev telemetry (deviceId : String) : GridProg (Option DeviceState) :=
  Prog.call (GridStmt.telemetry deviceId)

abbrev deadline : GridProg ℕ := Prog.call GridStmt.deadline

abbrev echoEnabled : GridProg Bool := Prog.call GridStmt.echoEnabled

end Sql

def Command.setStatus (commandId : String) (f : Command → Command) (rows : List Command) :
    List Command :=
  rows.map fun row => if row.commandId = commandId then f row else row

/-- `status = CASE WHEN status IN ('ACKED','FAILED','COMPLETED') THEN status
ELSE 'SENT' END`. -/
def CommandStatus.sent : CommandStatus → CommandStatus
  | .ACKED => .ACKED
  | .FAILED => .FAILED
  | .COMPLETED => .COMPLETED
  | _ => .SENT

def commandStatusOf (rows : List Command) (commandId : String) : Option CommandStatus :=
  (rows.find? fun row => row.commandId = commandId).map Command.status

/-- What a statement does when it succeeds. -/
def gridExec (c : GridChoice) : (q : GridStmt) → GridDb → GridResp q × GridDb
  | .loadNodes, db => (db.network.nodes, db)
  | .loadEdges, db => (db.network.edges, db)
  | .servicePointsIn nodes, db => (db.servicePointsIn nodes, db)
  | .substations, db => (db.network.substations, db)
  | .activeOutageNodes, db => (db.activeOutageNodes, db)
  | .openCases, db => (db.openCases, db)
  | .setSwitch _ edgeId b, db => ((), { db with network := db.network.setSwitch edgeId b })
  | .insertFlisrEvent row, db => ((), { db with flisrEvents := db.flisrEvents ++ [row] })
  | .currentModelVersion, db => (db.modelVersion, db)
  | .uuid4, db => (c.uuid, db)
  | .selectDevice d, db => (db.devices.find? fun row => row.deviceId = d, db)
  | .insertCommand row, db => ((), { db with commands := db.commands ++ [row] })
  | .publish _, db => ((), db)
  | .failCommand i m, db =>
      let fail (row : Command) : Command :=
        { row with status := .FAILED, errorMessage := some m }
      ((), { db with commands := Command.setStatus i fail db.commands })
  | .markSent i, db =>
      let send (row : Command) : Command := { row with status := row.status.sent }
      let rows := Command.setStatus i send db.commands
      (commandStatusOf rows i, { db with commands := rows })
  | .commandStatus i, db => (c.ack <|> commandStatusOf db.commands i, db)
  | .telemetry _, db => (c.reported, db)
  | .deadline, db => (c.polls, db)
  | .echoEnabled, db => (c.echoEnabled, db)

/-- The exception a failing statement raises. Drawing an identifier, the clock
and the environment are no statements and cannot fail; the publish fails with
Kafka's own exception. -/
def GridStmt.failure (c : GridChoice) : GridStmt → Option Exc
  | .uuid4 => none
  | .deadline => none
  | .echoEnabled => none
  | .publish _ => c.fails.map .kafka
  | _ => c.fails.map .other

def gridSem (c : GridChoice) (q : GridStmt) (db : GridDb) :
    Except Exc (GridResp q) × GridDb :=
  match q.failure c with
  | some e => (.error e, db)
  | none => (.ok (gridExec c q db).1, (gridExec c q db).2)

/-- The answer of a statement that succeeds. -/
theorem gridSem_ok {c : GridChoice} {q : GridStmt} {db : GridDb} {a : GridResp q}
    (h : (gridSem c q db).1 = .ok a) : a = (gridExec c q db).1 := by
  rw [gridSem] at h
  cases hf : q.failure c with
  | some e =>
      rw [hf] at h
      cases h
  | none =>
      rw [hf] at h
      injection h with h
      exact h.symm

/-! ### What a statement can change -/

/-- Only the switch write touches the network model, and only the state of
the one edge it names. -/
theorem gridSem_network (c : GridChoice) (q : GridStmt) (db : GridDb) :
    (gridSem c q db).2.network = db.network ∨
      ∃ site edgeId b, q = .setSwitch site edgeId b ∧
        (gridSem c q db).2 = { db with network := db.network.setSwitch edgeId b } := by
  rw [gridSem]
  cases hf : q.failure c with
  | some e => exact Or.inl rfl
  | none =>
      cases q with
      | setSwitch site edgeId b => exact Or.inr ⟨site, edgeId, b, rfl, rfl⟩
      | _ => exact Or.inl rfl

/-- The statements that change no table. -/
def GridStmt.ReadsOnly : GridStmt → Prop
  | .setSwitch .. => False
  | .insertFlisrEvent _ => False
  | .insertCommand _ => False
  | .failCommand .. => False
  | .markSent _ => False
  | _ => True

theorem gridSem_readsOnly (c : GridChoice) {q : GridStmt} (hq : q.ReadsOnly) (db : GridDb) :
    (gridSem c q db).2 = db := by
  rw [gridSem]
  cases q.failure c with
  | some e => rfl
  | none =>
      cases q with
      | setSwitch site edgeId b => exact hq.elim
      | insertFlisrEvent row => exact hq.elim
      | insertCommand row => exact hq.elim
      | failCommand i m => exact hq.elim
      | markSent i => exact hq.elim
      | _ => rfl

/-- The statements that move no switch. -/
def GridStmt.MovesNothing (q : GridStmt) : Prop :=
  ∀ site edgeId b, q ≠ .setSwitch site edgeId b

theorem GridStmt.ReadsOnly.movesNothing {q : GridStmt} (hq : q.ReadsOnly) : q.MovesNothing := by
  rintro site edgeId b rfl
  exact hq

theorem gridSem_movesNothing (c : GridChoice) {q : GridStmt} (hq : q.MovesNothing)
    (db : GridDb) : (gridSem c q db).2.network = db.network := by
  rcases gridSem_network c q db with h | ⟨site, edgeId, b, rfl, -⟩
  · exact h
  · exact absurd rfl (hq site edgeId b)

end DiepLab
