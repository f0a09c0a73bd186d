import DiepLab.Handlers.Writes

/-!
The ways to a switch state.

`is_closed` of a stored edge is written by the two governed handlers, when an
action is executed and when it is rolled back, and by two endpoints outside the
governance core: the switch endpoint of the topology router and the execution
of a simulated FLISR plan.
-/

namespace DiepLab

open StatementProgram Controls

namespace Topology

/-- `SELECT * FROM grid_edges WHERE edge_id = edgeId`. -/
def edgeRow (edgeId : String) : GridProg (Option GridEdge) := do
  let edges ← Sql.loadEdges
  pure (edges.find? fun e => e.edgeId = edgeId)

/-- `PATCH /topology/edges/{edge_id}/switch`. -/
def setSwitch (edgeId : String) (isClosed : Bool) : GridProg (Option GridEdge) := do
  match ← edgeRow edgeId with
  | none => throw (.http 404 (.text ("unknown edge '" ++ edgeId ++ "'")))
  | some edge => do
      Prog.raiseIf (¬ edge.isSwitchable = true)
        (.http 409 (.text ("edge '" ++ edgeId ++ "' is not switchable")))
      Sql.setSwitch .setSwitch edgeId isClosed
      edgeRow edgeId

end Topology

namespace Dms

/-- The answer of `POST /dms/flisr/simulate`. -/
structure FlisrResult where
  eventId : String
  faultNode : String
  faultEdge : Option String
  executed : Bool
  isolatedEdges : List String
  restoredEdges : List String
  customersLost : ℕ
  customersRestored : ℕ
  customersStillOut : ℕ
  steps : List String

/-- Close the ties of a plan, one after the other. -/
def simulateTies : List String → GridProg Unit
  | [] => pure ()
  | eid :: rest => do
      Sql.setSwitch .flisrSimulate eid true
      simulateTies rest

/-- The legacy direct path, gated on the master flag. -/
def simulateExecute (plan : FlisrPlan) : PlaneProg ActionParams ActionDoc GridResp Unit := do
  let enabled ← Db.controlsEnabled
  Prog.raiseIf (enabled = false) (.http 403 (.text
    ("live FLISR execution requires OC_CONTROLS_ENABLED; " ++
      "use the governed /controls flisr action")))
  (Sql.setSwitch .flisrSimulate plan.isolatedEdge false).inr
  (simulateTies plan.restoredEdges).inr

/-- What `flisr_simulate` records. -/
def recordSimulation (plan : FlisrPlan) (faultEdge : Option String) (execute : Bool) :
    GridProg FlisrResult := do
  let steps := plan.steps ++
    if execute then ["executed: switch states updated in network model"] else []
  let eventId ← Sql.uuid4
  let version ← Sql.currentModelVersion
  Sql.insertFlisrEvent {
    eventId := eventId, faultNode := plan.faultNode, faultEdge := faultEdge
    isolatedEdges := plan.isolatedEdges, restoredEdges := plan.restoredEdges
    customersLost := plan.customersLost, customersRestored := plan.customersRestored
    executed := execute, steps := steps, networkModelVersion := version }
  pure {
    eventId := eventId, faultNode := plan.faultNode, faultEdge := faultEdge
    executed := execute, isolatedEdges := plan.isolatedEdges
    restoredEdges := plan.restoredEdges, customersLost := plan.customersLost
    customersRestored := plan.customersRestored, customersStillOut := plan.customersStillOut
    steps := steps }

/-- `POST /dms/flisr/simulate`. -/
def flisrSimulate (faultNode faultEdge : Option String) (execute : Bool) :
    PlaneProg ActionParams ActionDoc GridResp FlisrResult := do
  let plan ← (planFlisr faultNode faultEdge).inr
  if execute then do
    simulateExecute plan
    (recordSimulation plan faultEdge execute).inr
  else (recordSimulation plan faultEdge execute).inr

end Dms

/-- The requests that can write a switch state. -/
inductive SwitchRequest where
  | control (r : Request ActionParams)
  | flisrSimulate (faultNode faultEdge : Option String) (execute : Bool)
  | setSwitch (edgeId : String) (isClosed : Bool)

def SwitchRequest.serve : SwitchRequest → PlaneProg ActionParams ActionDoc GridResp Unit
  | .control r => Controls.serve switchingHandlers r
  | .flisrSimulate faultNode faultEdge execute => do
      let _ ← Dms.flisrSimulate faultNode faultEdge execute
      pure ()
  | .setSwitch edgeId isClosed => do
      let _ ← (Topology.setSwitch edgeId isClosed).inr
      pure ()

end DiepLab
