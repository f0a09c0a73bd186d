import DiepLab.Controls.Plane
import DiepLab.Dms.Flisr
import DiepLab.Handlers.Field

/-!
The two handlers that move switches, `SwitchOpHandler` and `FlisrHandler`.

Both plan at request time, when what `plan` returns becomes the stored
`before_state`, and decide afresh at execute time. `SwitchOpHandler.plan`
evaluates the interlocks; the rows it has evaluated them on are handed on to
the label of the switch write, and to nothing else.
-/

namespace DiepLab

open StatementProgram Controls

/-! ### Parameters and documents -/

/-- The keys of `params` that the two handlers read. -/
structure ActionParams where
  close : Option Bool := none
  override : Bool := false
  faultNode : Option String := none
  faultEdge : Option String := none
  deriving DecidableEq, Repr

/-- The documents of the two handlers. -/
inductive ActionDoc where
  | switchBefore (edgeId : String) (isClosed : Bool) (deviceId : Option String)
  | switchPreview (edge fromNode toNode : String) (setClosed : Bool)
      (customersLost customersRestored : ℕ) (interlocks : List String)
      (overridden deviceBacked : Bool)
  | switchAfter (edgeId : String) (isClosed : Bool) (device : Option DeviceAck)
      (echo : Option Echo)
  | switchRestored (edgeId : Option String) (isClosed : Bool) (device : Option DeviceAck)
      (echo : Option Echo)
  | flisrBefore (switches : Dict Bool)
  | flisrPreview (plan : Dms.FlisrPlan) (restoresAll : Bool)
  | flisrAfter (eventId : String) (isolatedEdges restoredEdges : List String)
      (customersRestored customersStillOut : ℕ) (switchesMoved : List String)
  | flisrRestored (restoredSwitches : Dict Bool)

namespace ActionDoc

/-- `before.get("edge_id")`, and so on for the other keys. -/
def edgeId? : ActionDoc → Option String
  | .switchBefore edgeId _ _ => some edgeId
  | _ => none

def isClosed? : ActionDoc → Option Bool
  | .switchBefore _ isClosed _ => some isClosed
  | _ => none

def deviceId? : ActionDoc → Option String
  | .switchBefore _ _ deviceId => deviceId
  | _ => none

def switches? : ActionDoc → Option (Dict Bool)
  | .flisrBefore switches => some switches
  | _ => none

end ActionDoc

abbrev ActionRecord := ActionRow ActionParams ActionDoc

/-! ### Switch operations -/

namespace OcSwitch

def resolve (target : Option String) (params : ActionParams) :
    GridProg (List GridEdge × GridEdge × Bool) := do
  match given target with
  | none => throw (.http 422 (.text "switch_op requires target (edge_id)"))
  | some target =>
      let edges ← Sql.loadEdges
      match edges.find? fun e => e.edgeId = target with
      | none => throw (.http 404 (.text ("unknown edge '" ++ target ++ "'")))
      | some edge =>
          Prog.raiseIf (¬ edge.isSwitchable = true)
            (.http 409 (.text ("edge '" ++ target ++ "' is not switchable")))
          match params.close with
          | none => throw (.http 422 (.text "params.close (bool) required"))
          | some wantClosed => pure (edges, edge, wantClosed)

/-- `_customers_in`: an empty set is not asked about. -/
def customersIn (nodes : Finset String) : GridProg (List ServedCustomer) :=
  if nodes = ∅ then pure [] else Sql.servicePointsIn nodes

/-- `(c["priority"] or "") in CRITICAL_PRIORITIES`. -/
def critical (customer : ServedCustomer) : Bool :=
  customer.priority = some .critical || customer.priority = some .medical

/-- The texts of the interlocks that block. -/
def blocks (edge : GridEdge) (wantClosed : Bool) (before gained outageNodes : Finset String)
    (customersLost : List ServedCustomer) : List String :=
  if wantClosed then
    (if outageNodes ∩ gained = ∅ then [] else
      ["closing would re-energize node(s) with an active outage: " ++
        pyList (outageNodes ∩ gained).sort]) ++
    (if edge.fromNode ∈ before ∧ edge.toNode ∈ before then
      ["closing would parallel two already-energized sources"] else [])
  else
    let crit := customersLost.filter critical
    if crit = [] then [] else
      ["opening would island " ++ toString crit.length ++ " critical/medical customer(s)"]

structure Interlocks where
  lost : Finset String
  gained : Finset String
  blocks : List String
  reads : InterlockReads

def interlocks (edges : List GridEdge) (edge : GridEdge) (wantClosed : Bool) :
    GridProg Interlocks := do
  let substationsBefore ← Sql.substations
  let before := energized edges substationsBefore none
  let substationsAfter ← Sql.substations
  let after := energized edges substationsAfter (some (edge.edgeId, wantClosed))
  let lost := before \ after
  let gained := after \ before
  if wantClosed then do
    let outageNodes ← Sql.activeOutageNodes
    pure ⟨lost, gained, blocks edge true before gained outageNodes [],
      ⟨edges, substationsBefore, substationsAfter, outageNodes, []⟩⟩
  else do
    let customers ← customersIn lost
    pure ⟨lost, gained, blocks edge false before gained ∅ customers,
      ⟨edges, substationsBefore, substationsAfter, ∅, customers⟩⟩

/-- `plan`, with the rows on which the interlocks were evaluated. -/
def planReads (target : Option String) (params : ActionParams) :
    GridProg (InterlockReads × ActionDoc × ActionDoc) := do
  let (edges, edge, wantClosed) ← resolve target params
  Prog.raiseIf (edge.isClosed = wantClosed)
    (.http 409 (.text ("edge already " ++ (if wantClosed then "closed" else "open") ++
      " (no-op)")))
  let found ← interlocks edges edge wantClosed
  Prog.raiseIf (found.blocks ≠ [] ∧ ¬ params.override = true)
    (.http 409 (.blocked "blocked_by_interlocks" found.blocks
      "set params.override=true with a reason to proceed"))
  let customersLost ← customersIn found.lost
  let customersRestored ← customersIn found.gained
  pure (found.reads, .switchBefore edge.edgeId edge.isClosed edge.attrs.deviceId,
    .switchPreview edge.edgeId edge.fromNode edge.toNode wantClosed customersLost.length
      customersRestored.length found.blocks (found.blocks ≠ [] ∧ params.override = true)
      (given edge.attrs.deviceId).isSome)

def plan (target : Option String) (params : ActionParams) :
    GridProg (ActionDoc × ActionDoc) := do
  let (_, before, preview) ← planReads target params
  pure (before, preview)

/-- The opening of `execute`: re-check (TOCTOU), then resolve again. -/
def recheck (action : ActionRecord) : GridProg (InterlockReads × GridEdge × Bool) := do
  let (reads, _, _) ← planReads action.target action.params
  let (_, edge, wantClosed) ← resolve action.target action.params
  pure (reads, edge, wantClosed)

/-- The command that moves the breaker behind the edge. -/
def commandFor (edge : GridEdge) (wantClosed : Bool) : String :=
  if wantClosed then edge.attrs.cmdClose.getD "grid_connect" else edge.attrs.cmdOpen.getD "island"

/-- The echo of a breaker command, if it is verified at all. -/
def echoOf (deviceId : String) (wantClosed : Bool) : GridProg (Option Echo) := do
  if ← Sql.echoEnabled then do
    let echo ← verifyEcho deviceId [.gridConnected wantClosed]
    pure (some echo)
  else pure none

/-- The field device of `execute`, if the edge is device-backed. A device that
does not confirm makes the model revert. -/
def moveDevice (edge : GridEdge) (wantClosed : Bool) :
    GridProg (Option DeviceAck × Option Echo) := do
  match given edge.attrs.deviceId with
  | none => pure (none, none)
  | some deviceId =>
      let ack ← dispatchAndWait deviceId (commandFor edge wantClosed)
      let echo ← echoOf deviceId wantClosed
      if echo.bind Echo.confirmed = some false then do
        Sql.setSwitch .switchOpRevert edge.edgeId edge.isClosed
        throw (.other ("device " ++ deviceId ++ " did not confirm breaker " ++
          (if wantClosed then "close" else "open") ++ " (echo divergence); " ++
          "model reverted to is_closed=" ++ (if edge.isClosed then "True" else "False")))
      else pure (some ack, echo)

def execute (action : ActionRecord) : GridProg ActionDoc := do
  let (reads, edge, wantClosed) ← recheck action
  Sql.setSwitch (.switchOp action.params.override reads) edge.edgeId wantClosed
  let (device, echo) ← moveDevice edge wantClosed
  pure (.switchAfter edge.edgeId wantClosed device echo)

def rollback (action : ActionRecord) : GridProg ActionDoc := do
  let edgeId := given (action.beforeState.bind ActionDoc.edgeId?) <|> action.target
  match action.beforeState.bind ActionDoc.isClosed? with
  | none => throw (.http 409 (.text "no before_state to roll back to"))
  | some prev =>
      -- `edge_id = NULL` matches no row
      match edgeId with
      | some edgeId => Sql.setSwitch .switchOpRollback edgeId prev
      | none => pure ()
      match given (action.beforeState.bind ActionDoc.deviceId?) with
      | none => pure (.switchRestored edgeId prev none none)
      | some deviceId =>
          let ack ← dispatchAndWait deviceId (if prev then "grid_connect" else "island")
          -- the echo is recorded and never blocks the rollback
          let echo ← echoOf deviceId prev
          pure (.switchRestored edgeId prev (some ack) echo)

def handler : ControlHandler ActionParams ActionDoc GridResp where
  riskFor _ _ := pure .high
  plan := plan
  execute := execute
  rollback := rollback

end OcSwitch

/-! ### FLISR -/

namespace OcFlisr

open Dms

/-- `_plan`: the target carries the fault node, the parameters may override
it or supply a fault edge. -/
def planFor (target : Option String) (params : ActionParams) : GridProg FlisrPlan :=
  planFlisr (given params.faultNode <|> target) params.faultEdge

def plan (target : Option String) (params : ActionParams) :
    GridProg (ActionDoc × ActionDoc) := do
  let p ← planFor target params
  pure (.flisrBefore p.beforeSwitchState, .flisrPreview p (p.customersStillOut = 0))

/-- The switch states that an abort or a rollback goes back to. -/
def snapshot (action : ActionRecord) : Dict Bool :=
  (action.beforeState.bind ActionDoc.switches?).getD []

/-- Revert the switches already moved to their prior state. -/
def revert (before : Dict Bool) : List String → GridProg Unit
  | [] => pure ()
  | eid :: applied => do
      match before.get? eid with
      | some prev => Sql.setSwitch .flisrAbort eid prev
      | none => pure ()
      revert before applied

/-- The switch writes of a plan: open the isolating switch, then close the
restoring ties. -/
def writes (p : FlisrPlan) : List (SwitchWrite × String × Bool) :=
  (.flisrIsolate, p.isolatedEdge, false) ::
    p.restoredEdges.map fun eid => (.flisrRestore, eid, true)

/-- The switching loop. A write that raises reverts the ones before it and
raises again. -/
def applyWrites (before : Dict Bool) :
    List (SwitchWrite × String × Bool) → List String → GridProg (List String)
  | [], applied => pure applied
  | (site, eid, b) :: rest, applied => do
      tryCatch (Sql.setSwitch site eid b) fun exc => do
        revert before applied
        throw exc
      applyWrites before rest (applied ++ [eid])

/-- What `execute` records after the switching. -/
def recordEvent (p : FlisrPlan) (applied : List String) : GridProg ActionDoc := do
  let eventId ← Sql.uuid4
  let version ← Sql.currentModelVersion
  Sql.insertFlisrEvent {
    eventId := eventId, faultNode := p.faultNode, faultEdge := p.faultEdge
    isolatedEdges := p.isolatedEdges, restoredEdges := p.restoredEdges
    customersLost := p.customersLost, customersRestored := p.customersRestored
    executed := true
    steps := p.steps ++ ["executed via governed /controls flisr action"]
    networkModelVersion := version }
  pure (.flisrAfter eventId p.isolatedEdges p.restoredEdges p.customersRestored
    p.customersStillOut applied)

/-- `before` of `execute`: an empty snapshot counts as none. -/
def abortStates (action : ActionRecord) (p : FlisrPlan) : Dict Bool :=
  if snapshot action = [] then p.beforeSwitchState else snapshot action

def execute (action : ActionRecord) : GridProg ActionDoc := do
  let p ← planFor action.target action.params
  let applied ← applyWrites (abortStates action p) (writes p) []
  recordEvent p applied

def restoreSwitches : Dict Bool → GridProg Unit
  | [] => pure ()
  | (eid, prev) :: rest => do
      Sql.setSwitch .flisrRollback eid prev
      restoreSwitches rest

def rollback (action : ActionRecord) : GridProg ActionDoc := do
  Prog.raiseIf (snapshot action = []) (.http 409 (.text "no before_state to roll back to"))
  restoreSwitches (snapshot action)
  pure (.flisrRestored (snapshot action))

def handler : ControlHandler ActionParams ActionDoc GridResp where
  riskFor _ _ := pure .high
  plan := plan
  execute := execute
  rollback := rollback

end OcFlisr

/-- The registry with the two handlers that move switches. -/
def switchingHandlers : Registry ActionParams ActionDoc GridResp := fun name =>
  if name = "switch_op" then some OcSwitch.handler
  else if name = "flisr" then some OcFlisr.handler
  else none

end DiepLab
