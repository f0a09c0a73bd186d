import DiepLab.Fleet.Endpoints
import DiepLab.Handlers.Switching
import Mathlib.Data.Rat.Floor

/-!
The Volt/VAR handler, and the registry of all four action types over the fleet.

`VoltVarHandler` commands the DER that is its target; the governance core has
checked the tenant of the action, and nobody that of the DER. The handlers that
move switches are those of `Handlers.Switching`, used in the larger language.
-/

namespace DiepLab.Fleet

open StatementProgram Controls

/-! ### Parameters and documents -/

/-- The keys of `params` that the handlers read. -/
structure OcParams extends ActionParams where
  setpointKw : Option ℚ := none
  deriving DecidableEq, Repr

/-- The documents of the handlers. -/
inductive OcDoc where
  | switching (doc : ActionDoc)
  | noop (doc : NoopDoc OcParams)
  | voltvarBefore (derId : String) (derType : DerType) (nodeId : Option String)
      (prevSetpointKw : ℚ)
  | voltvarPreview (derId : String) (setpointKw currentOutputKw deltaKw ratedKw : ℚ)
      (rateLimitedHighRisk : Bool) (commandType : String) (parameter : String × ℚ)
  | voltvarAfter (derId commandType : String) (setpointKw : ℚ) (commandId : String)
      (echo : Option Echo)
  | voltvarRestored (derId : String) (restoredSetpointKw : ℚ) (commandId : String)

namespace OcDoc

def switching? : OcDoc → Option ActionDoc
  | .switching doc => some doc
  | _ => none

/-- `before.get("der_id")`, `before.get("prev_setpoint_kw")` and
`before.get("der_type")`. -/
def voltvarBefore? : OcDoc → Option (String × ℚ × DerType)
  | .voltvarBefore derId derType _ prev => some (derId, prev, derType)
  | _ => none

end OcDoc

abbrev OcRow := ActionRow OcParams OcDoc

/-- A row as the handlers that move switches read it. -/
def switchingRow (row : OcRow) : ActionRecord where
  actionId := row.actionId
  actionType := row.actionType
  target := row.target
  params := row.params.toActionParams
  mode := row.mode
  risk := row.risk
  status := row.status
  reason := row.reason
  requestedBy := row.requestedBy
  approvedBy := row.approvedBy
  beforeState := row.beforeState.bind OcDoc.switching?
  error := row.error
  tenantId := row.tenantId
  networkModelVersion := row.networkModelVersion

/-! ### Volt/VAR -/

namespace OcVoltVar

/-- `OC_VOLTVAR_MAX_STEP_KW`, `OC_VOLTVAR_FRESH_S`, and how a float is printed. -/
structure Settings where
  maxStepKw : ℚ := 10
  freshS : ℚ := 600
  printed : ℚ → String := toString

variable (settings : Settings)

def resolve (target : Option String) (params : OcParams) : FleetProg (DerAsset × ℚ) := do
  match given target with
  | none => throw (.http 422 (.text "voltvar_dispatch requires target (der_id)"))
  | some derId =>
      match ← Sql.der derId with
      | none => throw (.http 404 (.text ("unknown der '" ++ derId ++ "'")))
      | some der =>
          Prog.raiseIf (der.controllable = false)
            (.http 409 (.text ("der '" ++ derId ++ "' is not controllable")))
          Prog.raiseIf (curtailMap.get? der.derType.text = none)
            (.http 422 (.text ("no Volt/VAR command mapping for der_type '" ++
              der.derType.text ++ "'")))
          match params.setpointKw with
          | none => throw (.http 422 (.text "params.setpoint_kw (kW) required"))
          | some setpoint => pure (der, setpoint)

/-- `_current_kw`: a stale reading is not trusted. -/
def currentKw (derId : String) : FleetProg ℚ := do
  match ← Sql.latestPower derId with
  | some (some power, age) => pure (if settings.freshS < age then 0 else power)
  | _ => pure 0

def riskFor (target : Option String) (params : OcParams) : FleetProg Risk := do
  let resolved ← tryCatch (do
      let (_, setpoint) ← resolve target params
      pure (some setpoint))
    fun exc => if exc.isHttp then pure none else throw exc
  match resolved with
  | none => pure .high
  | some setpoint => do
      let current ← currentKw settings (target.getD "")
      pure (if settings.maxStepKw < |setpoint - current| then .high else .low)

/-- The command and the parameter for a DER type. -/
def commandFor (derType : DerType) : String × String :=
  (curtailMap.get? derType.text).getD ("set_limit", "max_power_kw")

def bandBlocks (setpoint rated : ℚ) : List String :=
  (if setpoint < 0 then ["setpoint below 0 kW"] else []) ++
  (if rated ≠ 0 ∧ rated < setpoint then
    ["setpoint " ++ settings.printed setpoint ++ " kW exceeds rated " ++
      settings.printed rated ++ " kW"] else [])

/-- `round(x, 2)`, to the nearest multiple and to even at a tie. -/
def round2 (x : ℚ) : ℚ :=
  let n := ⌊x * 100⌋
  let rest := x * 100 - n
  (if rest < 1 / 2 ∨ (rest = 1 / 2 ∧ n % 2 = 0) then n else n + 1) / 100

def plan (target : Option String) (params : OcParams) : FleetProg (OcDoc × OcDoc) := do
  let (der, setpoint) ← resolve target params
  let current ← currentKw settings der.derId
  let rated := der.ratedKw.getD 0
  let blocks := bandBlocks settings setpoint rated
  Prog.raiseIf (blocks ≠ [] ∧ ¬ params.override = true)
    (.http 409 (.blocked "blocked_by_band" blocks
      "set params.override=true with a reason to proceed"))
  pure (.voltvarBefore der.derId der.derType der.nodeId current,
    .voltvarPreview der.derId setpoint current (round2 (setpoint - current)) rated
      (settings.maxStepKw < |setpoint - current|) (commandFor der.derType).1
      ((commandFor der.derType).2, setpoint))

/-- The soft echo of a setpoint, if it is verified at all. -/
def echoOf (derId : String) (setpoint : ℚ) : FleetProg (Option Echo) := do
  if ← DiepLab.Sql.echoEnabled.inl then do
    let echo ← (verifyEcho derId [.setpointKw setpoint]).inl
    Prog.raiseIf (echo.confirmed = some false)
      (.other ("device " ++ derId ++ " did not converge to setpoint " ++
        settings.printed setpoint ++ " kW (echo divergence)"))
    pure (some echo)
  else pure none

def execute (action : OcRow) : FleetProg OcDoc := do
  let (der, setpoint) ← resolve action.target action.params
  let commandId ← dispatch der.derId (commandFor der.derType).1 "oc-voltvar"
  let echo ← echoOf settings der.derId setpoint
  pure (.voltvarAfter der.derId (commandFor der.derType).1 setpoint commandId echo)

def rollback (action : OcRow) : FleetProg OcDoc := do
  match action.beforeState.bind OcDoc.voltvarBefore? with
  | none => throw (.http 409 (.text "no before_state to roll back to"))
  | some (derId, prev, derType) =>
      let commandId ← dispatch derId (commandFor derType).1 "oc-voltvar"
      pure (.voltvarRestored derId prev commandId)

def handler : ControlHandler OcParams OcDoc FleetResp where
  riskFor := riskFor settings
  plan := plan settings
  execute := execute settings
  rollback := rollback

end OcVoltVar

/-! ### The registry -/

/-- A handler that moves switches, over the fleet. -/
def switchingHandler (h : ControlHandler ActionParams ActionDoc GridResp) :
    ControlHandler OcParams OcDoc FleetResp where
  riskFor target params := (h.riskFor target params.toActionParams).inl
  plan target params := do
    let (before, preview) ← (h.plan target params.toActionParams).inl
    pure (.switching before, .switching preview)
  execute row := do
    let after ← (h.execute (switchingRow row)).inl
    pure (.switching after)
  rollback row := do
    let after ← (h.rollback (switchingRow row)).inl
    pure (.switching after)

/-- `NoopHandler`. -/
def noop : ControlHandler OcParams OcDoc FleetResp where
  riskFor _ _ := pure .low
  plan _ params := pure (.noop .before, .noop (.preview params))
  execute _ := pure (.noop .executed)
  rollback row := pure (row.beforeState.getD (.noop .empty))

/-- `_HANDLERS` of the running application. -/
def ocHandlers (settings : OcVoltVar.Settings) : Registry OcParams OcDoc FleetResp := fun name =>
  if name = "noop" then some noop
  else if name = "switch_op" then some (switchingHandler OcSwitch.handler)
  else if name = "flisr" then some (switchingHandler OcFlisr.handler)
  else if name = "voltvar_dispatch" then some (OcVoltVar.handler settings)
  else none

end DiepLab.Fleet
