import DiepLab.Grid.Database
import Mathlib.Algebra.Order.Ring.Rat
import Mathlib.Data.Fintype.Option

/-!
The way to a field device: `_dispatch_command` of the application, the wait
for the acknowledgement in `oc_switch`, and the echo verification of
`device_state`.

The two polling loops run until a deadline. How many turns that is, is what
the surroundings answer to the statement `deadline`.
-/

namespace DiepLab

open StatementProgram

/-- `repr` of a list of texts. -/
def pyList (items : List String) : String :=
  "[" ++ ", ".intercalate (items.map fun s => "'" ++ s ++ "'") ++ "]"

/-! ### Dispatch -/

/-- `ALLOWED_COMMANDS`, each set in sorted order. -/
def allowedCommands : Dict (List String) := [
  ("ev_charger", ["set_limit", "start_charging", "stop_charging"]),
  ("battery", ["charge", "discharge", "idle", "set_power_limit", "set_soc_target", "standby"]),
  ("solar_inverter", ["curtail", "resume", "set_limit"]),
  ("microgrid", ["grid_connect", "island", "set_setpoint"]),
  ("smartmeter", ["read_only", "remote_connect", "remote_disconnect"])]

/-- The type of the device is known, and the command is not among its own. -/
def Rejected (deviceType commandType : String) : Prop :=
  ∃ allowed, allowedCommands.get? deviceType = some allowed ∧ commandType ∉ allowed

instance (deviceType commandType : String) : Decidable (Rejected deviceType commandType) :=
  match h : allowedCommands.get? deviceType with
  | none => isFalse fun ⟨_, ha, _⟩ => nomatch h.symm.trans ha
  | some allowed =>
      decidable_of_iff (commandType ∉ allowed)
        ⟨fun hc => ⟨allowed, h, hc⟩, fun ⟨_, ha, hc⟩ => Option.some.inj (h.symm.trans ha) ▸ hc⟩

/-- `_dispatch_command`: validate, persist as PENDING, publish, mark as sent.
Returns the `command_id`. -/
def dispatchCommand (deviceId commandType issuedBy : String) : GridProg String := do
  match ← Sql.selectDevice deviceId with
  | none => throw (.http 404 (.text ("Unknown device_id '" ++ deviceId ++ "'")))
  | some device =>
      Prog.raiseIf (Rejected device.deviceType commandType)
        (.http 422 (.text ("command_type '" ++ commandType ++ "' not valid for device_type '" ++
          device.deviceType ++ "'. Allowed: " ++
          pyList ((allowedCommands.get? device.deviceType).getD []))))
      let commandId ← Sql.uuid4
      let command : Command := {
        commandId := commandId, deviceId := deviceId, deviceType := device.deviceType
        commandType := commandType, issuedBy := issuedBy }
      Sql.insertCommand command
      tryCatch (Sql.publish command) fun exc =>
        match exc with
        | .kafka m => do
            Sql.failCommand commandId ("kafka publish failed: " ++ m)
            throw (.http 502 (.text ("Failed to publish command to Kafka: " ++ m)))
        | exc => throw exc
      match ← Sql.markSent commandId with
      | none => throw (.other "'NoneType' object is not subscriptable")
      | some _ => pure commandId

/-! ### Acknowledgement -/

/-- What `_dispatch_and_wait` returns. -/
structure DeviceAck where
  deviceId : String
  commandType : String
  commandId : String
  acked : Bool
  status : Option CommandStatus := none
  timedOut : Option Bool := none
  note : Option String := none
  reason : Option String := none
  deriving DecidableEq, Repr

/-- `_poll_ack` with `n` turns left. -/
def pollAck (ack : DeviceAck) : ℕ → GridProg DeviceAck
  | 0 => pure { ack with
      status := some .PENDING, timedOut := some true
      note := some "no device ack within 8.0s (model state is authoritative)" }
  | n + 1 => do
      match ← Sql.commandStatus ack.commandId with
      | some .ACKED =>
          pure { ack with acked := true, status := some .ACKED, timedOut := some false }
      | some .FAILED => pure { ack with status := some .FAILED, timedOut := some false }
      | _ => pollAck ack n

def dispatchAndWait (deviceId commandType : String) : GridProg DeviceAck := do
  let commandId ← dispatchCommand deviceId commandType "oc-switch"
  let ack : DeviceAck := {
    deviceId := deviceId, commandType := commandType, commandId := commandId, acked := false }
  if commandId = "" then pure { ack with reason := some "no command_id" }
  else do
    let turns ← Sql.deadline
    pollAck ack turns

/-! ### Echo -/

/-- One entry of `expect`. -/
inductive Expectation where
  | gridConnected (want : Bool)
  | setpointKw (want : ℚ)
  deriving DecidableEq, Repr

/-- `_field_match`: `none` when the device does not report the field. -/
def fieldMatch (state : DeviceState) : Expectation → Option Bool
  | .gridConnected want => state.gridConnected.map fun have_ => have_ = want
  | .setpointKw want => state.setpointKw.map fun have_ => decide (|have_ - want| ≤ 1)

/-- What `verify_echo` returns. -/
structure Echo where
  confirmed : Option Bool
  timedOut : Bool
  reason : Option String
  observed : Option DeviceState
  expected : List Expectation
  deriving DecidableEq, Repr

/-- The loop of `verify_echo` with `n` turns left. -/
def pollEcho (deviceId : String) (expect : List Expectation) (baseline : ℚ) :
    ℕ → Bool → Option DeviceState → GridProg Echo
  | 0, anyReported, last => pure {
      confirmed := if anyReported then some false else none
      timedOut := true
      reason := some (if anyReported then "device reported but never reached the commanded state"
        else "device does not report the expected field(s)")
      observed := last
      expected := expect }
  | n + 1, anyReported, last => do
      match ← Sql.telemetry deviceId with
      | none => pollEcho deviceId expect baseline n anyReported last
      | some state =>
          -- only a sample taken after the start counts
          if baseline < state.ts then do
            let results := expect.map (fieldMatch state)
            if ∀ r ∈ results, r = some true then
              pure ⟨some true, false, none, some state, expect⟩
            else
              pollEcho deviceId expect baseline n
                (anyReported || results.any Option.isSome) (some state)
          else pollEcho deviceId expect baseline n anyReported last

def verifyEcho (deviceId : String) (expect : List Expectation) : GridProg Echo := do
  let turns ← Sql.deadline
  let start ← Sql.telemetry deviceId
  pollEcho deviceId expect ((start.map DeviceState.ts).getD 0) turns false start

end DiepLab
