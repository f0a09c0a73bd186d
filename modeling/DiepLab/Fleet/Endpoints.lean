import DiepLab.Controls.Plane
import DiepLab.Fleet.Database
import DiepLab.Handlers.Field

/-!
The endpoints outside the governance core that command a device: the commands,
the DER dispatch and curtailment, and the DERMS operations.

All end in `_dispatch_command`. Which tenant is asked for on the way is
different: the commands ask for the tenant of the device, the DER endpoints for
the tenant of the DER asset, and the DERMS operations for none. A body that
fails its validation and a caller without the role are refused before; the
parameters of a command are left out, as nothing here reads them.
-/

namespace DiepLab.Fleet

open StatementProgram Controls

/-! ### Commands -/

/-- `_dispatch_command`. -/
def dispatch (deviceId commandType issuedBy : String) : FleetProg String :=
  (dispatchCommand deviceId commandType issuedBy).inl

/-- `_assert_tenant_access`: an unknown device is let through. -/
def assertTenantAccess (principal : Principal) (deviceId : String) : FleetProg Unit :=
  match principal.tenant with
  | none => pure ()
  | some tenant => do
      let row ← Sql.device deviceId
      Prog.raiseIf (row.any fun r => r.tenantId ≠ tenant)
        (.http 403 (.text ("device '" ++ deviceId ++ "' belongs to another tenant")))

def createCommand (deviceId commandType issuedBy : String) (principal : Principal) :
    FleetProg String := do
  assertTenantAccess principal deviceId
  dispatch deviceId commandType issuedBy

/-! ### DER dispatch and curtailment -/

/-- `CURTAIL_MAP`: the command and its parameter by `der_type`. -/
def curtailMap : Dict (String × String) := [
  ("solar", "set_limit", "max_power_kw"),
  ("ev_charger", "set_limit", "max_power_kw"),
  ("battery", "set_power_limit", "power_kw"),
  ("microgrid", "set_setpoint", "setpoint_kw")]

/-- `_assert_tenant` of the DER router. -/
def assertTenant (principal : Principal) (derId : String) : FleetProg Unit :=
  match principal.tenant with
  | none => pure ()
  | some tenant => do
      let row ← Sql.der derId
      Prog.raiseIf (row.any fun r => r.tenantId ≠ tenant)
        (.http 403 (.text ("DER '" ++ derId ++ "' belongs to another tenant")))

def derDispatch (derId commandType : String) (principal : Principal) : FleetProg String := do
  match ← Sql.der derId with
  | none => throw (.http 404 (.text ("unknown DER '" ++ derId ++ "'")))
  | some der =>
      Prog.raiseIf (der.controllable = false)
        (.http 409 (.text ("DER '" ++ derId ++ "' is not controllable")))
      assertTenant principal derId
      dispatch derId commandType "derms"

def curtailment (derId : String) (principal : Principal) : FleetProg String := do
  match ← Sql.der derId with
  | none => throw (.http 404 (.text ("unknown DER '" ++ derId ++ "'")))
  | some der =>
      match curtailMap.get? der.derType.text with
      | none =>
          throw (.http 422 (.text ("cannot curtail der_type '" ++ der.derType.text ++ "'")))
      | some (commandType, _) =>
          assertTenant principal derId
          dispatch derId commandType "derms"

/-! ### DERMS operations -/

/-- `(_get_cached_state(...) or _state_from_db(...) or {}).get("battery_soc")`.
A cache that is not available counts as empty. -/
def batterySoc (deviceId : String) : FleetProg (Option ℚ) := do
  let cached ← tryCatch (Sql.cachedState deviceId) fun _ => pure none
  match cached with
  | some soc => pure soc
  | none => do
      Sql.stateFromDb deviceId
      pure none

/-- `_insert_derms_request`, then `_execute_derms_command`. -/
def executeDermsCommand (requestType : String) (device : DeviceRow) (commandType : String) :
    FleetProg String := do
  let requestId ← DiepLab.Sql.uuid4.inl
  Sql.insertDermsRequest {
    requestId := requestId, requestType := requestType, siteName := device.siteName
    deviceId := some device.deviceId }
  tryCatch
    (do
      let commandId ← dispatch device.deviceId commandType "derms"
      Sql.updateDermsRequest requestId .EXECUTED none
      pure commandId)
    fun exc =>
      if exc.isHttp then do
        Sql.updateDermsRequest requestId .FAILED (some exc.text)
        throw exc
      else throw exc

/-- The device of a battery dispatch: the one named, or the newest battery that
is online. -/
def dispatchedBattery (deviceId siteName : Option String) : FleetProg DeviceRow :=
  match given deviceId with
  | some d => do
      match ← Sql.device d with
      | none => throw (.http 404 (.text ("Unknown device_id '" ++ d ++ "'")))
      | some device =>
          Prog.raiseIf (device.deviceType ≠ "battery")
            (.http 422 (.text "device_id must be a battery asset"))
          pure device
  | none => do
      match ← Sql.newestOnline "battery" siteName with
      | none => throw (.http 404 (.text "No online battery found for the requested site"))
      | some device => pure device

def batteryDispatch (deviceId siteName : Option String) (targetSoc : ℚ) : FleetProg String := do
  let device ← dispatchedBattery deviceId siteName
  let soc ← batterySoc device.deviceId
  executeDermsCommand "battery_dispatch" device
    (if soc.getD 50 < targetSoc then "charge"
      else if targetSoc < soc.getD 50 then "discharge"
      else "idle")

/-- `state.get("battery_soc") or 50.0`: an empty battery counts as half full. -/
def socOr50 (soc : Option ℚ) : ℚ := (soc.filter fun x => x ≠ 0).getD 50

/-- The discharge of a battery that is not too low. -/
def dischargeAbove25 (requestType detail : String) (battery : DeviceRow)
    (current : Option ℚ → ℚ) : FleetProg String := do
  let soc ← batterySoc battery.deviceId
  Prog.raiseIf (current soc < 25) (.http 409 (.text detail))
  executeDermsCommand requestType battery "discharge"

def peakShaving (siteName : Option String) : FleetProg String := do
  match ← Sql.newestOnline "battery" siteName with
  | none => throw (.http 404 (.text "No online battery available to support peak shaving"))
  | some battery =>
      dischargeAbove25 "peak_shaving" "Battery state of charge too low for safe peak shaving"
        battery fun soc => soc.getD 50

def demandResponse (siteName : Option String) : FleetProg String := do
  match ← Sql.newestOnline "battery" siteName with
  | some battery =>
      dischargeAbove25 "demand_response" "Battery SOC too low for demand response discharge"
        battery socOr50
  | none =>
      match ← Sql.newestOnline "ev_charger" siteName with
      | some charger => executeDermsCommand "demand_response" charger "stop_charging"
      | none =>
          throw (.http 404 (.text "No DERMS-capable asset available for demand response"))

def optimizationCommand (objective : String) (current : ℚ) : String :=
  if objective.toLower = "maximize_solar" then "charge"
  else if objective.toLower = "min_cost" then if current < 50 then "charge" else "discharge"
  else if current < 60 then "charge" else "discharge"

def loadOptimization (siteName : Option String) (objective : String) : FleetProg String := do
  match ← Sql.newestOnline "battery" siteName with
  | none => throw (.http 404 (.text "No battery asset available for load optimization"))
  | some battery =>
      let soc ← batterySoc battery.deviceId
      executeDermsCommand "load_optimization" battery (optimizationCommand objective (socOr50 soc))

end DiepLab.Fleet
