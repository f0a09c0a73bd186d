import DiepLab.Grid.Database
import DiepLab.Library.Output

/-!
The database as the dispatching endpoints see it.

To the tables behind the switches come the other columns of `devices`, the DER
registry and the DERMS requests, the states that Redis has cached, and the topic
on which commands are published. A statement is one on the grid tables or one of
`FleetStmt`; only the publish of a command appends to the topic.
-/

namespace DiepLab.Fleet

open StatementProgram

/-! ### Rows -/

/-- The columns of `devices` that the command path does not read. -/
structure DeviceColumns where
  status : String := "UNKNOWN"
  siteName : Option String := none
  tenantId : String := "default"
  deriving DecidableEq, Repr

/-- A row of `devices`. -/
structure DeviceRow extends Device, DeviceColumns
  deriving DecidableEq, Repr

/-- `der_assets.der_type`. -/
inductive DerType where
  | battery | solar | ev_charger | microgrid
  deriving DecidableEq, Repr

def DerType.text : DerType → String
  | .battery => "battery"
  | .solar => "solar"
  | .ev_charger => "ev_charger"
  | .microgrid => "microgrid"

structure DerAsset where
  derId : String
  derType : DerType
  nodeId : Option String := none
  ratedKw : Option ℚ := none
  controllable : Bool := true
  tenantId : String := "default"
  deriving DecidableEq, Repr

inductive DermsStatus where
  | CREATED | EXECUTED | FAILED
  deriving DecidableEq, Repr

/-- A row of `derms_requests`. -/
structure DermsRequest where
  requestId : String
  requestType : String
  siteName : Option String
  deviceId : Option String
  status : DermsStatus := .CREATED
  errorMessage : Option String := none
  deriving DecidableEq, Repr

/-- The rows of `devices` are kept in order of creation. -/
structure FleetDb where
  grid : GridDb
  columns : String → DeviceColumns := fun _ => {}
  derAssets : List DerAsset := []
  dermsRequests : List DermsRequest := []
  /-- The states of devices in Redis, of which only `battery_soc` is read. -/
  cachedStates : Dict (Option ℚ) := []
  /-- The messages on `diep.commands`. -/
  topic : List Command := []

namespace FleetDb

variable (db : FleetDb)

def deviceRow (device : Device) : DeviceRow := { device, db.columns device.deviceId with }

/-- `SELECT ... FROM devices WHERE device_id = deviceId`. -/
def device? (deviceId : String) : Option DeviceRow :=
  (db.grid.devices.find? fun row => row.deviceId = deviceId).map db.deviceRow

/-- The tenant that a device belongs to. -/
def tenantOf (deviceId : String) : Option String :=
  (db.device? deviceId).map fun row => row.tenantId

/-- `SELECT ... FROM devices WHERE device_type = deviceType AND status = 'ONLINE'
[AND site_name = siteName] ORDER BY created_at DESC LIMIT 1`. -/
def newestOnline (deviceType : String) (siteName : Option String) : Option DeviceRow :=
  ((db.grid.devices.map db.deviceRow).filter fun row =>
    row.deviceType = deviceType && row.status = "ONLINE" &&
      match given siteName with
      | none => true
      | some site => row.siteName = some site).getLast?

/-- `SELECT ... FROM der_assets WHERE der_id = derId`. -/
def der? (derId : String) : Option DerAsset :=
  db.derAssets.find? fun row => row.derId = derId

end FleetDb

/-! ### Statements -/

inductive FleetStmt where
  /-- `_device_row`, also the query of the tenant alone. -/
  | device (deviceId : String)
  /-- `_select_device`. -/
  | newestOnline (deviceType : String) (siteName : Option String)
  /-- `HGETALL` of the cached state of a device. -/
  | cachedState (deviceId : String)
  /-- The queries of `_state_from_db`, whose answer has no `battery_soc`. -/
  | stateFromDb (deviceId : String)
  | der (derId : String)
  | insertDermsRequest (row : DermsRequest)
  | updateDermsRequest (requestId : String) (status : DermsStatus) (errorMessage : Option String)
  /-- The latest telemetry row of a device: `power_kw` and its age in seconds. -/
  | latestPower (deviceId : String)

@[reducible] def FleetOwnResp : FleetStmt → Type
  | .device _ => Option DeviceRow
  | .newestOnline .. => Option DeviceRow
  | .cachedState _ => Option (Option ℚ)
  | .stateFromDb _ => Unit
  | .der _ => Option DerAsset
  | .insertDermsRequest _ => Unit
  | .updateDermsRequest .. => Unit
  | .latestPower _ => Option (Option ℚ × ℚ)

abbrev FleetResp := Sum.elim GridResp FleetOwnResp

abbrev FleetProg := Prog FleetResp Exc

/-- What the surroundings decide while one statement runs. -/
structure FleetChoice extends GridChoice where
  power : Option (Option ℚ × ℚ) := none

namespace Sql

abbrev device (deviceId : String) : FleetProg (Option DeviceRow) :=
  Prog.call (Sum.inr (FleetStmt.device deviceId))

abbrev newestOnline (deviceType : String) (siteName : Option String) :
    FleetProg (Option DeviceRow) :=
  Prog.call (Sum.inr (FleetStmt.newestOnline deviceType siteName))

abbrev cachedState (deviceId : String) : FleetProg (Option (Option ℚ)) :=
  Prog.call (Sum.inr (FleetStmt.cachedState deviceId))

abbrev stateFromDb (deviceId : String) : FleetProg Unit :=
  Prog.call (Sum.inr (FleetStmt.stateFromDb deviceId))

abbrev der (derId : String) : FleetProg (Option DerAsset) :=
  Prog.call (Sum.inr (FleetStmt.der derId))

abbrev insertDermsRequest (row : DermsRequest) : FleetProg Unit :=
  Prog.call (Sum.inr (FleetStmt.insertDermsRequest row))

abbrev updateDermsRequest (requestId : String) (status : DermsStatus)
    (errorMessage : Option String) : FleetProg Unit :=
  Prog.call (Sum.inr (FleetStmt.updateDermsRequest requestId status errorMessage))

abbrev latestPower (deviceId : String) : FleetProg (Option (Option ℚ × ℚ)) :=
  Prog.call (Sum.inr (FleetStmt.latestPower deviceId))

end Sql

def DermsRequest.close (requestId : String) (status : DermsStatus) (errorMessage : Option String)
    (rows : List DermsRequest) : List DermsRequest :=
  rows.map fun row =>
    if row.requestId = requestId then
      { row with status := status, errorMessage := errorMessage <|> row.errorMessage }
    else row

/-- What a statement does when it succeeds. -/
def fleetExec (c : FleetChoice) : (q : FleetStmt) → FleetDb → FleetOwnResp q × FleetDb
  | .device d, db => (db.device? d, db)
  | .newestOnline t site, db => (db.newestOnline t site, db)
  | .cachedState d, db => (db.cachedStates.get? d, db)
  | .stateFromDb _, db => ((), db)
  | .der d, db => (db.der? d, db)
  | .insertDermsRequest row, db => ((), { db with dermsRequests := db.dermsRequests ++ [row] })
  | .updateDermsRequest i status m, db =>
      ((), { db with dermsRequests := DermsRequest.close i status m db.dermsRequests })
  | .latestPower _, db => (c.power, db)

/-- The message of a publish that succeeds. -/
def published (c : FleetChoice) : GridStmt ⊕ FleetStmt → List Command
  | .inl (.publish row) => if c.fails = none then [row] else []
  | _ => []

def fleetSem (c : FleetChoice) :
    (q : GridStmt ⊕ FleetStmt) → FleetDb → Except Exc (FleetResp q) × FleetDb
  | .inl q, db =>
      let out := gridSem c.toGridChoice q db.grid
      (out.1, { db with grid := out.2, topic := db.topic ++ published c (.inl q) })
  | .inr q, db =>
      match c.fails with
      | some m => (.error (.other m), db)
      | none => (.ok (fleetExec c q db).1, (fleetExec c q db).2)

/-- The topic as the output of the endpoints. -/
def fleetOutput : Output fleetSem Command where
  log := FleetDb.topic
  said c q _ := published c q
  log_sem := by
    rintro c (q | q) db
    · rfl
    · rw [fleetSem]
      cases c.fails with
      | some m => exact (List.append_nil _).symm
      | none => cases q <;> exact (List.append_nil _).symm

/-! ### Statements that read, and statements that say nothing -/

/-- The statements whose answer depends on the tables alone. -/
def Reads : GridStmt ⊕ FleetStmt → Prop
  | .inl .loadNodes | .inl .loadEdges | .inl (.servicePointsIn _) => True
  | .inl .substations | .inl .activeOutageNodes | .inl (.selectDevice _) => True
  | .inr (.device _) | .inr (.newestOnline ..) | .inr (.stateFromDb _) | .inr (.der _) => True
  | _ => False

/-- The statements that publish nothing. -/
def Silent (q : GridStmt ⊕ FleetStmt) : Prop := ∀ row, q ≠ .inl (.publish row)

theorem published_silent {q : GridStmt ⊕ FleetStmt} (hq : Silent q) (c : FleetChoice) :
    published c q = [] := by
  rcases q with q | q
  · cases q with
    | publish row => exact absurd rfl (hq row)
    | _ => rfl
  · rfl

theorem Reads.silent {q : GridStmt ⊕ FleetStmt} (hq : Reads q) : Silent q := by
  rintro row rfl
  exact hq

theorem fleetSem_calm {q : GridStmt ⊕ FleetStmt} (hq : Reads q) (db : FleetDb) :
    ∃ a, fleetSem {} q db = (.ok a, db) := by
  rcases q with q | q
  · cases q with
    | loadNodes | loadEdges | servicePointsIn | substations | activeOutageNodes | selectDevice =>
        refine ⟨_, Prod.ext rfl ?_⟩
        simp [fleetSem, gridSem, GridStmt.failure, gridExec, published]
    | _ => exact hq.elim
  · cases q with
    | device | newestOnline | stateFromDb | der => exact ⟨_, rfl⟩
    | _ => exact hq.elim

/-- Whether a reading statement fails is all that the surroundings decide. -/
theorem fleetSem_steady (c : FleetChoice) {q : GridStmt ⊕ FleetStmt} (hq : Reads q)
    (db : FleetDb) :
    (∃ e, fleetSem c q db = (.error e, db)) ∨ fleetSem c q db = fleetSem {} q db := by
  cases hf : c.fails with
  | none =>
      right
      rcases q with q | q
      · cases q with
        | loadNodes | loadEdges | servicePointsIn | substations | activeOutageNodes
        | selectDevice =>
            simp [fleetSem, gridSem, GridStmt.failure, gridExec, published, hf]
        | _ => exact hq.elim
      · cases q with
        | device | newestOnline | stateFromDb | der => simp [fleetSem, fleetExec, hf]
        | _ => exact hq.elim
  | some m =>
      left
      rcases q with q | q
      · cases q with
        | loadNodes | loadEdges | servicePointsIn | substations | activeOutageNodes
        | selectDevice =>
            refine ⟨.other m, ?_⟩
            simp [fleetSem, gridSem, GridStmt.failure, published, hf]
        | _ => exact hq.elim
      · refine ⟨.other m, ?_⟩
        simp [fleetSem, hf]

end DiepLab.Fleet
