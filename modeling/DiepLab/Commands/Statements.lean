import DiepLab.Handlers.Field
import DiepLab.Library.Protocol
import DiepLab.Telemetry.Payload

/-!
The life of a command, one operation at a time.

`_dispatch_command` inserts a command as PENDING, publishes it, and marks it as
SENT; `ack_command` writes what the device reports. Both commit to the table
first and then write the status to a hash in Redis, which `get_command` reads.
Here they are programs over the statements on the table, the publish, and the
commands to Redis, so that they can be interleaved between any two of these.

A publish whose acknowledgement does not arrive raises, although the message may
have been delivered. `owed` is read by no statement: it holds the statuses that
requests have put into the table and have yet to write to Redis.

The hash of a device in Redis, its twin, is written by `_persist_state`, for
commands as well as for readings, so the telemetry table is part of the store.
-/

namespace DiepLab.Commands

open StatementProgram

/-! ### Rows -/

def statusText : CommandStatus → String
  | .PENDING => "PENDING"
  | .SENT => "SENT"
  | .ACKED => "ACKED"
  | .FAILED => "FAILED"
  | .COMPLETED => "COMPLETED"

/-- What a device may report. -/
inductive AckStatus where
  | ACKED | FAILED
  deriving DecidableEq, Repr

def AckStatus.status : AckStatus → CommandStatus
  | .ACKED => .ACKED
  | .FAILED => .FAILED

def ackStatus? (text : String) : Option AckStatus :=
  if upper text = "ACKED" then some .ACKED
  else if upper text = "FAILED" then some .FAILED
  else none

structure CommandRow extends Command where
  createdAt : String := ""
  dispatchedAt : Option String := none
  ackedAt : Option String := none
  deriving DecidableEq, Repr

/-- The three `UPDATE commands` of the application. -/
inductive CommandUpdate where
  /-- The publish has failed. -/
  | failed (message : String)
  | sent (now : String)
  | acked (status : AckStatus) (error : Option String) (now : String)
  deriving DecidableEq, Repr

def CommandUpdate.apply (row : CommandRow) : CommandUpdate → CommandRow
  | .failed message => { row with status := .FAILED, errorMessage := some message }
  | .sent now =>
      { row with
        dispatchedAt := some (row.dispatchedAt.getD now)
        -- an already terminal status is never downgraded
        status := row.status.sent }
  | .acked status error now =>
      { row with status := status.status, errorMessage := error, ackedAt := some now }

@[simp] theorem CommandUpdate.apply_commandId (row : CommandRow) (u : CommandUpdate) :
    (u.apply row).commandId = row.commandId := by
  cases u <;> rfl

/-- `commands`, with its unique key. -/
structure CommandTable where
  rows : List CommandRow := []
  key : (rows.map fun row => row.commandId).Nodup := by decide

namespace CommandTable

def row? (table : CommandTable) (commandId : String) : Option CommandRow :=
  table.rows.find? fun row => row.commandId = commandId

def insert (table : CommandTable) (row : CommandRow) : Option CommandTable :=
  if h : row.commandId ∈ table.rows.map fun row => row.commandId then none
  else some {
    rows := table.rows ++ [row]
    key := by simpa [List.nodup_append, table.key] using h }

def update (table : CommandTable) (commandId : String) (u : CommandUpdate) : CommandTable where
  rows := table.rows.map fun row => if row.commandId = commandId then u.apply row else row
  key := by
    rw [List.map_map]
    refine (congrArg List.Nodup (List.map_congr_left fun row _ => ?_)).mpr table.key
    simp only [Function.comp]
    split <;> simp

end CommandTable

/-! ### Statements -/

/-- What `_mirror_status` writes. -/
structure StatusFields where
  status : CommandStatus
  updatedAt : String
  deviceId : Option String := none
  commandType : Option String := none
  error : Option String := none
  deriving DecidableEq, Repr

def StatusFields.mapping (fields : StatusFields) : List (String × String) :=
  [("status", statusText fields.status), ("updated_at", fields.updatedAt)] ++
    (fields.deviceId.map fun v => ("device_id", v)).toList ++
    (fields.commandType.map fun v => ("command_type", v)).toList ++
    (fields.error.map fun v => ("error", v)).toList

/-- The columns of `devices` that commands and readings look at. -/
structure RegistryRow extends Device where
  status : Option String := none
  siteName : Option String := none
  location : Option String := none
  deriving DecidableEq, Repr

structure CommandStore where
  devices : List RegistryRow := []
  table : CommandTable := {}
  telemetry : List TelemetryRow := []
  /-- The messages that `diep.commands` has been given. -/
  topic : List Command := []
  /-- The hashes `command:commandId` in Redis. -/
  mirror : String → Dict String := fun _ => []
  /-- The hashes `state:deviceId`. -/
  state : String → Dict String := fun _ => []
  owed : List (String × CommandStatus) := []

inductive CommandStmt where
  /-- `datetime.now`. -/
  | now
  | uuid4
  | selectDevice (deviceId : String)
  | insertTelemetry (row : TelemetryRow)
  | insertCommand (row : CommandRow)
  | publish (message : Command)
  /-- The update after a failed publish. -/
  | failCommand (commandId message : String)
  | markSent (commandId : String)
  | ackUpdate (commandId : String) (status : AckStatus) (error : Option String)
  | selectCommand (commandId : String)
  /-- `HSET command:commandId`. -/
  | hsetStatus (commandId : String) (fields : StatusFields)
  | hsetState (deviceId : String) (mapping : List (String × String))
  /-- `EXPIRE`, a day from now. -/
  | expire
  /-- `HGETALL command:commandId`. -/
  | hgetall (commandId : String)

@[reducible] def CommandResp : CommandStmt → Type
  | .now => Stamp
  | .uuid4 => String
  | .selectDevice _ => Option RegistryRow
  | .insertTelemetry _ => Unit
  | .insertCommand _ => Unit
  | .publish _ => Unit
  | .failCommand .. => Unit
  | .markSent _ => Option CommandStatus
  | .ackUpdate .. => Option CommandRow
  | .selectCommand _ => Option CommandRow
  | .hsetStatus .. => Unit
  | .hsetState .. => Unit
  | .expire => Unit
  | .hgetall _ => Dict String

/-- What the surroundings decide while one statement runs. -/
structure CommandChoice where
  fails : Option String := none
  uuid : String := ""
  now : Stamp := {}
  /-- Whether a publish that raises has been delivered all the same. -/
  delivered : Bool := false

namespace CommandStore

def update (s : CommandStore) (commandId : String) (u : CommandUpdate) : CommandStore :=
  { s with table := s.table.update commandId u }

def owe (s : CommandStore) (commandId : String) (status : CommandStatus) : CommandStore :=
  { s with owed := (commandId, status) :: s.owed }

/-- A request has had its turn at Redis. -/
def settle (s : CommandStore) (commandId : String) (status : CommandStatus) : CommandStore :=
  { s with owed := s.owed.erase (commandId, status) }

def hset (s : CommandStore) (commandId : String) (fields : StatusFields) : CommandStore :=
  { s with
    mirror := Function.update s.mirror commandId
      ((s.mirror commandId).update fields.mapping) }

def hsetState (s : CommandStore) (deviceId : String) (mapping : List (String × String)) :
    CommandStore :=
  { s with
    state := Function.update s.state deviceId ((s.state deviceId).update mapping) }

end CommandStore

/-- A statement that does not fail. -/
def commandExec (c : CommandChoice) :
    (q : CommandStmt) → CommandStore → Except Exc (CommandResp q) × CommandStore
  | .now, s => (.ok c.now, s)
  | .uuid4, s => (.ok c.uuid, s)
  | .selectDevice deviceId, s => (.ok (s.devices.find? fun row => row.deviceId = deviceId), s)
  | .insertTelemetry row, s => (.ok (), { s with telemetry := s.telemetry ++ [row] })
  | .insertCommand row, s =>
      match s.table.insert row with
      | none => (.error (.other "duplicate key"), s)
      | some table => (.ok (), { s with table := table }.owe row.commandId row.status)
  | .publish message, s => (.ok (), { s with topic := s.topic ++ [message] })
  | .failCommand commandId message, s =>
      (.ok (), (s.update commandId (.failed message)).owe commandId .FAILED)
  | .markSent commandId, s =>
      match s.table.row? commandId with
      | none => (.ok none, s)
      | some row =>
          (.ok (some row.status.sent),
            (s.update commandId (.sent c.now.iso)).owe commandId row.status.sent)
  | .ackUpdate commandId status error, s =>
      match s.table.row? commandId with
      | none => (.ok none, s)
      | some row =>
          (.ok (some ((CommandUpdate.acked status error c.now.iso).apply row)),
            (s.update commandId (.acked status error c.now.iso)).owe commandId status.status)
  | .selectCommand commandId, s => (.ok (s.table.row? commandId), s)
  | .hsetStatus commandId fields, s =>
      (.ok (), (s.hset commandId fields).settle commandId fields.status)
  | .hsetState deviceId mapping, s => (.ok (), s.hsetState deviceId mapping)
  | .expire, s => (.ok (), s)
  | .hgetall commandId, s => (.ok (s.mirror commandId), s)

/-- A statement that fails changes nothing, except that a publish may have been
delivered. The clock and the identifier are no statements and cannot fail. -/
def commandSem (c : CommandChoice) (q : CommandStmt) (s : CommandStore) :
    Except Exc (CommandResp q) × CommandStore :=
  match q, c.fails with
  | .now, _ => commandExec c .now s
  | .uuid4, _ => commandExec c .uuid4 s
  | q, none => commandExec c q s
  | .publish message, some m =>
      (.error (.kafka m), if c.delivered then { s with topic := s.topic ++ [message] } else s)
  | .hsetStatus commandId fields, some m => (.error (.other m), s.settle commandId fields.status)
  | _, some m => (.error (.other m), s)

/-- A statement that fails leaves the table and the hashes as they are. -/
theorem commandSem_failed {c : CommandChoice} {m : String} (h : c.fails = some m)
    (q : CommandStmt) (s : CommandStore) :
    (commandSem c q s).2.table = s.table ∧ (commandSem c q s).2.mirror = s.mirror ∧
      (commandSem c q s).2.state = s.state := by
  cases q with
  | now => exact ⟨rfl, rfl, rfl⟩
  | uuid4 => exact ⟨rfl, rfl, rfl⟩
  | publish message =>
      simp only [commandSem, h]
      split <;> exact ⟨rfl, rfl, rfl⟩
  | hsetStatus commandId fields =>
      simp only [commandSem, h]
      exact ⟨rfl, rfl, rfl⟩
  | _ => simp only [commandSem, h, and_self]

abbrev CommandProg := Prog CommandResp Exc

namespace Sql

abbrev now : CommandProg Stamp := Prog.call CommandStmt.now

abbrev uuid4 : CommandProg String := Prog.call CommandStmt.uuid4

abbrev selectDevice (deviceId : String) : CommandProg (Option RegistryRow) :=
  Prog.call (CommandStmt.selectDevice deviceId)

abbrev insertTelemetry (row : TelemetryRow) : CommandProg Unit :=
  Prog.call (CommandStmt.insertTelemetry row)

abbrev insertCommand (row : CommandRow) : CommandProg Unit :=
  Prog.call (CommandStmt.insertCommand row)

abbrev publish (message : Command) : CommandProg Unit := Prog.call (CommandStmt.publish message)

abbrev failCommand (commandId message : String) : CommandProg Unit :=
  Prog.call (CommandStmt.failCommand commandId message)

abbrev markSent (commandId : String) : CommandProg (Option CommandStatus) :=
  Prog.call (CommandStmt.markSent commandId)

abbrev ackUpdate (commandId : String) (status : AckStatus) (error : Option String) :
    CommandProg (Option CommandRow) :=
  Prog.call (CommandStmt.ackUpdate commandId status error)

abbrev selectCommand (commandId : String) : CommandProg (Option CommandRow) :=
  Prog.call (CommandStmt.selectCommand commandId)

abbrev hsetStatus (commandId : String) (fields : StatusFields) : CommandProg Unit :=
  Prog.call (CommandStmt.hsetStatus commandId fields)

abbrev hsetState (deviceId : String) (mapping : List (String × String)) : CommandProg Unit :=
  Prog.call (CommandStmt.hsetState deviceId mapping)

abbrev expire : CommandProg Unit := Prog.call CommandStmt.expire

abbrev hgetall (commandId : String) : CommandProg (Dict String) :=
  Prog.call (CommandStmt.hgetall commandId)

end Sql

/-! ### The functions -/

/-- `_mirror_status`. Redis is a mirror, so its errors are swallowed. -/
def mirrorStatus (commandId : String) (status : CommandStatus) (deviceId commandType : String)
    (error : Option String) : CommandProg Unit := do
  let now ← Sql.now
  tryCatch
    (do
      Sql.hsetStatus commandId {
        status := status, updatedAt := now.iso, deviceId := some deviceId
        commandType := some commandType, error := error }
      Sql.expire)
    fun _ => pure ()

/-- `_persist_state`: what is `None` is left out. -/
def persistState (deviceId : String) (fields : List (String × Option String)) :
    CommandProg Unit := do
  let payload := fields.filterMap fun (name, value) => value.map fun v => (name, v)
  let now ← Sql.now
  tryCatch
    (do
      Sql.hsetState deviceId (payload ++ [("updated_at", now.iso)])
      Sql.expire)
    fun _ => pure ()

/-- What `_dispatch_command` returns. -/
structure Dispatched where
  commandId : String
  deviceId : String
  deviceType : String
  commandType : String
  status : CommandStatus
  topic : String := "diep.commands"
  deriving DecidableEq, Repr

/-- `_dispatch_command`, with its mirrors. -/
def dispatchCommandSteps (deviceId commandType issuedBy : String) : CommandProg Dispatched := do
  match ← Sql.selectDevice deviceId with
  | none => throw (.http 404 (.text ("Unknown device_id '" ++ deviceId ++ "'")))
  | some device => do
      Prog.raiseIf (Rejected device.deviceType commandType)
        (.http 422 (.text ("command_type '" ++ commandType ++ "' not valid for device_type '" ++
          device.deviceType ++ "'. Allowed: " ++
          pyList ((allowedCommands.get? device.deviceType).getD []))))
      let commandId ← Sql.uuid4
      let issuedAt ← Sql.now
      let command : Command := {
        commandId := commandId, deviceId := deviceId, deviceType := device.deviceType
        commandType := commandType, issuedBy := issuedBy }
      Sql.insertCommand { command with createdAt := issuedAt.iso }
      mirrorStatus commandId .PENDING deviceId commandType none
      tryCatch (Sql.publish command) fun exc =>
        match exc with
        | .kafka m => do
            Sql.failCommand commandId ("kafka publish failed: " ++ m)
            mirrorStatus commandId .FAILED deviceId commandType (some m)
            throw (.http 502 (.text ("Failed to publish command to Kafka: " ++ m)))
        | exc => throw exc
      -- a fast device can have answered by now
      match ← Sql.markSent commandId with
      | none => throw (.other "'NoneType' object is not subscriptable")
      | some final => do
          mirrorStatus commandId final deviceId commandType none
          persistState deviceId [
            ("device_type", some device.deviceType), ("last_command_id", some commandId),
            ("last_command_type", some commandType),
            ("last_command_status", some (statusText final)),
            ("last_command_issued_at", some issuedAt.iso)]
          pure {
            commandId := commandId, deviceId := deviceId, deviceType := device.deviceType
            commandType := commandType, status := final }

/-- `ack_command`. -/
def ackCommand (commandId status : String) (error : Option String) :
    CommandProg (String × AckStatus) :=
  match ackStatus? status with
  | none => throw (.http 422 (.text "status must be ACKED or FAILED"))
  | some status => do
      match ← Sql.ackUpdate commandId status error with
      | none => throw (.http 404 (.text ("Unknown command_id '" ++ commandId ++ "'")))
      | some row => do
          mirrorStatus commandId status.status row.deviceId row.commandType error
          let now ← Sql.now
          persistState row.deviceId [
            ("last_command_id", some commandId), ("last_command_type", some row.commandType),
            ("last_command_status", some (statusText status.status)),
            ("last_command_error", error), ("last_command_acked_at", some now.iso)]
          pure (commandId, status)

/-- `get_command`: the row, and `live_status`. -/
def getCommand (commandId : String) : CommandProg (CommandRow × Option String) := do
  let cached ← tryCatch (Sql.hgetall commandId) fun _ => pure []
  match ← Sql.selectCommand commandId with
  | none => throw (.http 404 (.text ("Unknown command_id '" ++ commandId ++ "'")))
  | some row =>
      pure (row, if cached = [] then some (statusText row.status) else cached.get? "status")

/-- The calls that move a command. -/
inductive CommandCall where
  | dispatch (deviceId commandType issuedBy : String)
  | ack (commandId status : String) (error : Option String)

def CommandCall.serve : CommandCall → CommandProg Unit
  | .dispatch deviceId commandType issuedBy => do
      let _ ← dispatchCommandSteps deviceId commandType issuedBy
  | .ack commandId status error => do
      let _ ← ackCommand commandId status error

/-- Nothing but calls touches the store. -/
def noEnv : Empty → CommandStore → CommandStore := nofun

abbrev Schedule := List (Event CommandChoice CommandCall Empty)

/-- A schedule of calls that have yet to arrive. -/
abbrev commandRun (s : CommandStore) (schedule : Schedule) :
    Config CommandResp Exc Unit CommandStore :=
  Config.run commandSem CommandCall.serve noEnv ⟨s, []⟩ schedule

/-- Every statement of the schedule meets the condition. -/
abbrev AllStatements (P : CommandChoice → CommandStmt → CommandStore → Prop) (s : CommandStore)
    (schedule : Schedule) : Prop :=
  (⟨s, []⟩ : Config CommandResp Exc Unit CommandStore).AllSteps commandSem CommandCall.serve noEnv
    P schedule

end DiepLab.Commands
