import DiepLab.Commands.Reports
import DiepLab.Dispatcher.Loop
import DiepLab.Microgrid.Driver

/-!
The way of a command.

A request puts a command into the table and onto Kafka. The dispatcher takes it from there to the
topic of its device, the driver that listens to the topic executes it and publishes what came of
it, and the dispatcher posts that to the API, which writes it to the table. The parts share
nothing but messages, and between any two statements of one the others may do anything. Neither
Kafka nor the MQTT broker is relied on to deliver a message at all, only once, or in order; they
do not make messages up. Nobody but the dispatcher tells the API what has come of a command.

Whatever is executed has been vetted by the API, for this device (`executed_vetted`), and a
command that stands at ACKED has been executed with that result (`acked_executed`).
-/

namespace DiepLab.Commands

open StatementProgram
open Dispatcher (DispatchStmt DispatchResp DispatchEvent PublishOutcome dispatchSem field)
open Microgrid (CommandResult commandFailed)

/-! ### Statements -/

/-- A driver, as far as its topics go. -/
structure Driver where
  domain : String
  deviceId : String

/-- `cmd_topic`. -/
def Driver.cmdTopic (driver : Driver) : String :=
  "diep/" ++ driver.domain ++ "/" ++ driver.deviceId ++ "/cmd"

/-- What `execute_command` may raise. -/
inductive ExecuteExc where
  | notImplemented
  | other (text : String)

/-- What a driver was told to execute, and what came of it. -/
structure Execution where
  driver : Driver
  commandId : Json
  commandType : Json
  params : Json
  result : Except ExecuteExc CommandResult

inductive WireStmt where
  /-- The next message of `diep.commands`, with its offset. -/
  | poll
  /-- A message on the topic of the driver. -/
  | receive (driver : Driver)
  /-- `execute_command`. The driver is not told the id. -/
  | execute (driver : Driver) (commandId commandType params : Json)
  | publishAck (ack : Json)
  /-- A message on `diep/+/+/ack`. -/
  | receiveAck

@[reducible] def WireResp : WireStmt → Type
  | .poll => Option (ℕ × Command)
  | .receive _ => Option Json
  | .execute .. => Except ExecuteExc CommandResult
  | .publishAck _ => Unit
  | .receiveAck => Option Json

/-- The table and Kafka, what the dispatcher has sent, what the drivers have done and what they have
published. -/
structure PipelineStore where
  api : CommandStore := {}
  log : List DispatchEvent := []
  executed : List Execution := []
  acks : List Json := []

structure PipelineChoice where
  api : CommandChoice := {}
  /-- Which message is delivered, if it is there. -/
  pick : ℕ := 0
  outcome : PublishOutcome := .accepted
  result : Except ExecuteExc CommandResult := .ok Microgrid.acked

/-- The message that the broker delivers to a driver. -/
def delivered (driver : Driver) : Option DispatchEvent → Option Json
  | some (.left _ topic payload) => if topic = driver.cmdTopic then some payload else none
  | _ => none

def wireSem (c : PipelineChoice) :
    (q : WireStmt) → PipelineStore → Except Exc (WireResp q) × PipelineStore
  | .poll, s => (.ok (s.api.topic[c.pick]?.map fun m => (c.pick, m)), s)
  | .receive driver, s => (.ok (delivered driver s.log[c.pick]?), s)
  | .execute driver commandId commandType params, s =>
      (.ok c.result, {
        s with executed := s.executed ++ [⟨driver, commandId, commandType, params, c.result⟩] })
  | .publishAck ack, s =>
      match c.api.fails with
      | some m => (.error (.other m), s)
      | none => (.ok (), { s with acks := s.acks ++ [ack] })
  | .receiveAck, s => (.ok s.acks[c.pick]?, s)

abbrev PipelineStmt := (WireStmt ⊕ DispatchStmt) ⊕ CommandStmt

abbrev PipelineResp : PipelineStmt → Type := Sum.elim (Sum.elim WireResp DispatchResp) CommandResp

def pipelineSem (c : PipelineChoice) :
    (q : PipelineStmt) → PipelineStore → Except Exc (PipelineResp q) × PipelineStore
  | .inl (.inl q), s => wireSem c q s
  | .inl (.inr q), s =>
      ((dispatchSem (fun _ => c.outcome) q s.log).1,
        { s with log := (dispatchSem (fun _ => c.outcome) q s.log).2 })
  | .inr q, s => ((commandSem c.api q s.api).1, { s with api := (commandSem c.api q s.api).2 })

abbrev PipelineProg (α : Type) := Prog PipelineResp Exc α

/-- One statement of the parts other than the API. -/
abbrev wire (q : WireStmt) : PipelineProg (WireResp q) :=
  Prog.call (Sum.inl (Sum.inl q) : PipelineStmt)

namespace Wire

abbrev poll : PipelineProg (Option (ℕ × Command)) := wire .poll

abbrev receive (driver : Driver) : PipelineProg (Option Json) := wire (.receive driver)

abbrev execute (driver : Driver) (commandId commandType params : Json) :
    PipelineProg (Except ExecuteExc CommandResult) :=
  wire (.execute driver commandId commandType params)

abbrev publishAck (ack : Json) : PipelineProg Unit := wire (.publishAck ack)

abbrev receiveAck : PipelineProg (Option Json) := wire .receiveAck

end Wire

/-! ### The parts -/

section Parts

-- how Python formats a value into a text, and what the table does not have of a command
variable (format : Json → String) (params issuedAt : String → Json)

/-- What `_dispatch_command` gives to Kafka. -/
def messageOf (m : Command) : Json := .obj [
  ("command_id", .str m.commandId), ("device_id", .str m.deviceId),
  ("device_type", .str m.deviceType), ("command_type", .str m.commandType),
  ("params", params m.commandId), ("issued_by", .str m.issuedBy),
  ("issued_at", issuedAt m.commandId)]

/-- A turn of the loop of the dispatcher. -/
def consume : PipelineProg Unit := do
  match ← Wire.poll with
  | none => pure ()
  | some (offset, m) => (Dispatcher.handle format offset (messageOf params issuedAt m)).inr.inl

/-- `params or {}`. -/
def orEmpty (params : Json) : Json := if params.truthy then params else .obj []

/-- The result that is acknowledged. -/
def resultOf : Except ExecuteExc CommandResult → CommandResult
  | .ok result => result
  | .error .notImplemented => commandFailed "driver not yet implemented"
  | .error (.other text) => commandFailed text

def ackOf (driver : Driver) (commandId : Json) (result : CommandResult) : Json := .obj [
  ("command_id", commandId), ("device_id", .str driver.deviceId), ("status", .str result.status),
  ("error", Json.ofOption .str result.error)]

/-- `Runner._on_command`. -/
def onCommand (driver : Driver) : PipelineProg Unit := do
  match ← Wire.receive driver with
  | none => pure ()
  | some (.obj cmd) => do
      let commandId := field cmd "command_id"
      let result ← Wire.execute driver commandId (field cmd "command_type")
        (orEmpty (field cmd "params"))
      Wire.publishAck (ackOf driver commandId (resultOf result))
  | some _ => throw (.other "object has no attribute 'get'")

/-- `AckRequest.error`. -/
def ackError? : Json → Option (Option String)
  | .null => some none
  | .str error => some (some error)
  | _ => none

/-- `_post_ack_to_fastapi`, and what the API makes of it. -/
def postAckToFastapi (commandId status error : Json) : PipelineProg Unit :=
  match status, ackError? error with
  | .str status, some error => do
      let _ ← (ackCommand (format commandId) status error).inr
  | _, _ => pure ()

/-- `_on_mqtt_message`. -/
def onMqttMessage : PipelineProg Unit := do
  match ← Wire.receiveAck with
  | none => pure ()
  | some (.obj ack) =>
      postAckToFastapi format (field ack "command_id") (field ack "status") (field ack "error")
  | some _ => throw (.other "object has no attribute 'get'")

inductive PipelineCall where
  | dispatch (deviceId commandType issuedBy : String)
  | consume
  | onCommand (driver : Driver)
  | onMqttMessage

def PipelineCall.serve : PipelineCall → PipelineProg Unit
  | .dispatch deviceId commandType issuedBy => do
      let _ ← (dispatchCommandSteps deviceId commandType issuedBy).inr
  | .consume => Commands.consume format params issuedAt
  | .onCommand driver => Commands.onCommand driver
  | .onMqttMessage => Commands.onMqttMessage format

/-- Nothing but the parts touches what they share. -/
def noneElse : Empty → PipelineStore → PipelineStore := Empty.elim

abbrev PipelineSchedule := List (Event PipelineChoice PipelineCall Empty)

/-- The parts at work, from the registration of the devices on. -/
abbrev pipelineRun (devices : List RegistryRow) (schedule : PipelineSchedule) :
    Config PipelineResp Exc Unit PipelineStore :=
  Config.run pipelineSem (PipelineCall.serve format params issuedAt) noneElse
    ⟨{ api := { devices := devices, table := ⟨[], List.nodup_nil⟩ } }, []⟩ schedule

end Parts

/-! ### The table -/

/-- What a command asks for. It does not change. -/
def order (m : Command) : Command := { m with status := .PENDING, errorMessage := none }

/-- The API has put the command into the table. -/
def Issued (m : Command) (s : CommandStore) : Prop :=
  ∃ row ∈ s.table.rows, order row.toCommand = order m

/-- The command is one for a registered device of this type. -/
def Vetted (devices : List RegistryRow) (m : Command) : Prop :=
  ¬ Rejected m.deviceType m.commandType ∧
    ∃ device ∈ devices, device.deviceId = m.deviceId ∧ device.deviceType = m.deviceType

theorem order_apply (row : CommandRow) (u : CommandUpdate) :
    order (u.apply row).toCommand = order row.toCommand := by
  cases u <;> rfl

/-- What a statement can do to the table and to Kafka. -/
inductive Effect (s s' : CommandStore) : CommandStmt → Prop where
  | none {q : CommandStmt} (htable : s'.table = s.table) (htopic : s'.topic = s.topic) :
      Effect s s' q
  | insert {row : CommandRow} (hrows : s'.table.rows = s.table.rows ++ [row])
      (htopic : s'.topic = s.topic) : Effect s s' (.insertCommand row)
  | publish {m : Command} (htable : s'.table = s.table) (htopic : s'.topic = s.topic ++ [m]) :
      Effect s s' (.publish m)
  | moves {q : CommandStmt} {commandId : String} {u : CommandUpdate}
      (htable : s'.table = s.table.update commandId u) (htopic : s'.topic = s.topic)
      (hacked : ∀ status error now, u = .acked status error now →
        q = .ackUpdate commandId status error) : Effect s s' q

theorem devices_commandSem (c : CommandChoice) (q : CommandStmt) (s : CommandStore) :
    (commandSem c q s).2.devices = s.devices := by
  cases hfails : c.fails with
  | some m =>
      cases q <;> simp only [commandSem, hfails, commandExec]
      · split <;> rfl
      · rfl
  | none =>
      cases q <;> simp only [commandSem, hfails, commandExec] <;> first | rfl | (split <;> rfl)

theorem effect_commandSem (c : CommandChoice) (q : CommandStmt) (s : CommandStore) :
    Effect s (commandSem c q s).2 q := by
  cases hfails : c.fails with
  | some m =>
      cases q with
      | publish message =>
          simp only [commandSem, hfails]
          split
          · exact .publish rfl rfl
          · exact .none rfl rfl
      | _ =>
          simp only [commandSem, hfails, commandExec]
          exact .none rfl rfl
  | none =>
      cases q with
      | insertCommand row =>
          simp only [commandSem, hfails, commandExec]
          cases hinsert : s.table.insert row with
          | none => exact .none rfl rfl
          | some table => exact .insert (CommandTable.insert_eq_some hinsert).2 rfl
      | publish message =>
          simp only [commandSem, hfails, commandExec]
          exact .publish rfl rfl
      | failCommand commandId message =>
          simp only [commandSem, hfails, commandExec]
          exact .moves rfl rfl fun _ _ _ h => CommandUpdate.noConfusion h
      | markSent commandId =>
          simp only [commandSem, hfails, commandExec]
          split
          · exact .none rfl rfl
          · exact .moves rfl rfl fun _ _ _ h => CommandUpdate.noConfusion h
      | ackUpdate commandId status error =>
          simp only [commandSem, hfails, commandExec]
          split
          · exact .none rfl rfl
          · refine .moves rfl rfl fun status' error' now h => ?_
            obtain ⟨rfl, rfl, -⟩ := CommandUpdate.acked.inj h
            rfl
      | _ =>
          simp only [commandSem, hfails, commandExec]
          exact .none rfl rfl

theorem Issued.step {m : Command} {s : CommandStore} (h : Issued m s) (c : CommandChoice)
    (q : CommandStmt) : Issued m (commandSem c q s).2 := by
  obtain ⟨row, hrow, horder⟩ := h
  have heffect := effect_commandSem c q s
  generalize (commandSem c q s).2 = s' at heffect ⊢
  cases heffect with
  | none htable htopic => exact ⟨row, htable ▸ hrow, horder⟩
  | insert hrows htopic => exact ⟨row, hrows ▸ List.mem_append_left _ hrow, horder⟩
  | publish htable htopic => exact ⟨row, htable ▸ hrow, horder⟩
  | @moves q commandId u htable htopic hacked =>
      rw [Issued, htable]
      refine ⟨_, List.mem_map_of_mem hrow, ?_⟩
      split
      · rw [order_apply, horder]
      · exact horder

/-! ### The API -/

/-- What the API owes: it puts in only what it has vetted, and publishes only what it has put in.
What may be reported is up to the others. -/
def ApiNeeds (reported : String → AckStatus → Prop) : CommandStmt → CommandStore → Prop
  | .insertCommand row, s => Vetted s.devices row.toCommand ∧ row.status = .PENDING
  | .publish m, s => Issued m s
  | .ackUpdate commandId status _, _ => reported commandId status
  | _, _ => True

/-- The devices stay, and so do the commands. -/
def ApiRely (s s' : CommandStore) : Prop :=
  s'.devices = s.devices ∧ ∀ m, Issued m s → Issued m s'

def apiRules (reported : String → AckStatus → Prop) : Rules CommandStmt CommandChoice CommandStore
    where
  rely := ApiRely
  admits _ _ _ := True
  needs _ q s := ApiNeeds reported q s

theorem apiRely_step (c : CommandChoice) (q : CommandStmt) (s : CommandStore) :
    ApiRely s (commandSem c q s).2 :=
  ⟨devices_commandSem c q s, fun _ h => h.step c q⟩

/-- A statement that needs nothing. -/
def Harmless : CommandStmt → Prop
  | .insertCommand _ => False
  | .publish _ => False
  | .ackUpdate .. => False
  | _ => True

section Api

variable {reported : String → AckStatus → Prop}

/-- A program that needs nothing, and what stays meanwhile. -/
theorem wp_harmless {α : Type} {p : CommandProg α} (hp : p.Issues Harmless)
    {I : CommandStore → Prop} (hI : ∀ a b, ApiRely a b → I a → I b) {s : CommandStore} (h : I s) :
    wp commandSem (apiRules reported) p (fun _ s' => I s') s := by
  have hneeds : wp commandSem (apiRules reported) p (fun _ _ => True) s := by
    refine wp.of_issues_needs (fun c q s hq => ?_) hp s
    cases q <;> trivial
  exact (hneeds.and_kept hI (fun c q s => hI _ _ (apiRely_step c q s)) h).mono
    fun _ _ hboth => hboth.2

theorem mirrorStatus_harmless (commandId : String) (status : CommandStatus)
    (deviceId commandType : String) (error : Option String) :
    (mirrorStatus commandId status deviceId commandType error).Issues Harmless := by
  refine ((Prog.issues_call _).mpr trivial).bind fun now => ?_
  refine Prog.Issues.attempt (((Prog.issues_call _).mpr trivial).bind fun _ => ?_) fun _ => trivial
  exact (Prog.issues_call _).mpr trivial

theorem persistState_harmless (deviceId : String) (fields : List (String × Option String)) :
    (persistState deviceId fields).Issues Harmless := by
  refine ((Prog.issues_call _).mpr trivial).bind fun now => ?_
  refine Prog.Issues.attempt (((Prog.issues_call _).mpr trivial).bind fun _ => ?_) fun _ => trivial
  exact (Prog.issues_call _).mpr trivial

/-- What comes after the insertion needs the command in the table. -/
theorem wp_publishOrFail {command : Command} {s : CommandStore} (h : Issued command s)
    (deviceId commandType : String) :
    wp commandSem (apiRules reported)
      (tryCatch (Sql.publish command) fun exc =>
        match exc with
        | .kafka m => do
            Sql.failCommand command.commandId ("kafka publish failed: " ++ m)
            mirrorStatus command.commandId .FAILED deviceId commandType (some m)
            throw (.http 502 (.text ("Failed to publish command to Kafka: " ++ m)))
        | exc => throw exc) (fun _ _ => True) s := by
  have hpublish : wp commandSem (apiRules reported) (Sql.publish command) (fun _ _ => True) s :=
    (wp_call _ _ _ _ _).mpr fun s' hs' c _ => ⟨hs'.2 command h, trivial⟩
  refine hpublish.attempt (fun _ _ _ => trivial) fun exc s' _ => ?_
  refine wp_harmless ?_ (fun _ _ _ _ => trivial) trivial
  cases exc with
  | kafka m =>
      exact ((Prog.issues_call _).mpr trivial).bind fun _ =>
        (mirrorStatus_harmless _ _ _ _ _).bind fun _ => trivial
  | _ => trivial

theorem wp_selectDevice (deviceId : String) (s : CommandStore) :
    wp commandSem (apiRules reported) (Sql.selectDevice deviceId)
      (fun r s' => ∀ device, r = .ok (some device) →
        device ∈ s'.devices ∧ device.deviceId = deviceId) s := by
  refine (wp_call _ _ _ _ _).mpr fun s' _ c _ => ⟨trivial, fun device hdevice => ?_⟩
  rw [devices_commandSem]
  cases hfails : c.fails with
  | some m =>
      simp only [commandSem, hfails] at hdevice
      cases hdevice
  | none =>
      simp only [commandSem, hfails, commandExec] at hdevice
      have hfound : s'.devices.find? (fun row => row.deviceId = deviceId) = some device :=
        Except.ok.inj hdevice
      have hid := List.find?_some hfound
      exact ⟨List.mem_of_find?_eq_some hfound, of_decide_eq_true hid⟩

theorem wp_insertCommand {row : CommandRow} {s : CommandStore}
    (hvetted : Vetted s.devices row.toCommand) (hstatus : row.status = .PENDING) :
    wp commandSem (apiRules reported) (Sql.insertCommand row)
      (fun r s' => r = .ok () → Issued row.toCommand s') s := by
  refine (wp_call _ _ _ _ _).mpr fun s' hs' c _ => ⟨⟨?_, hstatus⟩, fun hok => ?_⟩
  · rw [hs'.1]
    exact hvetted
  · cases hfails : c.fails with
    | some m =>
        simp only [commandSem, hfails] at hok
        cases hok
    | none =>
        simp only [commandSem, hfails, commandExec] at hok ⊢
        cases hinsert : s'.table.insert row with
        | none =>
            rw [hinsert] at hok
            cases hok
        | some table =>
            refine ⟨row, ?_, rfl⟩
            show row ∈ table.rows
            rw [(CommandTable.insert_eq_some hinsert).2]
            exact List.mem_append_right _ (List.mem_singleton_self _)

theorem wp_dispatch (deviceId commandType issuedBy : String) (s : CommandStore) :
    wp commandSem (apiRules reported) (dispatchCommandSteps deviceId commandType issuedBy)
      (fun _ _ => True) s := by
  refine (wp_selectDevice deviceId s).bind (fun found s₁ hfound => ?_) fun _ _ _ => trivial
  cases found with
  | none => trivial
  | some device =>
      obtain ⟨hmem, rfl⟩ := hfound device rfl
      have hstays : ∀ a b, ApiRely a b → device ∈ a.devices → device ∈ b.devices :=
        fun a b hab h => hab.1 ▸ h
      refine (wp_bind _ _ _ _ _ _).mpr ((wp_raiseIf _ _ _ _ _ _).mpr
        ⟨fun _ => trivial, fun hallowed => ?_⟩)
      refine (wp_harmless (p := Sql.uuid4) ((Prog.issues_call _).mpr trivial) hstays hmem).bind
        (fun commandId s₂ h₂ => ?_) fun _ _ _ => trivial
      refine (wp_harmless (p := Sql.now) ((Prog.issues_call _).mpr trivial) hstays h₂).bind
        (fun issuedAt s₃ h₃ => ?_) fun _ _ _ => trivial
      refine (wp_insertCommand ⟨hallowed, device, h₃, rfl, rfl⟩ rfl).bind
        (fun _ s₄ h₄ => ?_) fun _ _ _ => trivial
      have hissued : ∀ m a b, ApiRely a b → Issued m a → Issued m b := fun m a b hab => hab.2 m
      refine (wp_harmless (mirrorStatus_harmless _ _ _ _ _) (hissued _) (h₄ rfl)).bind
        (fun _ s₅ h₅ => ?_) fun _ _ _ => trivial
      refine (wp_publishOrFail h₅ device.deviceId commandType).bind (fun _ s₆ _ => ?_)
        fun _ _ _ => trivial
      refine wp_harmless (((Prog.issues_call _).mpr trivial).bind fun final => ?_)
        (fun _ _ _ _ => trivial) trivial
      cases final with
      | none => trivial
      | some final =>
          exact (mirrorStatus_harmless _ _ _ _ _).bind fun _ =>
            (persistState_harmless _ _).bind fun _ => trivial

/-- A report is written if it may be. -/
theorem wp_ack {commandId status : String}
    (h : ∀ ack, ackStatus? status = some ack → reported commandId ack) (error : Option String)
    (s : CommandStore) :
    wp commandSem (apiRules reported) (ackCommand commandId status error) (fun _ _ => True) s := by
  unfold ackCommand
  cases hack : ackStatus? status with
  | none => trivial
  | some ack =>
      have hupdate : wp commandSem (apiRules reported) (Sql.ackUpdate commandId ack error)
          (fun _ _ => True) s :=
        (wp_call _ _ _ _ _).mpr fun s' _ c _ => ⟨h ack hack, trivial⟩
      refine hupdate.bind (fun row s₁ _ => ?_) fun _ _ _ => trivial
      refine wp_harmless ?_ (fun _ _ _ _ => trivial) trivial
      cases row with
      | none => trivial
      | some row =>
          exact (mirrorStatus_harmless _ _ _ _ _).bind fun _ =>
            ((Prog.issues_call _).mpr trivial).bind fun now =>
              (persistState_harmless _ _).bind fun _ => trivial

end Api

/-! ### What can be traced -/

/-- `get_mqtt_domain`, for a type that is a text. -/
def mqttDomain (deviceType : String) : String :=
  (Dispatcher.domainMap.get? deviceType).getD deviceType

/-- The topic of the device that a command is for. -/
def cmdTopicOf (m : Command) : String :=
  "diep/" ++ mqttDomain m.deviceType ++ "/" ++ m.deviceId ++ "/cmd"

/-- The result of a command has been seen by its driver. -/
def PipelineStore.Reported (s : PipelineStore) (commandId : String) (status : AckStatus) : Prop :=
  ∃ x ∈ s.executed, x.commandId = .str commandId ∧
    ackStatus? (resultOf x.result).status = some status

section Traced

variable (params issuedAt : String → Json)

/-- What the driver was told is what the command says, and the driver listens to its topic. -/
structure Asks (m : Command) (x : Execution) : Prop where
  commandId : x.commandId = .str m.commandId
  commandType : x.commandType = .str m.commandType
  params : x.params = orEmpty (params m.commandId)
  topic : x.driver.cmdTopic = cmdTopicOf m

/-- Every message has one that it comes from. -/
structure Traced (s : PipelineStore) : Prop where
  issued : ∀ m ∈ s.api.topic, Issued m s.api
  vetted : ∀ row ∈ s.api.table.rows, Vetted s.api.devices row.toCommand
  left : ∀ offset topic payload, .left offset topic payload ∈ s.log →
    ∃ m ∈ s.api.topic, payload = messageOf params issuedAt m ∧ topic = cmdTopicOf m
  executed : ∀ x ∈ s.executed, ∃ m ∈ s.api.topic, Asks params m x
  acks : ∀ ack ∈ s.acks, ∃ x ∈ s.executed,
    ack = ackOf x.driver x.commandId (resultOf x.result)
  acked : ∀ row ∈ s.api.table.rows, row.status = .ACKED → s.Reported row.commandId .ACKED

/-- No message is taken back. -/
structure Grows (s s' : PipelineStore) : Prop where
  api : ApiRely s.api s'.api
  topic : s.api.topic ⊆ s'.api.topic
  log : s.log ⊆ s'.log
  executed : s.executed ⊆ s'.executed
  acks : s.acks ⊆ s'.acks

/-- What the parts owe each other. -/
def PipelineNeeds (c : PipelineChoice) : PipelineStmt → PipelineStore → Prop
  | .inr q, s => ApiNeeds s.Reported q s.api
  | .inl (.inr (.publish _ topic payload)), s =>
      ∃ m ∈ s.api.topic, payload = messageOf params issuedAt m ∧ topic = cmdTopicOf m
  | .inl (.inl (.execute driver commandId commandType given)), s =>
      ∃ m ∈ s.api.topic, Asks params m ⟨driver, commandId, commandType, given, c.result⟩
  | .inl (.inl (.publishAck ack)), s =>
      ∃ x ∈ s.executed, ack = ackOf x.driver x.commandId (resultOf x.result)
  | _, _ => True

def pipelineRules : Rules PipelineStmt PipelineChoice PipelineStore where
  rely s s' := Traced params issuedAt s ∧ Traced params issuedAt s' ∧ Grows s s'
  admits _ _ _ := True
  needs c q s := PipelineNeeds params issuedAt c q s

theorem Grows.refl (s : PipelineStore) : Grows s s :=
  ⟨⟨rfl, fun _ h => h⟩, List.Subset.refl _, List.Subset.refl _, List.Subset.refl _,
    List.Subset.refl _⟩

theorem Grows.trans {a b c : PipelineStore} (hab : Grows a b) (hbc : Grows b c) : Grows a c where
  api := ⟨hbc.api.1.trans hab.api.1, fun m h => hbc.api.2 m (hab.api.2 m h)⟩
  topic := List.Subset.trans hab.topic hbc.topic
  log := List.Subset.trans hab.log hbc.log
  executed := List.Subset.trans hab.executed hbc.executed
  acks := List.Subset.trans hab.acks hbc.acks

theorem PipelineStore.Reported.mono {s s' : PipelineStore} (hgrows : Grows s s')
    {commandId : String} {status : AckStatus} (h : s.Reported commandId status) :
    s'.Reported commandId status := by
  obtain ⟨x, hx, hid, hstatus⟩ := h
  exact ⟨x, hgrows.executed hx, hid, hstatus⟩

theorem Vetted.of_order {devices : List RegistryRow} {m m' : Command} (horder : order m = order m')
    (h : Vetted devices m) : Vetted devices m' := by
  obtain ⟨hallowed, device, hmem, hid, htype⟩ := h
  have hdevice : m.deviceId = m'.deviceId := (congrArg Command.deviceId horder :)
  have hdeviceType : m.deviceType = m'.deviceType :=
    (congrArg Command.deviceType horder :)
  have hcommandType : m.commandType = m'.commandType :=
    (congrArg Command.commandType horder :)
  rw [hdeviceType, hcommandType] at hallowed
  exact ⟨hallowed, device, hmem, hid.trans hdevice, htype.trans hdeviceType⟩

/-- A row that an update leaves at ACKED. -/
theorem acked_apply {row : CommandRow} {u : CommandUpdate} (h : (u.apply row).status = .ACKED) :
    row.status = .ACKED ∨ ∃ error now, u = .acked .ACKED error now := by
  cases u with
  | failed message => cases h
  | sent now =>
      refine Or.inl ?_
      cases hstatus : row.status <;> simp [CommandUpdate.apply, CommandStatus.sent, hstatus] at h ⊢
  | acked status error now =>
      cases status with
      | ACKED => exact Or.inr ⟨error, now, rfl⟩
      | FAILED => cases h

theorem grows_api (c : CommandChoice) (q : CommandStmt) (s : PipelineStore) :
    Grows s { s with api := (commandSem c q s.api).2 } := by
  refine ⟨apiRely_step c q s.api, ?_, List.Subset.refl _, List.Subset.refl _, List.Subset.refl _⟩
  have heffect := effect_commandSem c q s.api
  generalize (commandSem c q s.api).2 = api at heffect ⊢
  cases heffect with
  | none htable htopic => exact htopic ▸ List.Subset.refl _
  | insert hrows htopic => exact htopic ▸ List.Subset.refl _
  | publish htable htopic => exact htopic ▸ List.subset_append_left _ _
  | moves htable htopic hacked => exact htopic ▸ List.Subset.refl _

section Steps

variable {params issuedAt} {s : PipelineStore} (h : Traced params issuedAt s)
include h

/-- What grows in the messages alone. -/
theorem Traced.of_grows {s' : PipelineStore} (hgrows : Grows s s') (hapi : s'.api = s.api)
    (hleft : ∀ offset topic payload, .left offset topic payload ∈ s'.log →
      .left offset topic payload ∈ s.log ∨
        ∃ m ∈ s.api.topic, payload = messageOf params issuedAt m ∧ topic = cmdTopicOf m)
    (hexecuted : ∀ x ∈ s'.executed, x ∈ s.executed ∨ ∃ m ∈ s.api.topic, Asks params m x)
    (hacks : ∀ ack ∈ s'.acks, ack ∈ s.acks ∨ ∃ x ∈ s.executed,
      ack = ackOf x.driver x.commandId (resultOf x.result)) : Traced params issuedAt s' where
  issued := hapi ▸ h.issued
  vetted := hapi ▸ h.vetted
  left offset topic payload hmem := by
    rw [hapi]
    exact (hleft offset topic payload hmem).elim (h.left offset topic payload) id
  executed x hx := by
    rw [hapi]
    exact (hexecuted x hx).elim (h.executed x) id
  acks ack hack := by
    obtain ⟨x, hx, heq⟩ := (hacks ack hack).elim (h.acks ack) id
    exact ⟨x, hgrows.executed hx, heq⟩
  acked row hrow hstatus := by
    rw [hapi] at hrow
    exact (h.acked row hrow hstatus).mono hgrows

/-- A statement of the API. -/
theorem Traced.api (c : CommandChoice) (q : CommandStmt)
    (hneeds : ApiNeeds s.Reported q s.api) :
    Traced params issuedAt { s with api := (commandSem c q s.api).2 } := by
  have hgrows := grows_api c q s
  have hissued {m : Command} (hm : Issued m s.api) : Issued m (commandSem c q s.api).2 :=
    hm.step c q
  have hdevices := devices_commandSem c q s.api
  have heffect := effect_commandSem c q s.api
  generalize (commandSem c q s.api).2 = api at hgrows hissued hdevices heffect ⊢
  refine ⟨?_, ?_, ?_, ?_, h.acks, ?_⟩
  · intro m hm
    cases heffect with
    | none htable htopic => exact hissued (h.issued m (htopic ▸ hm))
    | insert hrows htopic => exact hissued (h.issued m (htopic ▸ hm))
    | publish htable htopic =>
        rcases List.mem_append.mp (htopic ▸ hm) with hold | hnew
        · exact hissued (h.issued m hold)
        · exact hissued (List.mem_singleton.mp hnew ▸ hneeds)
    | moves htable htopic hacked => exact hissued (h.issued m (htopic ▸ hm))
  · intro row hrow
    show Vetted api.devices row.toCommand
    rw [hdevices]
    cases heffect with
    | none htable htopic => exact h.vetted row (htable ▸ hrow)
    | insert hrows htopic =>
        rcases List.mem_append.mp (hrows ▸ hrow) with hold | hnew
        · exact h.vetted row hold
        · exact List.mem_singleton.mp hnew ▸ hneeds.1
    | publish htable htopic => exact h.vetted row (htable ▸ hrow)
    | moves htable htopic hacked =>
        obtain ⟨old, hold, rfl⟩ := List.mem_map.mp (htable ▸ hrow)
        split
        · exact (h.vetted old hold).of_order (order_apply old _).symm
        · exact h.vetted old hold
  · intro offset topic payload hleft
    obtain ⟨m, hm, heq⟩ := h.left offset topic payload hleft
    exact ⟨m, hgrows.topic hm, heq⟩
  · intro x hx
    obtain ⟨m, hm, hasks⟩ := h.executed x hx
    exact ⟨m, hgrows.topic hm, hasks⟩
  · intro row hrow hstatus
    refine PipelineStore.Reported.mono hgrows ?_
    cases heffect with
    | none htable htopic => exact h.acked row (htable ▸ hrow) hstatus
    | insert hrows htopic =>
        rcases List.mem_append.mp (hrows ▸ hrow) with hold | hnew
        · exact h.acked row hold hstatus
        · obtain rfl := List.mem_singleton.mp hnew
          exact absurd (hneeds.2.symm.trans hstatus) (by decide)
    | publish htable htopic => exact h.acked row (htable ▸ hrow) hstatus
    | moves htable htopic hacked =>
        obtain ⟨old, hold, rfl⟩ := List.mem_map.mp (htable ▸ hrow)
        split at hstatus
        · rename_i hid
          rw [if_pos hid, CommandUpdate.apply_commandId]
          rcases acked_apply hstatus with hbefore | ⟨error, now, rfl⟩
          · exact h.acked old hold hbefore
          · obtain rfl := hacked _ _ _ rfl
            exact hid ▸ hneeds
        · rename_i hid
          rw [if_neg hid]
          exact h.acked old hold hstatus

/-- Every statement keeps to what can be traced, if the parts do what they owe. -/
theorem Traced.step (c : PipelineChoice) (q : PipelineStmt)
    (hneeds : PipelineNeeds params issuedAt c q s) :
    Traced params issuedAt (pipelineSem c q s).2 ∧ Grows s (pipelineSem c q s).2 := by
  have hself := Grows.refl s
  rcases q with (q | q) | q
  · cases q with
    | execute driver commandId commandType given =>
        have hgrows : Grows s (pipelineSem c (.inl (.inl (.execute driver commandId commandType
            given))) s).2 :=
          ⟨hself.api, hself.topic, hself.log, List.subset_append_left _ _, hself.acks⟩
        refine ⟨h.of_grows hgrows rfl (fun _ _ _ => Or.inl) (fun x hx => ?_) fun _ => Or.inl,
          hgrows⟩
        refine (List.mem_append.mp hx).imp id fun hnew => ?_
        rw [List.mem_singleton.mp hnew]
        exact hneeds
    | publishAck ack =>
        simp only [pipelineSem, wireSem]
        split
        · exact ⟨h, hself⟩
        · have hgrows : Grows s { s with acks := s.acks ++ [ack] } :=
            ⟨hself.api, hself.topic, hself.log, hself.executed, List.subset_append_left _ _⟩
          refine ⟨h.of_grows hgrows rfl (fun _ _ _ => Or.inl) (fun _ => Or.inl) fun a ha => ?_,
            hgrows⟩
          refine (List.mem_append.mp ha).imp id fun hnew => ?_
          rw [List.mem_singleton.mp hnew]
          exact hneeds
    | _ => exact ⟨h, hself⟩
  · have hlog {log : List DispatchEvent} {e : DispatchEvent} (heq : log = s.log ++ [e])
        (he : ∀ offset topic payload, e = .left offset topic payload →
          ∃ m ∈ s.api.topic, payload = messageOf params issuedAt m ∧ topic = cmdTopicOf m) :
        Traced params issuedAt { s with log := log } ∧ Grows s { s with log := log } := by
      subst heq
      have hgrows : Grows s { s with log := s.log ++ [e] } :=
        ⟨hself.api, hself.topic, List.subset_append_left _ _, hself.executed, hself.acks⟩
      refine ⟨h.of_grows hgrows rfl (fun offset topic payload hleft => ?_) (fun _ => Or.inl)
        fun _ => Or.inl, hgrows⟩
      exact (List.mem_append.mp hleft).imp id fun hnew =>
        he offset topic payload (List.mem_singleton.mp hnew).symm
    cases q with
    | publish offset topic payload =>
        simp only [pipelineSem, dispatchSem]
        cases c.outcome with
        | accepted =>
            refine hlog rfl fun _ _ _ heq => ?_
            obtain ⟨-, rfl, rfl⟩ := DispatchEvent.left.inj heq
            exact hneeds
        | refused => exact ⟨h, hself⟩
        | raises m => exact ⟨h, hself⟩
    | postAck commandId status error =>
        exact hlog rfl fun _ _ _ heq => DispatchEvent.noConfusion heq
  · exact ⟨h.api c.api q hneeds, grows_api c.api q s⟩

end Steps

end Traced

/-! ### The parts and what they owe -/

section Obligations

variable {format : Json → String} {params issuedAt : String → Json}

theorem grows_pipelineSem (c : PipelineChoice) (q : PipelineStmt) (s : PipelineStore) :
    s.api.topic ⊆ (pipelineSem c q s).2.api.topic := by
  rcases q with (q | q) | q
  · cases q with
    | publishAck ack =>
        simp only [pipelineSem, wireSem]
        split <;> exact List.Subset.refl _
    | _ => exact List.Subset.refl _
  · exact List.Subset.refl _
  · exact (grows_api c.api q s).topic

/-- A program of the API, in the company of the others. -/
theorem wp_api {α : Type} {p : CommandProg α} (reported : String → AckStatus → Prop)
    {s : PipelineStore}
    (hreported : ∀ commandId status, reported commandId status → s.Reported commandId status)
    (hp : wp commandSem (apiRules reported) p (fun _ _ => True) s.api) :
    wp pipelineSem (pipelineRules params issuedAt)
      (p.inr : Prog (Sum.elim (Sum.elim WireResp DispatchResp) CommandResp) Exc α)
      (fun _ _ => True) s := by
  refine (wp.inr (J := fun s => ∀ commandId status, reported commandId status →
    s.Reported commandId status) PipelineStore.api PipelineChoice.api (fun _ _ _ => rfl)
    (fun _ _ _ => rfl) ?_ ?_ (fun _ _ _ _ _ => trivial) ?_ hreported hp).mono fun _ _ _ => trivial
  · exact fun c q s h commandId status hr => h commandId status hr
  · exact fun a b h hab => ⟨hab.2.2.api, fun commandId status hr =>
      (h commandId status hr).mono hab.2.2⟩
  · intro c q s h hneeds
    cases q with
    | insertCommand row => exact hneeds
    | publish m => exact hneeds
    | ackUpdate commandId status error => exact h commandId status hneeds
    | _ => trivial

theorem handle_issues (offset : ℕ) (value : Json) :
    (Dispatcher.handle format offset value).Issues fun q =>
      ∃ topic, q = .publish offset topic value ∧
        Dispatcher.deviceTopic format value = some topic := by
  cases value with
  | obj command =>
      refine Prog.Issues.bind ?_ fun _ => trivial
      unfold Dispatcher.dispatchCommandToMqtt
      split
      · trivial
      cases htopic : Dispatcher.getCommandTopic format (field command "device_type")
          (field command "device_id") with
      | error e => trivial
      | ok topic =>
          refine Prog.Issues.attempt (((Prog.issues_call _).mpr ⟨topic, rfl, ?_⟩).bind
            fun _ => trivial) fun _ => trivial
          rw [Dispatcher.deviceTopic, htopic]
          rfl
  | _ => trivial

theorem deviceTopic_messageOf (hformat : ∀ text, format (.str text) = text) (m : Command) :
    Dispatcher.deviceTopic format (messageOf params issuedAt m) = some (cmdTopicOf m) := by
  have htype : field [("command_id", .str m.commandId), ("device_id", .str m.deviceId),
    ("device_type", .str m.deviceType), ("command_type", .str m.commandType),
    ("params", params m.commandId), ("issued_by", .str m.issuedBy),
    ("issued_at", issuedAt m.commandId)] "device_type" = .str m.deviceType := rfl
  rw [messageOf, Dispatcher.deviceTopic, htype]
  simp only [Dispatcher.getCommandTopic, Dispatcher.getMqttDomain, Json.hashable, if_true,
    Except.map, hformat]
  exact congrArg some (congrArg (fun id => _ ++ "/" ++ id ++ "/cmd") (hformat m.deviceId))

/-- The dispatcher sends a message that it has taken from Kafka, to the topic of its device. -/
theorem wp_consume (hformat : ∀ text, format (.str text) = text) (s : PipelineStore) :
    wp pipelineSem (pipelineRules params issuedAt) (consume format params issuedAt)
      (fun _ _ => True) s := by
  have hpoll : wp pipelineSem (pipelineRules params issuedAt) Wire.poll
      (fun r s' => ∀ offset m, r = .ok (some (offset, m)) → m ∈ s'.api.topic) s := by
    refine (wp_call _ _ _ _ _).mpr fun s' _ c _ => ⟨trivial, fun offset m hm => ?_⟩
    obtain ⟨m', hm', heq⟩ := Option.map_eq_some_iff.mp (Except.ok.inj hm)
    obtain ⟨-, rfl⟩ := Prod.mk.inj heq
    exact List.mem_of_getElem? hm'
  refine hpoll.bind (fun next s₁ hnext => ?_) fun _ _ _ => trivial
  rcases next with _ | ⟨offset, m⟩
  · trivial
  have hhandle : (Dispatcher.handle format offset (messageOf params issuedAt m)).Issues
      fun q => q = .publish offset (cmdTopicOf m) (messageOf params issuedAt m) := by
    refine (handle_issues offset _).mono fun q hq => ?_
    obtain ⟨topic, rfl, htopic⟩ := hq
    rw [deviceTopic_messageOf hformat] at htopic
    rw [Option.some.inj htopic]
  have hwire : (Prog.inr (Dispatcher.handle format offset (messageOf params issuedAt m)) :
      Prog (Sum.elim WireResp DispatchResp) Exc Unit).Issues fun q =>
        q = .inr (.publish offset (cmdTopicOf m) (messageOf params issuedAt m)) := by
    refine hhandle.inr fun q hq => ?_
    rw [hq]
  have hissues : (Prog.inl (Prog.inr (Dispatcher.handle format offset
      (messageOf params issuedAt m))) : PipelineProg Unit).Issues fun q =>
        q = .inl (.inr (.publish offset (cmdTopicOf m) (messageOf params issuedAt m))) := by
    refine hwire.inl fun q hq => ?_
    rw [hq]
  refine wp.of_issues_kept (J := fun s => m ∈ s.api.topic) ?_
    (fun c q s hm => grows_pipelineSem c q s hm) ?_ hissues (hnext offset m rfl)
  · exact fun _ _ hab hm => hab.2.2.topic hm
  · rintro c q s rfl hm
    exact ⟨m, hm, rfl, rfl⟩

/-- A driver executes what was sent to its topic, and publishes what came of it. -/
theorem wp_onCommand (driver : Driver) (s : PipelineStore) :
    wp pipelineSem (pipelineRules params issuedAt) (onCommand driver) (fun _ _ => True) s := by
  have hreceive : wp pipelineSem (pipelineRules params issuedAt) (Wire.receive driver)
      (fun r s' => ∀ payload, r = .ok (some payload) → ∃ m ∈ s'.api.topic,
        payload = messageOf params issuedAt m ∧ driver.cmdTopic = cmdTopicOf m) s := by
    refine (wp_call _ _ _ _ _).mpr fun s' hs' c _ => ⟨trivial, fun payload hpayload => ?_⟩
    have hdelivered : delivered driver s'.log[c.pick]? = some payload := Except.ok.inj hpayload
    unfold delivered at hdelivered
    split at hdelivered
    · rename_i offset topic payload' hevent
      split_ifs at hdelivered with htopic
      obtain rfl := Option.some.inj hdelivered
      obtain ⟨m, hm, heq, hfor⟩ := hs'.2.1.left offset topic payload' (List.mem_of_getElem? hevent)
      exact ⟨m, hm, heq, htopic ▸ hfor⟩
    · cases hdelivered
  refine hreceive.bind (fun payload s₁ hpayload => ?_) fun _ _ _ => trivial
  cases payload with
  | none => trivial
  | some payload =>
      obtain ⟨m, hm, rfl, htopic⟩ := hpayload payload rfl
      have hexecute : wp pipelineSem (pipelineRules params issuedAt)
          (Wire.execute driver (.str m.commandId) (.str m.commandType)
            (orEmpty (params m.commandId)))
          (fun r s' => ∀ result, r = .ok result → ∃ x ∈ s'.executed,
            x = ⟨driver, .str m.commandId, .str m.commandType, orEmpty (params m.commandId),
              result⟩) s₁ := by
        refine (wp_call _ _ _ _ _).mpr fun s' hs' c _ =>
          ⟨⟨m, hs'.2.2.topic hm, rfl, rfl, rfl, htopic⟩, fun result hresult => ?_⟩
        obtain rfl := Except.ok.inj hresult
        exact ⟨_, List.mem_append_right _ (List.mem_singleton_self _), rfl⟩
      refine hexecute.bind (fun result s₂ hresult => ?_) fun _ _ _ => trivial
      obtain ⟨x, hx, rfl⟩ := hresult result rfl
      exact (wp_call _ _ _ _ _).mpr fun s' hs' c _ => ⟨⟨_, hs'.2.2.executed hx, rfl⟩, trivial⟩

/-- The dispatcher posts what a driver has published. -/
theorem wp_onMqttMessage (hformat : ∀ text, format (.str text) = text) (s : PipelineStore) :
    wp pipelineSem (pipelineRules params issuedAt) (onMqttMessage format) (fun _ _ => True) s := by
  have hreceive : wp pipelineSem (pipelineRules params issuedAt) Wire.receiveAck
      (fun r s' => ∀ ack, r = .ok (some ack) → ∃ x ∈ s'.executed, ∃ commandId,
        x.commandId = .str commandId ∧ ack = ackOf x.driver (.str commandId) (resultOf x.result))
      s := by
    refine (wp_call _ _ _ _ _).mpr fun s' hs' c _ => ⟨trivial, fun ack hack => ?_⟩
    obtain ⟨x, hx, rfl⟩ := hs'.2.1.acks ack (List.mem_of_getElem? (Except.ok.inj hack))
    obtain ⟨m, -, hasks⟩ := hs'.2.1.executed x hx
    exact ⟨x, hx, m.commandId, hasks.commandId, by rw [hasks.commandId]⟩
  refine hreceive.bind (fun ack s₁ hack => ?_) fun _ _ _ => trivial
  cases ack with
  | none => trivial
  | some ack =>
      obtain ⟨x, hx, commandId, hid, rfl⟩ := hack ack rfl
      have herror : ackError? (Json.ofOption .str (resultOf x.result).error) =
          some (resultOf x.result).error := by
        cases (resultOf x.result).error <;> rfl
      have hpost : wp pipelineSem (pipelineRules params issuedAt)
          (postAckToFastapi format (.str commandId) (.str (resultOf x.result).status)
            (Json.ofOption .str (resultOf x.result).error)) (fun _ _ => True) s₁ := by
        unfold postAckToFastapi
        rw [herror, hformat]
        refine (wp_api (fun i status => i = commandId ∧
          ackStatus? (resultOf x.result).status = some status) ?_ (wp_ack ?_ _ _)).bind
          (fun _ _ _ => trivial) fun _ _ _ => trivial
        · rintro i status ⟨rfl, hstatus⟩
          exact ⟨x, hx, hid, hstatus⟩
        · exact fun status hstatus => ⟨rfl, hstatus⟩
      exact hpost

theorem cooperative_pipeline (hformat : ∀ text, format (.str text) = text) :
    Cooperative pipelineSem (PipelineCall.serve format params issuedAt) noneElse
      (pipelineRules params issuedAt) where
  trans a b c hab hbc := ⟨hab.1, hbc.2.1, hab.2.2.trans hbc.2.2⟩
  self a b hab := ⟨hab.2.1, hab.2.1, .refl b⟩
  stmt c q s hs _ hneeds := ⟨hs.1, hs.1.step c q hneeds⟩
  env a := a.elim
  serve r s hs := by
    cases r with
    | dispatch deviceId commandType issuedBy =>
        exact (wp_api (fun _ _ => False) (fun _ _ => False.elim)
          (wp_dispatch deviceId commandType issuedBy s.api)).bind (fun _ _ _ => trivial)
          fun _ _ _ => trivial
    | consume => exact wp_consume hformat s
    | onCommand driver => exact wp_onCommand driver s
    | onMqttMessage => exact wp_onMqttMessage hformat s

variable (params issuedAt) in
theorem traced_run (hformat : ∀ text, format (.str text) = text) (devices : List RegistryRow)
    (schedule : PipelineSchedule) :
    Traced params issuedAt (pipelineRun format params issuedAt devices schedule).state ∧
      (pipelineRun format params issuedAt devices schedule).state.api.devices = devices := by
  have hstart : Traced params issuedAt { api := { devices := devices } } :=
    ⟨fun _ h => absurd h List.not_mem_nil, fun _ h => absurd h List.not_mem_nil,
      fun _ _ _ h => absurd h List.not_mem_nil, fun _ h => absurd h List.not_mem_nil,
      fun _ h => absurd h List.not_mem_nil, fun _ h => absurd h List.not_mem_nil⟩
  have hproved : Config.Proved pipelineSem (pipelineRules params issuedAt)
      (⟨{ api := { devices := devices } }, []⟩ : Config PipelineResp Exc Unit PipelineStore) :=
    ⟨⟨hstart, hstart, .refl _⟩, fun p hp => absurd hp List.not_mem_nil⟩
  have hrun := ((cooperative_pipeline hformat).run schedule hproved
    (Config.allSteps_of_forall _ _ _ (fun _ _ _ => trivial) _ _)).1
  exact ⟨hrun.2.1, hrun.2.2.api.1⟩

end Obligations

/-! ### From the API to the device and back -/

theorem Asks.of_order {params : String → Json} {m m' : Command} {x : Execution}
    (horder : order m = order m') (h : Asks params m x) : Asks params m' x := by
  have hid : m.commandId = m'.commandId := (congrArg Command.commandId horder :)
  have hdevice : m.deviceId = m'.deviceId := (congrArg Command.deviceId horder :)
  have hdeviceType : m.deviceType = m'.deviceType := (congrArg Command.deviceType horder :)
  have hcommandType : m.commandType = m'.commandType := (congrArg Command.commandType horder :)
  refine ⟨hid ▸ h.commandId, hcommandType ▸ h.commandType, hid ▸ h.params, h.topic.trans ?_⟩
  rw [cmdTopicOf, cmdTopicOf, hdeviceType, hdevice]

/-- Where two lists are split at their first separator. -/
theorem split_first {α : Type} {a : α} {x x' z z' : List α} (hx : a ∉ x) (hx' : a ∉ x')
    (h : x ++ a :: z = x' ++ a :: z') : x = x' ∧ z = z' := by
  induction x generalizing x' with
  | nil =>
      cases x' with
      | nil => exact ⟨rfl, (List.cons.inj h).2⟩
      | cons b x' => exact absurd ((List.cons.inj h).1 ▸ List.mem_cons_self) hx'
  | cons b x ih =>
      cases x' with
      | nil => exact absurd ((List.cons.inj h).1 ▸ List.mem_cons_self) hx
      | cons b' x' =>
          obtain ⟨rfl, hrest⟩ := List.cons.inj h
          obtain ⟨rfl, rfl⟩ := ih (fun hmem => hx (List.mem_cons_of_mem _ hmem))
            (fun hmem => hx' (List.mem_cons_of_mem _ hmem)) hrest
          exact ⟨rfl, rfl⟩

/-- A driver whose topic it is has the id that the command is for. -/
theorem deviceId_of_topic {driver : Driver} {m : Command} (h : driver.cmdTopic = cmdTopicOf m)
    (hdriver : '/' ∉ driver.domain.toList) (hm : '/' ∉ (mqttDomain m.deviceType).toList) :
    driver.domain = mqttDomain m.deviceType ∧ driver.deviceId = m.deviceId := by
  have hlists : "diep/".toList ++ (driver.domain.toList ++ '/' :: (driver.deviceId.toList ++
      "/cmd".toList)) = "diep/".toList ++ ((mqttDomain m.deviceType).toList ++ '/' ::
      (m.deviceId.toList ++ "/cmd".toList)) := by
    have hchars := congrArg String.toList h
    simp only [Driver.cmdTopic, cmdTopicOf, String.toList_append, List.append_assoc] at hchars
    exact hchars
  obtain ⟨hdomain, hrest⟩ := split_first hdriver hm (List.append_cancel_left hlists)
  exact ⟨String.toList_injective hdomain,
    String.toList_injective (List.append_cancel_right hrest)⟩

/-- What came of an execution is acknowledged as done. -/
def Execution.Acked (x : Execution) : Prop := ackStatus? (resultOf x.result).status = some .ACKED

section Runs

variable (format : Json → String) (params issuedAt : String → Json)

/-- **No device does what the API has not vetted.** Whatever a driver executes, in any run, is a
command of the table, with its type and parameters, of a type that the registered device takes;
and unless a domain has a slash, the driver is the one of that device. -/
theorem executed_vetted (hformat : ∀ text, format (.str text) = text)
    (devices : List RegistryRow) (schedule : PipelineSchedule) :
    ∀ x ∈ (pipelineRun format params issuedAt devices schedule).state.executed,
      ∃ row ∈ (pipelineRun format params issuedAt devices schedule).state.api.table.rows,
        Asks params row.toCommand x ∧ Vetted devices row.toCommand ∧
          ('/' ∉ x.driver.domain.toList → '/' ∉ (mqttDomain row.deviceType).toList →
            x.driver.deviceId = row.deviceId) := by
  obtain ⟨htraced, hdevices⟩ := traced_run params issuedAt hformat devices schedule
  intro x hx
  obtain ⟨m, hm, hasks⟩ := htraced.executed x hx
  obtain ⟨row, hrow, horder⟩ := htraced.issued m hm
  have hasks' := hasks.of_order horder.symm
  refine ⟨row, hrow, hasks', hdevices ▸ htraced.vetted row hrow, fun hdriver hdomain => ?_⟩
  exact (deviceId_of_topic hasks'.topic hdriver hdomain).2

end Runs

/-- The threads take these turns. -/
def pipelineActs (threads : List ℕ) : PipelineSchedule :=
  threads.map fun i => .act i { api := commandChoice }

/-- A command to the charger, all the way and back, before the API has marked it as sent. -/
def chargerAnswers : PipelineSchedule :=
  [.spawn (.dispatch "EV001" "start_charging" "api")] ++ pipelineActs (List.replicate 8 0) ++
    [.spawn .consume] ++ pipelineActs [1, 1] ++
    [.spawn (.onCommand ⟨"charger", "EV001"⟩)] ++ pipelineActs [2, 2, 2] ++
    [.spawn .onMqttMessage] ++ pipelineActs [3, 3]

/-- No command has parameters. -/
abbrev chargerRun : Config PipelineResp Exc Unit PipelineStore :=
  pipelineRun Dispatcher.textOf (fun _ => .null) (fun _ => .null) oneCharger.devices chargerAnswers

theorem charger_vetted :
    chargerRun.state.executed.length = 1 ∧
      ∀ x ∈ chargerRun.state.executed, ∃ row ∈ chargerRun.state.api.table.rows,
        Asks (fun _ => .null) row.toCommand x ∧ Vetted oneCharger.devices row.toCommand ∧
          ('/' ∉ x.driver.domain.toList → '/' ∉ (mqttDomain row.deviceType).toList →
            x.driver.deviceId = row.deviceId) :=
  ⟨by decide, executed_vetted Dispatcher.textOf (fun _ => .null) (fun _ => .null) (fun _ => rfl)
    oneCharger.devices chargerAnswers⟩

section Runs

variable (format : Json → String) (params issuedAt : String → Json)

/-- **ACKED means done.** A command that stands at ACKED, in any state of any run, has been executed
by a driver on the topic of its device, with the parameters that it was issued with, and the
driver has said so. -/
theorem acked_executed (hformat : ∀ text, format (.str text) = text)
    (devices : List RegistryRow) (schedule : PipelineSchedule) :
    ∀ row ∈ (pipelineRun format params issuedAt devices schedule).state.api.table.rows,
      row.status = .ACKED →
        ∃ x ∈ (pipelineRun format params issuedAt devices schedule).state.executed,
          Asks params row.toCommand x ∧ x.Acked := by
  obtain ⟨htraced, -⟩ := traced_run params issuedAt hformat devices schedule
  intro row hrow hstatus
  obtain ⟨x, hx, hid, hacked⟩ := htraced.acked row hrow hstatus
  obtain ⟨m, hm, hasks⟩ := htraced.executed x hx
  obtain ⟨row', hrow', horder⟩ := htraced.issued m hm
  have hsame : row'.commandId = row.commandId :=
    (congrArg Command.commandId horder :).trans
      (Json.str.inj (hasks.commandId.symm.trans hid))
  obtain rfl := List.inj_on_of_nodup_map
    (pipelineRun format params issuedAt devices schedule).state.api.table.key hrow' hrow hsame
  exact ⟨x, hx, hasks.of_order horder.symm, hacked⟩

end Runs

theorem charger_done :
    (chargerRun.state.api.table.rows.map fun row => row.status) = [.ACKED] ∧
      ∀ row ∈ chargerRun.state.api.table.rows, row.status = .ACKED →
        ∃ x ∈ chargerRun.state.executed, Asks (fun _ => .null) row.toCommand x ∧ x.Acked :=
  ⟨by decide, acked_executed Dispatcher.textOf (fun _ => .null) (fun _ => .null) (fun _ => rfl)
    oneCharger.devices chargerAnswers⟩

end DiepLab.Commands
