import DiepLab.Json
import DiepLab.Library.Output

/-!
The command dispatcher, `command_dispatcher.py`: from Kafka to MQTT.

`run` takes the messages of `diep.commands` one by one and publishes each
command to the topic of its device. A message that is no object, or whose
`device_type` cannot be looked up, raises out of the loop and ends the process;
the result of a publish is looked at by nobody. A message is committed when it
is consumed, so what is not published then is not published at all, and only an
acknowledgement of the device leads to a report to the API.

The offset of the message at hand goes along with each statement, for the log.
-/

namespace DiepLab.Dispatcher

open StatementProgram

/-! ### Messages -/

/-- `command.get(key)`. -/
def field (command : Dict Json) (key : String) : Json := (command.get? key).getD .null

/-- `DOMAIN_MAP`. -/
def domainMap : Dict String := [
  ("ev_charger", "charger"), ("battery", "battery"), ("solar_inverter", "solar"),
  ("microgrid", "microgrid")]

/-- `get_mqtt_domain`; the lookup raises on a list or an object. -/
def getMqttDomain (deviceType : Json) : Except Exc Json :=
  if deviceType.hashable then
    match deviceType with
    | .str s => .ok (.str ((domainMap.get? s).getD s))
    | other => .ok other
  else .error (.other "unhashable type")

section Format

-- how Python formats a value into a text
variable (format : Json → String)

def getCommandTopic (deviceType deviceId : Json) : Except Exc String :=
  (getMqttDomain deviceType).map fun domain =>
    "diep/" ++ format domain ++ "/" ++ format deviceId ++ "/cmd"

/-! ### Statements -/

inductive DispatchStmt where
  /-- `mqtt_client.publish`. -/
  | publish (offset : ℕ) (topic : String) (payload : Json)
  /-- `_post_ack_to_fastapi`, which is called for the acknowledgements of
  devices. -/
  | postAck (commandId : Json) (status : String) (error : Option String)

@[reducible] def DispatchResp : DispatchStmt → Type
  | .publish .. => Unit
  | .postAck .. => Unit

abbrev DispatchProg := Prog DispatchResp Exc

/-- How a publish turns out. -/
inductive PublishOutcome where
  | accepted
  /-- It returns, with another code than success. -/
  | refused
  | raises (message : String)
  deriving DecidableEq, Repr

inductive DispatchEvent where
  /-- The message at the offset has left for the topic. -/
  | left (offset : ℕ) (topic : String) (payload : Json)
  | reported (commandId : Json) (status : String)

/-- The surroundings decide for each offset how a publish turns out. -/
def dispatchSem (pattern : ℕ → PublishOutcome) :
    (q : DispatchStmt) → List DispatchEvent → Except Exc (DispatchResp q) × List DispatchEvent
  | .publish offset topic payload, log =>
      match pattern offset with
      | .accepted => (.ok (), log ++ [.left offset topic payload])
      | .refused => (.ok (), log)
      | .raises m => (.error (.other m), log)
  | .postAck commandId status _, log => (.ok (), log ++ [.reported commandId status])

abbrev publish (offset : ℕ) (topic : String) (payload : Json) : DispatchProg Unit :=
  Prog.call (DispatchStmt.publish offset topic payload)

/-! ### The loop -/

/-- The three fields without which a command is not dispatched. -/
def Complete (command : Dict Json) : Prop :=
  (field command "command_id").truthy ∧ (field command "device_id").truthy ∧
    (field command "device_type").truthy

instance (command : Dict Json) : Decidable (Complete command) :=
  inferInstanceAs (Decidable (_ ∧ _))

def dispatchCommandToMqtt (offset : ℕ) (command : Dict Json) : DispatchProg Bool :=
  if ¬ Complete command then pure false
  else
    match getCommandTopic format (field command "device_type") (field command "device_id") with
    | .error e => throw e
    | .ok topic =>
        tryCatch
          (do
            publish offset topic (.obj command)
            pure true)
          fun _ => pure false

/-- The body of the loop. The log line asks the message for two fields. -/
def handle (offset : ℕ) : Json → DispatchProg Unit
  | .obj command => do
      let _ ← dispatchCommandToMqtt format offset command
  | _ => throw (.other "object has no attribute 'get'")

def loop : ℕ → List Json → DispatchProg Unit
  | _, [] => pure ()
  | offset, value :: rest => do
      handle format offset value
      loop (offset + 1) rest

/-- `run`, on messages that start at this offset: whether it is still waiting
for more. -/
def run (offset : ℕ) (messages : List Json) : DispatchProg Bool :=
  tryCatch
    (do
      loop format offset messages
      pure true)
    fun _ => pure false

/-! ### One message -/

/-- A command as the API writes it. -/
def WellFormed : Json → Prop
  | .obj command =>
      (Dict.get? command "command_id").isSome = true ∧
        (Dict.get? command "device_id").isSome = true ∧
        (Dict.get? command "device_type").isSome = true
  | _ => False

/-- The message does not end the loop. -/
def Survivable : Json → Prop
  | .obj command => Complete command → (field command "device_type").hashable = true
  | _ => False

/-- The message is a command that is sent to its device, if the publish works. -/
def Dispatchable : Json → Prop
  | .obj command => Complete command ∧ (field command "device_type").hashable = true
  | _ => False

instance (value : Json) : Decidable (WellFormed value) := by
  cases value <;> simp only [WellFormed] <;> infer_instance

instance (value : Json) : Decidable (Survivable value) := by
  cases value <;> simp only [Survivable] <;> infer_instance

instance (value : Json) : Decidable (Dispatchable value) := by
  cases value <;> simp only [Dispatchable] <;> infer_instance

/-- The topic of the device that a command is for. -/
def deviceTopic : Json → Option String
  | .obj command =>
      (getCommandTopic format (field command "device_type") (field command "device_id")).toOption
  | _ => none

/-- The command has left for the topic of its device, or has been reported as
failed. -/
def Accounted (offset : ℕ) (value : Json) (log : List DispatchEvent) : Prop :=
  (∃ topic, deviceTopic format value = some topic ∧ .left offset topic value ∈ log) ∨
    ∃ command, value = .obj command ∧ .reported (field command "command_id") "FAILED" ∈ log

/-- The condition on a message and its publish: the message does not end the
loop, and a command has its three fields filled in and is accepted. -/
def Accountable (value : Json) (outcome : PublishOutcome) : Prop :=
  Survivable value ∧ (WellFormed value → Dispatchable value ∧ outcome = .accepted)

instance (value : Json) (outcome : PublishOutcome) : Decidable (Accountable value outcome) :=
  inferInstanceAs (Decidable (_ ∧ _))

theorem getCommandTopic_ok {deviceType : Json} (h : deviceType.hashable = true)
    (deviceId : Json) : ∃ topic, getCommandTopic format deviceType deviceId = .ok topic := by
  unfold getCommandTopic getMqttDomain
  rw [if_pos h]
  split <;> exact ⟨_, rfl⟩

theorem getCommandTopic_error {deviceType : Json} (h : ¬ deviceType.hashable = true)
    (deviceId : Json) : ∃ e, getCommandTopic format deviceType deviceId = .error e := by
  unfold getCommandTopic getMqttDomain
  rw [if_neg h]
  exact ⟨_, rfl⟩

section Handle

variable {format} {pattern : ℕ → PublishOutcome} {offset : ℕ} {value : Json}
variable {log : List DispatchEvent}

variable (format pattern offset log) in
/-- A message that ends the loop leaves nothing behind. -/
theorem handle_ends (h : ¬ Survivable value) :
    ∃ e, (handle format offset value).run (dispatchSem pattern) log = (.error e, log) := by
  cases value with
  | obj command =>
      obtain ⟨hcomplete, hhashable⟩ := Classical.not_imp.mp h
      obtain ⟨e, he⟩ := getCommandTopic_error format hhashable (field command "device_id")
      exact ⟨e, by simp [handle, dispatchCommandToMqtt, hcomplete, he]⟩
  | _ => exact ⟨_, rfl⟩

/-- A command that is not dispatched, or whose publish is not accepted. -/
theorem handle_drops (h : Survivable value)
    (hdrops : ¬ (Dispatchable value ∧ pattern offset = .accepted)) :
    (handle format offset value).run (dispatchSem pattern) log = (.ok (), log) := by
  cases value with
  | obj command =>
      by_cases hcomplete : Complete command
      · have hhashable := h hcomplete
        obtain ⟨topic, htopic⟩ := getCommandTopic_ok format hhashable (field command "device_id")
        have houtcome : pattern offset ≠ .accepted := fun ho => hdrops ⟨⟨hcomplete, hhashable⟩, ho⟩
        cases ho : pattern offset with
        | accepted => exact absurd ho houtcome
        | refused =>
            simp [handle, dispatchCommandToMqtt, hcomplete, htopic, dispatchSem, ho]
        | raises m =>
            simp [handle, dispatchCommandToMqtt, hcomplete, htopic, dispatchSem, ho]
      · simp [handle, dispatchCommandToMqtt, hcomplete]
  | _ => exact h.elim

variable (format log) in
/-- A command that is dispatched and accepted. -/
theorem handle_leaves (h : Dispatchable value) (haccepted : pattern offset = .accepted) :
    ∃ topic, deviceTopic format value = some topic ∧
      (handle format offset value).run (dispatchSem pattern) log =
        (.ok (), log ++ [.left offset topic value]) := by
  cases value with
  | obj command =>
      obtain ⟨hcomplete, hhashable⟩ := h
      obtain ⟨topic, htopic⟩ := getCommandTopic_ok format hhashable (field command "device_id")
      refine ⟨topic, ?_, ?_⟩
      · rw [deviceTopic, htopic]
        rfl
      · simp [handle, dispatchCommandToMqtt, hcomplete, htopic, dispatchSem, haccepted]
  | _ => exact h.elim

end Handle

/-! ### The whole loop -/

section Loop

variable {format} {pattern : ℕ → PublishOutcome} {offset : ℕ} {messages : List Json}
variable {log : List DispatchEvent}

/-- Nothing is reported, and what has left has these offsets. -/
def OnlyLeft (P : ℕ → Prop) (log : List DispatchEvent) : Prop :=
  ∀ e ∈ log, ∃ i topic value, e = .left i topic value ∧ P i

theorem OnlyLeft.append {P : ℕ → Prop} {more : List DispatchEvent} (h : OnlyLeft P log)
    (hmore : OnlyLeft P more) : OnlyLeft P (log ++ more) :=
  fun e he => (List.mem_append.mp he).elim (h e) (hmore e)

theorem OnlyLeft.mono {P P' : ℕ → Prop} (hP : ∀ i, P i → P' i) (h : OnlyLeft P log) :
    OnlyLeft P' log := by
  intro e he
  obtain ⟨i, topic, value, rfl, hi⟩ := h e he
  exact ⟨i, topic, value, rfl, hP i hi⟩

/-- One message adds nothing, or that it has left. -/
theorem handle_log (format : Json → String) (pattern : ℕ → PublishOutcome) (offset : ℕ)
    (value : Json) (log : List DispatchEvent) :
    ∃ more, ((handle format offset value).run (dispatchSem pattern) log).2 = log ++ more ∧
      OnlyLeft (· = offset) more := by
  by_cases hsurvivable : Survivable value
  · by_cases hleaves : Dispatchable value ∧ pattern offset = .accepted
    · obtain ⟨topic, -, hrun⟩ := handle_leaves format log hleaves.1 hleaves.2
      refine ⟨_, congrArg Prod.snd hrun, fun e he => ?_⟩
      exact ⟨offset, topic, value, List.mem_singleton.mp he, rfl⟩
    · exact ⟨[], by rw [handle_drops hsurvivable hleaves, List.append_nil], nofun⟩
  · obtain ⟨e, hrun⟩ := handle_ends format pattern offset log hsurvivable
    exact ⟨[], by rw [hrun, List.append_nil], nofun⟩

theorem loop_log (format : Json → String) (pattern : ℕ → PublishOutcome) (offset : ℕ)
    (messages : List Json) (log : List DispatchEvent) :
    ∃ more, ((loop format offset messages).run (dispatchSem pattern) log).2 = log ++ more ∧
      OnlyLeft (offset ≤ ·) more := by
  induction messages generalizing offset log with
  | nil => exact ⟨[], (List.append_nil log).symm, nofun⟩
  | cons value rest ih =>
      obtain ⟨first, hfirst, hoffset⟩ := handle_log format pattern offset value log
      have hfirst' := hoffset.mono fun i hi => le_of_eq hi.symm
      rw [loop, Prog.run_bind]
      generalize (handle format offset value).run (dispatchSem pattern) log = out at hfirst
      obtain ⟨r, log'⟩ := out
      obtain rfl : log' = log ++ first := hfirst
      cases r with
      | error e => exact ⟨first, rfl, hfirst'⟩
      | ok u =>
          obtain ⟨later, hlater, hbound⟩ := ih (offset + 1) (log ++ first)
          refine ⟨first ++ later, hlater.trans (List.append_assoc ..), hfirst'.append ?_⟩
          exact hbound.mono fun i hi => Nat.le_of_succ_le hi

/-- Whether a command is accounted for is settled when it is handled. -/
theorem accounted_later {value : Json} {more : List DispatchEvent}
    (hmore : OnlyLeft (offset + 1 ≤ ·) more) :
    Accounted format offset value (log ++ more) ↔ Accounted format offset value log := by
  have hleft (topic : String) :
      .left offset topic value ∈ log ++ more ↔ DispatchEvent.left offset topic value ∈ log := by
    refine ⟨fun h => (List.mem_append.mp h).resolve_right fun h => ?_, List.mem_append_left _⟩
    obtain ⟨i, topic', value', heq, hi⟩ := hmore _ h
    injection heq with heq
    omega
  have hreported (commandId : Json) (status : String) :
      .reported commandId status ∈ log ++ more ↔
        DispatchEvent.reported commandId status ∈ log := by
    refine ⟨fun h => (List.mem_append.mp h).resolve_right fun h => ?_, List.mem_append_left _⟩
    obtain ⟨i, topic', value', heq, -⟩ := hmore _ h
    exact nomatch heq
  simp only [Accounted, hleft, hreported]

theorem not_accounted {value : Json} (hlog : OnlyLeft (· < offset) log) :
    ¬ Accounted format offset value log := by
  rintro (⟨topic, -, h⟩ | ⟨command, -, h⟩)
  · obtain ⟨i, topic', value', heq, hi⟩ := hlog _ h
    injection heq with heq
    omega
  · obtain ⟨i, topic', value', heq, -⟩ := hlog _ h
    exact nomatch heq

variable (format pattern) in
/-- A message that does not end the loop is accounted for exactly if it is
dispatched and accepted. -/
theorem accounted_handle {value : Json} (hlog : OnlyLeft (· < offset) log)
    (h : Survivable value) :
    Accounted format offset value
        ((handle format offset value).run (dispatchSem pattern) log).2 ↔
      Dispatchable value ∧ pattern offset = .accepted := by
  by_cases hleaves : Dispatchable value ∧ pattern offset = .accepted
  · obtain ⟨topic, htopic, hrun⟩ := handle_leaves format log hleaves.1 hleaves.2
    rw [hrun]
    exact iff_of_true (Or.inl ⟨topic, htopic, by simp⟩) hleaves
  · rw [handle_drops h hleaves]
    exact iff_of_false (not_accounted hlog) hleaves

variable (format pattern offset log) in
theorem handle_survives {value : Json} (h : Survivable value) :
    ∃ log', (handle format offset value).run (dispatchSem pattern) log = (.ok (), log') := by
  by_cases hleaves : Dispatchable value ∧ pattern offset = .accepted
  · obtain ⟨topic, -, hrun⟩ := handle_leaves format log hleaves.1 hleaves.2
    exact ⟨_, hrun⟩
  · exact ⟨_, handle_drops h hleaves⟩

theorem forall_getElem?_cons {value : Json} {rest : List Json} {Q : ℕ → Json → Prop} :
    (∀ (i : ℕ) v, (value :: rest)[i]? = some v → Q i v) ↔
      Q 0 value ∧ ∀ (i : ℕ) v, rest[i]? = some v → Q (i + 1) v := by
  refine ⟨fun h => ⟨h 0 value rfl, fun i v hv => h (i + 1) v hv⟩, fun h i v hv => ?_⟩
  cases i with
  | zero =>
      injection hv with hv
      exact hv ▸ h.1
  | succ i => exact h.2 i v hv

variable (format pattern messages) in
/-- What has left before the messages at hand does not matter. -/
theorem loop_accounts (hlog : OnlyLeft (· < offset) log) :
    ((∃ u, ((loop format offset messages).run (dispatchSem pattern) log).1 = .ok u) ∧
        ∀ (i : ℕ) v, messages[i]? = some v → WellFormed v →
          Accounted format (offset + i) v
            ((loop format offset messages).run (dispatchSem pattern) log).2) ↔
      ∀ (i : ℕ) v, messages[i]? = some v → Accountable v (pattern (offset + i)) := by
  induction messages generalizing offset log with
  | nil => exact iff_of_true ⟨⟨(), rfl⟩, nofun⟩ nofun
  | cons value rest ih =>
      rw [forall_getElem?_cons, forall_getElem?_cons]
      by_cases h : Survivable value
      · obtain ⟨log', hrun⟩ := handle_survives format pattern offset log h
        obtain ⟨first, hfirst, hoffset⟩ := handle_log format pattern offset value log
        have hsettled := accounted_handle format pattern hlog h
        rw [hrun] at hfirst hsettled
        have hlog' : OnlyLeft (· < offset + 1) log' := by
          rw [show log' = log ++ first from hfirst]
          refine (hlog.mono fun i hi => Nat.lt_succ_of_lt hi).append (hoffset.mono fun i hi => ?_)
          exact Nat.lt_succ_of_le (le_of_eq hi)
        obtain ⟨later, hlater, hbound⟩ := loop_log format pattern (offset + 1) rest log'
        have hshift (i : ℕ) : offset + 1 + i = offset + (i + 1) := by omega
        have hrest := ih hlog'
        simp only [hshift] at hrest
        rw [loop, Prog.run_bind, hrun]
        simp only [Nat.add_zero]
        rw [← hrest, and_left_comm, hlater, accounted_later hbound, hsettled, Accountable,
          and_iff_right h]
      · refine iff_of_false ?_ fun hall => h hall.1.1
        rintro ⟨⟨u, hu⟩, -⟩
        obtain ⟨e, hrun⟩ := handle_ends format pattern offset log h
        rw [loop, Prog.run_bind, hrun] at hu
        exact nomatch hu

/-- **No command is lost.** The loop is still waiting for messages and every
command has left for its device, or is reported as failed, exactly if no message
ends the loop, and every command has its three fields filled in and is accepted
when it is published. -/
theorem commands_accounted_iff (format : Json → String) (pattern : ℕ → PublishOutcome)
    (messages : List Json) :
    (((run format 0 messages).run (dispatchSem pattern) []).1 = .ok true ∧
        ∀ (i : ℕ) v, messages[i]? = some v → WellFormed v →
          Accounted format i v ((run format 0 messages).run (dispatchSem pattern) []).2) ↔
      ∀ (i : ℕ) v, messages[i]? = some v → Accountable v (pattern i) := by
  have hnothing : OnlyLeft (· < 0) [] := nofun
  have hloop := loop_accounts format pattern messages hnothing
  simp only [Nat.zero_add] at hloop
  rw [← hloop, run, Prog.run_attempt, Prog.run_bind]
  generalize (loop format 0 messages).run (dispatchSem pattern) [] = out
  obtain ⟨r, log⟩ := out
  cases r <;> simp

end Loop

end Format

/-! ### Two losses -/

/-- Formatting, as far as texts are concerned. -/
def textOf : Json → String
  | .str s => s
  | _ => "None"

def startCharging : Json := .obj [
  ("command_id", .str "c1"), ("device_id", .str "EV001"), ("device_type", .str "ev_charger"),
  ("command_type", .str "start_charging")]

/-- A message that is no object ends the loop in front of a command, and a
command whose publish raises is forgotten. -/
theorem commands_lost :
    ¬ (((run textOf 0 [.str "ping", startCharging]).run (dispatchSem fun _ => .accepted) []).1 =
          .ok true ∧
        ∀ (i : ℕ) v, [.str "ping", startCharging][i]? = some v → WellFormed v →
          Accounted textOf i v ((run textOf 0 [.str "ping", startCharging]).run
            (dispatchSem fun _ => .accepted) []).2) ∧
      ¬ (((run textOf 0 [startCharging]).run
            (dispatchSem fun _ => .raises "invalid topic") []).1 = .ok true ∧
        ∀ (i : ℕ) v, [startCharging][i]? = some v → WellFormed v →
          Accounted textOf i v ((run textOf 0 [startCharging]).run
            (dispatchSem fun _ => .raises "invalid topic") []).2) := by
  have hwellFormed : WellFormed startCharging := by decide
  refine ⟨fun h => ?_, fun h => ?_⟩
  · have hended : ((run textOf 0 [.str "ping", startCharging]).run
        (dispatchSem fun _ => .accepted) []).1 = .ok false := rfl
    exact absurd (hended.symm.trans h.1) (by simp)
  · have hnothing : ((run textOf 0 [startCharging]).run
        (dispatchSem fun _ => .raises "invalid topic") []).2 = [] := rfl
    have haccounted := h.2 0 startCharging rfl hwellFormed
    rw [hnothing] at haccounted
    exact not_accounted (fun _ he => absurd he List.not_mem_nil) haccounted

end DiepLab.Dispatcher
