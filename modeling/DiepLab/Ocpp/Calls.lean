import DiepLab.Library.Protocol
import DiepLab.Ocpp.Csms

/-!
Commands to charge points.

A command is put to its charge point as a CALL and answered with a CALLRESULT, on the thread of
some connection, while the thread of the command waits. What joins the two is the id of the CALL:
the waiting thread leaves a dictionary under it, the answering thread fills that in and sets its
event, and whoever waits takes it out. None of this is done under a lock. Any number of commands
and of answers, expected or not, from whichever charge point, may run at once, and the registry may
change under them; every access to what they share is a statement of its own here.

A command is acknowledged only if its own CALL has been answered so (`acked_answered`). The ids
are what this rests on: `uuid4` draws none twice.
-/

namespace DiepLab.Ocpp

open StatementProgram

/-! ### The statements -/

inductive CallExc where
  | connectionError (text : String)
  | osError
  | typeError
  | attributeError
  | float (e : PyExc)

/-- A message on `diep/charger/<id>/cmd`. -/
structure ChargerCommand where
  commandId : PyValue
  chargerId : String
  commandType : String
  params : Dict PyValue

/-- What is asked of a charge point. -/
structure Request where
  chargerId : String
  action : String
  payload : PyValue

/-- A dictionary of `_pending`; its event is set when it is resolved. -/
structure Waiter extends Pending where
  uniqueId : String

inductive Outcome where
  | acked
  | failed (error : PyValue)

/-- What is published on `diep/charger/<id>/ack`. -/
structure Ack where
  command : ChargerCommand
  outcome : Outcome

structure CallStore where
  cps : Dict ChargePoint := []
  /-- The dictionaries that were made, whether or not `_pending` still has them. -/
  waiters : List Waiter := []
  pending : Dict ℕ := []
  /-- The CALLs that were sent, by their ids. -/
  sent : List (String × Request) := []
  /-- The CALLRESULTs and CALLERRORs that have come in. -/
  results : List (String × Bool × PyValue) := []
  /-- The ids of the CALLs whose sending raised something else than a `ConnectionError`. -/
  raised : List String := []
  acks : List Ack := []

inductive CallStmt where
  /-- `charger_id in self._cps`. -/
  | connected (chargerId : String)
  | getCp (chargerId : String)
  /-- `uuid4` and `self._pending[unique_id] = ...`. -/
  | register
  | sendCall (uniqueId : String) (request : Request)
  /-- `event.wait`: whether it is set when the wait ends. -/
  | wait (waiter : ℕ)
  | pop (uniqueId : String)
  | readOk (waiter : ℕ)
  | readPayload (waiter : ℕ)
  | publishAck (ack : Ack)
  /-- `self._pending.get`, for a result that has come in. -/
  | find (uniqueId : String) (ok : Bool) (payload : PyValue)
  | writeOk (waiter : ℕ) (ok : Bool)
  | writePayload (waiter : ℕ) (payload : PyValue)
  | setEvent (waiter : ℕ)

@[reducible] def CallResp : CallStmt → Type
  | .connected _ => Bool
  | .getCp _ => Option ChargePoint
  | .register => String × ℕ
  | .sendCall .. => Unit
  | .wait _ => Bool
  | .pop _ => Option ℕ
  | .readOk _ => Bool
  | .readPayload _ => PyValue
  | .publishAck _ => Unit
  | .find .. => Option ℕ
  | .writeOk .. => Unit
  | .writePayload .. => Unit
  | .setEvent _ => Unit

structure CallChoice where
  uuid : String := ""
  send : SendOutcome := .sent
  text : String := ""

def CallStore.write (s : CallStore) (waiter : ℕ) (f : Waiter → Waiter) : CallStore :=
  { s with waiters := s.waiters.modify waiter f }

/-- `_pending[uuid] = ...`. -/
def CallStore.registered (s : CallStore) (uuid : String) : CallStore :=
  { s with
    waiters := s.waiters ++ [{ uniqueId := uuid }]
    pending := s.pending.set uuid s.waiters.length }

@[simp] def callSem (c : CallChoice) :
    (q : CallStmt) → CallStore → Except CallExc (CallResp q) × CallStore
  | .connected chargerId, s => (.ok (s.cps.get? chargerId).isSome, s)
  | .getCp chargerId, s => (.ok (s.cps.get? chargerId), s)
  | .register, s => (.ok (c.uuid, s.waiters.length), s.registered c.uuid)
  | .sendCall uniqueId request, s =>
      match c.send with
      | .sent => (.ok (), { s with sent := s.sent ++ [(uniqueId, request)] })
      | .connectionError => (.error (.connectionError c.text), s)
      | .osError => (.error .osError, { s with raised := s.raised ++ [uniqueId] })
  | .wait waiter, s => (.ok (s.waiters[waiter]?.any fun w => w.resolved), s)
  | .pop uniqueId, s =>
      (.ok (s.pending.get? uniqueId), { s with pending := s.pending.pop uniqueId })
  | .readOk waiter, s => (.ok (s.waiters[waiter]?.any fun w => w.ok), s)
  | .readPayload waiter, s =>
      (.ok ((s.waiters[waiter]?.map fun w => w.payload).getD (.dict [])), s)
  | .publishAck ack, s => (.ok (), { s with acks := s.acks ++ [ack] })
  | .find uniqueId ok payload, s =>
      (.ok (s.pending.get? uniqueId), { s with results := s.results ++ [(uniqueId, ok, payload)] })
  | .writeOk waiter ok, s => (.ok (), s.write waiter fun w => { w with ok := ok })
  | .writePayload waiter payload, s =>
      (.ok (), s.write waiter fun w => { w with payload := payload })
  | .setEvent waiter, s => (.ok (), s.write waiter fun w => { w with resolved := true })

abbrev CallProg (α : Type) := Prog CallResp CallExc α

namespace Shared

abbrev connected (chargerId : String) : CallProg Bool := Prog.call (CallStmt.connected chargerId)

abbrev getCp (chargerId : String) : CallProg (Option ChargePoint) :=
  Prog.call (CallStmt.getCp chargerId)

abbrev register : CallProg (String × ℕ) := Prog.call CallStmt.register

abbrev sendCall (uniqueId : String) (request : Request) : CallProg Unit :=
  Prog.call (CallStmt.sendCall uniqueId request)

abbrev wait (waiter : ℕ) : CallProg Bool := Prog.call (CallStmt.wait waiter)

abbrev pop (uniqueId : String) : CallProg (Option ℕ) := Prog.call (CallStmt.pop uniqueId)

abbrev readOk (waiter : ℕ) : CallProg Bool := Prog.call (CallStmt.readOk waiter)

abbrev readPayload (waiter : ℕ) : CallProg PyValue := Prog.call (CallStmt.readPayload waiter)

abbrev publishAck (ack : Ack) : CallProg Unit := Prog.call (CallStmt.publishAck ack)

abbrev find (uniqueId : String) (ok : Bool) (payload : PyValue) : CallProg (Option ℕ) :=
  Prog.call (CallStmt.find uniqueId ok payload)

abbrev writeOk (waiter : ℕ) (ok : Bool) : CallProg Unit := Prog.call (CallStmt.writeOk waiter ok)

abbrev writePayload (waiter : ℕ) (payload : PyValue) : CallProg Unit :=
  Prog.call (CallStmt.writePayload waiter payload)

abbrev setEvent (waiter : ℕ) : CallProg Unit := Prog.call (CallStmt.setEvent waiter)

end Shared

/-! ### The programs -/

/-- `_charging_profile`. -/
def chargingProfile (limitKw : Double) : PyValue :=
  .dict [
    ("chargingProfileId", .num (.int 1)), ("stackLevel", .num (.int 0)),
    ("chargingProfilePurpose", .str "TxDefaultProfile"),
    ("chargingProfileKind", .str "Absolute"),
    ("chargingSchedule", .dict [
      ("chargingRateUnit", .str "W"),
      ("chargingSchedulePeriod", .list [.dict [
        ("startPeriod", .num (.int 0)),
        ("limit", .num (.float (limitKw.mul (Double.ofRat 1000))))]])])]

section Programs

variable (readFloat : String → Option Double) (format : PyValue → String)

def float (v : PyValue) : Except CallExc Double := (toFloat readFloat v).mapError .float

/-- What `send_command` asks of the charge point, or why it asks nothing. -/
def requestOf (command : ChargerCommand) (cp : ChargePoint) :
    Except CallExc (Except String Request) :=
  let ask (action : String) (payload : Dict PyValue) : Except String Request :=
    .ok ⟨command.chargerId, action, .dict payload⟩
  if command.commandType = "start_charging" then
    let payload := [("idTag", .str "DIEP"), ("connectorId", .num (.int 1))]
    match command.params.get? "max_power_kw" with
    | none => pure (ask "RemoteStartTransaction" payload)
    | some .none => pure (ask "RemoteStartTransaction" payload)
    | some limitKw => do
        let limitKw ← float readFloat limitKw
        pure (ask "RemoteStartTransaction"
          (payload ++ [("chargingProfile", chargingProfile limitKw)]))
  else if command.commandType = "stop_charging" then
    pure (ask "RemoteStopTransaction" [("transactionId", .num (.int cp.transactionId))])
  else if command.commandType = "set_limit" then
    match command.params.get? "max_power_kw" with
    | none => pure (.error "set_limit requires params.max_power_kw")
    | some limitKw => do
        let limitKw ← float readFloat limitKw
        pure (ask "SetChargingProfile"
          [("connectorId", .num (.int 1)), ("csChargingProfiles", chargingProfile limitKw)])
  else pure (.error s!"unsupported command '{command.commandType}'")

/-- `{"error": text}`. -/
def errorPayload (text : String) : PyValue := .dict [("error", .str text)]

/-- `_call`. -/
def call (request : Request) : CallProg (Bool × PyValue) := do
  match ← Shared.getCp request.chargerId with
  | none => pure (false, errorPayload s!"charge point '{request.chargerId}' not connected")
  | some _ => do
      let (uniqueId, waiter) ← Shared.register
      let failed ← tryCatch
        (do
          Shared.sendCall uniqueId request
          pure none)
        fun
          | .connectionError text => pure (some text)
          | exc => throw exc
      match failed with
      | some text => do
          let _ ← Shared.pop uniqueId
          pure (false, errorPayload text)
      | none => do
          if ← Shared.wait waiter then
            match ← Shared.pop uniqueId with
            | none => pure (false, .dict [])
            | some waiter => do
                let ok ← Shared.readOk waiter
                let payload ← Shared.readPayload waiter
                pure (ok, payload)
          else
            let _ ← Shared.pop uniqueId
            pure (false, errorPayload s!"timeout awaiting {request.action} result")

/-- `_ack_from`. -/
def ackFrom (ok : Bool) (resp : PyValue) : Except CallExc Outcome :=
  if ok then
    match if resp.truthy then resp else .dict [] with
    | .dict fields =>
        let status := (Dict.get? fields "status").getD (.str "Accepted")
        if text? status ∈ [some "Accepted", some "Scheduled"] then .ok .acked
        else .ok (.failed (.str s!"charge point returned status '{format status}'"))
    | _ => .error .attributeError
  else
    match resp with
    | .dict fields => .ok (.failed ((Dict.get? fields "error").getD (.str "call error")))
    | _ => .error .attributeError

/-- `send_command`. -/
def sendCommand (command : ChargerCommand) : CallProg Outcome := do
  match ← Shared.getCp command.chargerId with
  | none => pure (.failed (.str s!"charge point '{command.chargerId}' not connected"))
  | some cp =>
      match requestOf readFloat command cp with
      | .error exc => throw exc
      | .ok (.error text) => pure (.failed (.str text))
      | .ok (.ok request) => do
          let (ok, resp) ← call request
          match ackFrom format ok resp with
          | .error exc => throw exc
          | .ok outcome => pure outcome

/-- `_on_command`. -/
def onCommand (command : ChargerCommand) : CallProg Unit := do
  if ← Shared.connected command.chargerId then
    let outcome ← sendCommand readFloat format command
    Shared.publishAck ⟨command, outcome⟩

/-- `_resolve_pending`, statement by statement. -/
def resolvePendingSteps (uniqueId : PyValue) (ok : Bool) (payload : PyValue) : CallProg Unit :=
  if uniqueId.key? = none then throw .typeError
  else
    match text? uniqueId with
    | none => pure ()
    | some id => do
        match ← Shared.find id ok payload with
        | none => pure ()
        | some waiter => do
            Shared.writeOk waiter ok
            Shared.writePayload waiter payload
            Shared.setEvent waiter

/-- What the threads of the central system are called for. -/
inductive CsmsCall where
  | command (command : ChargerCommand)
  | result (uniqueId : PyValue) (ok : Bool) (payload : PyValue)

def CsmsCall.serve : CsmsCall → CallProg Unit
  | .command cmd => onCommand readFloat format cmd
  | .result uniqueId ok payload => resolvePendingSteps uniqueId ok payload

/-- Charge points come, go and report: the registry is another one. -/
def registryChanges (cps : Dict ChargePoint) (s : CallStore) : CallStore := { s with cps := cps }

/-- `uuid4` draws no id twice. -/
def FreshIds (c : CallChoice) : CallStmt → CallStore → Prop
  | .register, s => c.uuid ∉ s.waiters.map Waiter.uniqueId
  | _, _ => True

instance (c : CallChoice) (q : CallStmt) (s : CallStore) : Decidable (FreshIds c q s) := by
  cases q <;> unfold FreshIds <;> infer_instance

abbrev CallSchedule := List (Event CallChoice CsmsCall (Dict ChargePoint))

/-- A schedule of threads that have yet to start. -/
abbrev callRun (schedule : CallSchedule) : Config CallResp CallExc Unit CallStore :=
  Config.run callSem (CsmsCall.serve readFloat format) registryChanges ⟨{}, []⟩ schedule

/-- No id is drawn twice in the schedule. -/
abbrev AllFresh (schedule : CallSchedule) : Prop :=
  (⟨{}, []⟩ : Config CallResp CallExc Unit CallStore).AllSteps callSem
    (CsmsCall.serve readFloat format) registryChanges FreshIds schedule

end Programs

/-! ### Phases -/

/-- Where a thread stands. The thread of a command has the id and the dictionary of its CALL and
what it has read of the result; the thread of a result has the dictionary that it fills in. -/
inductive CallPhase where
  | idle
  | registered (id : String) (w : ℕ)
  | sent (id : String) (w : ℕ) (r : Request)
  | woken (id : String) (w : ℕ) (r : Request)
  /-- The CALL was not sent, or there is no result in time. -/
  | expired (id : String) (w : ℕ)
  /-- The sending raised something else than a `ConnectionError`. -/
  | stuck (id : String) (w : ℕ)
  | reading (id : String) (w : ℕ) (r : Request)
  | okRead (id : String) (w : ℕ) (r : Request) (ok : Bool)
  | answered (id : String) (r : Request) (ok : Bool) (p : PyValue)
  | found (w : ℕ) (ok : Bool) (p : PyValue)
  | okWritten (w : ℕ) (ok : Bool) (p : PyValue)
  | written (w : ℕ)

namespace CallPhase

/-- The id of the CALL that the thread makes. -/
def id? : CallPhase → Option String
  | idle => none
  | registered id _ => some id
  | sent id _ _ => some id
  | woken id _ _ => some id
  | expired id _ => some id
  | stuck id _ => some id
  | reading id _ _ => some id
  | okRead id _ _ _ => some id
  | answered id _ _ _ => some id
  | found .. => none
  | okWritten .. => none
  | written _ => none

/-- What `_pending` has for the thread. -/
def holds? : CallPhase → Option (String × ℕ)
  | registered id w => some (id, w)
  | sent id w _ => some (id, w)
  | woken id w _ => some (id, w)
  | expired id w => some (id, w)
  | stuck id w => some (id, w)
  | _ => none

/-- The thread may end here. -/
def Final : CallPhase → Prop
  | registered .. => False
  | sent .. => False
  | woken .. => False
  | expired .. => False
  | _ => True

end CallPhase

/-- The payload of a result says that what was asked for is done. -/
def Accepts (payload : PyValue) : Prop :=
  payload.truthy = false ∨ ∃ fields, payload = .dict fields ∧
    text? ((Dict.get? fields "status").getD (.str "Accepted")) ∈ [some "Accepted", some "Scheduled"]

/-- A command that is answered so is acknowledged. -/
def Grants (readFloat : String → Option Double) (command : ChargerCommand) (r : Request)
    (ok : Bool) (payload : PyValue) : Prop :=
  ok = true ∧ Accepts payload ∧ ∃ cp, requestOf readFloat command cp = .ok (.ok r)

open Classical in
/-- The phase after a statement. -/
@[simp] noncomputable def callNext (readFloat : String → Option Double) :
    CallPhase → (q : CallStmt) → Except CallExc (CallResp q) → Option CallPhase
  | .idle, q, a =>
      match q, a with
      | .connected _, _ => some .idle
      | .getCp _, _ => some .idle
      | .register, .ok (id, w) => some (.registered id w)
      | .register, .error _ => some .idle
      | .publishAck ack, _ => if ack.outcome = .acked then none else some .idle
      | .find _ ok p, .ok (some w) => some (.found w ok p)
      | .find .., _ => some .idle
      | _, _ => none
  | .registered id w, q, a =>
      match q, a with
      | .sendCall id' r, .ok _ => if id' = id then some (.sent id w r) else none
      | .sendCall id' _, .error (.connectionError _) =>
          if id' = id then some (.expired id w) else none
      | .sendCall id' _, .error _ => if id' = id then some (.stuck id w) else none
      | _, _ => none
  | .sent id w r, q, a =>
      match q, a with
      | .wait w', .ok true => if w' = w then some (.woken id w r) else none
      | .wait w', .ok false => if w' = w then some (.expired id w) else none
      | .wait w', .error _ => if w' = w then some (.stuck id w) else none
      | _, _ => none
  | .woken id _ r, q, a =>
      match q, a with
      | .pop id', .ok (some w) => if id' = id then some (.reading id w r) else none
      | .pop id', _ => if id' = id then some .idle else none
      | _, _ => none
  | .expired id _, q, _ =>
      match q with
      | .pop id' => if id' = id then some .idle else none
      | _ => none
  | .stuck .., _, _ => none
  | .reading id w r, q, a =>
      match q, a with
      | .readOk w', .ok ok => if w' = w then some (.okRead id w r ok) else none
      | .readOk w', .error _ => if w' = w then some .idle else none
      | _, _ => none
  | .okRead id w r ok, q, a =>
      match q, a with
      | .readPayload w', .ok p => if w' = w then some (.answered id r ok p) else none
      | .readPayload w', .error _ => if w' = w then some .idle else none
      | _, _ => none
  | .answered _ r ok p, q, _ =>
      match q with
      | .publishAck ack =>
          if ack.outcome = .acked → Grants readFloat ack.command r ok p then some .idle else none
      | _ => none
  | .found w ok p, q, _ =>
      match q with
      | .writeOk w' ok' => if w' = w ∧ ok' = ok then some (.okWritten w ok p) else none
      | _ => none
  | .okWritten w _ p, q, _ =>
      match q with
      | .writePayload w' p' => if w' = w ∧ p' = p then some (.written w) else none
      | _ => none
  | .written w, q, _ =>
      match q with
      | .setEvent w' => if w' = w then some .idle else none
      | _ => none

noncomputable def callProtocol (readFloat : String → Option Double) :
    Protocol CallResp CallExc CallPhase where
  next := callNext readFloat
  final := CallPhase.Final

section Follows

variable (readFloat : String → Option Double) (format : PyValue → String)

theorem ackFrom_acked {ok : Bool} {resp : PyValue} (h : ackFrom format ok resp = .ok .acked) :
    ok = true ∧ Accepts resp := by
  cases ok with
  | false => cases resp <;> simp [ackFrom] at h
  | true =>
      refine ⟨rfl, ?_⟩
      by_cases htruthy : resp.truthy = true
      · unfold ackFrom at h
        rw [if_pos rfl, if_pos htruthy] at h
        split at h
        · rename_i fields
          refine Or.inr ⟨fields, rfl, ?_⟩
          by_contra hstatus
          simp only [if_neg hstatus, Except.ok.injEq, reduceCtorEq] at h
        · cases h
      · exact Or.inl (Bool.eq_false_iff.mpr htruthy)

/-- How a call ends: with a failure of its own, or with the result that it has read. -/
def CallEnds (request : Request) (result : Except CallExc (Bool × PyValue)) (φ : CallPhase) :
    Prop :=
  match result with
  | .error _ => φ.Final
  | .ok (ok, resp) => (φ = .idle ∧ ok = false) ∨ ∃ id, φ = .answered id request ok resp

theorem giveUp_follows (request : Request) (id : String) (w : ℕ) (resp : PyValue) :
    (callProtocol readFloat).FollowsTo (CallEnds request) (.expired id w)
      (do let _ ← Shared.pop id; pure (false, resp)) :=
  Protocol.followsTo_bind.mpr <|
    (Protocol.followsTo_call (q := CallStmt.pop id)).mpr fun a => by
      refine ⟨.idle, if_pos rfl, ?_⟩
      cases a with
      | error e => trivial
      | ok _ => exact Or.inl ⟨rfl, rfl⟩

/-- The event is set, and the result is read. -/
theorem take_follows (request : Request) (id : String) (w : ℕ) :
    (callProtocol readFloat).FollowsTo (CallEnds request) (.woken id w request)
      (do
        match ← Shared.pop id with
        | none => pure (false, .dict [])
        | some waiter => do
            let ok ← Shared.readOk waiter
            let payload ← Shared.readPayload waiter
            pure (ok, payload)) := by
  refine Protocol.followsTo_bind.mpr
    ((Protocol.followsTo_call (q := CallStmt.pop id)).mpr fun a => ?_)
  rcases a with e | _ | w
  · exact ⟨.idle, if_pos rfl, trivial⟩
  · exact ⟨.idle, if_pos rfl, Or.inl ⟨rfl, rfl⟩⟩
  refine ⟨.reading id w request, if_pos rfl, Protocol.followsTo_bind.mpr
    ((Protocol.followsTo_call (q := CallStmt.readOk w)).mpr fun a => ?_)⟩
  rcases a with e | ok
  · exact ⟨.idle, if_pos rfl, trivial⟩
  refine ⟨.okRead id w request ok, if_pos rfl, Protocol.followsTo_bind.mpr
    ((Protocol.followsTo_call (q := CallStmt.readPayload w)).mpr fun a => ?_)⟩
  rcases a with e | payload
  · exact ⟨.idle, if_pos rfl, trivial⟩
  · exact ⟨.answered id request ok payload, if_pos rfl, Or.inr ⟨id, rfl⟩⟩

theorem call_follows (request : Request) :
    (callProtocol readFloat).FollowsTo (CallEnds request) .idle (call request) := by
  refine Protocol.followsTo_bind.mpr
    ((Protocol.followsTo_call (q := CallStmt.getCp _)).mpr fun a => ⟨.idle, rfl, ?_⟩)
  rcases a with e | _ | cp
  · trivial
  · exact Or.inl ⟨rfl, rfl⟩
  refine Protocol.followsTo_bind.mpr
    ((Protocol.followsTo_call (q := CallStmt.register)).mpr fun a => ?_)
  rcases a with e | ⟨id, w⟩
  · exact ⟨.idle, rfl, trivial⟩
  refine ⟨.registered id w, rfl, Protocol.followsTo_bind.mpr (Protocol.followsTo_attempt.mpr
    (Protocol.followsTo_bind.mpr
      ((Protocol.followsTo_call (q := CallStmt.sendCall id request)).mpr fun a => ?_)))⟩
  rcases a with (text | _ | _ | _ | _) | _
  · exact ⟨.expired id w, if_pos rfl, giveUp_follows readFloat request id w _⟩
  · exact ⟨.stuck id w, if_pos rfl, trivial⟩
  · exact ⟨.stuck id w, if_pos rfl, trivial⟩
  · exact ⟨.stuck id w, if_pos rfl, trivial⟩
  · exact ⟨.stuck id w, if_pos rfl, trivial⟩
  refine ⟨.sent id w request, if_pos rfl, Protocol.followsTo_bind.mpr
    ((Protocol.followsTo_call (q := CallStmt.wait w)).mpr fun a => ?_)⟩
  rcases a with e | _ | _
  · exact ⟨.stuck id w, if_pos rfl, trivial⟩
  · exact ⟨.expired id w, if_pos rfl, giveUp_follows readFloat request id w _⟩
  · exact ⟨.woken id w request, if_pos rfl, take_follows readFloat request id w⟩

/-- What is acknowledged is granted by the result that the thread has read. -/
def CommandEnds (command : ChargerCommand) (result : Except CallExc Outcome) (φ : CallPhase) :
    Prop :=
  match result with
  | .error _ => φ.Final
  | .ok outcome => (φ = .idle ∧ outcome ≠ .acked) ∨ ∃ id r ok p, φ = .answered id r ok p ∧
      (outcome = .acked → Grants readFloat command r ok p)

theorem sendCommand_follows (command : ChargerCommand) :
    (callProtocol readFloat).FollowsTo (CommandEnds readFloat command) .idle
      (sendCommand readFloat format command) := by
  refine Protocol.followsTo_bind.mpr
    ((Protocol.followsTo_call (q := CallStmt.getCp _)).mpr fun a => ⟨.idle, rfl, ?_⟩)
  rcases a with e | _ | cp
  · trivial
  · exact Or.inl ⟨rfl, Outcome.noConfusion⟩
  dsimp only
  cases hrequest : requestOf readFloat command cp with
  | error e => trivial
  | ok asked =>
      cases asked with
      | error text => exact Or.inl ⟨rfl, Outcome.noConfusion⟩
      | ok request =>
          refine Protocol.followsTo_bind.mpr
            ((call_follows readFloat request).mono fun result φ hends => ?_)
          rcases result with e | ⟨ok, resp⟩
          · exact hends
          dsimp only
          have hgrants {outcome : Outcome} (hack : ackFrom format ok resp = .ok outcome)
              (hacked : outcome = .acked) : Grants readFloat command request ok resp := by
            subst hacked
            obtain ⟨hok, haccepts⟩ := ackFrom_acked format hack
            exact ⟨hok, haccepts, cp, hrequest⟩
          rcases hends with ⟨rfl, rfl⟩ | ⟨id, rfl⟩
          · cases hack : ackFrom format false resp with
            | error e => trivial
            | ok outcome =>
                exact Or.inl ⟨rfl, fun hacked => Bool.noConfusion (hgrants hack hacked).1⟩
          · cases hack : ackFrom format ok resp with
            | error e => trivial
            | ok outcome => exact Or.inr ⟨id, request, ok, resp, rfl, hgrants hack⟩

theorem onCommand_follows (command : ChargerCommand) :
    (callProtocol readFloat).Follows .idle (onCommand readFloat format command) := by
  refine Protocol.followsTo_bind.mpr
    ((Protocol.followsTo_call (q := CallStmt.connected _)).mpr fun a => ⟨.idle, rfl, ?_⟩)
  rcases a with e | _ | _
  · trivial
  · trivial
  refine Protocol.followsTo_bind.mpr
    ((sendCommand_follows readFloat format command).mono fun result φ hends => ?_)
  rcases result with e | outcome
  · exact hends
  refine (Protocol.followsTo_call (q := CallStmt.publishAck _)).mpr fun a => ?_
  rcases hends with ⟨rfl, hfailed⟩ | ⟨id, r, ok, p, rfl, hgrants⟩
  · exact ⟨.idle, if_neg hfailed, trivial⟩
  · exact ⟨.idle, if_pos hgrants, trivial⟩

theorem resolvePendingSteps_follows (uniqueId : PyValue) (ok : Bool) (payload : PyValue) :
    (callProtocol readFloat).Follows .idle (resolvePendingSteps uniqueId ok payload) := by
  unfold resolvePendingSteps
  split
  · trivial
  split
  · trivial
  rename_i id _
  refine Protocol.followsTo_bind.mpr
    ((Protocol.followsTo_call (q := CallStmt.find id ok payload)).mpr fun a => ?_)
  rcases a with e | _ | w
  · exact ⟨.idle, rfl, trivial⟩
  · exact ⟨.idle, rfl, trivial⟩
  refine ⟨.found w ok payload, rfl, Protocol.followsTo_bind.mpr
    ((Protocol.followsTo_call (q := CallStmt.writeOk w ok)).mpr fun a =>
      ⟨.okWritten w ok payload, if_pos ⟨rfl, rfl⟩, ?_⟩)⟩
  rcases a with e | _
  · trivial
  refine Protocol.followsTo_bind.mpr
    ((Protocol.followsTo_call (q := CallStmt.writePayload w payload)).mpr fun a =>
      ⟨.written w, if_pos ⟨rfl, rfl⟩, ?_⟩)
  rcases a with e | _
  · trivial
  · exact (Protocol.followsTo_call (q := CallStmt.setEvent w)).mpr fun a =>
      ⟨.idle, if_pos rfl, by cases a <;> trivial⟩

theorem serve_follows (r : CsmsCall) :
    (callProtocol readFloat).Follows .idle (r.serve readFloat format) := by
  cases r with
  | command cmd => exact onCommand_follows readFloat format cmd
  | result uniqueId ok payload => exact resolvePendingSteps_follows readFloat uniqueId ok payload

end Follows

/-! ### What is on record -/

namespace CallStore

/-- The dictionary was made for the id. -/
def MadeFor (s : CallStore) (w : ℕ) (id : String) : Prop :=
  ∃ waiter, s.waiters[w]? = some waiter ∧ waiter.uniqueId = id

def Resolved (s : CallStore) (w : ℕ) : Prop :=
  ∃ waiter, s.waiters[w]? = some waiter ∧ waiter.resolved = true

/-- The payload in the dictionary is one that has come in under its id. -/
def Filled (s : CallStore) (w : ℕ) : Prop :=
  ∃ waiter, s.waiters[w]? = some waiter ∧
    ∃ ok, (waiter.uniqueId, ok, waiter.payload) ∈ s.results

/-- Nothing is forgotten. -/
structure Extends (s s' : CallStore) : Prop where
  madeFor : ∀ w id, s.MadeFor w id → s'.MadeFor w id
  resolved : ∀ w, s.Resolved w → s'.Resolved w
  filled : ∀ w, s.Filled w → s'.Filled w
  sent : s.sent ⊆ s'.sent
  results : s.results ⊆ s'.results
  raised : s.raised ⊆ s'.raised

/-- The dictionaries hold nothing but what has come in, each under an id of its own. -/
structure Recorded (s : CallStore) : Prop where
  nodup : (s.waiters.map fun w => w.uniqueId).Nodup
  pending : ∀ id w, s.pending.get? id = some w → s.MadeFor w id
  ok : ∀ (w : ℕ) (waiter : Waiter), s.waiters[w]? = some waiter → waiter.ok = true →
    ∃ p, (waiter.uniqueId, true, p) ∈ s.results
  filled : ∀ w, s.Resolved w → s.Filled w
  sentOnce : (s.sent.map Prod.fst).Nodup
  made : ∀ x ∈ s.sent, ∃ w, s.MadeFor w x.1

section Write

variable {s : CallStore} {w : ℕ} {f : Waiter → Waiter}

theorem getElem?_write (w' : ℕ) :
    (s.write w f).waiters[w']? =
      if w = w' then s.waiters[w']?.map f else s.waiters[w']? := by
  rw [write, List.getElem?_modify]
  split
  · rfl
  · exact Option.map_id_apply

/-- A dictionary after a write. -/
theorem of_getElem?_write {w' : ℕ} {waiter' : Waiter}
    (h : (s.write w f).waiters[w']? = some waiter') :
    ∃ waiter, s.waiters[w']? = some waiter ∧
      (waiter' = waiter ∨ (w = w' ∧ waiter' = f waiter)) := by
  rw [getElem?_write] at h
  split at h
  · rename_i heq
    obtain ⟨waiter, hwaiter, rfl⟩ := Option.map_eq_some_iff.mp h
    exact ⟨waiter, hwaiter, Or.inr ⟨heq, rfl⟩⟩
  · exact ⟨waiter', h, Or.inl rfl⟩

theorem exists_getElem?_write {w' : ℕ} {waiter : Waiter} (h : s.waiters[w']? = some waiter) :
    ∃ waiter', (s.write w f).waiters[w']? = some waiter' ∧
      (waiter' = waiter ∨ (w = w' ∧ waiter' = f waiter)) := by
  rw [getElem?_write, h]
  split
  · rename_i heq
    exact ⟨f waiter, rfl, Or.inr ⟨heq, rfl⟩⟩
  · exact ⟨waiter, rfl, Or.inl rfl⟩

/-- What a write has to keep. -/
structure Writes (s : CallStore) (w : ℕ) (f : Waiter → Waiter) : Prop where
  uniqueId : ∀ waiter, (f waiter).uniqueId = waiter.uniqueId
  resolved : ∀ waiter, waiter.resolved = true → (f waiter).resolved = true
  ok : ∀ waiter, s.waiters[w]? = some waiter → (f waiter).ok = true →
    waiter.ok = true ∨ ∃ p, (waiter.uniqueId, true, p) ∈ s.results
  payload : ∀ waiter, s.waiters[w]? = some waiter → (f waiter).payload = waiter.payload ∨
    ∃ ok, (waiter.uniqueId, ok, (f waiter).payload) ∈ s.results
  filled : ∀ waiter, s.waiters[w]? = some waiter → (f waiter).resolved = true →
    waiter.resolved = true ∨ s.Filled w

theorem Writes.extends (h : s.Writes w f) : s.Extends (s.write w f) where
  madeFor := by
    rintro w' id ⟨waiter, hwaiter, rfl⟩
    obtain ⟨waiter', hwaiter', rfl | ⟨rfl, rfl⟩⟩ :=
      exists_getElem?_write (w := w) (f := f) hwaiter
    · exact ⟨waiter', hwaiter', rfl⟩
    · exact ⟨_, hwaiter', h.uniqueId waiter⟩
  resolved := by
    rintro w' ⟨waiter, hwaiter, hresolved⟩
    obtain ⟨waiter', hwaiter', rfl | ⟨rfl, rfl⟩⟩ :=
      exists_getElem?_write (w := w) (f := f) hwaiter
    · exact ⟨waiter', hwaiter', hresolved⟩
    · exact ⟨_, hwaiter', h.resolved waiter hresolved⟩
  filled := by
    rintro w' ⟨waiter, hwaiter, ok, hresult⟩
    obtain ⟨waiter', hwaiter', rfl | ⟨rfl, rfl⟩⟩ :=
      exists_getElem?_write (w := w) (f := f) hwaiter
    · exact ⟨waiter', hwaiter', ok, hresult⟩
    · refine ⟨_, hwaiter', ?_⟩
      rw [h.uniqueId]
      rcases h.payload waiter hwaiter with hpayload | hpayload
      · exact ⟨ok, hpayload ▸ hresult⟩
      · exact hpayload
  sent := List.Subset.refl _
  results := List.Subset.refl _
  raised := List.Subset.refl _

theorem Writes.recorded (h : s.Writes w f) (hs : s.Recorded) : (s.write w f).Recorded where
  nodup := by
    have hids : (s.write w f).waiters.map (fun w => w.uniqueId) =
        s.waiters.map fun w => w.uniqueId := by
      refine List.ext_getElem? fun w' => ?_
      rw [List.getElem?_map, List.getElem?_map, getElem?_write]
      split
      · rw [Option.map_map]
        exact congrArg (Option.map · _) (funext h.uniqueId)
      · rfl
    rw [hids]
    exact hs.nodup
  pending := fun id w' hw' => h.extends.madeFor w' id (hs.pending id w' hw')
  ok := by
    intro w' waiter' hwaiter' hok
    obtain ⟨waiter, hwaiter, rfl | ⟨rfl, rfl⟩⟩ := of_getElem?_write hwaiter'
    · exact hs.ok w' waiter' hwaiter hok
    · rw [h.uniqueId]
      rcases h.ok waiter hwaiter hok with hold | hnew
      · exact hs.ok w waiter hwaiter hold
      · exact hnew
  filled := by
    rintro w' ⟨waiter', hwaiter', hresolved⟩
    obtain ⟨waiter, hwaiter, rfl | ⟨rfl, rfl⟩⟩ := of_getElem?_write hwaiter'
    · exact h.extends.filled w' (hs.filled w' ⟨waiter', hwaiter, hresolved⟩)
    · rcases h.filled waiter hwaiter hresolved with hold | hfilled
      · exact h.extends.filled w (hs.filled w ⟨waiter, hwaiter, hold⟩)
      · exact h.extends.filled w hfilled
  sentOnce := hs.sentOnce
  made := fun x hx => by
    obtain ⟨w', hw'⟩ := hs.made x hx
    exact ⟨w', h.extends.madeFor w' x.1 hw'⟩

end Write

section Grow

variable {s s' : CallStore}

/-- Whatever leaves the dictionaries alone extends the state. -/
theorem extends_of_waiters (hwaiters : s'.waiters = s.waiters) (hsent : s.sent ⊆ s'.sent)
    (hresults : s.results ⊆ s'.results) (hraised : s.raised ⊆ s'.raised) : s.Extends s' where
  madeFor := by
    rintro w id ⟨waiter, hwaiter, hid⟩
    exact ⟨waiter, hwaiters ▸ hwaiter, hid⟩
  resolved := by
    rintro w ⟨waiter, hwaiter, hresolved⟩
    exact ⟨waiter, hwaiters ▸ hwaiter, hresolved⟩
  filled := by
    rintro w ⟨waiter, hwaiter, ok, hresult⟩
    exact ⟨waiter, hwaiters ▸ hwaiter, ok, hresults hresult⟩
  sent := hsent
  results := hresults
  raised := hraised

theorem extends_of_eq (hwaiters : s'.waiters = s.waiters) (hsent : s'.sent = s.sent)
    (hresults : s'.results = s.results) (hraised : s'.raised = s.raised) : s.Extends s' :=
  extends_of_waiters hwaiters (hsent ▸ List.Subset.refl _) (hresults ▸ List.Subset.refl _)
    (hraised ▸ List.Subset.refl _)

theorem Recorded.of_waiters (h : s.Recorded) (hwaiters : s'.waiters = s.waiters)
    (hresults : s.results ⊆ s'.results)
    (hpending : ∀ id w, s'.pending.get? id = some w → s.MadeFor w id)
    (hsentOnce : (s'.sent.map Prod.fst).Nodup)
    (hmade : ∀ x ∈ s'.sent, ∃ w, s.MadeFor w x.1) : s'.Recorded where
  nodup := by
    rw [hwaiters]
    exact h.nodup
  pending id w hw := by
    obtain ⟨waiter, hwaiter, hid⟩ := hpending id w hw
    exact ⟨waiter, hwaiters ▸ hwaiter, hid⟩
  ok w waiter hwaiter hok := by
    obtain ⟨p, hp⟩ := h.ok w waiter (hwaiters ▸ hwaiter) hok
    exact ⟨p, hresults hp⟩
  filled := by
    rintro w ⟨waiter, hwaiter, hresolved⟩
    obtain ⟨waiter', hwaiter', ok, hok⟩ := h.filled w ⟨waiter, hwaiters ▸ hwaiter, hresolved⟩
    exact ⟨waiter', hwaiters ▸ hwaiter', ok, hresults hok⟩
  sentOnce := hsentOnce
  made x hx := by
    obtain ⟨w, waiter, hwaiter, hid⟩ := hmade x hx
    exact ⟨w, waiter, hwaiters ▸ hwaiter, hid⟩

variable {uuid : String}

theorem madeFor_registered : (s.registered uuid).MadeFor s.waiters.length uuid :=
  ⟨{ uniqueId := uuid }, List.getElem?_concat_length, rfl⟩

theorem getElem?_registered {w : ℕ} {waiter : Waiter}
    (h : (s.registered uuid).waiters[w]? = some waiter) :
    s.waiters[w]? = some waiter ∨ waiter = { uniqueId := uuid } :=
  phase_spawn h

theorem registered_getElem? {w : ℕ} {waiter : Waiter} (h : s.waiters[w]? = some waiter) :
    (s.registered uuid).waiters[w]? = some waiter := by
  obtain ⟨hw, -⟩ := List.getElem?_eq_some_iff.mp h
  rw [registered, List.getElem?_append_left hw]
  exact h

theorem extends_registered : s.Extends (s.registered uuid) where
  madeFor := by
    rintro w id ⟨waiter, hwaiter, hid⟩
    exact ⟨waiter, registered_getElem? hwaiter, hid⟩
  resolved := by
    rintro w ⟨waiter, hwaiter, hresolved⟩
    exact ⟨waiter, registered_getElem? hwaiter, hresolved⟩
  filled := by
    rintro w ⟨waiter, hwaiter, hfilled⟩
    exact ⟨waiter, registered_getElem? hwaiter, hfilled⟩
  sent := List.Subset.refl _
  results := List.Subset.refl _
  raised := List.Subset.refl _

theorem Recorded.registered (h : s.Recorded) (hfresh : uuid ∉ s.waiters.map fun w => w.uniqueId) :
    (s.registered uuid).Recorded where
  nodup := by
    rw [CallStore.registered, List.map_append, List.map_singleton]
    exact h.nodup.append (List.nodup_singleton _) (List.disjoint_singleton.mpr hfresh)
  pending id w hw := by
    rw [CallStore.registered, Dict.get?_set] at hw
    split at hw
    · rename_i heq
      obtain rfl := Option.some.inj hw
      exact heq ▸ madeFor_registered
    · exact extends_registered.madeFor w id (h.pending id w hw)
  ok w waiter hwaiter hok := by
    rcases getElem?_registered hwaiter with hold | rfl
    · exact h.ok w waiter hold hok
    · exact Bool.noConfusion hok
  filled := by
    rintro w ⟨waiter, hwaiter, hresolved⟩
    rcases getElem?_registered hwaiter with hold | rfl
    · exact extends_registered.filled w (h.filled w ⟨waiter, hold, hresolved⟩)
    · exact Bool.noConfusion hresolved
  sentOnce := h.sentOnce
  made x hx := by
    obtain ⟨w, hw⟩ := h.made x hx
    exact ⟨w, extends_registered.madeFor w x.1 hw⟩

/-- An id has one dictionary. -/
theorem MadeFor.unique (h : s.Recorded) {w w' : ℕ} {id : String} (hw : s.MadeFor w id)
    (hw' : s.MadeFor w' id) : w = w' := by
  obtain ⟨waiter, hwaiter, rfl⟩ := hw
  obtain ⟨waiter', hwaiter', hid⟩ := hw'
  obtain ⟨hlt, -⟩ := List.getElem?_eq_some_iff.mp hwaiter
  refine (List.getElem?_inj (by rwa [List.length_map]) h.nodup).mp ?_
  rw [List.getElem?_map, List.getElem?_map, hwaiter, hwaiter', Option.map_some, Option.map_some,
    hid]

end Grow

end CallStore

/-! ### The invariant -/

/-- What a phase says of the state. None of it is undone by others. -/
def CallPhase.Sound (s : CallStore) : CallPhase → Prop
  | idle => True
  | registered id w => s.MadeFor w id
  | sent id w r => s.MadeFor w id ∧ (id, r) ∈ s.sent
  | woken id w r => s.MadeFor w id ∧ (id, r) ∈ s.sent ∧ s.Resolved w
  | expired id w => s.MadeFor w id
  | stuck id w => s.MadeFor w id ∧ id ∈ s.raised
  | reading id w r => s.MadeFor w id ∧ (id, r) ∈ s.sent ∧ s.Resolved w
  | okRead id w r ok => s.MadeFor w id ∧ (id, r) ∈ s.sent ∧ s.Resolved w ∧
      (ok = true → ∃ p, (id, true, p) ∈ s.results)
  | answered id r ok p => (∃ w, s.MadeFor w id) ∧ (id, r) ∈ s.sent ∧
      (ok = true → ∃ p, (id, true, p) ∈ s.results) ∧ ∃ ok, (id, ok, p) ∈ s.results
  | found w ok p => ∃ id, s.MadeFor w id ∧ (id, ok, p) ∈ s.results
  | okWritten w ok p => ∃ id, s.MadeFor w id ∧ (id, ok, p) ∈ s.results
  | written w => s.Filled w

theorem CallPhase.Sound.mono {s s' : CallStore} (hext : s.Extends s') {φ : CallPhase}
    (h : φ.Sound s) : φ.Sound s' := by
  cases φ with
  | idle => trivial
  | registered id w => exact hext.madeFor w id h
  | sent id w r => exact ⟨hext.madeFor w id h.1, hext.sent h.2⟩
  | woken id w r => exact ⟨hext.madeFor w id h.1, hext.sent h.2.1, hext.resolved w h.2.2⟩
  | expired id w => exact hext.madeFor w id h
  | stuck id w => exact ⟨hext.madeFor w id h.1, hext.raised h.2⟩
  | reading id w r => exact ⟨hext.madeFor w id h.1, hext.sent h.2.1, hext.resolved w h.2.2⟩
  | okRead id w r ok =>
      obtain ⟨hmade, hsent, hresolved, hok⟩ := h
      refine ⟨hext.madeFor w id hmade, hext.sent hsent, hext.resolved w hresolved, fun htrue => ?_⟩
      obtain ⟨p, hp⟩ := hok htrue
      exact ⟨p, hext.results hp⟩
  | answered id r ok p =>
      obtain ⟨⟨w, hmade⟩, hsent, hok, b, hb⟩ := h
      refine ⟨⟨w, hext.madeFor w id hmade⟩, hext.sent hsent, fun htrue => ?_, b, hext.results hb⟩
      obtain ⟨p, hp⟩ := hok htrue
      exact ⟨p, hext.results hp⟩
  | found w ok p =>
      obtain ⟨id, hmade, hresult⟩ := h
      exact ⟨id, hext.madeFor w id hmade, hext.results hresult⟩
  | okWritten w ok p =>
      obtain ⟨id, hmade, hresult⟩ := h
      exact ⟨id, hext.madeFor w id hmade, hext.results hresult⟩
  | written w => exact hext.filled w h

theorem CallPhase.Sound.made {s : CallStore} {φ : CallPhase} (h : φ.Sound s) {id : String}
    (hid : φ.id? = some id) : ∃ w, s.MadeFor w id := by
  cases φ with
  | registered id' w => exact Option.some.inj hid ▸ ⟨w, h⟩
  | expired id' w => exact Option.some.inj hid ▸ ⟨w, h⟩
  | answered id' r ok p => exact Option.some.inj hid ▸ h.1
  | sent id' w r => exact Option.some.inj hid ▸ ⟨w, h.1⟩
  | woken id' w r => exact Option.some.inj hid ▸ ⟨w, h.1⟩
  | stuck id' w => exact Option.some.inj hid ▸ ⟨w, h.1⟩
  | reading id' w r => exact Option.some.inj hid ▸ ⟨w, h.1⟩
  | okRead id' w r ok => exact Option.some.inj hid ▸ ⟨w, h.1⟩
  | _ => cases hid

theorem CallPhase.id?_of_holds? {φ : CallPhase} {id : String} {w : ℕ}
    (h : φ.holds? = some (id, w)) : φ.id? = some id := by
  cases φ <;> first
    | exact congrArg some (Prod.mk.inj (Option.some.inj h)).1
    | cases h

/-- The CALL asks for what the command says, and a CALLRESULT with its id has come in, and an
accepted payload. -/
def Confirms (readFloat : String → Option Double) (s : CallStore) (ack : Ack)
    (x : String × Request) : Prop :=
  (∃ cp, requestOf readFloat ack.command cp = .ok (.ok x.2)) ∧
    (∃ p, (x.1, true, p) ∈ s.results) ∧ ∃ ok p, (x.1, ok, p) ∈ s.results ∧ Accepts p

theorem Confirms.mono {readFloat : String → Option Double} {s s' : CallStore}
    (hext : s.Extends s') {ack : Ack} {x : String × Request} (h : Confirms readFloat s ack x) :
    Confirms readFloat s' ack x := by
  obtain ⟨hcp, ⟨p, hp⟩, ok, q, hq, haccepts⟩ := h
  exact ⟨hcp, ⟨p, hext.results hp⟩, ok, q, hext.results hq, haccepts⟩

def Outcome.isAcked : Outcome → Bool
  | acked => true
  | failed _ => false

/-- The acknowledgements that say ACKED. -/
def CallStore.acked (s : CallStore) : List Ack := s.acks.filter fun ack => ack.outcome.isAcked

theorem CallStore.acked_append (s : CallStore) (ack : Ack) :
    ({ s with acks := s.acks ++ [ack] } : CallStore).acked =
      s.acked ++ if ack.outcome.isAcked then [ack] else [] := by
  rw [acked, acked, List.filter_append, List.filter_singleton, Bool.cond_eq_ite]

/-- The commands that were acknowledged were confirmed, each by a CALL of its own that no thread
is still at. -/
def Spent (readFloat : String → Option Double) (phases : List CallPhase) (s : CallStore) : Prop :=
  ∃ calls, List.Forall₂ (Confirms readFloat s) s.acked calls ∧ calls ⊆ s.sent ∧
    (calls.map Prod.fst).Nodup ∧ ∀ (i : ℕ) (φ : CallPhase) (id : String), phases[i]? = some φ →
      φ.id? = some id → id ∉ calls.map Prod.fst

/-- Every CALL has one thread, and what `_pending` has is a thread's. -/
structure Correlated (phases : List CallPhase) (s : CallStore) : Prop where
  recorded : s.Recorded
  sound : ∀ (i : ℕ) (φ : CallPhase), phases[i]? = some φ → φ.Sound s
  apart : ∀ (i j : ℕ) (φ ψ : CallPhase) (id : String), phases[i]? = some φ →
    phases[j]? = some ψ → φ.id? = some id → ψ.id? = some id → i = j
  holds : ∀ (i : ℕ) (φ : CallPhase) (id : String) (w : ℕ), phases[i]? = some φ →
    φ.holds? = some (id, w) → s.pending.get? id = some w
  held : ∀ (id : String) (w : ℕ), s.pending.get? id = some w →
    ∃ (i : ℕ) (φ : CallPhase), phases[i]? = some φ ∧ φ.holds? = some (id, w)
  unsent : ∀ (i : ℕ) (id : String) (w : ℕ), phases[i]? = some (.registered id w) →
    id ∉ s.sent.map Prod.fst
  raised : ∀ id ∈ s.raised, ∃ (i w : ℕ), phases[i]? = some (.stuck id w)

section Moves

variable {phases : List CallPhase} {s s' : CallStore} {i : ℕ} {φ φ' : CallPhase}

theorem phase_set_self (hi : phases[i]? = some φ) : (phases.set i φ')[i]? = some φ' := by
  obtain ⟨hlt, -⟩ := List.getElem?_eq_some_iff.mp hi
  exact List.getElem?_set_self hlt

theorem Spent.move {readFloat : String → Option Double} (h : Spent readFloat phases s)
    (hrecorded : s.Recorded) (hi : phases[i]? = some φ) (hext : s.Extends s')
    (hacked : s'.acked = s.acked)
    (hid : ∀ id, φ'.id? = some id → φ.id? = some id ∨ ∀ w, ¬ s.MadeFor w id) :
    Spent readFloat (phases.set i φ') s' := by
  obtain ⟨calls, hconfirmed, hsent, hnodup, hspent⟩ := h
  refine ⟨calls, ?_, List.Subset.trans hsent hext.sent, hnodup, fun j ψ id hj hψ => ?_⟩
  · rw [hacked]
    exact hconfirmed.imp fun ack x => Confirms.mono hext
  · rcases phase_set hj with ⟨rfl, rfl⟩ | ⟨-, hj⟩
    · rcases hid id hψ with hold | hfresh
      · exact hspent j φ id hi hold
      · intro hmem
        obtain ⟨x, hx, rfl⟩ := List.mem_map.mp hmem
        obtain ⟨w, hw⟩ := hrecorded.made x (hsent hx)
        exact hfresh w hw
    · exact hspent j ψ id hj hψ

namespace Correlated

variable (h : Correlated phases s) (hi : phases[i]? = some φ)
include h hi

theorem apart_set (hid : ∀ id, φ'.id? = some id → φ.id? = some id ∨ ∀ w, ¬ s.MadeFor w id)
    (a b : ℕ) (ψ χ : CallPhase) (id : String) (ha : (phases.set i φ')[a]? = some ψ)
    (hb : (phases.set i φ')[b]? = some χ) (hψ : ψ.id? = some id) (hχ : χ.id? = some id) :
    a = b := by
  rcases phase_set ha with ⟨rfl, rfl⟩ | ⟨-, ha'⟩ <;>
    rcases phase_set hb with ⟨rfl, rfl⟩ | ⟨-, hb'⟩
  · rfl
  · rcases hid id hψ with hold | hfresh
    · exact h.apart a b φ χ id hi hb' hold hχ
    · obtain ⟨w, hw⟩ := (h.sound b χ hb').made hχ
      exact absurd hw (hfresh w)
  · rcases hid id hχ with hold | hfresh
    · exact h.apart a b ψ φ id ha' hi hψ hold
    · obtain ⟨w, hw⟩ := (h.sound a ψ ha').made hψ
      exact absurd hw (hfresh w)
  · exact h.apart a b ψ χ id ha' hb' hψ hχ

/-- A thread that goes on and has the same in `_pending` as before. -/
theorem move (hrecorded : s'.Recorded) (hext : s.Extends s') (hsound : φ'.Sound s')
    (hpending : s'.pending = s.pending) (hholds : φ'.holds? = φ.holds?)
    (hid : ∀ id, φ'.id? = some id → φ.id? = some id)
    (hunsent : ∀ (j : ℕ) (id : String) (w : ℕ),
      (phases.set i φ')[j]? = some (.registered id w) → id ∉ s'.sent.map Prod.fst)
    (hraised : ∀ id ∈ s'.raised, ∃ (j w : ℕ), (phases.set i φ')[j]? = some (.stuck id w)) :
    Correlated (phases.set i φ') s' where
  recorded := hrecorded
  sound j ψ hj := by
    rcases phase_set hj with ⟨rfl, rfl⟩ | ⟨-, hj⟩
    · exact hsound
    · exact (h.sound j ψ hj).mono hext
  apart := h.apart_set hi fun id hφ' => Or.inl (hid id hφ')
  holds j ψ id w hj hψ := by
    rw [hpending]
    rcases phase_set hj with ⟨rfl, rfl⟩ | ⟨-, hj⟩
    · exact h.holds j φ id w hi (hholds ▸ hψ)
    · exact h.holds j ψ id w hj hψ
  held id w hw := by
    rw [hpending] at hw
    obtain ⟨j, ψ, hj, hψ⟩ := h.held id w hw
    by_cases hji : j = i
    · subst hji
      obtain rfl := Option.some.inj (hi.symm.trans hj)
      exact ⟨j, φ', phase_set_self hi, hholds.trans hψ⟩
    · exact ⟨j, ψ, (List.getElem?_set_ne (Ne.symm hji)).trans hj, hψ⟩
  unsent := hunsent
  raised := hraised

omit hi in
theorem unsent_set (hφ' : ∀ id w, φ' ≠ .registered id w) (hsent : s'.sent = s.sent) (j : ℕ)
    (id : String) (w : ℕ) (hj : (phases.set i φ')[j]? = some (.registered id w)) :
    id ∉ s'.sent.map Prod.fst := by
  rcases phase_set hj with ⟨-, hnew⟩ | ⟨-, hj⟩
  · exact absurd hnew.symm (hφ' id w)
  · rw [hsent]
    exact h.unsent j id w hj

theorem raised_set (hφ : ∀ id w, φ ≠ .stuck id w) (hraised : s'.raised = s.raised) (id : String)
    (hid : id ∈ s'.raised) : ∃ (j w : ℕ), (phases.set i φ')[j]? = some (.stuck id w) := by
  rw [hraised] at hid
  obtain ⟨j, w, hj⟩ := h.raised id hid
  have hji : i ≠ j := by
    rintro rfl
    exact hφ id w (Option.some.inj (hi.symm.trans hj))
  exact ⟨j, w, (List.getElem?_set_ne hji).trans hj⟩

/-- A thread that takes its id out of `_pending`. -/
theorem release {id : String} {w : ℕ} (hφ : φ.holds? = some (id, w)) (hstuck : φ ≠ .stuck id w)
    (hsound : φ'.Sound s) (hid : ∀ id', φ'.id? = some id' → φ.id? = some id')
    (hnone : φ'.holds? = none) :
    Correlated (phases.set i φ') { s with pending := s.pending.pop id } := by
  have hext : s.Extends { s with pending := s.pending.pop id } :=
    CallStore.extends_of_eq rfl rfl rfl rfl
  have hkeeps {id' : String} {w' : ℕ} (hw' : (s.pending.pop id).get? id' = some w') :
      id ≠ id' ∧ s.pending.get? id' = some w' := by
    rw [Dict.get?_pop] at hw'
    split at hw'
    · exact absurd hw' (Option.some_ne_none _).symm
    · rename_i hne
      exact ⟨hne, hw'⟩
  have hregistered (id' : String) (w' : ℕ) : φ' ≠ .registered id' w' := by
    rintro rfl
    cases hnone
  have hnotStuck (id' : String) (w' : ℕ) : φ ≠ .stuck id' w' := by
    rintro rfl
    obtain ⟨rfl, rfl⟩ := Prod.mk.inj (Option.some.inj hφ)
    exact hstuck rfl
  refine ⟨?_, ?_, h.apart_set hi fun id' hφ' => Or.inl (hid id' hφ'), ?_, ?_,
    h.unsent_set hregistered rfl, h.raised_set hi hnotStuck rfl⟩
  · exact h.recorded.of_waiters rfl (List.Subset.refl _)
      (fun id' w' hw' => h.recorded.pending id' w' (hkeeps hw').2) h.recorded.sentOnce
      h.recorded.made
  · intro j ψ hj
    rcases phase_set hj with ⟨-, rfl⟩ | ⟨-, hj⟩
    · exact hsound.mono hext
    · exact (h.sound j ψ hj).mono hext
  · intro j ψ id' w' hj hψ
    rcases phase_set hj with ⟨-, rfl⟩ | ⟨hji, hj⟩
    · exact absurd (hnone.symm.trans hψ) (Option.some_ne_none _).symm
    · rw [Dict.get?_pop, if_neg]
      · exact h.holds j ψ id' w' hj hψ
      · rintro rfl
        exact hji (h.apart j i ψ φ id hj hi (CallPhase.id?_of_holds? hψ)
          (CallPhase.id?_of_holds? hφ))
  · intro id' w' hw'
    obtain ⟨hne, hw'⟩ := hkeeps hw'
    obtain ⟨j, ψ, hj, hψ⟩ := h.held id' w' hw'
    refine ⟨j, ψ, (List.getElem?_set_ne ?_).trans hj, hψ⟩
    rintro rfl
    obtain rfl := Option.some.inj (hi.symm.trans hj)
    exact hne (Prod.mk.inj (Option.some.inj (hφ.symm.trans hψ))).1

/-- A thread that draws a new id. -/
theorem register (hφ : φ = .idle) {uuid : String}
    (hfresh : uuid ∉ s.waiters.map fun w => w.uniqueId) :
    Correlated (phases.set i (.registered uuid s.waiters.length)) (s.registered uuid) := by
  subst hφ
  have hunmade (w : ℕ) : ¬ s.MadeFor w uuid := by
    rintro ⟨waiter, hwaiter, rfl⟩
    exact hfresh (List.mem_map_of_mem (List.mem_of_getElem? hwaiter))
  have hext : s.Extends (s.registered uuid) := CallStore.extends_registered
  refine ⟨h.recorded.registered hfresh, ?_, h.apart_set hi fun id hid => Or.inr ?_, ?_, ?_, ?_,
    h.raised_set hi (fun id w => CallPhase.noConfusion) rfl⟩
  · intro j ψ hj
    rcases phase_set hj with ⟨-, rfl⟩ | ⟨-, hj⟩
    · exact CallStore.madeFor_registered
    · exact (h.sound j ψ hj).mono hext
  · exact Option.some.inj hid ▸ hunmade
  · intro j ψ id w hj hψ
    rw [CallStore.registered, Dict.get?_set]
    rcases phase_set hj with ⟨-, rfl⟩ | ⟨-, hj⟩
    · obtain ⟨rfl, rfl⟩ := Prod.mk.inj (Option.some.inj hψ)
      exact if_pos rfl
    · rw [if_neg]
      · exact h.holds j ψ id w hj hψ
      · rintro rfl
        obtain ⟨w', hw'⟩ := (h.sound j ψ hj).made (CallPhase.id?_of_holds? hψ)
        exact hunmade w' hw'
  · intro id w hw
    rw [CallStore.registered, Dict.get?_set] at hw
    split at hw
    · rename_i heq
      subst heq
      obtain rfl := Option.some.inj hw
      exact ⟨i, _, phase_set_self hi, rfl⟩
    · obtain ⟨j, ψ, hj, hψ⟩ := h.held id w hw
      refine ⟨j, ψ, (List.getElem?_set_ne ?_).trans hj, hψ⟩
      rintro rfl
      obtain rfl := Option.some.inj (hi.symm.trans hj)
      cases hψ
  · intro j id w hj
    rcases phase_set hj with ⟨-, heq⟩ | ⟨-, hj⟩
    · obtain ⟨rfl, rfl⟩ := CallPhase.registered.inj heq
      intro hmem
      obtain ⟨x, hx, rfl⟩ := List.mem_map.mp hmem
      obtain ⟨w, hw⟩ := h.recorded.made x hx
      exact hunmade w hw
    · exact h.unsent j id w hj

end Correlated

end Moves

/-! ### One statement -/

/-- The invariant of all threads. -/
def Coherent (readFloat : String → Option Double) (phases : List CallPhase) (s : CallStore) :
    Prop :=
  Correlated phases s ∧ Spent readFloat phases s

section Act

variable {readFloat : String → Option Double} {phases : List CallPhase} {s s' : CallStore} {i : ℕ}
variable {φ φ' : CallPhase} (h : Coherent readFloat phases s) (hi : phases[i]? = some φ)
include h hi

/-- A statement that changes neither who has which id nor what is sent. -/
theorem Coherent.quiet (hrecorded : s'.Recorded) (hext : s.Extends s') (hsound : φ'.Sound s')
    (hpending : s'.pending = s.pending) (hsent : s'.sent = s.sent) (hraised : s'.raised = s.raised)
    (hacked : s'.acked = s.acked) (hid : ∀ id, φ'.id? = some id → φ.id? = some id)
    (hholds : φ'.holds? = φ.holds?) (hregistered : ∀ id w, φ' ≠ .registered id w)
    (hstuck : ∀ id w, φ ≠ .stuck id w) : Coherent readFloat (phases.set i φ') s' :=
  ⟨h.1.move hi hrecorded hext hsound hpending hholds hid (h.1.unsent_set hregistered hsent)
    (h.1.raised_set hi hstuck hraised),
    h.2.move h.1.recorded hi hext hacked fun id hφ' => Or.inl (hid id hφ')⟩

/-- A statement that only reads. -/
theorem Coherent.looks (hsound : φ'.Sound s) (hid : ∀ id, φ'.id? = some id → φ.id? = some id)
    (hholds : φ'.holds? = φ.holds?) (hregistered : ∀ id w, φ' ≠ .registered id w)
    (hstuck : ∀ id w, φ ≠ .stuck id w) : Coherent readFloat (phases.set i φ') s :=
  h.quiet hi h.1.recorded (CallStore.extends_of_eq rfl rfl rfl rfl) hsound rfl rfl rfl rfl hid
    hholds hregistered hstuck

/-- A write to a dictionary. -/
theorem Coherent.writes {w : ℕ} {f : Waiter → Waiter} (hwrites : s.Writes w f)
    (hsound : φ'.Sound (s.write w f)) (hid : ∀ id, φ'.id? = some id → φ.id? = some id)
    (hholds : φ'.holds? = φ.holds?) (hregistered : ∀ id w, φ' ≠ .registered id w)
    (hstuck : ∀ id w, φ ≠ .stuck id w) : Coherent readFloat (phases.set i φ') (s.write w f) :=
  h.quiet hi (hwrites.recorded h.1.recorded) hwrites.extends hsound rfl rfl rfl rfl hid hholds
    hregistered hstuck

theorem Coherent.published_apart (hholds : φ.holds? = none) (acks : List Ack) :
    Correlated (phases.set i .idle) { s with acks := acks } := by
  refine h.1.move hi ?_ (CallStore.extends_of_eq rfl rfl rfl rfl) trivial rfl hholds.symm
    (fun _ hid => absurd hid (Option.some_ne_none _).symm)
    (h.1.unsent_set (fun _ _ => CallPhase.noConfusion) rfl) (h.1.raised_set hi ?_ rfl)
  · exact h.1.recorded.of_waiters rfl (List.Subset.refl _) h.1.recorded.pending
      h.1.recorded.sentOnce h.1.recorded.made
  · rintro id w rfl
    cases hholds

theorem Coherent.published (hholds : φ.holds? = none) {ack : Ack} (hack : ack.outcome ≠ .acked) :
    Coherent readFloat (phases.set i .idle) { s with acks := s.acks ++ [ack] } := by
  refine ⟨h.published_apart hi hholds _, h.2.move h.1.recorded hi
    (CallStore.extends_of_eq rfl rfl rfl rfl) ?_
    fun _ hid => absurd hid (Option.some_ne_none _).symm⟩
  rw [CallStore.acked_append, if_neg, List.append_nil]
  intro hacked
  cases houtcome : ack.outcome with
  | acked => exact hack houtcome
  | failed error => exact absurd hacked (by rw [houtcome]; exact Bool.false_ne_true)

end Act

section Phases

variable {readFloat : String → Option Double} {phases : List CallPhase} {s : CallStore} {i : ℕ}
variable {φ' : CallPhase} {c : CallChoice} {q : CallStmt} (h : Coherent readFloat phases s)
include h

theorem Coherent.act_idle (hi : phases[i]? = some .idle) (hfresh : FreshIds c q s)
    (hnext : callNext readFloat .idle q (callSem c q s).1 = some φ') :
    Coherent readFloat (phases.set i φ') (callSem c q s).2 := by
  have hlooks : Coherent readFloat (phases.set i .idle) s :=
    h.looks hi trivial (fun _ hid => hid) rfl (fun _ _ => CallPhase.noConfusion)
      fun _ _ => CallPhase.noConfusion
  cases q with
  | connected chargerId =>
      obtain rfl := Option.some.inj hnext
      exact hlooks
  | getCp chargerId =>
      obtain rfl := Option.some.inj hnext
      exact hlooks
  | register =>
      obtain rfl := Option.some.inj hnext
      refine ⟨h.1.register hi rfl hfresh, h.2.move h.1.recorded hi CallStore.extends_registered rfl
        fun id hid => Or.inr ?_⟩
      obtain rfl := Option.some.inj hid
      rintro w ⟨waiter, hwaiter, hid⟩
      exact hfresh (hid ▸ List.mem_map_of_mem (List.mem_of_getElem? hwaiter))
  | publishAck ack =>
      by_cases hack : ack.outcome = .acked
      · rw [callNext, if_pos hack] at hnext
        cases hnext
      · rw [callNext, if_neg hack] at hnext
        obtain rfl := Option.some.inj hnext
        exact h.published hi rfl hack
  | find id ok p =>
      have hrecorded : ({ s with results := s.results ++ [(id, ok, p)] } : CallStore).Recorded :=
        h.1.recorded.of_waiters rfl (List.subset_append_left _ _) h.1.recorded.pending
          h.1.recorded.sentOnce h.1.recorded.made
      have hext : s.Extends { s with results := s.results ++ [(id, ok, p)] } :=
        CallStore.extends_of_waiters rfl (List.Subset.refl _) (List.subset_append_left _ _)
          (List.Subset.refl _)
      simp only [callSem] at hnext ⊢
      cases hfind : s.pending.get? id with
      | none =>
          rw [hfind] at hnext
          obtain rfl := Option.some.inj hnext
          exact h.quiet hi hrecorded hext trivial rfl rfl rfl rfl (fun _ hid => hid) rfl
            (fun _ _ => CallPhase.noConfusion) fun _ _ => CallPhase.noConfusion
      | some w =>
          rw [hfind] at hnext
          obtain rfl := Option.some.inj hnext
          have hsound : (CallPhase.found w ok p).Sound
              { s with results := s.results ++ [(id, ok, p)] } :=
            ⟨id, hext.madeFor w id (h.1.recorded.pending id w hfind),
              List.mem_append_right _ (List.mem_singleton_self _)⟩
          exact h.quiet hi hrecorded hext hsound rfl rfl rfl rfl
            (fun _ hnone => absurd hnone (Option.some_ne_none _).symm) rfl
            (fun _ _ => CallPhase.noConfusion) fun _ _ => CallPhase.noConfusion
  | _ => cases hnext

/-- The CALL is sent. -/
theorem Coherent.calls {id : String} {w : ℕ} (hi : phases[i]? = some (.registered id w))
    (r : Request) :
    Coherent readFloat (phases.set i (.sent id w r)) { s with sent := s.sent ++ [(id, r)] } := by
  have hmade : s.MadeFor w id := h.1.sound i _ hi
  have hext : s.Extends { s with sent := s.sent ++ [(id, r)] } :=
    CallStore.extends_of_waiters rfl (List.subset_append_left _ _) (List.Subset.refl _)
      (List.Subset.refl _)
  refine ⟨h.1.move hi ?_ hext ⟨hmade, List.mem_append_right _ (List.mem_singleton_self _)⟩ rfl rfl
    (fun _ hid => hid) ?_ (h.1.raised_set hi (fun _ _ => CallPhase.noConfusion) rfl),
    h.2.move h.1.recorded hi hext rfl fun _ hid => Or.inl hid⟩
  · refine h.1.recorded.of_waiters rfl (List.Subset.refl _) h.1.recorded.pending ?_ ?_
    · rw [List.map_append, List.map_singleton]
      exact h.1.recorded.sentOnce.append (List.nodup_singleton _)
        (List.disjoint_singleton.mpr (h.1.unsent i id w hi))
    · intro x hx
      rcases List.mem_append.mp hx with hold | hnew
      · exact h.1.recorded.made x hold
      · obtain rfl := List.mem_singleton.mp hnew
        exact ⟨w, hmade⟩
  · intro j id' w' hj
    rcases phase_set hj with ⟨-, heq⟩ | ⟨hji, hj'⟩
    · cases heq
    · rw [List.map_append, List.map_singleton, List.mem_append, List.mem_singleton]
      rintro (hold | rfl)
      · exact h.1.unsent j id' w' hj' hold
      · exact hji (h.1.apart j i _ _ _ hj' hi rfl rfl)

/-- The sending raises, and the id is left in `_pending`. -/
theorem Coherent.raises {id : String} {w : ℕ} (hi : phases[i]? = some (.registered id w)) :
    Coherent readFloat (phases.set i (.stuck id w)) { s with raised := s.raised ++ [id] } := by
  have hmade : s.MadeFor w id := h.1.sound i _ hi
  have hext : s.Extends { s with raised := s.raised ++ [id] } :=
    CallStore.extends_of_waiters rfl (List.Subset.refl _) (List.Subset.refl _)
      (List.subset_append_left _ _)
  refine ⟨h.1.move hi ?_ hext ⟨hmade, List.mem_append_right _ (List.mem_singleton_self _)⟩ rfl rfl
    (fun _ hid => hid) (h.1.unsent_set (fun _ _ => CallPhase.noConfusion) rfl) ?_,
    h.2.move h.1.recorded hi hext rfl fun _ hid => Or.inl hid⟩
  · exact h.1.recorded.of_waiters rfl (List.Subset.refl _) h.1.recorded.pending
      h.1.recorded.sentOnce h.1.recorded.made
  · intro id' hid'
    rcases List.mem_append.mp hid' with hold | hnew
    · exact h.1.raised_set hi (fun _ _ => CallPhase.noConfusion) rfl id' hold
    · obtain rfl := List.mem_singleton.mp hnew
      exact ⟨i, w, phase_set_self hi⟩

theorem Coherent.act_registered {id : String} {w : ℕ} (hi : phases[i]? = some (.registered id w))
    (hnext : callNext readFloat (.registered id w) q (callSem c q s).1 = some φ') :
    Coherent readFloat (phases.set i φ') (callSem c q s).2 := by
  cases q with
  | sendCall id' r =>
      have hmade : s.MadeFor w id := h.1.sound i _ hi
      simp only [callSem] at hnext ⊢
      cases hsend : c.send with
      | sent =>
          simp only [hsend, callNext] at hnext ⊢
          split_ifs at hnext with heq
          obtain rfl := Option.some.inj hnext
          subst heq
          exact h.calls hi r
      | connectionError =>
          simp only [hsend, callNext] at hnext ⊢
          split_ifs at hnext with heq
          obtain rfl := Option.some.inj hnext
          exact h.looks hi hmade (fun _ hid => hid) rfl (fun _ _ => CallPhase.noConfusion)
            fun _ _ => CallPhase.noConfusion
      | osError =>
          simp only [hsend, callNext] at hnext ⊢
          split_ifs at hnext with heq
          obtain rfl := Option.some.inj hnext
          subst heq
          exact h.raises hi
  | _ => cases hnext

theorem Coherent.act_sent {id : String} {w : ℕ} {r : Request}
    (hi : phases[i]? = some (.sent id w r))
    (hnext : callNext readFloat (.sent id w r) q (callSem c q s).1 = some φ') :
    Coherent readFloat (phases.set i φ') (callSem c q s).2 := by
  cases q with
  | wait w' =>
      obtain ⟨hmade, hsent⟩ : s.MadeFor w id ∧ (id, r) ∈ s.sent := h.1.sound i _ hi
      simp only [callSem] at hnext ⊢
      cases hresolved : s.waiters[w']?.any fun w => w.resolved with
      | false =>
          simp only [hresolved, callNext] at hnext
          split_ifs at hnext with heq
          obtain rfl := Option.some.inj hnext
          exact h.looks hi hmade (fun _ hid => hid) rfl (fun _ _ => CallPhase.noConfusion)
            fun _ _ => CallPhase.noConfusion
      | true =>
          simp only [hresolved, callNext] at hnext
          split_ifs at hnext with heq
          obtain rfl := Option.some.inj hnext
          subst heq
          obtain ⟨waiter, hwaiter, htrue⟩ := (Option.any_eq_true _ _).mp hresolved
          exact h.looks hi ⟨hmade, hsent, waiter, hwaiter, htrue⟩ (fun _ hid => hid) rfl
            (fun _ _ => CallPhase.noConfusion) fun _ _ => CallPhase.noConfusion
  | _ => cases hnext

/-- The id is taken out of `_pending`. -/
theorem Coherent.takes {φ : CallPhase} (hi : phases[i]? = some φ) {id : String} {w : ℕ}
    (hφ : φ.holds? = some (id, w)) (hstuck : φ ≠ .stuck id w) (hsound : φ'.Sound s)
    (hid : ∀ id', φ'.id? = some id' → φ.id? = some id') (hnone : φ'.holds? = none) :
    Coherent readFloat (phases.set i φ') { s with pending := s.pending.pop id } :=
  ⟨h.1.release hi hφ hstuck hsound hid hnone, h.2.move h.1.recorded hi
    (CallStore.extends_of_eq rfl rfl rfl rfl) rfl fun id' hid' => Or.inl (hid id' hid')⟩

theorem Coherent.act_woken {id : String} {w : ℕ} {r : Request}
    (hi : phases[i]? = some (.woken id w r))
    (hnext : callNext readFloat (.woken id w r) q (callSem c q s).1 = some φ') :
    Coherent readFloat (phases.set i φ') (callSem c q s).2 := by
  cases q with
  | pop id' =>
      have hsound : (CallPhase.woken id w r).Sound s := h.1.sound i _ hi
      have hpending : s.pending.get? id = some w := h.1.holds i _ id w hi rfl
      by_cases heq : id' = id
      · subst heq
        simp only [callSem, hpending, callNext, if_true] at hnext ⊢
        obtain rfl := Option.some.inj hnext
        exact h.takes hi rfl CallPhase.noConfusion hsound (fun _ hid => hid) rfl
      · cases hpop : s.pending.get? id' <;>
          · simp only [callSem, hpop, callNext, if_neg heq] at hnext
            cases hnext
  | _ => cases hnext

theorem Coherent.act_expired {id : String} {w : ℕ} (hi : phases[i]? = some (.expired id w))
    (hnext : callNext readFloat (.expired id w) q (callSem c q s).1 = some φ') :
    Coherent readFloat (phases.set i φ') (callSem c q s).2 := by
  cases q with
  | pop id' =>
      simp only [callNext] at hnext
      split_ifs at hnext with heq
      obtain rfl := Option.some.inj hnext
      subst heq
      exact h.takes hi rfl CallPhase.noConfusion trivial
        (fun _ hid => absurd hid (Option.some_ne_none _).symm) rfl
  | _ => cases hnext

theorem Coherent.act_reading {id : String} {w : ℕ} {r : Request}
    (hi : phases[i]? = some (.reading id w r))
    (hnext : callNext readFloat (.reading id w r) q (callSem c q s).1 = some φ') :
    Coherent readFloat (phases.set i φ') (callSem c q s).2 := by
  cases q with
  | readOk w' =>
      obtain ⟨hmade, hsent, hresolved⟩ : s.MadeFor w id ∧ (id, r) ∈ s.sent ∧ s.Resolved w :=
        h.1.sound i _ hi
      simp only [callSem, callNext] at hnext ⊢
      split_ifs at hnext with heq
      obtain rfl := Option.some.inj hnext
      subst heq
      refine h.looks hi ⟨hmade, hsent, hresolved, fun hok => ?_⟩ (fun _ hid => hid) rfl
        (fun _ _ => CallPhase.noConfusion) fun _ _ => CallPhase.noConfusion
      obtain ⟨waiter, hwaiter, htrue⟩ := (Option.any_eq_true _ _).mp hok
      obtain ⟨waiter', hwaiter', rfl⟩ := hmade
      obtain rfl := Option.some.inj (hwaiter.symm.trans hwaiter')
      exact h.1.recorded.ok w' waiter hwaiter htrue
  | _ => cases hnext

theorem Coherent.act_okRead {id : String} {w : ℕ} {r : Request} {ok : Bool}
    (hi : phases[i]? = some (.okRead id w r ok))
    (hnext : callNext readFloat (.okRead id w r ok) q (callSem c q s).1 = some φ') :
    Coherent readFloat (phases.set i φ') (callSem c q s).2 := by
  cases q with
  | readPayload w' =>
      obtain ⟨hmade, hsent, hresolved, hok⟩ : s.MadeFor w id ∧ (id, r) ∈ s.sent ∧ s.Resolved w ∧
        (ok = true → ∃ p, (id, true, p) ∈ s.results) := h.1.sound i _ hi
      simp only [callSem, callNext] at hnext ⊢
      split_ifs at hnext with heq
      obtain rfl := Option.some.inj hnext
      subst heq
      obtain ⟨waiter, hwaiter, b, hfilled⟩ := h.1.recorded.filled w' hresolved
      rw [hwaiter]
      refine h.looks hi ⟨⟨w', hmade⟩, hsent, hok, b, ?_⟩ (fun _ hid => hid) rfl
        (fun _ _ => CallPhase.noConfusion) fun _ _ => CallPhase.noConfusion
      obtain ⟨waiter', hwaiter', rfl⟩ := hmade
      obtain rfl := Option.some.inj (hwaiter.symm.trans hwaiter')
      exact hfilled
  | _ => cases hnext

/-- A command is acknowledged by what its thread has read. -/
theorem Coherent.acknowledges {id : String} {r : Request} {ok : Bool} {p : PyValue}
    (hi : phases[i]? = some (.answered id r ok p)) {ack : Ack} (hack : ack.outcome = .acked)
    (hgrants : Grants readFloat ack.command r ok p) :
    Coherent readFloat (phases.set i .idle) { s with acks := s.acks ++ [ack] } := by
  obtain ⟨-, hsent, hok, b, hb⟩ : (∃ w, s.MadeFor w id) ∧ (id, r) ∈ s.sent ∧
    (ok = true → ∃ p, (id, true, p) ∈ s.results) ∧ ∃ ok, (id, ok, p) ∈ s.results :=
    h.1.sound i _ hi
  obtain ⟨hgranted, haccepts, hcp⟩ := hgrants
  obtain ⟨calls, hconfirmed, hcalls, hnodup, hspent⟩ := h.2
  refine ⟨h.published_apart hi rfl _, calls ++ [(id, r)], ?_, ?_, ?_, ?_⟩
  · rw [CallStore.acked_append, hack]
    exact List.rel_append hconfirmed (.cons ⟨hcp, hok hgranted, b, p, hb, haccepts⟩ .nil)
  · exact List.append_subset.mpr ⟨hcalls, List.cons_subset.mpr ⟨hsent, List.nil_subset _⟩⟩
  · rw [List.map_append, List.map_singleton]
    exact hnodup.append (List.nodup_singleton _)
      (List.disjoint_singleton.mpr (hspent i _ id hi rfl))
  · intro j ψ id' hj hψ
    rcases phase_set hj with ⟨-, rfl⟩ | ⟨hji, hj⟩
    · cases hψ
    · rw [List.map_append, List.map_singleton, List.mem_append, List.mem_singleton]
      rintro (hold | rfl)
      · exact hspent j ψ id' hj hψ hold
      · exact hji (h.1.apart j i ψ _ id' hj hi hψ rfl)

theorem Coherent.act_answered {id : String} {r : Request} {ok : Bool} {p : PyValue}
    (hi : phases[i]? = some (.answered id r ok p))
    (hnext : callNext readFloat (.answered id r ok p) q (callSem c q s).1 = some φ') :
    Coherent readFloat (phases.set i φ') (callSem c q s).2 := by
  cases q with
  | publishAck ack =>
      simp only [callNext] at hnext
      split_ifs at hnext with hgrants
      obtain rfl := Option.some.inj hnext
      by_cases hack : ack.outcome = .acked
      · exact h.acknowledges hi hack (hgrants hack)
      · exact h.published hi rfl hack
  | _ => cases hnext

theorem Coherent.act_found {w : ℕ} {ok : Bool} {p : PyValue}
    (hi : phases[i]? = some (.found w ok p))
    (hnext : callNext readFloat (.found w ok p) q (callSem c q s).1 = some φ') :
    Coherent readFloat (phases.set i φ') (callSem c q s).2 := by
  cases q with
  | writeOk w' ok' =>
      obtain ⟨id, hmade, hresult⟩ : ∃ id, s.MadeFor w id ∧ (id, ok, p) ∈ s.results :=
        h.1.sound i _ hi
      simp only [callNext] at hnext
      split_ifs at hnext with heq
      obtain rfl := Option.some.inj hnext
      obtain ⟨rfl, rfl⟩ := heq
      have hwrites : s.Writes w' fun w => { w with ok := ok' } := by
        refine ⟨fun _ => rfl, fun _ hresolved => hresolved, ?_, fun _ _ => Or.inl rfl,
          fun _ _ hresolved => Or.inl hresolved⟩
        intro waiter hwaiter hok
        obtain rfl : ok' = true := hok
        obtain ⟨waiter', hwaiter', rfl⟩ := hmade
        obtain rfl := Option.some.inj (hwaiter.symm.trans hwaiter')
        exact Or.inr ⟨p, hresult⟩
      exact h.writes hi hwrites ⟨id, hwrites.extends.madeFor w' id hmade, hresult⟩
        (fun _ hid => hid) rfl (fun _ _ => CallPhase.noConfusion) fun _ _ => CallPhase.noConfusion
  | _ => cases hnext

theorem Coherent.act_okWritten {w : ℕ} {ok : Bool} {p : PyValue}
    (hi : phases[i]? = some (.okWritten w ok p))
    (hnext : callNext readFloat (.okWritten w ok p) q (callSem c q s).1 = some φ') :
    Coherent readFloat (phases.set i φ') (callSem c q s).2 := by
  cases q with
  | writePayload w' p' =>
      obtain ⟨id, ⟨waiter, hwaiter, rfl⟩, hresult⟩ :
        ∃ id, s.MadeFor w id ∧ (id, ok, p) ∈ s.results := h.1.sound i _ hi
      simp only [callNext] at hnext
      split_ifs at hnext with heq
      obtain rfl := Option.some.inj hnext
      obtain ⟨rfl, rfl⟩ := heq
      have hwrites : s.Writes w' fun w => { w with payload := p' } := by
        refine ⟨fun _ => rfl, fun _ hresolved => hresolved, fun _ _ hok => Or.inl hok, ?_,
          fun _ _ hresolved => Or.inl hresolved⟩
        intro waiter' hwaiter'
        obtain rfl := Option.some.inj (hwaiter.symm.trans hwaiter')
        exact Or.inr ⟨ok, hresult⟩
      have hwritten : (s.write w' fun w => { w with payload := p' }).Filled w' := by
        refine ⟨{ waiter with payload := p' }, ?_, ok, hresult⟩
        rw [CallStore.getElem?_write, if_pos rfl, hwaiter, Option.map_some]
      exact h.writes hi hwrites hwritten
        (fun _ hid => absurd hid (Option.some_ne_none _).symm) rfl
        (fun _ _ => CallPhase.noConfusion) fun _ _ => CallPhase.noConfusion
  | _ => cases hnext

theorem Coherent.act_written {w : ℕ} (hi : phases[i]? = some (.written w))
    (hnext : callNext readFloat (.written w) q (callSem c q s).1 = some φ') :
    Coherent readFloat (phases.set i φ') (callSem c q s).2 := by
  cases q with
  | setEvent w' =>
      have hfilled : s.Filled w := h.1.sound i _ hi
      simp only [callNext] at hnext
      split_ifs at hnext with heq
      obtain rfl := Option.some.inj hnext
      subst heq
      have hwrites : s.Writes w' fun w => { w with resolved := true } :=
        ⟨fun _ => rfl, fun _ _ => rfl, fun _ _ hok => Or.inl hok, fun _ _ => Or.inl rfl,
          fun _ _ _ => Or.inr hfilled⟩
      exact h.writes hi hwrites trivial (fun _ hid => hid) rfl
        (fun _ _ => CallPhase.noConfusion) fun _ _ => CallPhase.noConfusion
  | _ => cases hnext

theorem Coherent.act {φ : CallPhase} (hi : phases[i]? = some φ) (hfresh : FreshIds c q s)
    (hnext : callNext readFloat φ q (callSem c q s).1 = some φ') :
    Coherent readFloat (phases.set i φ') (callSem c q s).2 := by
  cases φ with
  | idle => exact h.act_idle hi hfresh hnext
  | registered id w => exact h.act_registered hi hnext
  | sent id w r => exact h.act_sent hi hnext
  | woken id w r => exact h.act_woken hi hnext
  | expired id w => exact h.act_expired hi hnext
  | stuck id w => cases hnext
  | reading id w r => exact h.act_reading hi hnext
  | okRead id w r ok => exact h.act_okRead hi hnext
  | answered id r ok p => exact h.act_answered hi hnext
  | found w ok p => exact h.act_found hi hnext
  | okWritten w ok p => exact h.act_okWritten hi hnext
  | written w => exact h.act_written hi hnext

end Phases

/-! ### All threads -/

section Runs

variable (readFloat : String → Option Double) (format : PyValue → String)

theorem coherent_start : Coherent readFloat [] ({} : CallStore) := by
  have hempty {α : Type} {i : ℕ} {a : α} (h : ([] : List α)[i]? = some a) : False :=
    Option.some_ne_none a (h.symm.trans List.getElem?_nil)
  refine ⟨⟨⟨List.nodup_nil, ?_, ?_, ?_, List.nodup_nil, ?_⟩, ?_, ?_, ?_, ?_, ?_, ?_⟩,
    [], .nil, List.Subset.refl _, List.nodup_nil, ?_⟩
  · exact fun id w hw => absurd hw (Option.some_ne_none w).symm
  · exact fun w waiter hwaiter => (hempty hwaiter).elim
  · rintro w ⟨waiter, hwaiter, -⟩
    exact (hempty hwaiter).elim
  · exact fun x hx => absurd hx List.not_mem_nil
  · exact fun i φ hi => (hempty hi).elim
  · exact fun i j φ ψ id hi => (hempty hi).elim
  · exact fun i φ id w hi => (hempty hi).elim
  · exact fun id w hw => absurd hw (Option.some_ne_none w).symm
  · exact fun i id w hi => (hempty hi).elim
  · exact fun id hid => absurd hid List.not_mem_nil
  · exact fun i φ id hi => (hempty hi).elim

theorem Coherent.spawn {phases : List CallPhase} {s : CallStore}
    (h : Coherent readFloat phases s) : Coherent readFloat (phases ++ [.idle]) s := by
  have hold {i : ℕ} {φ : CallPhase} (hi : phases[i]? = some φ) :
      (phases ++ [.idle])[i]? = some φ := by
    obtain ⟨hlt, -⟩ := List.getElem?_eq_some_iff.mp hi
    rw [List.getElem?_append_left hlt]
    exact hi
  obtain ⟨calls, hconfirmed, hcalls, hnodup, hspent⟩ := h.2
  refine ⟨⟨h.1.recorded, ?_, ?_, ?_, ?_, ?_, ?_⟩, calls, hconfirmed, hcalls, hnodup, ?_⟩
  · intro i φ hi
    rcases phase_spawn hi with hi | rfl
    · exact h.1.sound i φ hi
    · trivial
  · intro i j φ ψ id hi hj hφ hψ
    rcases phase_spawn hi with hi | rfl
    · rcases phase_spawn hj with hj | rfl
      · exact h.1.apart i j φ ψ id hi hj hφ hψ
      · cases hψ
    · cases hφ
  · intro i φ id w hi hφ
    rcases phase_spawn hi with hi | rfl
    · exact h.1.holds i φ id w hi hφ
    · cases hφ
  · intro id w hw
    obtain ⟨i, φ, hi, hφ⟩ := h.1.held id w hw
    exact ⟨i, φ, hold hi, hφ⟩
  · intro i id w hi
    rcases phase_spawn hi with hi | heq
    · exact h.1.unsent i id w hi
    · cases heq
  · intro id hid
    obtain ⟨i, w, hi⟩ := h.1.raised id hid
    exact ⟨i, w, hold hi⟩
  · intro i φ id hi hφ
    rcases phase_spawn hi with hi | rfl
    · exact hspent i φ id hi hφ
    · cases hφ

theorem Coherent.registry {phases : List CallPhase} {s : CallStore}
    (h : Coherent readFloat phases s) (cps : Dict ChargePoint) :
    Coherent readFloat phases (registryChanges cps s) := by
  have hext : s.Extends (registryChanges cps s) := CallStore.extends_of_eq rfl rfl rfl rfl
  obtain ⟨calls, hconfirmed, hcalls, hnodup, hspent⟩ := h.2
  refine ⟨⟨?_, fun i φ hi => (h.1.sound i φ hi).mono hext, h.1.apart, h.1.holds, h.1.held,
    h.1.unsent, h.1.raised⟩, calls, hconfirmed.imp fun _ _ => Confirms.mono hext, hcalls, hnodup,
    hspent⟩
  exact h.1.recorded.of_waiters rfl (List.Subset.refl _) h.1.recorded.pending
    h.1.recorded.sentOnce h.1.recorded.made

theorem coherent_keeps :
    (callProtocol readFloat).Keeps callSem (CsmsCall.serve readFloat format) registryChanges
      FreshIds (fun _ => .idle) (Coherent readFloat) where
  follows := serve_follows readFloat format
  act _ _ _ _ _ _ _ h hi hfresh hnext := h.act hi hfresh hnext
  spawn _ _ _ h := h.spawn
  env cps _ _ h := h.registry readFloat cps

theorem coherent_run (schedule : CallSchedule) (hfresh : AllFresh readFloat format schedule) :
    ∃ phases, (callRun readFloat format schedule).InPhases (callProtocol readFloat) phases ∧
      Coherent readFloat phases (callRun readFloat format schedule).state := by
  have hstart : Config.InPhases (callProtocol readFloat)
      (⟨{}, []⟩ : Config CallResp CallExc Unit CallStore) [] := .nil
  exact (coherent_keeps readFloat format).run schedule hstart (coherent_start readFloat) hfresh

/-- **Every acknowledged command was confirmed.** However the threads of the commands and of the
results interleave: no id is sent twice, and each command that was acknowledged with ACKED has a
CALL of its own that was sent, that asks for what the command says and that was answered with a
CALLRESULT; the payload that was taken for accepted came in under the same id. -/
theorem acked_answered (schedule : CallSchedule) (hfresh : AllFresh readFloat format schedule) :
    ((callRun readFloat format schedule).state.sent.map Prod.fst).Nodup ∧
      ∃ calls, List.Forall₂ (Confirms readFloat (callRun readFloat format schedule).state)
        (callRun readFloat format schedule).state.acked calls ∧
        calls ⊆ (callRun readFloat format schedule).state.sent ∧ (calls.map Prod.fst).Nodup := by
  obtain ⟨phases, -, h⟩ := coherent_run readFloat format schedule hfresh
  obtain ⟨calls, hconfirmed, hcalls, hnodup, -⟩ := h.2
  exact ⟨h.1.recorded.sentOnce, calls, hconfirmed, hcalls, hnodup⟩

end Runs

/-- The threads take these turns; what is drawn or sent turns out as `c` says. -/
def turns (c : CallChoice) (threads : List ℕ) : CallSchedule := threads.map fun i => .act i c

/-- A command to stop, up to the sending. -/
def stopSent : CallSchedule :=
  [.env [("CP1", {})], .spawn (.command ⟨.str "k1", "CP1", "stop_charging", []⟩)] ++
    turns { uuid := "u1" } [0, 0, 0, 0, 0]

/-- The charge point accepts. -/
def stopAccepted : CallSchedule :=
  stopSent ++ [.spawn (.result (.str "u1") true (.dict [("status", .str "Accepted")]))] ++
    turns {} [1, 1, 1, 1, 0, 0, 0, 0, 0]

theorem stop_confirmed :
    (callRun (fun _ => none) (fun _ => "") stopAccepted).state.acked.length = 1 ∧
      ((callRun (fun _ => none) (fun _ => "") stopAccepted).state.sent.map Prod.fst).Nodup ∧
        ∃ calls, List.Forall₂
          (Confirms (fun _ => none) (callRun (fun _ => none) (fun _ => "") stopAccepted).state)
          (callRun (fun _ => none) (fun _ => "") stopAccepted).state.acked calls ∧
          calls ⊆ (callRun (fun _ => none) (fun _ => "") stopAccepted).state.sent ∧
          (calls.map Prod.fst).Nodup :=
  ⟨by decide, acked_answered (fun _ => none) (fun _ => "") stopAccepted (by decide)⟩

/-- The charge point rejects, and sends an error for the same id while the rejection is read. -/
def stopRejected : CallSchedule :=
  stopSent ++ [.spawn (.result (.str "u1") true (.dict [("status", .str "Rejected")]))] ++
    turns {} [1, 1, 1, 1] ++ [.spawn (.result (.str "u1") false (errorPayload "InternalError"))] ++
    turns {} [2, 0, 0, 0, 2, 2, 0, 0]

/-- The error, which has no status, passes for the payload of the result. -/
example : (callRun (fun _ => none) (fun _ => "") stopRejected).state.acked.length = 1 := by decide

section Runs

variable (readFloat : String → Option Double) (format : PyValue → String)

/-- **Nothing is left waiting.** When all threads have ended, `_pending` has the ids whose sending
raised an error other than a `ConnectionError`, and no others. -/
theorem pending_drained (schedule : CallSchedule) (hfresh : AllFresh readFloat format schedule)
    (hended : ∀ p ∈ (callRun readFloat format schedule).threads, p.Ended) (id : String) :
    ((callRun readFloat format schedule).state.pending.get? id).isSome = true ↔
      id ∈ (callRun readFloat format schedule).state.raised := by
  obtain ⟨phases, hphases, h⟩ := coherent_run readFloat format schedule hfresh
  constructor
  · intro hsome
    obtain ⟨w, hw⟩ := Option.isSome_iff_exists.mp hsome
    obtain ⟨i, φ, hi, hφ⟩ := h.1.held id w hw
    have hfinal : φ.Final := hphases.final hended φ (List.mem_of_getElem? hi)
    cases φ with
    | stuck id' w' =>
        obtain ⟨rfl, rfl⟩ := Prod.mk.inj (Option.some.inj hφ)
        exact (h.1.sound i _ hi).2
    | registered id' w' => exact hfinal.elim
    | sent id' w' r => exact hfinal.elim
    | woken id' w' r => exact hfinal.elim
    | expired id' w' => exact hfinal.elim
    | _ => cases hφ
  · intro hid
    obtain ⟨i, w, hi⟩ := h.1.raised id hid
    rw [h.1.holds i _ id w hi rfl]
    rfl

end Runs

/-- Two commands: no result comes in for the first, and the second cannot be sent. -/
def stopsUnanswered : CallSchedule :=
  stopSent ++ [.spawn (.command ⟨.str "k2", "CP1", "stop_charging", []⟩)] ++
    turns { uuid := "u2", send := .osError } [1, 1, 1, 1, 1] ++ turns {} [0, 0, 0]

theorem stops_drained :
    (callRun (fun _ => none) (fun _ => "") stopsUnanswered).state.raised = ["u2"] ∧ ∀ id,
      ((callRun (fun _ => none) (fun _ => "") stopsUnanswered).state.pending.get? id).isSome =
        true ↔ id ∈ (callRun (fun _ => none) (fun _ => "") stopsUnanswered).state.raised :=
  ⟨by decide,
    pending_drained (fun _ => none) (fun _ => "") stopsUnanswered (by decide) (by decide)⟩

end DiepLab.Ocpp
