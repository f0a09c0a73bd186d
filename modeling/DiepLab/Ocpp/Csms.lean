import DiepLab.Drivers.Struct
import DiepLab.JsonText

/-!
The central system's handling of a message.

A text is parsed, and the parts of what it says are indexed, looked up and asked
for their entries. An exception that is no `ValueError` of the parser ends the
connection. `onMessage_returns_iff` says of which values none is raised.
-/

namespace DiepLab.Ocpp

/-- What is raised here, but for a `ConnectionError`. -/
inductive CsmsExc where
  | valueError
  | indexError
  | keyError
  | typeError
  | attributeError
  | overflowError
  | osError
  deriving DecidableEq, Repr

/-! ### Operations on values -/

/-- `v[i]`; the keys of an object are texts. -/
def item (v : PyValue) (i : ℕ) : Except CsmsExc PyValue :=
  match v with
  | .list items =>
      match items[i]? with
      | some x => .ok x
      | none => .error .indexError
  | .str s =>
      match s.toList[i]? with
      | some c => .ok (.str (String.ofList [c]))
      | none => .error .indexError
  | .dict _ => .error .keyError
  | _ => .error .typeError

/-- `v.get(name, default)`. -/
def getOr (v : PyValue) (name : String) (default : PyValue) : Except CsmsExc PyValue :=
  match v with
  | .dict fields => .ok ((Dict.get? fields name).getD default)
  | _ => .error .attributeError

/-- What a loop over the value goes through. -/
def iterate : PyValue → Except CsmsExc (List PyValue)
  | .list items => .ok items
  | .dict fields => .ok (fields.map fun field => .str field.1)
  | .str s => .ok (s.toList.map fun c => .str (String.ofList [c]))
  | _ => .error .typeError

/-- `v == n`. -/
def equalsInt (v : PyValue) (n : ℤ) : Bool := v.key? = some (.num n)

/-- The text that the value is, if any. -/
def text? : PyValue → Option String
  | .str s => some s
  | _ => none

/-! ### Frames -/

inductive OcppFrame where
  | call (uniqueId action payload : PyValue)
  | callResult (uniqueId payload : PyValue)
  | callError (uniqueId code description : PyValue)

/-- `msg[3] if len(msg) > 3 else ""`, of a list. -/
def errorDescription (msg : PyValue) : Except CsmsExc PyValue :=
  match item msg 3 with
  | .ok description => .ok description
  | .error _ => .ok (.str "")

def decodeFrame (msg : PyValue) : Except CsmsExc OcppFrame := do
  let mtype ← item msg 0
  if equalsInt mtype 2 then
    let uniqueId ← item msg 1
    let action ← item msg 2
    let payload ← item msg 3
    pure (.call uniqueId action payload)
  else if equalsInt mtype 3 then
    let uniqueId ← item msg 1
    let payload ← item msg 2
    pure (.callResult uniqueId payload)
  else if equalsInt mtype 4 then
    let uniqueId ← item msg 1
    let code ← item msg 2
    let description ← errorDescription msg
    pure (.callError uniqueId code description)
  else .error .valueError

/-- `decode`. -/
def decode (text : List JsonToken) : Except CsmsExc OcppFrame :=
  match loads text with
  | some msg => decodeFrame msg
  | none => .error .valueError

/-! ### Meter values -/

def measurandKeys : Dict String :=
  [("Power.Active.Import", "_power_w"), ("Voltage", "voltage"), ("Current.Import", "current"),
    ("Energy.Active.Import.Register", "_energy_wh"), ("SoC", "vehicle_soc")]

def defaultMeasurand : PyValue := .str "Energy.Active.Import.Register"

section Csms

variable (readFloat : String → Option Double)

/-- What comes of `float(...)`: a `TypeError` and a `ValueError` are caught. -/
def store (native : Dict Double) (key : String) :
    Except PyExc Double → Except CsmsExc (Dict Double)
  | .ok x => .ok (native.set key x)
  | .error (.overflowError _) => .error .overflowError
  | .error _ => .ok native

/-- A sampled value. -/
def sample (native : Dict Double) (sv : PyValue) : Except CsmsExc (Dict Double) := do
  let measurand ← getOr sv "measurand" defaultMeasurand
  if measurand.key? = none then .error .typeError
  else
    match lookup? measurandKeys measurand with
    | none => pure native
    | some key => do
        let value ← getOr sv "value" .none
        store native key (toFloat readFloat value)

/-- The entries of a reading, by their names and their divisors. -/
def nativeKeys : List (String × String × ℚ) :=
  [("voltage", "voltage", 1), ("current", "current", 1), ("_power_w", "power_kw", 1000),
    ("_energy_wh", "session_energy_kwh", 1000), ("vehicle_soc", "vehicle_soc", 1)]

def meterValuesToNative (meterValueList : PyValue) : Except CsmsExc (Dict PyValue) := do
  let mvs ← iterate meterValueList
  let native ← mvs.foldlM (fun native mv => do
    let sampled ← getOr mv "sampledValue" (.list [])
    let svs ← iterate sampled
    svs.foldlM (sample readFloat) native) []
  pure (nativeKeys.filterMap fun (key, name, divisor) =>
    (native.get? key).map fun x =>
      (name, .num (.float (if divisor = 1 then x else x.divBy divisor))))

/-! ### The central system -/

structure ChargePoint where
  status : PyValue := .str "Unavailable"
  transactionId : ℕ := 0
  vendor : PyValue := .str ""
  model : PyValue := .str ""
  deriving Repr

/-- What waits for a result. -/
structure Pending where
  resolved : Bool := false
  ok : Bool := false
  payload : PyValue := .dict []
  deriving Repr

/-- The state, with what the callbacks were told and what was sent. -/
structure Csms where
  cps : Dict ChargePoint := []
  txnCounter : ℕ := 1000
  pending : Dict Pending := []
  statuses : List (String × PyValue) := []
  telemetry : List (String × Dict PyValue) := []
  sent : List PyValue := []

/-- How `send_text` turns out. A `ConnectionError` is caught. -/
inductive SendOutcome where
  | sent
  | connectionError
  | osError
  deriving DecidableEq, Repr

/-- A change to the charge point, if it is known. -/
def Csms.update (s : Csms) (chargerId : String) (f : ChargePoint → ChargePoint) : Csms :=
  match s.cps.get? chargerId with
  | some cp => { s with cps := s.cps.set chargerId (f cp) }
  | none => s

def accepted : PyValue := .dict [("status", .str "Accepted")]

/-- The payload of an unknown charge point is not looked at. -/
def bootNotification (chargerId : String) (payload : PyValue) (s : Csms) : Except CsmsExc Csms :=
  if (s.cps.get? chargerId).isSome then do
    let vendor ← getOr payload "chargePointVendor" (.str "")
    let model ← getOr payload "chargePointModel" (.str "")
    pure (s.update chargerId fun cp => { cp with vendor := vendor, model := model })
  else pure s

def statusNotification (chargerId : String) (payload : PyValue) (s : Csms) :
    Except CsmsExc Csms := do
  let status ← getOr payload "status" (.str "Available")
  let s := s.update chargerId fun cp => { cp with status := status }
  pure { s with statuses := s.statuses ++ [(chargerId, status)] }

/-- `native.setdefault("connector_status", cp.status)`. -/
def withStatus (native : Dict PyValue) : Option ChargePoint → Dict PyValue
  | some cp =>
      if (native.get? "connector_status").isSome then native
      else native.set "connector_status" cp.status
  | none => native

def meterValues (chargerId : String) (payload : PyValue) (s : Csms) : Except CsmsExc Csms := do
  let values ← getOr payload "meterValue" (.list [])
  let native ← meterValuesToNative readFloat values
  let native := withStatus native (s.cps.get? chargerId)
  pure (if native.isEmpty then s
    else { s with telemetry := s.telemetry ++ [(chargerId, native)] })

/-- What is done for an action, and what is answered. -/
def answer (now chargerId : String) (action payload : PyValue) (s : Csms) :
    Except CsmsExc (Csms × PyValue) :=
  if text? action = some "BootNotification" then do
    let s ← bootNotification chargerId payload s
    pure (s, .dict [("currentTime", .str now), ("interval", .num (.int 30)),
      ("status", .str "Accepted")])
  else if text? action = some "Heartbeat" then pure (s, .dict [("currentTime", .str now)])
  else if text? action = some "StatusNotification" then do
    let s ← statusNotification chargerId payload s
    pure (s, .dict [])
  else if text? action = some "StartTransaction" then
    let txn := s.txnCounter + 1
    let s := { s with txnCounter := txn }.update chargerId fun cp =>
      { cp with transactionId := txn }
    pure (s, .dict [("transactionId", .num (.int txn)), ("idTagInfo", accepted)])
  else if text? action = some "StopTransaction" then
    pure (s.update chargerId fun cp => { cp with transactionId := 0 },
      .dict [("idTagInfo", accepted)])
  else if text? action = some "MeterValues" then do
    let s ← meterValues readFloat chargerId payload s
    pure (s, .dict [])
  -- unknown but well-formed
  else pure (s, .dict [])

/-- `encode_result`, as what is written. -/
def encodeResult (uniqueId payload : PyValue) : PyValue :=
  .list [.num (.int 3), uniqueId, payload]

/-- `_handle_call`. -/
def handleCall (now chargerId : String) (outcome : SendOutcome) (uniqueId action payload : PyValue)
    (s : Csms) : Except CsmsExc Csms := do
  let (s, result) ← answer readFloat now chargerId action payload s
  match outcome with
  | .sent => pure { s with sent := s.sent ++ [encodeResult uniqueId result] }
  | .connectionError => pure s
  | .osError => .error .osError

/-- `_resolve_pending`; the id is looked up in a dictionary. -/
def resolvePending (uniqueId : PyValue) (ok : Bool) (payload : PyValue) (s : Csms) :
    Except CsmsExc Csms :=
  if uniqueId.key? = none then .error .typeError
  else
    match text? uniqueId, lookup? s.pending uniqueId with
    | some id, some _ =>
        .ok { s with
          pending := s.pending.set id { resolved := true, ok := ok, payload := payload } }
    | _, _ => .ok s

/-- What follows `decode`. Its `ValueError` is caught, and logged. -/
def handleFrame (now chargerId : String) (outcome : SendOutcome) (s : Csms) :
    Except CsmsExc OcppFrame → Except CsmsExc Csms
  | .error .valueError => .ok s
  | .error e => .error e
  | .ok (.call uniqueId action payload) =>
      handleCall readFloat now chargerId outcome uniqueId action payload s
  | .ok (.callResult uniqueId payload) => resolvePending uniqueId true payload s
  | .ok (.callError uniqueId code _) =>
      resolvePending uniqueId false (.dict [("error", code)]) s

/-- `_on_message`. -/
def onMessage (now chargerId : String) (outcome : SendOutcome) (text : List JsonToken) (s : Csms) :
    Except CsmsExc Csms :=
  handleFrame readFloat now chargerId outcome s (decode text)

end Csms

/-! ### What may be sent -/

/-- A loop over the value goes through objects with the property only. -/
def EachObject (P : Dict PyValue → Prop) : PyValue → Prop
  | .list items => ∀ v ∈ items, ∃ fields, v = .dict fields ∧ P fields
  | .dict fields => fields = []
  | .str s => s = ""
  | _ => False

/-- A value that has a measurand is no integer that no float is near to. -/
def SampleSafe (fields : Dict PyValue) : Prop :=
  ((fields.get? "measurand").getD defaultMeasurand).key? ≠ none ∧
    (lookup? measurandKeys ((fields.get? "measurand").getD defaultMeasurand) ≠ none →
      ∀ x, fields.get? "value" = some (.num x) → x.huge = false)

def MeterValueSafe (fields : Dict PyValue) : Prop :=
  EachObject SampleSafe ((fields.get? "sampledValue").getD (.list []))

/-- The payload of an action, for a charge point that is known or not. -/
def PayloadSafe (known : Bool) (action payload : PyValue) : Prop :=
  (text? action = some "BootNotification" → known = true → ∃ fields, payload = .dict fields) ∧
    (text? action = some "StatusNotification" → ∃ fields, payload = .dict fields) ∧
    (text? action = some "MeterValues" → ∃ fields : Dict PyValue, payload = .dict fields ∧
      EachObject MeterValueSafe ((fields.get? "meterValue").getD (.list [])))

/-- A value that is handled: a text, or a list that begins with no known type, or
with one and all that is used of a message of the type. -/
def MessageSafe (known : Bool) (outcome : SendOutcome) : PyValue → Prop
  | .str s => s ≠ ""
  | .list (mtype :: rest) =>
      if equalsInt mtype 2 then
        ∃ uniqueId action payload more, rest = uniqueId :: action :: payload :: more ∧
          PayloadSafe known action payload ∧ outcome ≠ .osError
      else if equalsInt mtype 3 ∨ equalsInt mtype 4 then
        ∃ uniqueId payload more, rest = uniqueId :: payload :: more ∧ uniqueId.key? ≠ none
      else True
  | _ => False

/-! ### What returns -/

theorem exists_bind_pure {ε α β : Type} {x : Except ε α} {g : α → β} :
    (∃ b, (x >>= fun a => pure (g a)) = .ok b) ↔ ∃ a, x = .ok a := by
  cases x with
  | ok a => exact iff_of_true ⟨_, rfl⟩ ⟨a, rfl⟩
  | error e => exact iff_of_false (fun ⟨_, h⟩ => nomatch h) fun ⟨_, h⟩ => nomatch h

/-- Only an object has entries. -/
theorem exists_getOr_bind {β : Type} {v default : PyValue} {name : String}
    {f : PyValue → Except CsmsExc β} :
    (∃ b, (getOr v name default >>= f) = .ok b) ↔
      ∃ fields : Dict PyValue, v = .dict fields ∧
        ∃ b, f ((fields.get? name).getD default) = .ok b := by
  cases v with
  | dict fields =>
      constructor
      · exact fun h => ⟨fields, rfl, h⟩
      · rintro ⟨_, ⟨⟩, h⟩
        exact h
  | _ => exact iff_of_false (fun ⟨_, h⟩ => nomatch h) fun ⟨_, h, _⟩ => nomatch h

/-- A loop whose turns take objects only. -/
theorem exists_iterate_foldlM {σ : Type} {f : σ → PyValue → Except CsmsExc σ}
    {P : Dict PyValue → Prop}
    (hf : ∀ acc v, (∃ acc', f acc v = .ok acc') ↔ ∃ fields, v = .dict fields ∧ P fields)
    (v : PyValue) (acc : σ) :
    (∃ acc', (do let items ← iterate v; items.foldlM f acc) = .ok acc') ↔ EachObject P v := by
  have htexts (items : List PyValue) (htext : ∀ v ∈ items, ∃ s, v = .str s) :
      (∃ acc', items.foldlM f acc = .ok acc') ↔ items = [] := by
    rw [foldlM_isOk hf]
    cases items with
    | nil => exact iff_of_true nofun rfl
    | cons v rest =>
        refine iff_of_false (fun h => ?_) nofun
        obtain ⟨s, rfl⟩ := htext v List.mem_cons_self
        obtain ⟨fields, hfields, -⟩ := h _ List.mem_cons_self
        exact nomatch hfields
  cases v with
  | list items => exact foldlM_isOk hf items acc
  | dict fields =>
      have hkeys := htexts (fields.map fun field => .str field.1) fun v hv => by
        obtain ⟨field, -, rfl⟩ := List.mem_map.mp hv
        exact ⟨_, rfl⟩
      exact hkeys.trans List.map_eq_nil_iff
  | str s =>
      have hchars := htexts (s.toList.map fun c => .str (String.ofList [c])) (by simp)
      exact hchars.trans (List.map_eq_nil_iff.trans String.toList_eq_nil_iff)
  | _ => exact iff_of_false (fun ⟨_, h⟩ => nomatch h) id

section Returns

variable {readFloat : String → Option Double}

/-- Of what `float` raises only an `OverflowError`, for a huge integer, is not caught. -/
theorem store_isOk (native : Dict Double) (key : String) (v : PyValue) :
    (∃ native', store native key (toFloat readFloat v) = .ok native') ↔
      ∀ x, v = .num x → x.huge = false := by
  cases v with
  | num x =>
      simp only [PyValue.num.injEq, forall_eq', ← Bool.not_eq_true, ← Number.toDouble?_eq_none]
      rw [toFloat]
      cases x.toDouble? with
      | none => exact iff_of_false (fun ⟨_, h⟩ => nomatch h) (not_not.mpr rfl)
      | some y => exact iff_of_true ⟨_, rfl⟩ nofun
  | str text =>
      refine iff_of_true ?_ nofun
      rw [toFloat]
      cases readFloat text <;> exact ⟨_, rfl⟩
  | _ => exact iff_of_true ⟨_, rfl⟩ nofun

theorem sample_isOk (native : Dict Double) (sv : PyValue) :
    (∃ native', sample readFloat native sv = .ok native') ↔
      ∃ fields, sv = .dict fields ∧ SampleSafe fields := by
  unfold sample
  rw [exists_getOr_bind]
  refine exists_congr fun fields => and_congr_right fun hsv => ?_
  subst hsv
  unfold SampleSafe
  generalize (fields.get? "measurand").getD defaultMeasurand = measurand
  by_cases hkey : measurand.key? = none
  · rw [if_pos hkey]
    exact iff_of_false (fun ⟨_, h⟩ => nomatch h) fun h => h.1 hkey
  · rw [if_neg hkey, and_iff_right hkey]
    cases lookup? measurandKeys measurand with
    | none => exact iff_of_true ⟨native, rfl⟩ fun h => absurd rfl h
    | some key =>
        rw [forall_prop_of_true nofun]
        change (∃ native', store native key (toFloat readFloat ((fields.get? "value").getD .none)) =
          .ok native') ↔ _
        rw [store_isOk]
        cases fields.get? "value" with
        | none => exact iff_of_true nofun nofun
        | some v => simp only [Option.getD_some, Option.some.injEq]

variable (readFloat) in
/-- A turn of the loop over the meter values. -/
theorem sampled_isOk (native : Dict Double) (mv : PyValue) :
    (∃ native', (do
        let sampled ← getOr mv "sampledValue" (.list [])
        let svs ← iterate sampled
        svs.foldlM (sample readFloat) native) = .ok native') ↔
      ∃ fields, mv = .dict fields ∧ MeterValueSafe fields := by
  rw [exists_getOr_bind]
  refine exists_congr fun fields => and_congr_right fun _ => ?_
  exact exists_iterate_foldlM sample_isOk _ native

theorem meterValuesToNative_isOk (values : PyValue) :
    (∃ native, meterValuesToNative readFloat values = .ok native) ↔
      EachObject MeterValueSafe values := by
  rw [← exists_iterate_foldlM (sampled_isOk readFloat) values []]
  unfold meterValuesToNative
  cases iterate values with
  | error e => exact iff_of_false (fun ⟨_, h⟩ => nomatch h) fun ⟨_, h⟩ => nomatch h
  | ok mvs => exact exists_bind_pure

theorem bootNotification_isOk (chargerId : String) (payload : PyValue) (s : Csms) :
    (∃ s', bootNotification chargerId payload s = .ok s') ↔
      ((s.cps.get? chargerId).isSome = true → ∃ fields, payload = .dict fields) := by
  unfold bootNotification
  by_cases hknown : (s.cps.get? chargerId).isSome = true
  · rw [if_pos hknown, forall_prop_of_true hknown, exists_getOr_bind]
    refine exists_congr fun fields => and_iff_left_of_imp ?_
    rintro rfl
    exact ⟨_, rfl⟩
  · rw [if_neg hknown]
    exact iff_of_true ⟨s, rfl⟩ fun h => absurd h hknown

theorem statusNotification_isOk (chargerId : String) (payload : PyValue) (s : Csms) :
    (∃ s', statusNotification chargerId payload s = .ok s') ↔ ∃ fields, payload = .dict fields := by
  unfold statusNotification
  rw [exists_getOr_bind]
  exact exists_congr fun fields => and_iff_left ⟨_, rfl⟩

theorem meterValues_isOk (chargerId : String) (payload : PyValue) (s : Csms) :
    (∃ s', meterValues readFloat chargerId payload s = .ok s') ↔
      ∃ fields : Dict PyValue, payload = .dict fields ∧
        EachObject MeterValueSafe ((fields.get? "meterValue").getD (.list [])) := by
  unfold meterValues
  rw [exists_getOr_bind]
  refine exists_congr fun fields => and_congr_right fun _ => ?_
  exact exists_bind_pure.trans (meterValuesToNative_isOk _)

/-- An action that is none of those whose payload is looked at. -/
theorem payloadSafe_of_ne {known : Bool} {action payload : PyValue}
    (hboot : text? action ≠ some "BootNotification")
    (hstatus : text? action ≠ some "StatusNotification")
    (hmeter : text? action ≠ some "MeterValues") : PayloadSafe known action payload :=
  ⟨fun h => absurd h hboot, fun h => absurd h hstatus, fun h => absurd h hmeter⟩

variable (readFloat) in
theorem answer_isOk (now chargerId : String) (action payload : PyValue) (s : Csms) :
    (∃ r, answer readFloat now chargerId action payload s = .ok r) ↔
      PayloadSafe (s.cps.get? chargerId).isSome action payload := by
  unfold answer
  split
  · rename_i haction
    rw [exists_bind_pure, bootNotification_isOk, PayloadSafe, haction]
    simp
  · rename_i hboot
    split
    · rename_i haction
      refine iff_of_true ⟨_, rfl⟩ (payloadSafe_of_ne hboot ?_ ?_) <;> rw [haction] <;> decide
    · split
      · rename_i haction
        rw [exists_bind_pure, statusNotification_isOk, PayloadSafe, haction]
        simp
      · rename_i hstatus
        split
        · rename_i haction
          refine iff_of_true ⟨_, rfl⟩ (payloadSafe_of_ne hboot hstatus ?_)
          rw [haction]
          decide
        · split
          · rename_i haction
            refine iff_of_true ⟨_, rfl⟩ (payloadSafe_of_ne hboot hstatus ?_)
            rw [haction]
            decide
          · split
            · rename_i haction
              rw [exists_bind_pure, meterValues_isOk, PayloadSafe, haction]
              simp
            · rename_i hmeter
              exact iff_of_true ⟨_, rfl⟩ (payloadSafe_of_ne hboot hstatus hmeter)

theorem handleCall_isOk (now chargerId : String) (outcome : SendOutcome)
    (uniqueId action payload : PyValue) (s : Csms) :
    (∃ s', handleCall readFloat now chargerId outcome uniqueId action payload s = .ok s') ↔
      PayloadSafe (s.cps.get? chargerId).isSome action payload ∧ outcome ≠ .osError := by
  unfold handleCall
  rw [← answer_isOk readFloat now]
  refine exists_bind fun r _ => ?_
  cases outcome with
  | sent => exact iff_of_true ⟨_, rfl⟩ nofun
  | connectionError => exact iff_of_true ⟨_, rfl⟩ nofun
  | osError => exact iff_of_false (fun ⟨_, h⟩ => nomatch h) fun h => h rfl

theorem resolvePending_isOk (uniqueId : PyValue) (ok : Bool) (payload : PyValue) (s : Csms) :
    (∃ s', resolvePending uniqueId ok payload s = .ok s') ↔ uniqueId.key? ≠ none := by
  unfold resolvePending
  split
  · rename_i hkey
    exact iff_of_false (fun ⟨_, h⟩ => nomatch h) fun h => h hkey
  · rename_i hkey
    refine iff_of_true ?_ hkey
    split <;> exact ⟨_, rfl⟩

/-! ### Messages -/

theorem item_cons (v : PyValue) (items : List PyValue) (i : ℕ) :
    item (.list (v :: items)) (i + 1) = item (.list items) i := rfl

theorem exists_errorDescription (msg : PyValue) :
    ∃ description, errorDescription msg = .ok description := by
  unfold errorDescription
  split <;> exact ⟨_, rfl⟩

theorem decodeFrame_list (mtype : PyValue) (rest : List PyValue) :
    decodeFrame (.list (mtype :: rest)) =
      if equalsInt mtype 2 then do
        let uniqueId ← item (.list rest) 0
        let action ← item (.list rest) 1
        let payload ← item (.list rest) 2
        pure (.call uniqueId action payload)
      else if equalsInt mtype 3 then do
        let uniqueId ← item (.list rest) 0
        let payload ← item (.list rest) 1
        pure (.callResult uniqueId payload)
      else if equalsInt mtype 4 then do
        let uniqueId ← item (.list rest) 0
        let code ← item (.list rest) 1
        let description ← errorDescription (.list (mtype :: rest))
        pure (.callError uniqueId code description)
      else .error .valueError := by
  unfold decodeFrame
  rw [show item (.list (mtype :: rest)) 0 = .ok mtype from rfl, ok_bind]
  simp only [item_cons]

/-- What is used of a CALL: three entries and an answer that can be sent. -/
theorem handleFrame_call (now chargerId : String) (outcome : SendOutcome) {mtype : PyValue}
    (hcall : equalsInt mtype 2 = true) (rest : List PyValue) (s : Csms) :
    (∃ s', handleFrame readFloat now chargerId outcome s (decodeFrame (.list (mtype :: rest))) =
        .ok s') ↔
      ∃ uniqueId action payload more, rest = uniqueId :: action :: payload :: more ∧
        PayloadSafe (s.cps.get? chargerId).isSome action payload ∧ outcome ≠ .osError := by
  rw [decodeFrame_list, if_pos hcall]
  match rest with
  | [] => exact iff_of_false (fun ⟨_, h⟩ => nomatch h) nofun
  | [_] => exact iff_of_false (fun ⟨_, h⟩ => nomatch h) nofun
  | [_, _] => exact iff_of_false (fun ⟨_, h⟩ => nomatch h) nofun
  | uniqueId :: action :: payload :: more =>
      refine (handleCall_isOk now chargerId outcome uniqueId action payload s).trans ?_
      constructor
      · exact fun h => ⟨uniqueId, action, payload, more, rfl, h⟩
      · rintro ⟨_, _, _, _, ⟨⟩, h⟩
        exact h

/-- What is used of a CALLRESULT: two entries, the first of them a key. -/
theorem handleFrame_callResult (now chargerId : String) (outcome : SendOutcome) {mtype : PyValue}
    (hcall : ¬equalsInt mtype 2 = true) (hresult : equalsInt mtype 3 = true)
    (rest : List PyValue) (s : Csms) :
    (∃ s', handleFrame readFloat now chargerId outcome s (decodeFrame (.list (mtype :: rest))) =
        .ok s') ↔
      ∃ uniqueId payload more, rest = uniqueId :: payload :: more ∧ uniqueId.key? ≠ none := by
  rw [decodeFrame_list, if_neg hcall, if_pos hresult]
  match rest with
  | [] => exact iff_of_false (fun ⟨_, h⟩ => nomatch h) nofun
  | [_] => exact iff_of_false (fun ⟨_, h⟩ => nomatch h) nofun
  | uniqueId :: payload :: more =>
      refine (resolvePending_isOk uniqueId true payload s).trans ?_
      constructor
      · exact fun h => ⟨uniqueId, payload, more, rfl, h⟩
      · rintro ⟨_, _, _, ⟨⟩, h⟩
        exact h

/-- The description of a CALLERROR may be missing, so that no more of it is used. -/
theorem handleFrame_callError (now chargerId : String) (outcome : SendOutcome) {mtype : PyValue}
    (hcall : ¬equalsInt mtype 2 = true) (hresult : ¬equalsInt mtype 3 = true)
    (herror : equalsInt mtype 4 = true) (rest : List PyValue) (s : Csms) :
    (∃ s', handleFrame readFloat now chargerId outcome s (decodeFrame (.list (mtype :: rest))) =
        .ok s') ↔
      ∃ uniqueId payload more, rest = uniqueId :: payload :: more ∧ uniqueId.key? ≠ none := by
  rw [decodeFrame_list, if_neg hcall, if_neg hresult, if_pos herror]
  match rest with
  | [] => exact iff_of_false (fun ⟨_, h⟩ => nomatch h) nofun
  | [_] => exact iff_of_false (fun ⟨_, h⟩ => nomatch h) nofun
  | uniqueId :: code :: more =>
      obtain ⟨description, hdescription⟩ :=
        exists_errorDescription (.list (mtype :: uniqueId :: code :: more))
      rw [hdescription]
      refine (resolvePending_isOk uniqueId false (.dict [("error", code)]) s).trans ?_
      constructor
      · exact fun h => ⟨uniqueId, code, more, rfl, h⟩
      · rintro ⟨_, _, _, ⟨⟩, h⟩
        exact h

theorem handleFrame_list (now chargerId : String) (outcome : SendOutcome) (mtype : PyValue)
    (rest : List PyValue) (s : Csms) :
    (∃ s', handleFrame readFloat now chargerId outcome s (decodeFrame (.list (mtype :: rest))) =
        .ok s') ↔
      MessageSafe (s.cps.get? chargerId).isSome outcome (.list (mtype :: rest)) := by
  rw [MessageSafe]
  by_cases hcall : equalsInt mtype 2 = true
  · rw [if_pos hcall]
    exact handleFrame_call now chargerId outcome hcall rest s
  · rw [if_neg hcall]
    by_cases hresult : equalsInt mtype 3 = true
    · rw [if_pos (Or.inl hresult)]
      exact handleFrame_callResult now chargerId outcome hcall hresult rest s
    · by_cases herror : equalsInt mtype 4 = true
      · rw [if_pos (Or.inr herror)]
        exact handleFrame_callError now chargerId outcome hcall hresult herror rest s
      · rw [if_neg (not_or.mpr ⟨hresult, herror⟩), decodeFrame_list, if_neg hcall,
          if_neg hresult, if_neg herror]
        exact iff_of_true ⟨s, rfl⟩ trivial

/-- The first character of a text is no message type, and an empty text has none. -/
theorem decodeFrame_str (text : String) :
    decodeFrame (.str text) =
      if text = "" then .error .indexError else .error .valueError := by
  unfold decodeFrame
  cases h : text.toList with
  | nil =>
      rw [if_pos (String.toList_eq_nil_iff.mp h)]
      simp only [item, h]
      rfl
  | cons c rest =>
      rw [if_neg (by rw [← String.toList_eq_nil_iff, h]; nofun)]
      simp only [item, h]
      rfl

theorem handleFrame_isOk (now chargerId : String) (outcome : SendOutcome) (msg : PyValue)
    (s : Csms) :
    (∃ s', handleFrame readFloat now chargerId outcome s (decodeFrame msg) = .ok s') ↔
      MessageSafe (s.cps.get? chargerId).isSome outcome msg := by
  cases msg with
  | list items =>
      cases items with
      | nil => exact iff_of_false (fun ⟨_, h⟩ => nomatch h) id
      | cons mtype rest => exact handleFrame_list now chargerId outcome mtype rest s
  | str text =>
      rw [decodeFrame_str, MessageSafe]
      split
      · rename_i htext
        exact iff_of_false (fun ⟨_, h⟩ => nomatch h) fun h => h htext
      · rename_i htext
        exact iff_of_true ⟨s, rfl⟩ htext
  | _ => exact iff_of_false (fun ⟨_, h⟩ => nomatch h) id

end Returns

end DiepLab.Ocpp
