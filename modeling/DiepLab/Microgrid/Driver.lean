import DiepLab.Microgrid.Asdu

/-!
The driver of a microgrid controller.

It interrogates the station, and keeps what the station reports; a command is an
ASDU of its own, and so is the station's confirmation. Every ASDU comes in by
`onAsdu`, which for a confirmation, or for the termination of an interrogation,
sets the one event that all calls wait for.
-/

namespace DiepLab.Microgrid

/-! ### Causes of transmission, and addresses -/

def cotSpontaneous : ℕ := 3

def cotAct : ℕ := 6

def cotActcon : ℕ := 7

def cotActterm : ℕ := 10

def cotInterrogated : ℕ := 20

def qoiStation : Number := .int 20

def ioaFreq : ℕ := 1001

def ioaPcc : ℕ := 1002

def ioaSolar : ℕ := 1003

def ioaLoad : ℕ := 1004

def ioaVoltage : ℕ := 1005

def ioaSetpoint : ℕ := 1006

def ioaGridConnected : ℕ := 2001

def ioaBreaker : ℕ := 3001

def ioaCmdSetpoint : ℕ := 3002

def measKeys : List (ℕ × String) :=
  [(ioaFreq, "frequency"), (ioaPcc, "pcc_kw"), (ioaSolar, "solar_kw"), (ioaLoad, "load_kw"),
    (ioaVoltage, "voltage"), (ioaSetpoint, "setpoint_kw")]

/-! ### What the station reports -/

def measurementsToNative (decodedObjects : List (ℕ × Number)) (typeId : UInt8) : Dict PyValue :=
  decodedObjects.foldl (fun native object =>
    if typeId = mMeNc1 then
      match measKeys.lookup object.1 with
      | some key => native.set key (.num object.2)
      | none => native
    else if typeId = mSpNa1 ∧ object.1 = ioaGridConnected then
      native.set "grid_connected" (.bool (PyValue.num object.2).truthy)
    else native) []

/-- `_values` and `_grid_connected`. -/
structure Cache where
  values : Dict PyValue := []
  gridConnected : PyValue := .bool true
  deriving Repr

def Cache.update (cache : Cache) (native : Dict PyValue) : Cache :=
  native.foldl (fun cache kv =>
    if kv.1 = "grid_connected" then { cache with gridConnected := kv.2 }
    else { cache with values := cache.values.set kv.1 kv.2 }) cache

/-- The types that report, in place of answering. -/
def monitorTypes : List UInt8 := [mMeNc1, mSpNa1]

/-- `_on_asdu`, and whether it sets the event. -/
def onAsdu (asdu : List UInt8) (cache : Cache) : Cache × Bool :=
  match decodeAsdu asdu with
  -- a malformed frame is ignored
  | .error _ => (cache, false)
  | .ok decoded =>
      if decoded.typeId ∈ monitorTypes then
        (cache.update (measurementsToNative decoded.objects decoded.typeId), false)
      else (cache, decoded.cot = cotActcon ∨ decoded.cot = cotActterm)

/-- What `read_telemetry` returns after the interrogation. -/
def nativeReading (cache : Cache) : Dict PyValue :=
  ["voltage", "frequency", "solar_kw", "pcc_kw", "load_kw", "setpoint_kw"].map (fun key =>
      (key, (cache.values.get? key).getD (.num (.float (.finite 0))))) ++
    [("grid_connected", cache.gridConnected)]

/-! ### What the driver sends -/

/-- The ASDU of `_interrogate`. -/
def interrogation (ca : ℕ) : Except PyExc (List UInt8) := do
  let element ← qoi qoiStation
  pure (encodeAsdu cIcNa1 cotAct ca [(0, element)])

structure CommandResult where
  status : String
  error : Option String
  deriving DecidableEq, Repr

def acked : CommandResult := ⟨"ACKED", none⟩

def commandFailed (error : String) : CommandResult := ⟨"FAILED", some error⟩

def supportedCommands : List String := ["island", "grid_connect", "set_setpoint"]

/-- `execute_command` up to `_send_and_confirm`: a result, or the ASDU to confirm. -/
def commandAsdu (readFloat : String → Option Double) (ca : ℕ) (commandType : String)
    (params : Dict PyValue) : Except PyExc (CommandResult ⊕ List UInt8) :=
  if commandType ∉ supportedCommands then
    .ok (.inl (commandFailed s!"unsupported command '{commandType}'"))
  else if commandType = "island" ∨ commandType = "grid_connect" then do
    let element ← scNa (.int (if commandType = "grid_connect" then 1 else 0))
    pure (.inr (encodeAsdu cScNa1 cotAct ca [(ioaBreaker, element)]))
  else if commandType = "set_setpoint" then
    match params.get? "setpoint_kw" with
    | none => .ok (.inl (commandFailed "set_setpoint requires params.setpoint_kw"))
    | some setpoint => do
        let x ← toFloat readFloat setpoint
        let element ← seNc (.float x)
        pure (.inr (encodeAsdu cSeNc1 cotAct ca [(ioaCmdSetpoint, element)]))
  else .ok (.inl (commandFailed s!"unhandled command '{commandType}'"))

/-! ### Types and causes -/

theorem typeId_of_decodeAsdu {typeId : UInt8} {rest : List UInt8} {asdu : Asdu}
    (h : decodeAsdu (typeId :: rest) = .ok asdu) : asdu.typeId = typeId := by
  cases rest with
  | nil => exact nomatch h
  | cons vsq rest =>
      obtain ⟨cot, -, h⟩ := bind_eq_ok.mp h
      obtain ⟨commonAddr, -, h⟩ := bind_eq_ok.mp h
      obtain ⟨objects, -, h⟩ := bind_eq_ok.mp h
      injection h with h
      rw [← h]

/-- A command is of the type of a command. -/
theorem typeId_of_commandAsdu {readFloat : String → Option Double} {ca : ℕ} {commandType : String}
    {params : Dict PyValue} {asdu : List UInt8}
    (h : commandAsdu readFloat ca commandType params = .ok (.inr asdu)) {decoded : Asdu}
    (hdecoded : decodeAsdu asdu = .ok decoded) :
    decoded.typeId = cScNa1 ∨ decoded.typeId = cSeNc1 := by
  unfold commandAsdu at h
  split at h
  · injection h with h
    exact nomatch h
  · split at h
    · obtain ⟨element, -, h⟩ := bind_eq_ok.mp h
      injection h with h
      injection h with h
      exact Or.inl (typeId_of_decodeAsdu (h ▸ hdecoded))
    · split at h
      · split at h
        · injection h with h
          exact nomatch h
        · obtain ⟨x, -, h⟩ := bind_eq_ok.mp h
          obtain ⟨element, -, h⟩ := bind_eq_ok.mp h
          injection h with h
          injection h with h
          exact Or.inr (typeId_of_decodeAsdu (h ▸ hdecoded))
      · injection h with h
        exact nomatch h

end DiepLab.Microgrid
