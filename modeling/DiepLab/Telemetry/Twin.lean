import DiepLab.Commands.Statements
import DiepLab.Library.Replay

/-!
The twin of a device, as its readings write it.

`ingest_telemetry` puts a reading into the table with its capture time, and
writes what it carries over the hash of the device. The write asks for no time:
the hash shows, of every field, what the last request to carry it has written,
and that need not be the latest reading, since the workers of the ingestor and
the buffers of the drivers keep no order. `LatestWritesLast` is the order that
the hash depends on.
-/

namespace DiepLab.Telemetry

open StatementProgram Commands

section Format

-- how Python writes a number or a truth value, and `json.dumps`
variable (str dumps : Json → String)

/-! ### What a reading writes -/

/-- What `_persist_state` makes of a value. -/
def redisValue : Json → Option String
  | .null => none
  | .str s => some s
  | .arr items => some (dumps (.arr items))
  | .obj fields => some (dumps (.obj fields))
  | value => some (str value)

def registryFields (device : RegistryRow) : Dict Json := [
  ("device_type", .str device.deviceType),
  ("site_name", .ofOption .str device.siteName),
  ("location", .ofOption .str device.location),
  ("status", .ofOption .str device.status)]

def seenAndMeasured (insertTime : Stamp) (payload : TelemetryPayload) : Dict Json := [
  ("last_seen", .str insertTime.iso),
  ("voltage", .num payload.voltage),
  ("current", .num payload.current),
  ("power_kw", .num payload.powerKw),
  ("frequency", .num payload.frequency),
  ("solar_kw", .num payload.solarKw),
  ("battery_soc", .num payload.batterySoc),
  ("grid_import_kw", .num payload.gridImportKw),
  ("grid_export_kw", .num payload.gridExportKw),
  ("power_factor", .ofOption .num payload.powerFactor),
  ("energy_import_kwh", .ofOption .num payload.energyImportKwh),
  ("energy_export_kwh", .ofOption .num payload.energyExportKwh),
  ("temperature", .ofOption .num payload.temperature),
  ("soh", .ofOption .num payload.soh),
  ("state", .ofOption .str payload.state)]

/-- `twin_state`: the long tail of the reading may replace any field. -/
def twinState (device : RegistryRow) (insertTime : Stamp) (payload : TelemetryPayload) :
    Dict Json :=
  Dict.update (registryFields device ++ seenAndMeasured insertTime payload) payload.extra

structure TelemetryCreated where
  status : String := "created"
  deviceId : String
  time : String
  deriving DecidableEq, Repr

/-- `payload.time or datetime.now(timezone.utc)`. -/
def insertTimeOf (payload : TelemetryPayload) : CommandProg Stamp :=
  match payload.time with
  | some time => pure time
  | none => Commands.Sql.now

/-- `ingest_telemetry`. -/
def ingestTelemetry (payload : TelemetryPayload) : CommandProg TelemetryCreated := do
  let insertTime ← insertTimeOf payload
  match ← Commands.Sql.selectDevice payload.deviceId with
  | none => throw (.http 404 (.text ("Unknown device_id '" ++ payload.deviceId ++ "'")))
  | some device => do
      tryCatch
        (do
          Commands.Sql.insertTelemetry { time := insertTime, reading := payload }
          persistState payload.deviceId
            ((twinState device insertTime payload).map fun kv =>
              (kv.1, redisValue str dumps kv.2)))
        fun exc => throw (.http 422 (.text exc.text))
      pure { deviceId := payload.deviceId, time := insertTime.iso }

/-! ### Readings -/

/-- A reading that says when it was captured. -/
structure Reading extends TelemetryPayload where
  captured : Stamp
  timed : time = some captured

namespace Reading

/-- What the reading brings along. -/
def fields (r : Reading) : Dict Json :=
  Dict.update (seenAndMeasured r.captured r.toTelemetryPayload) r.extra

/-- The text of a field in the hash, if the reading carries the field. -/
def carried (r : Reading) (field : String) : Option String :=
  (r.fields.get? field).bind (redisValue str dumps)

end Reading

/-- The fields of the twin that come from the reading. -/
def FromReading (field : String) : Prop :=
  field ∉ ["device_type", "site_name", "location", "status", "updated_at"]

instance (field : String) : Decidable (FromReading field) := inferInstanceAs (Decidable (¬ _))

/-- The mapping of the `HSET`. -/
def twinMapping (device : RegistryRow) (r : Reading) (now : Stamp) : List (String × String) :=
  ((twinState device r.captured r.toTelemetryPayload).filterMap fun kv =>
    (redisValue str dumps kv.2).map fun v => (kv.1, v)) ++ [("updated_at", now.iso)]

theorem nodup_twinState (device : RegistryRow) (insertTime : Stamp) (payload : TelemetryPayload) :
    ((twinState device insertTime payload).map Prod.fst).Nodup := by
  refine Dict.nodup_update ?_ _
  change [
    "device_type", "site_name", "location", "status", "last_seen", "voltage", "current",
    "power_kw", "frequency", "solar_kw", "battery_soc", "grid_import_kw", "grid_export_kw",
    "power_factor", "energy_import_kwh", "energy_export_kwh", "temperature", "soh",
    "state"].Nodup
  decide

/-- A field that the registry has no part in. -/
theorem get?_twinState {field : String} (hfield : FromReading field) (device : RegistryRow)
    (r : Reading) :
    (twinState device r.captured r.toTelemetryPayload).get? field = r.fields.get? field := by
  refine Dict.get?_update_congr ?_ _
  simp only [FromReading, List.mem_cons, List.not_mem_nil, or_false, not_or] at hfield
  obtain ⟨htype, hsite, hlocation, hstatus, -⟩ := hfield
  simp only [registryFields, List.cons_append, List.nil_append, Dict.get?_cons,
    if_neg (Ne.symm htype), if_neg (Ne.symm hsite), if_neg (Ne.symm hlocation),
    if_neg (Ne.symm hstatus)]

/-- What the `HSET` of a reading makes of a field. -/
theorem get?_update_twinMapping {field : String} (hfield : FromReading field) (twin : Dict String)
    (device : RegistryRow) (r : Reading) (now : Stamp) :
    (twin.update (twinMapping str dumps device r now)).get? field =
      (r.carried str dumps field).or (twin.get? field) := by
  have hnodup := nodup_twinState device r.captured r.toTelemetryPayload
  have hupdated : "updated_at" ≠ field := by
    rintro rfl
    exact absurd hfield (by decide)
  rw [twinMapping, Dict.update, List.foldl_append]
  refine (Dict.get?_set ..).trans ?_
  rw [if_neg hupdated]
  refine (Dict.get?_update twin (Dict.nodup_filterMap _ hnodup) field).trans ?_
  rw [Dict.get?_filterMap _ hnodup, get?_twinState hfield]
  rfl

/-! ### The statements of a reading -/

/-- What the request of a reading may issue: the twin that it writes is that of
its device, with what the reading carries. -/
def MayIssue (r : Reading) : CommandStmt → Prop
  | .hsetState deviceId mapping =>
      deviceId = r.deviceId ∧ ∃ device now, mapping = twinMapping str dumps device r now
  | _ => True

theorem ingestTelemetry_issues (r : Reading) :
    (ingestTelemetry str dumps r.toTelemetryPayload).Issues (MayIssue str dumps r) := by
  have htime : insertTimeOf r.toTelemetryPayload = pure r.captured := by
    rw [insertTimeOf, r.timed]
  rw [ingestTelemetry, htime]
  refine Prog.Issues.bind_returns (K := (· = r.captured)) (Prog.issues_pure _) rfl ?_
  rintro _ rfl
  refine Prog.Issues.bind ((Prog.issues_call _).mpr trivial) fun row => ?_
  cases row with
  | none => trivial
  | some device =>
      refine Prog.Issues.bind (Prog.Issues.attempt ?_ fun _ => trivial) fun _ => trivial
      refine Prog.Issues.bind ((Prog.issues_call _).mpr trivial) fun _ => ?_
      refine Prog.Issues.bind ((Prog.issues_call _).mpr trivial) fun now => ?_
      refine Prog.Issues.attempt (Prog.Issues.bind ((Prog.issues_call _).mpr ?_) fun _ =>
        (Prog.issues_call _).mpr trivial) fun _ => trivial
      refine ⟨rfl, device, now, ?_⟩
      rw [twinMapping, List.filterMap_map]
      rfl

/-- The statement writes the twin of the device. -/
def WritesTwin (deviceId : String) (c : CommandChoice) : CommandStmt → Prop
  | .hsetState i _ => i = deviceId ∧ c.fails = none
  | _ => False

instance (deviceId : String) (c : CommandChoice) (q : CommandStmt) :
    Decidable (WritesTwin deviceId c q) :=
  match q with
  | .hsetState .. => inferInstanceAs (Decidable (_ ∧ _))
  | .now | .uuid4 | .selectDevice _ | .insertTelemetry _ | .insertCommand _ | .publish _
  | .failCommand .. | .markSent _ | .ackUpdate .. | .selectCommand _ | .hsetStatus .. | .expire
  | .hgetall _ => inferInstanceAs (Decidable False)

theorem state_of_not_writesTwin {deviceId : String} {c : CommandChoice} {q : CommandStmt}
    (h : ¬ WritesTwin deviceId c q) (s : CommandStore) :
    (commandSem c q s).2.state deviceId = s.state deviceId := by
  cases hfails : c.fails with
  | some m => exact congrFun (commandSem_failed hfails q s).2.2 deviceId
  | none =>
      cases q with
      | insertCommand row =>
          simp only [commandSem, hfails, commandExec]
          cases s.table.insert row <;> rfl
      | markSent i =>
          simp only [commandSem, hfails, commandExec]
          cases s.table.row? i <;> rfl
      | ackUpdate i status error =>
          simp only [commandSem, hfails, commandExec]
          cases s.table.row? i <;> rfl
      | hsetState i mapping =>
          simp only [commandSem, hfails, commandExec]
          exact Function.update_of_ne (fun hi => h ⟨hi.symm, hfails⟩) _ _
      | _ =>
          simp only [commandSem, hfails]
          rfl

/-- What one statement makes of a field of the twin. -/
theorem state_step {deviceId field : String} (hfield : FromReading field) {r : Reading}
    {c : CommandChoice} {q : CommandStmt} (hq : MayIssue str dumps r q) (s : CommandStore) :
    ((commandSem c q s).2.state deviceId).get? field =
      if WritesTwin deviceId c q then
        (r.carried str dumps field).or ((s.state deviceId).get? field)
      else (s.state deviceId).get? field := by
  split
  · rename_i hwrites
    cases q with
    | hsetState i mapping =>
        obtain ⟨rfl, hfails⟩ := hwrites
        obtain ⟨-, device, now, rfl⟩ := hq
        simp only [commandSem, hfails, commandExec, CommandStore.hsetState, Function.update_self]
        exact get?_update_twinMapping str dumps hfield _ device r now
    | _ => exact hwrites.elim
  · rw [state_of_not_writesTwin ‹_›]

/-! ### Runs -/

abbrev IngestPast := Past CommandStmt CommandChoice Reading

/-- The requests of readings, interleaved. -/
abbrev ingestRun (s : CommandStore) (schedule : List (Event CommandChoice Reading Empty)) :
    Config CommandResp Exc TelemetryCreated CommandStore :=
  Config.run commandSem (fun r => ingestTelemetry str dumps r.toTelemetryPayload) noEnv ⟨s, []⟩
    schedule

/-- What has arrived in the run and has been issued. -/
abbrev ingestPast (s : CommandStore) (schedule : List (Event CommandChoice Reading Empty)) :
    IngestPast :=
  (⟨s, []⟩ : Config CommandResp Exc TelemetryCreated CommandStore).past commandSem
    (fun r => ingestTelemetry str dumps r.toTelemetryPayload) noEnv {} schedule

/-- The readings of the device. -/
def readingsOf (deviceId : String) (past : IngestPast) : List Reading :=
  past.arrived.filter fun r => r.deviceId = deviceId

/-- The readings that have been written to the twin, in their order. -/
def writersOf (deviceId : String) (past : IngestPast) : List Reading :=
  (past.issued.filter fun e => WritesTwin deviceId e.2.1 e.2.2).map Prod.fst

/-- What a field shows after these have written in turn. -/
def lastWritten (before : Option String) (writers : List Reading) (field : String) :
    Option String :=
  writers.foldl (fun shown r => (r.carried str dumps field).or shown) before

theorem state_replay {deviceId field : String} (hfield : FromReading field)
    {issued : List (Reading × CommandChoice × CommandStmt)}
    (hissued : ∀ e ∈ issued, MayIssue str dumps e.1 e.2.2) (s : CommandStore) :
    ((issued.foldl (fun s e => (commandSem e.2.1 e.2.2 s).2) s).state deviceId).get? field =
      lastWritten str dumps ((s.state deviceId).get? field)
        ((issued.filter fun e => WritesTwin deviceId e.2.1 e.2.2).map Prod.fst) field := by
  induction issued generalizing s with
  | nil => rfl
  | cons e issued ih =>
      rw [List.forall_mem_cons] at hissued
      rw [List.foldl_cons, ih hissued.2, state_step str dumps hfield hissued.1, List.filter_cons]
      by_cases hwrites : WritesTwin deviceId e.2.1 e.2.2
      · rw [if_pos hwrites, if_pos (decide_eq_true hwrites)]
        rfl
      · rw [if_neg hwrites, if_neg (by simpa using hwrites)]

/-- A run leaves in a field what has been written last. -/
theorem state_ingestRun (deviceId : String) {field : String} (hfield : FromReading field)
    (s : CommandStore) (schedule : List (Event CommandChoice Reading Empty)) :
    ((ingestRun str dumps s schedule).state.state deviceId).get? field =
      lastWritten str dumps ((s.state deviceId).get? field)
        (writersOf deviceId (ingestPast str dumps s schedule)) field := by
  obtain ⟨hreplay, hallowed⟩ := Config.run_replay
    (ingestTelemetry_issues str dumps) s schedule
  rw [ingestRun, hreplay]
  exact state_replay str dumps hfield hallowed s

/-! ### The latest reading -/

/-- The latest of the readings with the property. -/
def LatestAmong (P : Reading → Prop) (readings : List Reading) (r : Reading) : Prop :=
  r ∈ readings ∧ P r ∧ ∀ r' ∈ readings, P r' → r'.captured.instant ≤ r.captured.instant

/-- A field of the reading, and not its time. -/
def TelemetryField (field : String) : Prop := FromReading field ∧ field ≠ "last_seen"

instance (field : String) : Decidable (TelemetryField field) :=
  inferInstanceAs (Decidable (_ ∧ _))

/-- `last_seen` is the latest capture time, and every telemetry field has its
value in the latest reading that carries it. -/
def ShowsLatest (twin : Dict String) (readings : List Reading) : Prop :=
  (∀ r, LatestAmong (fun _ => True) readings r →
      twin.get? "last_seen" = some r.captured.iso) ∧
    ∀ field, TelemetryField field → ∀ r,
      LatestAmong (fun r => (r.carried str dumps field).isSome = true) readings r →
        twin.get? field = r.carried str dumps field

/-- Of those that have written, the last to carry the field carries the value; if
none does, the field had it before. -/
def LastCarries (before : Option String) (writers : List Reading) (field value : String) : Prop :=
  (∃ pre r post, writers = pre ++ r :: post ∧ r.carried str dumps field = some value ∧
      ∀ x ∈ post, x.carried str dumps field = none) ∨
    (∀ x ∈ writers, x.carried str dumps field = none) ∧ before = some value

/-- The condition on the order in which the readings are written: the last to
write `last_seen` writes the latest capture time, and the last of those that
carry a field carries what the latest of them does. -/
def LatestWritesLast (before : Dict String) (writers readings : List Reading) : Prop :=
  (∀ r, LatestAmong (fun _ => True) readings r →
      LastCarries str dumps (before.get? "last_seen") writers "last_seen" r.captured.iso) ∧
    ∀ field, TelemetryField field → ∀ r,
      LatestAmong (fun r => (r.carried str dumps field).isSome = true) readings r →
        ∀ value ∈ r.carried str dumps field,
          LastCarries str dumps (before.get? field) writers field value

theorem lastWritten_eq_some {before : Option String} {writers : List Reading}
    {field value : String} :
    lastWritten str dumps before writers field = some value ↔
      LastCarries str dumps before writers field value := by
  induction writers generalizing before with
  | nil => simp [lastWritten, LastCarries]
  | cons r writers ih =>
      rw [lastWritten, List.foldl_cons, ← lastWritten, ih]
      constructor
      · rintro (⟨pre, w, post, rfl, hw, hpost⟩ | ⟨hnone, hr⟩)
        · exact Or.inl ⟨r :: pre, w, post, rfl, hw, hpost⟩
        · cases hcarried : r.carried str dumps field with
          | none =>
              refine Or.inr ⟨List.forall_mem_cons.mpr ⟨hcarried, hnone⟩, ?_⟩
              simpa [hcarried] using hr
          | some v => exact Or.inl ⟨[], r, writers, rfl, by simpa [hcarried] using hr, hnone⟩
      · rintro (⟨pre, w, post, hsplit, hw, hpost⟩ | ⟨hnone, hbefore⟩)
        · cases pre with
          | nil =>
              obtain ⟨rfl, rfl⟩ := List.cons_eq_cons.mp hsplit
              exact Or.inr ⟨hpost, by rw [hw, Option.some_or]⟩
          | cons _ pre =>
              obtain ⟨rfl, rfl⟩ := List.cons_eq_cons.mp hsplit
              exact Or.inl ⟨pre, w, post, rfl, hw, hpost⟩
        · rw [List.forall_mem_cons] at hnone
          exact Or.inr ⟨hnone.2, by rw [hnone.1, Option.none_or, hbefore]⟩

/-- Readings that are written in the order of their capture times meet the
condition, when none of them brings along another `last_seen`. -/
theorem latestWritesLast_of_sorted {before : Dict String} {writers readings : List Reading}
    (hwriters : ∀ r, r ∈ writers ↔ r ∈ readings)
    (hsorted : writers.Pairwise fun a b => a.captured.instant < b.captured.instant)
    (hseen : ∀ r ∈ readings, r.carried str dumps "last_seen" = some r.captured.iso) :
    LatestWritesLast str dumps before writers readings := by
  have hlast {P : Reading → Prop} {r : Reading} (hr : LatestAmong P readings r) :
      ∃ pre post, writers = pre ++ r :: post ∧ ∀ x ∈ post, ¬ P x := by
    obtain ⟨hmem, -, hmax⟩ := hr
    obtain ⟨pre, post, rfl⟩ := List.append_of_mem ((hwriters r).mpr hmem)
    refine ⟨pre, post, rfl, fun x hx hP => ?_⟩
    have hlater := (List.pairwise_cons.mp (List.pairwise_append.mp hsorted).2.1).1 x hx
    have hx' : x ∈ readings := (hwriters x).mp (by simp [hx])
    exact absurd (hmax x hx' hP) (not_le_of_gt hlater)
  refine ⟨fun r hr => ?_, fun field _ r hr value hvalue => ?_⟩
  · obtain ⟨pre, post, hsplit, hpost⟩ := hlast hr
    exact Or.inl ⟨pre, r, post, hsplit, hseen r hr.1, fun x hx => (hpost x hx trivial).elim⟩
  · obtain ⟨pre, post, hsplit, hpost⟩ := hlast hr
    exact Or.inl ⟨pre, r, post, hsplit, hvalue, fun x hx => by simpa using hpost x hx⟩

/-- **The latest reading.** At every moment of a run, with any number of requests
interleaved and whatever fails, the twin shows the latest of the readings that
have arrived exactly if these have been written in an order in which the latest
come last. -/
theorem twin_latest_iff (str dumps : Json → String) (deviceId : String) (s : CommandStore)
    (schedule : List (Event CommandChoice Reading Empty)) :
    ShowsLatest str dumps ((ingestRun str dumps s schedule).state.state deviceId)
        (readingsOf deviceId (ingestPast str dumps s schedule)) ↔
      LatestWritesLast str dumps (s.state deviceId)
        (writersOf deviceId (ingestPast str dumps s schedule))
        (readingsOf deviceId (ingestPast str dumps s schedule)) := by
  have hstate (field : String) (hfield : FromReading field) :=
    state_ingestRun str dumps deviceId hfield s schedule
  refine and_congr (forall₂_congr fun r _ => ?_)
    (forall₂_congr fun field hfield => forall₂_congr fun r hr => ?_)
  · rw [hstate "last_seen" (by decide), lastWritten_eq_some]
  · obtain ⟨value, hvalue⟩ := Option.isSome_iff_exists.mp hr.2.1
    rw [hstate field hfield.1, hvalue, lastWritten_eq_some]
    simp

end Format

/-! ### A late reading -/

/-- Formatting, as far as the readings below need it. -/
def numberText : Json → String
  | .num q => if q = 230 then "230.0" else if q = 180 then "180.0" else "0.0"
  | _ => "{}"

def meterReading (voltage : ℚ) (captured : Stamp) : Reading where
  deviceId := "METER001"
  time := some captured
  voltage := voltage
  current := 0
  powerKw := 0
  frequency := 0
  solarKw := 0
  batterySoc := 0
  gridImportKw := 0
  gridExportKw := 0
  captured := captured
  timed := rfl

def noonReading : Reading := meterReading 230 ⟨43200, "12:00"⟩

/-- It has been waiting in a buffer. -/
def morningReading : Reading := meterReading 180 ⟨39600, "11:00"⟩

def oneMeter : CommandStore where
  devices := [{ deviceId := "METER001", deviceType := "smart_meter" }]
  table := ⟨[], List.nodup_nil⟩

def servedLate : List (Event CommandChoice Reading Empty) :=
  .spawn noonReading :: .spawn morningReading ::
    ([0, 0, 0, 0, 0, 1, 1, 1, 1, 1].map fun i => .act i {})

/-- Both requests have answered, and the twin shows the older reading. -/
theorem older_reading_shown :
    (ingestRun numberText numberText oneMeter servedLate).threads =
        [.ret { deviceId := "METER001", time := "12:00" },
          .ret { deviceId := "METER001", time := "11:00" }] ∧
      ¬ ShowsLatest numberText numberText
        ((ingestRun numberText numberText oneMeter servedLate).state.state "METER001")
        (readingsOf "METER001" (ingestPast numberText numberText oneMeter servedLate)) := by
  refine ⟨rfl, fun h => ?_⟩
  have hreadings : readingsOf "METER001" (ingestPast numberText numberText oneMeter servedLate) =
      [noonReading, morningReading] := rfl
  have hseen : ((ingestRun numberText numberText oneMeter servedLate).state.state "METER001").get?
      "last_seen" = some "11:00" := by decide +kernel
  have hlatest := h.1 noonReading ⟨by rw [hreadings]; exact List.mem_cons_self, trivial, ?_⟩
  · exact absurd (hseen.symm.trans hlatest) (by decide)
  · rw [hreadings]
    rintro r hr -
    rcases List.mem_pair.mp hr with rfl | rfl
    · exact le_refl _
    · decide +kernel

end DiepLab.Telemetry
