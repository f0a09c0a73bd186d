import DiepLab.Contracts.Telemetry
import DiepLab.JsonText

/-!
The envelope as a text.

`from_json` of what `to_json` writes is the envelope, for construction changes
nothing in what it has accepted once: the quality is a member, and ESTIMATED has
the flag.
-/

namespace DiepLab.Contracts

variable {iso : String → Option IsoTime}

namespace TelemetryEnvelope

variable (e : TelemetryEnvelope iso)

def toJson : List JsonToken := dumps (.dict e.toDict)

variable (iso) in
/-- `from_json`: a `TypeError` of the call is reported as a violation. -/
def fromJson (freshId : String) (raw : List JsonToken) :
    Except Raised (TelemetryEnvelope iso) :=
  match loads raw with
  | none => .error (.contract .notJson)
  | some (.dict d) =>
      match fromDict iso freshId d with
      | .error .typeError => .error (.contract .badFields)
      | result => result
  | some _ => .error (.contract .notObject)

/-- Every dictionary in the fields has one entry for a key, as Python's have.
Texts, numbers and Booleans have none. -/
def Wf : Prop :=
  (∀ v ∈ [e.tenantId.1, e.siteId.1, e.deviceId.1, e.meterId.1, e.sourceProtocol, e.sourceSystem,
    e.correlationId], v.wf = true) ∧
    ∀ m ∈ e.measurements.1,
      m.measurementType.wf = true ∧ m.unit.wf = true ∧ m.estimated.wf = true

instance : Decidable e.Wf := inferInstanceAs (Decidable (_ ∧ _))

theorem wf_toDict_measurement {m : Measurement}
    (h : m.measurementType.wf = true ∧ m.unit.wf = true ∧ m.estimated.wf = true) :
    (PyValue.dict m.toDict).wf = true := by
  have hkeys : (m.toDict.map Prod.fst).Nodup := by
    change ["measurement_type", "unit", "value", "quality", "estimated"].Nodup
    decide
  rw [PyValue.wf, Bool.and_eq_true, decide_eq_true_eq]
  refine ⟨hkeys, ?_⟩
  simp only [Measurement.toDict, PyValue.wfFields, h, PyValue.wf, Bool.and_self]

theorem wf_toDict {e : TelemetryEnvelope iso} (h : e.Wf) :
    (PyValue.dict e.toDict).wf = true := by
  have hkeys : (e.toDict.map Prod.fst).Nodup := by
    change ["tenant_id", "site_id", "device_id", "meter_id", "timestamp_utc", "measurements",
      "timestamp_source", "source_protocol", "source_system", "sequence_number",
      "schema_version", "ingestion_timestamp", "correlation_id"].Nodup
    decide
  have hmeasurements : PyValue.wfItems (e.measurements.1.map fun m => .dict m.toDict) = true := by
    rw [PyValue.wfItems_iff]
    intro v hv
    obtain ⟨m, hm, rfl⟩ := List.mem_map.mp hv
    exact wf_toDict_measurement (h.2 m hm)
  have hstamp :
      (((e.ingestionTimestamp.map Subtype.val).map PyValue.str).getD .none).wf = true := by
    cases e.ingestionTimestamp <;> rfl
  -- the keys of a dictionary that is written are literals; only the values can be ill-formed
  have hfields := h.1
  simp only [List.forall_mem_cons] at hfields
  rw [PyValue.wf, Bool.and_eq_true, decide_eq_true_eq]
  refine ⟨hkeys, ?_⟩
  simp only [toDict, dictWith, PyValue.wfFields, hfields, hstamp, PyValue.wf, hmeasurements,
    Bool.and_self]

end TelemetryEnvelope

/-! ### A reading -/

/-- A clock that reads every text as UTC. -/
def anyUtc (_ : String) : Option IsoTime := some ⟨0, some 0⟩

def utcText (ts : String) (h : ts ≠ "") : UtcText anyUtc := ⟨ts, h, _, rfl, rfl⟩

def voltageReading : Measurement where
  measurementType := "voltage"
  unit := "V"
  value := .float (.finite 231)

/-- A reading of a meter, with one measured and one estimated value. -/
def meterReading : TelemetryEnvelope anyUtc where
  tenantId := ⟨"tenantA", by decide⟩
  siteId := ⟨"site1", by decide⟩
  deviceId := ⟨"METER001", by decide⟩
  meterId := ⟨"METER001", by decide⟩
  timestampUtc := utcText "2026-06-25T12:00:00Z" (by decide)
  measurements := ⟨[voltageReading,
    { measurementType := "active_power", unit := "kW", value := .int 5
      quality := .ESTIMATED, estimated := .bool true }], by decide, by decide⟩
  timestampSource := .GATEWAY
  sourceProtocol := "dlms"
  sourceSystem := "ami-ingest"
  sequenceNumber := 7
  schemaVersion := ⟨"1.0", by decide⟩
  ingestionTimestamp := none
  correlationId := "0e984725-c51c-4bf4-9960-e1c80e27aba0"

end DiepLab.Contracts
