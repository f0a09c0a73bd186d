import DiepLab.Mdm.Duplicates
import DiepLab.Mdm.Measurements
import DiepLab.Mdm.Stages

/-!
The pipeline.

An envelope is validated, told from duplicates, compared with what is known of
its device, rewritten measurement by measurement, and published with all findings
in one additional entry. A stage that raises ends the whole.
-/

namespace DiepLab.Mdm

open Contracts

structure PipelineState (size : ℕ) where
  detector : DuplicateDetector size := {}
  lastSequence : DeviceKey → Option ℕ := fun _ => none
  lastSeen : LastSeen := fun _ => none
  devices : DeviceCache := fun _ => none

structure PipelineResult where
  accepted : Bool
  reason : Option String := none
  topic : Option String := none
  payload : Option (Dict PyValue) := none

/-- What one call of `process` meets. -/
structure Surroundings where
  /-- The `uuid4` for an envelope without a correlation id. -/
  freshId : String
  received : Received
  /-- `datetime.now(timezone.utc).isoformat()`. -/
  processedAt : String
  /-- `time.monotonic()`. -/
  monotonic : ℚ
  lookup : DeviceLookup

/-! ### The payload -/

def orNone : Option String → PyValue
  | some s => .str s
  | none => .none

def QualityTransition.toDict (t : QualityTransition) : Dict PyValue :=
  [("measurement_type", t.measurementType), ("original_quality", t.originalQuality.value),
    ("new_quality", t.newQuality.value), ("reason", t.reason)]

def ConversionRecord.toDict (c : ConversionRecord) : Dict PyValue :=
  [("measurement_type", c.measurementType), ("original_unit", c.originalUnit),
    ("original_value", .num c.originalValue), ("canonical_unit", c.canonicalUnit),
    ("canonical_value", .num (.float c.canonicalValue))]

def GapEvent.toDict (g : GapEvent) : Dict PyValue :=
  [("measurement_type", g.measurementType), ("gap_seconds", .num (.float g.gapSeconds)),
    ("estimated_missed_samples", .num (.int g.estimatedMissedSamples))]

def DeviceMetadata.toDict (m : DeviceMetadata) : Dict PyValue :=
  [("tenant_id", orNone m.tenantId), ("site_id", orNone m.siteId),
    ("device_type", orNone m.deviceType), ("asset_class", orNone m.assetClass),
    ("feeder_id", orNone m.feederId), ("transformer_id", orNone m.transformerId)]

def TimestampAssessment.toDict (t : TimestampAssessment) : Dict PyValue :=
  [("drift_seconds", .num (.float t.driftSeconds)), ("is_drifted", .bool t.isDrifted),
    ("is_out_of_order", .bool t.isOutOfOrder)]

def listOf {α : Type} (toDict : α → Dict PyValue) (items : List α) : PyValue :=
  .list (items.map fun item => .dict (toDict item))

variable {iso : String → Option IsoTime}

/-- The dictionary of the envelope, and `payload["mdm"]`. -/
def trustedPayload (e : TelemetryEnvelope iso) (processedAt : String) (metadata : DeviceMetadata)
    (refined : Refined) (gaps : List GapEvent) (assessment : TimestampAssessment) :
    Dict PyValue :=
  e.dictWith refined.measurements (some assessment.ingestionTimestamp) ++
    [("mdm", .dict [("processed_at", processedAt), ("device_metadata", .dict metadata.toDict),
      ("quality_transitions", listOf QualityTransition.toDict refined.qualityTransitions),
      ("unit_conversions", listOf ConversionRecord.toDict refined.unitConversions),
      ("gap_events", listOf GapEvent.toDict gaps),
      ("timestamp_assessment", .dict assessment.toDict)])]

/-! ### `process` -/

/-- `(tenant_id, device_id)`, or none where it cannot be hashed. -/
def deviceKey? (e : TelemetryEnvelope iso) : Option DeviceKey := do
  let tenantId ← e.tenantId.1.key?
  let deviceId ← e.deviceId.1.key?
  pure (tenantId, deviceId)

section Process

variable (iso) (uuid : String → Bool) (str : PyValue → String) (policy : DedupPolicy)
variable {size : ℕ} (c : Surroundings)

/-- What becomes of an envelope that is no duplicate. -/
def publish (domain : String) (e : TelemetryEnvelope iso) (s : PipelineState size) :
    Except PyError PipelineResult × PipelineState size :=
  match deviceKey? e with
  | none => (.error .typeError, s)
  | some device =>
      let (assessment, lastSequence) := assessTimestamp e device c.received s.lastSequence
      let s := { s with lastSequence := lastSequence }
      match checkGaps device (capturedTime e).instant e.measurements.1 s.lastSeen with
      | (.error raised, lastSeen) => (.error raised, { s with lastSeen := lastSeen })
      | (.ok gaps, lastSeen) =>
          let s := { s with lastSeen := lastSeen }
          match e.measurements.1.foldlM refine {} with
          -- what the earlier stages have recorded of the device stays recorded
          | .error raised => (.error raised, s)
          | .ok refined =>
              let (metadata, devices) :=
                enrich c.lookup e.deviceId.1 device.2 c.monotonic s.devices
              (.ok {
                accepted := true
                topic := some ("diep/" ++ domain ++ "/" ++ str e.deviceId.1 ++ "/trusted")
                payload := some (trustedPayload e c.processedAt metadata refined gaps assessment) },
                { s with devices := devices })

/-- What becomes of an envelope that validation has accepted. -/
def accept (domain : String) (e : TelemetryEnvelope iso) (s : PipelineState size) :
    Except PyError PipelineResult × PipelineState size :=
  match checkAndRecord policy s.detector e with
  | (.error raised, detector) => (.error raised, { s with detector := detector })
  | (.ok duplicate, detector) =>
      let s := { s with detector := detector }
      if duplicate.isDuplicate then (.ok { accepted := false, reason := some "duplicate" }, s)
      else publish iso str c domain e s

/-- `MdmPipeline.process`. -/
def process (raw : Dict PyValue) (domain : String) (s : PipelineState size) :
    Except PyError PipelineResult × PipelineState size :=
  match validate iso uuid c.freshId raw with
  | .error raised => (.error raised, s)
  | .ok (.contractViolation _) =>
      (.ok { accepted := false, reason := some "contract_violation" }, s)
  | .ok (.malformedCorrelationId _) =>
      (.ok { accepted := false, reason := some "malformed_correlation_id" }, s)
  | .ok (.invalidUnit _) => (.ok { accepted := false, reason := some "invalid_unit" }, s)
  | .ok (.accepted e) => accept iso str policy c domain e s

/-! ### What raises -/

/-- The entry is no duplicate for the detector. -/
def IsNew (detector : DuplicateDetector size) (σ : Signature) : Prop :=
  (duplicateResult policy (σ.key ∈ detector.keys)
    (σ.correlationId ∈ detector.correlationIds)).isDuplicate = false

/-- Both signatures of an envelope, read off its object. -/
def payloadSignature? (freshId : String) (payload : Dict PyValue) : Option Signature := do
  let key ← payloadKey? payload
  let correlationId ← (arg payload "correlation_id" freshId).key?
  pure ⟨key, correlationId⟩

/-- An integer that no float is near to is neither converted nor tested. -/
def KeptValue (d : Dict PyValue) : Prop :=
  ∀ x, arg d "value" .none = .num x → x.huge = true →
    conversion? (arg d "measurement_type" .none) (arg d "unit" .none) = none ∧
      arg d "quality" Quality.GOOD.value ≠ Quality.GOOD.value

def unitArg (P : PyValue → PyValue → Prop) (d : Dict PyValue) : Prop :=
  P (arg d "measurement_type" .none) (arg d "unit" .none)

/-- The object of an envelope that raises nothing. What fails an earlier check is
not looked at by the later ones. -/
structure Processable (freshId : String) (detector : DuplicateDetector size)
    (raw : Dict PyValue) : Prop where
  units : EachMeasurement raw (unitArg HashableUnit)
  tenantKey : EachMeasurement raw (unitArg KnownUnit) → (arg raw "tenant_id" .none).key? ≠ none
  deviceKey : EachMeasurement raw (unitArg KnownUnit) → (arg raw "device_id" .none).key? ≠ none
  values : EachMeasurement raw (unitArg KnownUnit) →
    (∀ σ ∈ payloadSignature? freshId raw, IsNew policy detector σ) →
    EachMeasurement raw KeptValue

section Raises

variable {iso uuid str policy c}
variable {domain : String} {e : TelemetryEnvelope iso} {raw : Dict PyValue}
variable {s : PipelineState size}

theorem key?_of_isUuid {v : PyValue} (h : IsUuid uuid v = true) : v.key? ≠ none := by
  cases v with
  | str t => exact nofun
  | _ => exact nomatch h

theorem deviceKey?_ne_none :
    deviceKey? e ≠ none ↔ e.tenantId.1.key? ≠ none ∧ e.deviceId.1.key? ≠ none :=
  both_ne_none

theorem signature?_ne_none (h : IsUuid uuid e.correlationId = true) :
    signature? e ≠ none ↔ e.tenantId.1.key? ≠ none ∧ e.deviceId.1.key? ≠ none :=
  both_ne_none.trans ((and_iff_left (key?_of_isUuid h)).trans dedupKey?_ne_none)

theorem payloadSignature?_eq {freshId : String} (h : e.MadeOf freshId raw) :
    payloadSignature? freshId raw = signature? e := by
  rw [payloadSignature?, ← dedupKey?_eq h, ← h.correlationId]
  rfl

theorem publish_isOk : (∃ result, (publish iso str c domain e s).1 = .ok result) ↔
    deviceKey? e ≠ none ∧ ∀ m ∈ e.measurements.1, Refinable m := by
  unfold publish
  cases deviceKey? e with
  | none => exact iff_of_false (fun ⟨_, h⟩ => nomatch h) fun h => h.1 rfl
  | some device =>
      rw [← foldlM_isOk refine_isOk _ {}, and_iff_right nofun]
      obtain ⟨events, hevents⟩ := checkGaps_isOk device (capturedTime e).instant
        e.measurements.2.2.1 s.lastSeen
      dsimp only
      split
      · rename_i heq
        rw [heq] at hevents
        exact nomatch hevents
      · cases e.measurements.1.foldlM refine {} with
        | error raised => exact iff_of_false (fun ⟨_, h⟩ => nomatch h) fun ⟨_, h⟩ => nomatch h
        | ok refined => exact iff_of_true ⟨_, rfl⟩ ⟨_, rfl⟩

/-- The units of the envelope are known, so that only a value can stop the loop. -/
theorem refinable_iff {m : Measurement} (h : KnownUnit m.measurementType m.unit) :
    Refinable m ↔
      (m.value.huge = true → conversion? m.measurementType m.unit = none ∧ m.quality ≠ .GOOD) := by
  -- a type with a canonical unit is in the registry, whose units are all texts
  have htable : ∀ name ∈ canonicalUnits.map Prod.fst, knownUnits.get? name ≠ none := by decide
  refine and_iff_right fun hcanonical => ?_
  cases htype : m.measurementType with
  | str name =>
      rw [htype] at hcanonical h
      have hname : name ∈ canonicalUnits.map Prod.fst := by
        by_contra hname
        exact hcanonical (Dict.get?_eq_none hname)
      obtain ⟨units, hunits⟩ := Option.ne_none_iff_exists'.mp (htable name hname)
      obtain ⟨known, -, hunit⟩ := h units hunits
      rw [hunit]
      exact nofun
  | _ => exact absurd (by rw [htype]; rfl) hcanonical

theorem accept_isOk (huuid : IsUuid uuid e.correlationId = true) :
    (∃ result, (accept iso str policy c domain e s).1 = .ok result) ↔
      (e.tenantId.1.key? ≠ none ∧ e.deviceId.1.key? ≠ none) ∧
        ((∀ σ ∈ signature? e, IsNew policy s.detector σ) →
          ∀ m ∈ e.measurements.1, Refinable m) := by
  rw [← signature?_ne_none huuid, accept, checkAndRecord]
  cases hσ : signature? e with
  | none => exact iff_of_false (fun ⟨_, h⟩ => nomatch h) fun h => h.1 rfl
  | some σ =>
      rw [and_iff_right nofun]
      simp only [Option.mem_def, Option.some.injEq, forall_eq', IsNew]
      split
      · rename_i hdup
        rw [hdup]
        exact iff_of_true ⟨_, rfl⟩ nofun
      · rename_i hnew
        have hkeys : signature? e ≠ none := by
          rw [hσ]
          exact nofun
        rw [publish_isOk, deviceKey?_ne_none, and_iff_right ((signature?_ne_none huuid).mp hkeys),
          forall_prop_of_true (Bool.not_eq_true _ ▸ hnew)]

/-- An envelope that is published carries what the loop has made of its
measurements. -/
theorem publish_eq_ok {result : PipelineResult}
    (h : (publish iso str c domain e s).1 = .ok result) :
    result.accepted = true ∧ ∃ refined metadata gaps assessment,
      e.measurements.1.foldlM refine {} = .ok refined ∧
        result.payload =
          some (trustedPayload e c.processedAt metadata refined gaps assessment) := by
  unfold publish at h
  split at h
  · exact nomatch h
  · dsimp only at h
    split at h
    · exact nomatch h
    · split at h
      · exact nomatch h
      · rename_i refined hrefined
        injection h with h
        subst h
        exact ⟨rfl, refined, _, _, _, hrefined, rfl⟩

/-- What is returned is rejected and says why, or was published. -/
theorem process_eq_ok {result : PipelineResult}
    (h : (process iso uuid str policy c raw domain s).1 = .ok result) :
    (result.accepted = false ∧ result.reason ≠ none) ∨
      ∃ e, ∃ s' : PipelineState size, validate iso uuid c.freshId raw = .ok (.accepted e) ∧
        (publish iso str c domain e s').1 = .ok result := by
  have hrejected (reason : String)
      (h : (.ok { accepted := false, reason := some reason } : Except PyError _) = .ok result) :
      result.accepted = false ∧ result.reason ≠ none := by
    injection h with h
    subst h
    exact ⟨rfl, nofun⟩
  unfold process at h
  split at h
  · exact nomatch h
  · exact Or.inl (hrejected _ h)
  · exact Or.inl (hrejected _ h)
  · exact Or.inl (hrejected _ h)
  · rename_i e hvalid
    unfold accept at h
    split at h
    · exact nomatch h
    · dsimp only at h
      split at h
      · exact Or.inl (hrejected _ h)
      · exact Or.inr ⟨e, _, hvalid, h⟩

/-- Validation and what follows it raise nothing. -/
theorem process_isOk : (∃ result, (process iso uuid str policy c raw domain s).1 = .ok result) ↔
    (∃ result, validate iso uuid c.freshId raw = .ok result) ∧
      ∀ e, validate iso uuid c.freshId raw = .ok (.accepted e) →
        ∃ result, (accept iso str policy c domain e s).1 = .ok result := by
  unfold process
  split
  · rename_i hvalid
    rw [hvalid]
    exact iff_of_false (fun ⟨_, h⟩ => nomatch h) fun ⟨⟨_, h⟩, _⟩ => nomatch h
  · rename_i hvalid
    rw [hvalid]
    exact iff_of_true ⟨_, rfl⟩ ⟨⟨_, rfl⟩, fun _ h => nomatch h⟩
  · rename_i hvalid
    rw [hvalid]
    exact iff_of_true ⟨_, rfl⟩ ⟨⟨_, rfl⟩, fun _ h => nomatch h⟩
  · rename_i hvalid
    rw [hvalid]
    exact iff_of_true ⟨_, rfl⟩ ⟨⟨_, rfl⟩, fun _ h => nomatch h⟩
  · rename_i e hvalid
    rw [hvalid, and_iff_right ⟨_, rfl⟩]
    simp only [Except.ok.injEq, ValidationResult.accepted.injEq, forall_eq']

theorem keptValue_iff (d : Dict PyValue) (m : Measurement) (h : m.MadeOf d) :
    (m.value.huge = true → conversion? m.measurementType m.unit = none ∧ m.quality ≠ .GOOD) ↔
      KeptValue d := by
  have hquality : m.quality = .GOOD ↔ arg d "quality" Quality.GOOD.value = Quality.GOOD.value := by
    rw [h.quality]
    cases m.quality <;> simp [Quality.value]
  rw [KeptValue, h.value, ← h.measurementType, ← h.unit, ne_eq, ne_eq, hquality]
  simp only [PyValue.num.injEq, forall_eq']

/-- The object is processable exactly if the envelope that it makes is. -/
theorem processable_iff {freshId : String} {detector : DuplicateDetector size}
    (h : e.MadeOf freshId raw) :
    Processable policy freshId detector raw ↔
      (∀ m ∈ e.measurements.1, HashableUnit m.measurementType m.unit) ∧
        ((∀ m ∈ e.measurements.1, KnownUnit m.measurementType m.unit) →
          (e.tenantId.1.key? ≠ none ∧ e.deviceId.1.key? ≠ none) ∧
            ((∀ σ ∈ signature? e, IsNew policy detector σ) →
              ∀ m ∈ e.measurements.1, m.value.huge = true →
                conversion? m.measurementType m.unit = none ∧ m.quality ≠ .GOOD)) := by
  have hunits (P : PyValue → PyValue → Prop) :
      (∀ m ∈ e.measurements.1, P m.measurementType m.unit) ↔ EachMeasurement raw (unitArg P) :=
    eachMeasurement_iff h fun d m hm => by rw [unitArg, ← hm.measurementType, ← hm.unit]
  rw [hunits, hunits, eachMeasurement_iff h keptValue_iff, h.tenantId, h.deviceId,
    ← payloadSignature?_eq h]
  constructor
  · rintro ⟨hhashable, htenant, hdevice, hvalues⟩
    exact ⟨hhashable, fun hknown => ⟨⟨htenant hknown, hdevice hknown⟩, hvalues hknown⟩⟩
  · rintro ⟨hhashable, hrest⟩
    exact ⟨hhashable, fun hknown => (hrest hknown).1.1, fun hknown => (hrest hknown).1.2,
      fun hknown => (hrest hknown).2⟩

end Raises

end Process

/-! ### A unit that is a list -/

/-- No device is known. -/
def noDevices : DeviceLookup where
  deviceRow _ := none
  gridNode _ := none

def atNoon : Surroundings where
  freshId := ""
  received := ⟨0, "2026-06-25T12:00:00+00:00"⟩
  processedAt := "2026-06-25T12:00:00+00:00"
  monotonic := 0
  lookup := noDevices

/-- `uuid.UUID` accepts at least the id of the reading. -/
def isReadingId (s : String) : Bool := s = "0e984725-c51c-4bf4-9960-e1c80e27aba0"

def listUnit : Dict PyValue :=
  meterReading.toDict.set "measurements" (.list [.dict [("measurement_type", "voltage"),
    ("unit", .list ["V"]), ("value", .num (.int 231))]])

end DiepLab.Mdm
