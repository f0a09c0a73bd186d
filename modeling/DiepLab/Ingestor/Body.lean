import DiepLab.Contracts.Telemetry

/-!
The body that the ingestor posts.

An envelope is flattened onto the columns of the API, and the payload of a device
that knows no envelopes is normalised. Both take numbers for a column only if
they are finite; what they pass through beside the columns they do not look at.
Testing an integer that no float is near to raises.
-/

namespace DiepLab.Ingestor

open Contracts

def canonicalFields : List String :=
  ["voltage", "current", "power_kw", "frequency", "solar_kw", "battery_soc", "grid_import_kw",
    "grid_export_kw"]

def extendedNumeric : List String :=
  ["power_factor", "energy_import_kwh", "energy_export_kwh", "temperature", "soh"]

def extraFields : List String :=
  ["vehicle_soc", "connector_status", "session_energy_kwh", "load_kw", "setpoint_kw",
    "grid_connected", "mode"]

/-- `body["extra"]`; the keys of `quality` are what the measurements are of. -/
structure Extra where
  fields : Dict PyValue
  quality : Option (List (PyValue × Dict PyValue))
  deriving Repr

structure Body where
  fields : Dict PyValue
  extra : Option Extra
  deriving Repr

/-- The canonical fields, each with its default. -/
def zeros : Dict PyValue := canonicalFields.map fun field => (field, .num (.float (.finite 0)))

/-! ### Envelopes -/

/-- A measurement of a column. -/
def flattened (measurementType : PyValue) : Option String :=
  (canonicalFields ++ extendedNumeric).find? fun field => measurementType.key? = some (.str field)

def rejectedQuality (m : Measurement) : Dict PyValue :=
  [("quality", "INVALID"), ("estimated", m.estimated), ("rejected_reason", "non_finite_value"),
    ("original_quality", m.quality.value)]

def keptQuality (m : Measurement) : Dict PyValue :=
  [("quality", m.quality.value), ("estimated", m.estimated)]

/-- One turn of the loop, on the fields and `quality_by_field`. The types are
different keys, so that each entry is a new one. -/
def flatten (acc : Dict PyValue × List (PyValue × Dict PyValue)) (m : Measurement) :
    Except PyError (Dict PyValue × List (PyValue × Dict PyValue)) :=
  match flattened m.measurementType with
  | some field =>
      match m.value.isFinite? with
      | none => .error .overflowError
      | some false => .ok (acc.1, acc.2 ++ [(m.measurementType, rejectedQuality m)])
      | some true =>
          .ok (acc.1.set field (.num m.value), acc.2 ++ [(m.measurementType, keptQuality m)])
  | none => .ok (acc.1, acc.2 ++ [(m.measurementType, keptQuality m)])

variable {iso : String → Option IsoTime}

/-- The fields of the envelope that are no column. -/
def envelopeExtra (e : TelemetryEnvelope iso) : Dict PyValue :=
  [("tenant_id", e.tenantId.1), ("site_id", e.siteId.1), ("meter_id", e.meterId.1),
    ("schema_version", e.schemaVersion.1), ("correlation_id", e.correlationId),
    ("sequence_number", .num (.int e.sequenceNumber)), ("source_protocol", e.sourceProtocol),
    ("timestamp_source", e.timestampSource.value)]

def envelopeToLegacyBody (e : TelemetryEnvelope iso) : Except PyError Body := do
  let (fields, quality) ← e.measurements.1.foldlM flatten (zeros, [])
  pure {
    fields := (fields.set "device_id" e.deviceId.1).set "time" e.timestampUtc.1
    extra := some { fields := envelopeExtra e, quality := some quality } }

/-! ### Legacy payloads -/

/-- `_num`. -/
def num : Option PyValue → Except PyError (Option Double)
  | some (.num x) =>
      match x.toDouble? with
      | none => .error .overflowError
      | some y => .ok (some y)
  | _ => .ok none

structure Normalized where
  out : Dict PyValue := zeros
  rejections : Dict (Dict PyValue) := []

def invalid : Dict PyValue := [("quality", "INVALID"), ("rejected_reason", "non_finite_value")]

namespace Normalized

variable (n : Normalized)

def write (field : String) (x : Double) : Normalized :=
  { n with out := n.out.set field (.num (.float x)) }

/-- `_reject_non_finite`. -/
def rejectNonFinite (fields : List String) : Normalized :=
  { n with rejections := n.rejections.update (fields.map fun field => (field, invalid)) }

/-- `_accept_or_reject`. -/
def acceptOrReject (field : String) : Option Double → Normalized
  | none => n
  | some x => if x.isFinite then n.write field x else n.rejectNonFinite [field]

/-- The columns that are taken by their names. -/
def takeFields (payload : Dict PyValue) (fields : List String) (n : Normalized) :
    Except PyError Normalized :=
  fields.foldlM (fun n field => (num (payload.get? field)).map (n.acceptOrReject field)) n

/-- `output_kw`: what a solar inverter generates. -/
def takeOutput : Option Double → Normalized
  | none => n
  | some x =>
      if x.isFinite then
        ((n.write "solar_kw" x).write "power_kw" x).write "grid_export_kw"
          (Double.max (.finite 0) x)
      else n.rejectNonFinite ["solar_kw", "power_kw", "grid_export_kw"]

/-- `pcc_kw`: the point where a microgrid is coupled. -/
def takeCoupling : Option Double → Normalized
  | none => n
  | some x =>
      if x.isFinite then
        ((n.write "power_kw" x).write "grid_import_kw" (Double.max (.finite 0) x)).write
          "grid_export_kw" (Double.max (.finite 0) x.neg)
      else n.rejectNonFinite ["power_kw", "grid_import_kw", "grid_export_kw"]

end Normalized

/-- `out["state"]`. -/
def withState (str : PyValue → String) (payload out : Dict PyValue) : Dict PyValue :=
  match payload.get? "state" with
  | none => out
  | some .none => out
  | some v => out.set "state" (.str (str v))

/-- The device-specific long tail. -/
def longTail (payload : Dict PyValue) : Dict PyValue :=
  extraFields.filterMap fun k => (payload.get? k).map fun v => (k, v)

/-- `out["extra"]`, if there is anything to keep. -/
def passedThrough (payload : Dict PyValue) (rejections : Dict (Dict PyValue)) : Option Extra :=
  if (longTail payload).isEmpty && rejections.isEmpty then none
  else some {
    fields := longTail payload
    quality :=
      if rejections.isEmpty then none else some (rejections.map fun kv => (.str kv.1, kv.2)) }

/-- `normalize`; `str` is Python's. -/
def normalize (str : PyValue → String) (payload : Dict PyValue) : Except PyError Body := do
  let n ← Normalized.takeFields payload canonicalFields {}
  let soc ← num (payload.get? "soc")
  let n := n.acceptOrReject "battery_soc" soc
  let outputKw ← num (payload.get? "output_kw")
  let n := n.takeOutput outputKw
  let pccKw ← num (payload.get? "pcc_kw")
  let n := n.takeCoupling pccKw
  let n ← Normalized.takeFields payload extendedNumeric n
  pure { fields := withState str payload n.out, extra := passedThrough payload n.rejections }

/-! ### Finite bodies -/

/-- No number among the values is an infinity or `NaN`. -/
abbrev FiniteFields (d : Dict PyValue) : Prop := ∀ kv ∈ d, kv.2.allFinite = true

def Extra.Finite (x : Extra) : Prop :=
  FiniteFields x.fields ∧ ∀ quality ∈ x.quality, ∀ kv ∈ quality,
    kv.1.allFinite = true ∧ FiniteFields kv.2

def Body.Finite (b : Body) : Prop := FiniteFields b.fields ∧ ∀ x ∈ b.extra, x.Finite

theorem finiteFields_set {d : Dict PyValue} (h : FiniteFields d) {v : PyValue}
    (hv : v.allFinite = true) (key : String) : FiniteFields (d.set key v) := by
  intro kv hkv
  rcases Dict.mem_set hkv with hkv | rfl
  · exact h kv hkv
  · exact hv

theorem finiteFields_zeros : FiniteFields zeros := by
  intro kv hkv
  obtain ⟨field, -, rfl⟩ := List.mem_map.mp hkv
  rfl

/-! What the loop over the measurements makes. -/

/-- The measurement is of a column, and its value is not finite. -/
def Rejected (m : Measurement) : Prop :=
  flattened m.measurementType ≠ none ∧ m.value.finite = false

instance (m : Measurement) : Decidable (Rejected m) := inferInstanceAs (Decidable (_ ∧ _))

def qualityEntry (m : Measurement) : PyValue × Dict PyValue :=
  (m.measurementType, if Rejected m then rejectedQuality m else keptQuality m)

theorem flatten_isOk (acc : Dict PyValue × List (PyValue × Dict PyValue)) (m : Measurement) :
    (∃ acc', flatten acc m = .ok acc') ↔
      (flattened m.measurementType ≠ none → m.value.huge = false) := by
  unfold flatten
  cases flattened m.measurementType with
  | none => exact iff_of_true ⟨_, rfl⟩ fun h => absurd rfl h
  | some field =>
      dsimp only
      cases htest : m.value.isFinite? with
      | none =>
          refine iff_of_false (fun ⟨_, h⟩ => nomatch h) fun h => ?_
          exact absurd (Number.isFinite?_eq_none.mp htest) (by simp [h nofun])
      | some finite =>
          refine iff_of_true (by cases finite <;> exact ⟨_, rfl⟩) fun _ => ?_
          rw [← Bool.not_eq_true, ← Number.isFinite?_eq_none, htest]
          exact nofun

/-- One turn adds the quality of the measurement, and keeps the fields finite. -/
theorem flatten_eq_ok {acc acc' : Dict PyValue × List (PyValue × Dict PyValue)} {m : Measurement}
    (h : flatten acc m = .ok acc') :
    acc'.2 = acc.2 ++ [qualityEntry m] ∧ (FiniteFields acc.1 → FiniteFields acc'.1) := by
  have hhuge := (flatten_isOk acc m).mp ⟨acc', h⟩
  unfold flatten at h
  cases hcolumn : flattened m.measurementType with
  | none =>
      have hentry : qualityEntry m = (m.measurementType, keptQuality m) := by
        rw [qualityEntry, if_neg fun hrejected => hrejected.1 hcolumn]
      rw [hcolumn] at h
      injection h with h
      exact ⟨by rw [← h, hentry], by rw [← h]; exact id⟩
  | some field =>
      have hne : flattened m.measurementType ≠ none := by
        rw [hcolumn]
        exact nofun
      rw [hcolumn] at h
      dsimp only at h
      rw [Number.isFinite?_eq (hhuge hne)] at h
      cases hfinite : m.value.finite with
      | false =>
          rw [hfinite] at h
          injection h with h
          exact ⟨by rw [← h, qualityEntry, if_pos ⟨hne, hfinite⟩], by rw [← h]; exact id⟩
      | true =>
          have hentry : qualityEntry m = (m.measurementType, keptQuality m) := by
            rw [qualityEntry, if_neg fun hrejected => by simp [hrejected.2] at hfinite]
          rw [hfinite] at h
          injection h with h
          refine ⟨by rw [← h, hentry], fun hfields => ?_⟩
          rw [← h]
          exact finiteFields_set hfields (by rw [PyValue.allFinite_num, hfinite]) field

theorem foldlM_flatten {measurements : List Measurement}
    {acc acc' : Dict PyValue × List (PyValue × Dict PyValue)}
    (h : measurements.foldlM flatten acc = .ok acc') :
    acc'.2 = acc.2 ++ measurements.map qualityEntry ∧
      (FiniteFields acc.1 → FiniteFields acc'.1) := by
  induction measurements generalizing acc with
  | nil =>
      injection h with h
      subst h
      exact ⟨by simp, id⟩
  | cons m rest ih =>
      rw [List.foldlM_cons] at h
      obtain ⟨next, hturn, h⟩ := bind_eq_ok.mp h
      obtain ⟨hentry, hkept⟩ := flatten_eq_ok hturn
      obtain ⟨hquality, hrest⟩ := ih h
      refine ⟨?_, hrest ∘ hkept⟩
      rw [hquality, hentry, List.map_cons, List.append_assoc, List.singleton_append]

/-- What the quality of a measurement carries is finite if its type and its flag
are. -/
theorem finite_qualityEntry {m : Measurement} :
    ((qualityEntry m).1.allFinite = true ∧ FiniteFields (qualityEntry m).2) ↔
      m.measurementType.allFinite = true ∧ m.estimated.allFinite = true := by
  refine and_congr_right fun _ => ?_
  unfold qualityEntry
  dsimp only
  split
  · simp [FiniteFields, rejectedQuality]
  · simp [FiniteFields, keptQuality]

/-! The body of an envelope. -/

theorem envelopeToLegacyBody_isOk {e : TelemetryEnvelope iso} :
    (∃ body, envelopeToLegacyBody e = .ok body) ↔
      ∀ m ∈ e.measurements.1, flattened m.measurementType ≠ none → m.value.huge = false := by
  rw [← foldlM_isOk flatten_isOk e.measurements.1 (zeros, [])]
  exact (exists_bind fun _ _ => iff_of_true ⟨_, rfl⟩ trivial).trans (and_iff_left trivial)

/-- The values of the envelope that the body passes through are finite. -/
structure FiniteEnvelope (e : TelemetryEnvelope iso) : Prop where
  tenantId : e.tenantId.1.allFinite = true
  siteId : e.siteId.1.allFinite = true
  deviceId : e.deviceId.1.allFinite = true
  meterId : e.meterId.1.allFinite = true
  correlationId : e.correlationId.allFinite = true
  sourceProtocol : e.sourceProtocol.allFinite = true
  measurements : ∀ m ∈ e.measurements.1,
    m.measurementType.allFinite = true ∧ m.estimated.allFinite = true

theorem finite_envelopeExtra {e : TelemetryEnvelope iso} :
    FiniteFields (envelopeExtra e) ↔
      e.tenantId.1.allFinite = true ∧ e.siteId.1.allFinite = true ∧
        e.meterId.1.allFinite = true ∧ e.correlationId.allFinite = true ∧
        e.sourceProtocol.allFinite = true := by
  have hnumber : (PyValue.num (.int e.sequenceNumber)).allFinite = true := by
    rw [PyValue.allFinite_num, Number.finite]
  simp [FiniteFields, envelopeExtra, hnumber]

theorem finite_envelopeToLegacyBody {e : TelemetryEnvelope iso} {body : Body}
    (h : envelopeToLegacyBody e = .ok body) : body.Finite ↔ FiniteEnvelope e := by
  obtain ⟨⟨fields, quality⟩, hloop, h⟩ := bind_eq_ok.mp h
  injection h with h
  obtain ⟨hquality, hkept⟩ := foldlM_flatten hloop
  rw [List.nil_append] at hquality
  dsimp only at hquality
  have hfields : FiniteFields ((fields.set "device_id" e.deviceId.1).set "time" e.timestampUtc.1) ↔
      e.deviceId.1.allFinite = true := by
    constructor
    · intro hall
      refine hall ("device_id", e.deviceId.1) (Dict.mem_of_get? ?_)
      rw [Dict.get?_set, if_neg (by decide), Dict.get?_set, if_pos rfl]
    · intro hdevice
      exact finiteFields_set (finiteFields_set (hkept finiteFields_zeros) hdevice _)
        (PyValue.allFinite_str _) _
  have hentries : (∀ kv ∈ quality, kv.1.allFinite = true ∧ FiniteFields kv.2) ↔
      ∀ m ∈ e.measurements.1,
        m.measurementType.allFinite = true ∧ m.estimated.allFinite = true := by
    rw [hquality, List.forall_mem_map]
    exact forall₂_congr fun m _ => finite_qualityEntry
  rw [← h, Body.Finite]
  dsimp only
  simp only [Option.mem_some_iff, forall_eq', Extra.Finite, hfields, hentries,
    finite_envelopeExtra]
  constructor
  · rintro ⟨hdevice, ⟨htenant, hsite, hmeter, hcorrelation, hprotocol⟩, hmeasurements⟩
    exact ⟨htenant, hsite, hdevice, hmeter, hcorrelation, hprotocol, hmeasurements⟩
  · rintro ⟨htenant, hsite, hdevice, hmeter, hcorrelation, hprotocol, hmeasurements⟩
    exact ⟨hdevice, ⟨htenant, hsite, hmeter, hcorrelation, hprotocol⟩, hmeasurements⟩

/-! The body of a legacy payload. -/

/-- The fields of which numbers are taken. -/
def numericFields : List String :=
  canonicalFields ++ ["soc", "output_kw", "pcc_kw"] ++ extendedNumeric

/-- The field is no integer that no float is near to. -/
def Measurable (payload : Dict PyValue) (field : String) : Prop :=
  ∀ x, payload.get? field = some (.num x) → x.huge = false

theorem num_isOk {payload : Dict PyValue} {field : String} :
    (∃ x, num (payload.get? field) = .ok x) ↔ Measurable payload field := by
  unfold Measurable
  cases payload.get? field with
  | none => exact iff_of_true ⟨none, rfl⟩ nofun
  | some v =>
      cases v with
      | num x =>
          rw [num]
          cases hx : x.toDouble? with
          | none =>
              refine iff_of_false (fun ⟨_, h⟩ => nomatch h) fun h => ?_
              exact absurd (Number.toDouble?_eq_none.mp hx) (by simp [h x rfl])
          | some y =>
              refine iff_of_true ⟨some y, rfl⟩ ?_
              rintro _ ⟨⟩
              rw [← Bool.not_eq_true, ← Number.toDouble?_eq_none, hx]
              exact nofun
      | _ => exact iff_of_true ⟨none, rfl⟩ nofun

theorem takeFields_isOk {payload : Dict PyValue} {fields : List String} {n : Normalized} :
    (∃ n', n.takeFields payload fields = .ok n') ↔
      ∀ field ∈ fields, Measurable payload field := by
  refine foldlM_isOk (fun n field => ?_) fields n
  rw [← num_isOk]
  cases num (payload.get? field) with
  | ok x => exact iff_of_true ⟨_, rfl⟩ ⟨x, rfl⟩
  | error e => exact iff_of_false (fun ⟨_, h⟩ => nomatch h) fun ⟨_, h⟩ => nomatch h

theorem normalize_isOk {str : PyValue → String} {payload : Dict PyValue} :
    (∃ body, normalize str payload = .ok body) ↔
      ∀ field ∈ numericFields, Measurable payload field := by
  have hparts : (∃ body, normalize str payload = .ok body) ↔
      (∀ field ∈ canonicalFields, Measurable payload field) ∧ Measurable payload "soc" ∧
        Measurable payload "output_kw" ∧ Measurable payload "pcc_kw" ∧
        ∀ field ∈ extendedNumeric, Measurable payload field := by
    unfold normalize
    rw [← takeFields_isOk (n := {}), ← num_isOk, ← num_isOk, ← num_isOk]
    refine exists_bind fun n _ => exists_bind fun soc _ => exists_bind fun output _ =>
      exists_bind fun pcc _ => ?_
    refine (exists_bind fun n' _ => iff_of_true ⟨_, rfl⟩ trivial).trans ?_
    rw [and_iff_left trivial]
    exact takeFields_isOk
  rw [hparts, numericFields, List.append_assoc]
  simp only [List.forall_mem_append, List.forall_mem_cons, List.not_mem_nil,
    IsEmpty.forall_iff, implies_true, true_and, and_assoc]

namespace Normalized

/-- What has been taken is finite. -/
def Finite (n : Normalized) : Prop :=
  FiniteFields n.out ∧ ∀ kv ∈ n.rejections, FiniteFields kv.2

variable {n : Normalized}

theorem Finite.write (h : n.Finite) {x : Double} (hx : x.isFinite = true) (field : String) :
    (n.write field x).Finite :=
  ⟨finiteFields_set h.1 (by rw [PyValue.allFinite_num]; exact hx) field, h.2⟩

theorem Finite.rejectNonFinite (h : n.Finite) (fields : List String) :
    (n.rejectNonFinite fields).Finite := by
  refine ⟨h.1, fun kv hkv => ?_⟩
  rcases Dict.mem_update hkv with hkv | hkv
  · exact h.2 kv hkv
  · obtain ⟨field, -, rfl⟩ := List.mem_map.mp hkv
    simp [FiniteFields, invalid]

theorem Finite.acceptOrReject (h : n.Finite) (field : String) (raw : Option Double) :
    (n.acceptOrReject field raw).Finite := by
  cases raw with
  | none => exact h
  | some x =>
      rw [Normalized.acceptOrReject]
      split
      · exact h.write ‹_› field
      · exact h.rejectNonFinite [field]

theorem isFinite_zero : (Double.finite 0).isFinite = true := rfl

theorem Finite.takeOutput (h : n.Finite) (raw : Option Double) : (n.takeOutput raw).Finite := by
  cases raw with
  | none => exact h
  | some x =>
      rw [Normalized.takeOutput]
      split
      · rename_i hx
        exact ((h.write hx _).write hx _).write (Double.isFinite_max isFinite_zero hx) _
      · exact h.rejectNonFinite _

theorem Finite.takeCoupling (h : n.Finite) (raw : Option Double) :
    (n.takeCoupling raw).Finite := by
  cases raw with
  | none => exact h
  | some x =>
      rw [Normalized.takeCoupling]
      split
      · rename_i hx
        have hneg : x.neg.isFinite = true := (Double.isFinite_neg x).trans hx
        exact ((h.write hx _).write (Double.isFinite_max isFinite_zero hx) _).write
          (Double.isFinite_max isFinite_zero hneg) _
      · exact h.rejectNonFinite _

theorem Finite.takeFields {payload : Dict PyValue} {fields : List String} {n' : Normalized}
    (hrun : n.takeFields payload fields = .ok n') (h : n.Finite) : n'.Finite := by
  refine foldlM_kept (fun n field n' hturn hn => ?_) hrun h
  cases hnum : num (payload.get? field) with
  | error e =>
      rw [hnum] at hturn
      exact nomatch hturn
  | ok raw =>
      rw [hnum] at hturn
      injection hturn with hturn
      exact hturn ▸ hn.acceptOrReject field raw

end Normalized

/-- The long tail is finite. -/
def FiniteTail (payload : Dict PyValue) : Prop :=
  ∀ field ∈ extraFields, ∀ v, payload.get? field = some v → v.allFinite = true

theorem finite_longTail {payload : Dict PyValue} :
    FiniteFields (longTail payload) ↔ FiniteTail payload := by
  constructor
  · intro h field hfield v hv
    exact h (field, v) (List.mem_filterMap.mpr ⟨field, hfield, by rw [hv]; rfl⟩)
  · intro h kv hkv
    obtain ⟨field, hfield, hget⟩ := List.mem_filterMap.mp hkv
    obtain ⟨v, hv, rfl⟩ := Option.map_eq_some_iff.mp hget
    exact h field hfield v hv

theorem finite_passedThrough {payload : Dict PyValue} {rejections : Dict (Dict PyValue)}
    (hrejections : ∀ kv ∈ rejections, FiniteFields kv.2) :
    (∀ x ∈ passedThrough payload rejections, x.Finite) ↔ FiniteTail payload := by
  rw [← finite_longTail, passedThrough]
  split
  · rename_i hempty
    rw [Bool.and_eq_true, List.isEmpty_iff] at hempty
    refine iff_of_true nofun ?_
    rw [hempty.1]
    exact nofun
  · simp only [Option.mem_some_iff, forall_eq', Extra.Finite]
    refine and_iff_left fun quality hquality kv hkv => ?_
    split at hquality
    · exact nomatch hquality
    · injection hquality with hquality
      rw [← hquality] at hkv
      obtain ⟨rejection, hmem, rfl⟩ := List.mem_map.mp hkv
      exact ⟨PyValue.allFinite_str _, hrejections rejection hmem⟩

theorem finite_withState {str : PyValue → String} {payload out : Dict PyValue}
    (h : FiniteFields out) : FiniteFields (withState str payload out) := by
  unfold withState
  split
  · exact h
  · exact h
  · exact finiteFields_set h (PyValue.allFinite_str _) _

/-- The columns are finite whatever is published. -/
theorem finite_normalize {str : PyValue → String} {payload : Dict PyValue} {body : Body}
    (h : normalize str payload = .ok body) :
    FiniteFields body.fields ∧ ((∀ x ∈ body.extra, x.Finite) ↔ FiniteTail payload) := by
  have hstart : Normalized.Finite {} := ⟨finiteFields_zeros, nofun⟩
  obtain ⟨n, hcanonical, h⟩ := bind_eq_ok.mp h
  obtain ⟨soc, -, h⟩ := bind_eq_ok.mp h
  obtain ⟨output, -, h⟩ := bind_eq_ok.mp h
  obtain ⟨pcc, -, h⟩ := bind_eq_ok.mp h
  obtain ⟨n', hextended, h⟩ := bind_eq_ok.mp h
  injection h with h
  have hn := Normalized.Finite.takeFields hcanonical hstart
  have hn' := Normalized.Finite.takeFields hextended
    (((hn.acceptOrReject _ soc).takeOutput output).takeCoupling pcc)
  rw [← h]
  exact ⟨finite_withState hn'.1, finite_passedThrough hn'.2⟩

end DiepLab.Ingestor
