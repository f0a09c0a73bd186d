import DiepLab.PyValue

/-!
The canonical telemetry envelope.

Construction checks the fields in the order of the source, and what it accepts
carries what was checked: an identifier that is true, a text that is a UTC time,
a version of the same major, measurements of distinct types. Several checks only
ask for a true value, so these fields hold values of any type.

`datetime.fromisoformat` is a parameter.
-/

namespace DiepLab.Contracts

/-! ### Quality -/

inductive Quality where
  | GOOD | ESTIMATED | SUBSTITUTED | INVALID | MISSING | COMMUNICATION_FAILURE | OUT_OF_RANGE
  | DUPLICATE
  deriving DecidableEq, Repr

namespace Quality

def value : Quality → String
  | .GOOD => "GOOD"
  | .ESTIMATED => "ESTIMATED"
  | .SUBSTITUTED => "SUBSTITUTED"
  | .INVALID => "INVALID"
  | .MISSING => "MISSING"
  | .COMMUNICATION_FAILURE => "COMMUNICATION_FAILURE"
  | .OUT_OF_RANGE => "OUT_OF_RANGE"
  | .DUPLICATE => "DUPLICATE"

def all : List Quality :=
  [.GOOD, .ESTIMATED, .SUBSTITUTED, .INVALID, .MISSING, .COMMUNICATION_FAILURE, .OUT_OF_RANGE,
    .DUPLICATE]

/-- `Quality(x)`, or none where it raises `ValueError`. -/
def of? : PyValue → Option Quality
  | .str s => all.find? fun q => q.value = s
  | _ => none

@[simp] theorem of?_value (q : Quality) : of? (.str q.value) = some q := by
  cases q <;> decide

theorem eq_of_of? {v : PyValue} {q : Quality} (h : of? v = some q) : v = .str q.value := by
  cases v with
  | str s => simpa [eq_comm] using List.find?_some h
  | _ => exact nomatch h

end Quality

inductive TimestampSource where
  | DEVICE | GATEWAY | INGEST
  deriving DecidableEq, Repr

namespace TimestampSource

def value : TimestampSource → String
  | .DEVICE => "DEVICE"
  | .GATEWAY => "GATEWAY"
  | .INGEST => "INGEST"

/-- `VALID_TIMESTAMP_SOURCES`. -/
def all : List TimestampSource := [.DEVICE, .GATEWAY, .INGEST]

end TimestampSource

/-! ### Errors -/

/-- What a `ContractValidationError` says. -/
inductive Violation where
  | required (field : String)
  | notNumeric (value : PyValue)
  | invalidQuality (quality : PyValue)
  | notText (field : String)
  | notIso (field ts : String)
  | naive (field ts : String)
  | notUtc (field ts : String)
  | timestampSource (got : PyValue)
  | sequenceNumber (got : PyValue)
  | incompatible (version : PyValue)
  | noMeasurements
  | duplicateType (measurementType : PyValue)
  | notJson
  | notObject
  | badFields
  deriving Repr

/-- The text of the error; `repr` writes a value. What the errors of the decoder
and of the call say is left out. -/
def Violation.text (repr : PyValue → String) : Violation → String
  | .required field => field ++ " is required"
  | .notNumeric value => "value must be numeric, got " ++ repr value
  | .invalidQuality quality => "invalid quality: " ++ repr quality
  | .notText field => field ++ " must be a non-empty ISO8601 string"
  | .notIso field ts => field ++ " is not valid ISO8601: " ++ repr ts
  | .naive field ts => field ++ " must be timezone-aware UTC, got naive: " ++ repr ts
  | .notUtc field ts => field ++ " must be UTC (offset +00:00), got: " ++ repr ts
  | .timestampSource got =>
      "timestamp_source must be one of ['DEVICE', 'GATEWAY', 'INGEST'], got " ++ repr got
  | .sequenceNumber got => "sequence_number must be a non-negative int, got " ++ repr got
  | .incompatible version =>
      "schema_version " ++ repr version ++
        " is not compatible with 1.0 (major version mismatch — see versioning policy)"
  | .noMeasurements => "measurements must contain at least one entry"
  | .duplicateType measurementType =>
      "duplicate measurement_type " ++ repr measurementType ++ " within one envelope — each " ++
        "measurement_type must appear at most once per envelope"
  | .notJson => "not valid JSON"
  | .notObject => "payload must be a JSON object"
  | .badFields => "missing/unexpected field(s)"

/-- What the functions of the contract raise. -/
inductive Raised where
  | contract (violation : Violation)
  | typeError
  deriving Repr

/-- A call with keyword arguments of these names is bound: every argument is a
parameter, and the parameters without a default are given. -/
def Binds (required optional names : List String) : Prop :=
  (∀ name ∈ names, name ∈ required ++ optional) ∧ ∀ name ∈ required, name ∈ names

instance (required optional names : List String) : Decidable (Binds required optional names) :=
  inferInstanceAs (Decidable (_ ∧ _))

/-- The value of a parameter. -/
def arg (d : Dict PyValue) (name : String) (default : PyValue) : PyValue :=
  (d.get? name).getD default

/-! ### Measurements -/

@[ext] structure Measurement where
  measurementType : PyValue
  unit : PyValue
  value : Number
  quality : Quality := .GOOD
  estimated : PyValue := .bool false
  typed : measurementType.truthy = true := by decide
  measured : unit.truthy = true := by decide
  flagged : quality = .ESTIMATED → estimated.truthy = true := by decide

/-- The quality ESTIMATED implies the flag. -/
def estimatedFlag (quality : Quality) (estimated : PyValue) : PyValue :=
  if quality = .ESTIMATED ∧ estimated.truthy = false then .bool true else estimated

theorem truthy_estimatedFlag (estimated : PyValue) :
    (estimatedFlag .ESTIMATED estimated).truthy = true := by
  unfold estimatedFlag
  split
  · rfl
  · rename_i h
    simpa using h

namespace Measurement

/-- The constructor. A member of `Quality` is given as the text that it is. -/
def init (measurementType unit value quality estimated : PyValue) : Except Raised Measurement :=
  -- a truth test only: a list is as good a type as a text
  if htype : measurementType.truthy = true then
    if hunit : unit.truthy = true then
      match value with
      | .num x =>
          match Quality.of? quality with
          | some q => .ok {
              measurementType := measurementType, unit := unit, value := x, quality := q
              estimated := estimatedFlag q estimated, typed := htype, measured := hunit
              flagged := fun h => h ▸ truthy_estimatedFlag estimated }
          | none => .error (.contract (.invalidQuality quality))
      | value => .error (.contract (.notNumeric value))
    else .error (.contract (.required "unit"))
  else .error (.contract (.required "measurement_type"))

def ofDict (d : Dict PyValue) : Except Raised Measurement :=
  if Binds ["measurement_type", "unit", "value"] ["quality", "estimated"] (d.map Prod.fst) then
    init (arg d "measurement_type" .none) (arg d "unit" .none) (arg d "value" .none)
      (arg d "quality" Quality.GOOD.value) (arg d "estimated" (.bool false))
  else .error .typeError

/-- `Measurement(**m)`. -/
def ofKwargs : PyValue → Except Raised Measurement
  | .dict d => ofDict d
  | _ => .error .typeError

def toDict (m : Measurement) : Dict PyValue :=
  [("measurement_type", m.measurementType), ("unit", m.unit), ("value", .num m.value),
    ("quality", m.quality.value), ("estimated", m.estimated)]

/-- The constructor accepts what a measurement consists of, and changes nothing. -/
theorem init_self (m : Measurement) :
    init m.measurementType m.unit (.num m.value) (.str m.quality.value) m.estimated = .ok m := by
  have hflag : estimatedFlag m.quality m.estimated = m.estimated := by
    unfold estimatedFlag
    split
    · rename_i h
      exact absurd (m.flagged h.1) (by simp [h.2])
    · rfl
  rw [init, dif_pos m.typed, dif_pos m.measured]
  simp only [Quality.of?_value]
  congr 1
  exact Measurement.ext rfl rfl rfl rfl hflag

/-- What is constructed consists of the arguments. -/
theorem init_eq_ok {measurementType unit value quality estimated : PyValue} {m : Measurement}
    (h : init measurementType unit value quality estimated = .ok m) :
    m.measurementType = measurementType ∧ m.unit = unit ∧ value = .num m.value ∧
      quality = .str m.quality.value ∧ m.estimated = estimatedFlag m.quality estimated := by
  unfold init at h
  split at h
  · split at h
    · split at h
      · split at h
        · rename_i hquality
          injection h with h
          subst h
          exact ⟨rfl, rfl, rfl, Quality.eq_of_of? hquality, rfl⟩
        · exact nomatch h
      · exact nomatch h
    · exact nomatch h
  · exact nomatch h

/-- What the constructor accepts. -/
theorem init_isOk {measurementType unit value quality estimated : PyValue} :
    (∃ m, init measurementType unit value quality estimated = .ok m) ↔
      measurementType.truthy = true ∧ unit.truthy = true ∧ (∃ x, value = .num x) ∧
        ∃ q : Quality, quality = .str q.value := by
  constructor
  · rintro ⟨m, h⟩
    obtain ⟨htype, hunit, hvalue, hquality, -⟩ := init_eq_ok h
    exact ⟨htype ▸ m.typed, hunit ▸ m.measured, ⟨m.value, hvalue⟩, m.quality, hquality⟩
  · rintro ⟨htype, hunit, ⟨x, rfl⟩, q, rfl⟩
    rw [init, dif_pos htype, dif_pos hunit]
    simp only [Quality.of?_value]
    exact ⟨_, rfl⟩

theorem ofKwargs_toDict (m : Measurement) : ofKwargs (.dict m.toDict) = .ok m := by
  have hbinds : Binds ["measurement_type", "unit", "value"] ["quality", "estimated"]
      (m.toDict.map Prod.fst) := by
    change Binds _ _ ["measurement_type", "unit", "value", "quality", "estimated"]
    decide
  rw [ofKwargs, ofDict, if_pos hbinds]
  exact m.init_self

end Measurement

/-! ### Checked fields -/

section Checked

/-- `datetime`, as far as `_parse_utc` looks at it: `utcoffset` is none where the
time is naive. -/
structure IsoTime where
  instant : ℚ
  offset : Option ℚ
  deriving DecidableEq, Repr

variable (iso : String → Option IsoTime)

/-- The time that a text stands for. -/
def capturedAt (ts : String) : Option IsoTime := iso (ts.replace "Z" "+00:00")

/-- The text is a UTC time. -/
def IsUtc (ts : String) : Prop :=
  ts ≠ "" ∧ ∃ dt ∈ capturedAt iso ts, dt.offset = some 0

instance (ts : String) : Decidable (IsUtc iso ts) :=
  inferInstanceAs (Decidable (_ ∧ ∃ dt ∈ capturedAt iso ts, _))

abbrev UtcText := { ts : String // IsUtc iso ts }

/-- `_parse_utc`. -/
def parseUtc (fieldName : String) : PyValue → Except Raised (UtcText iso)
  | .str ts =>
      if hne : ts = "" then .error (.contract (.notText fieldName))
      else
        match hdt : capturedAt iso ts with
        | none => .error (.contract (.notIso fieldName ts))
        | some dt =>
            if dt.offset = none then .error (.contract (.naive fieldName ts))
            else if hoffset : dt.offset = some 0 then .ok ⟨ts, hne, dt, hdt, hoffset⟩
            else .error (.contract (.notUtc fieldName ts))
  | _ => .error (.contract (.notText fieldName))

/-- `ingestion_timestamp` may be `None`. -/
def parseOptionalUtc (fieldName : String) : PyValue → Except Raised (Option (UtcText iso))
  | .none => .ok none
  | v => (parseUtc iso fieldName v).map some

abbrev Given := { v : PyValue // v.truthy = true }

/-- `if not getattr(self, f)`. -/
def require (fieldName : String) (v : PyValue) : Except Raised Given :=
  if h : v.truthy = true then .ok ⟨v, h⟩ else .error (.contract (.required fieldName))

/-- `timestamp_source not in VALID_TIMESTAMP_SOURCES`. -/
def checkSource (v : PyValue) : Except Raised TimestampSource :=
  match v.key? with
  | none => .error .typeError
  | some key =>
      match TimestampSource.all.find? fun source => key = .str source.value with
      | some source => .ok source
      | none => .error (.contract (.timestampSource v))

def checkSequence : PyValue → Except Raised ℕ
  -- `True` is an instance of `int` as well, but a `bool` is refused
  | .num (.int n) =>
      if 0 ≤ n then .ok n.toNat else .error (.contract (.sequenceNumber (.num (.int n))))
  | v => .error (.contract (.sequenceNumber v))

/-- `version.split(".", 1)[0]`. -/
def major (version : String) : String := String.ofList (version.toList.takeWhile fun c => c ≠ '.')

/-- `SCHEMA_VERSION`. -/
def currentVersion : String := "1.0"

/-- `is_version_compatible` of a text. -/
def Compatible (version : String) : Prop := major version = major currentVersion

instance (version : String) : Decidable (Compatible version) :=
  inferInstanceAs (Decidable (_ = _))

abbrev Version := { version : String // Compatible version }

def checkVersion : PyValue → Except Raised Version
  | .str version =>
      if h : Compatible version then .ok ⟨version, h⟩
      else .error (.contract (.incompatible version))
  | v => .error (.contract (.incompatible v))

/-- What a measurement is in the set of the types that have been seen. -/
def Measurement.key? (m : Measurement) : Option Key := m.measurementType.key?

/-- The types can be hashed, and no two of them are one key. -/
def Distinct (measurements : List Measurement) : Prop :=
  none ∉ measurements.map Measurement.key? ∧ (measurements.map Measurement.key?).Nodup

instance (measurements : List Measurement) : Decidable (Distinct measurements) :=
  inferInstanceAs (Decidable (_ ∧ _))

/-- The error of the first type that is no key or has been seen. -/
def checkDistinct (seen : List Key) : List Measurement → Except Raised Unit
  | [] => .ok ()
  | m :: rest =>
      match m.key? with
      | none => .error .typeError
      | some key =>
          -- `in` compares keys: 1, 1.0 and True are one type
          if key ∈ seen then .error (.contract (.duplicateType m.measurementType))
          else checkDistinct (key :: seen) rest

theorem checkDistinct_eq_ok {seen : List Key} {measurements : List Measurement} :
    checkDistinct seen measurements = .ok () ↔
      Distinct measurements ∧ ∀ key ∈ seen, some key ∉ measurements.map Measurement.key? := by
  induction measurements generalizing seen with
  | nil => simp [checkDistinct, Distinct]
  | cons m rest ih =>
      rw [checkDistinct]
      cases hkey : m.key? with
      | none => simp [Distinct, hkey]
      | some key =>
          by_cases hseen : key ∈ seen
          · simp only [hseen, if_true]
            refine iff_of_false nofun fun h => h.2 key hseen ?_
            rw [List.map_cons, hkey]
            exact List.mem_cons_self
          · simp only [hseen, if_false, ih, Distinct, List.map_cons, hkey, List.mem_cons,
              List.nodup_cons, not_or, forall_eq_or_imp, reduceCtorEq, not_false_eq_true,
              true_and]
            constructor
            · rintro ⟨⟨hnone, hnodup⟩, hnew, hold⟩
              refine ⟨⟨hnone, hnew, hnodup⟩, fun k hk => ⟨fun heq => ?_, hold k hk⟩⟩
              exact hseen (Option.some.inj heq ▸ hk)
            · rintro ⟨⟨hnone, hnew, hnodup⟩, hold⟩
              exact ⟨⟨hnone, hnodup⟩, hnew, fun k hk => (hold k hk).2⟩

abbrev Measurements :=
  { measurements : List Measurement // measurements ≠ [] ∧ Distinct measurements }

def checkMeasurements (measurements : List Measurement) : Except Raised Measurements :=
  if hne : measurements = [] then .error (.contract .noMeasurements)
  else
    match h : checkDistinct [] measurements with
    | .ok () => .ok ⟨measurements, hne, (checkDistinct_eq_ok.mp h).1⟩
    | .error e => .error e

/-! What is checked passes again. -/

variable {iso}

theorem parseUtc_self (fieldName : String) (ts : UtcText iso) :
    parseUtc iso fieldName (.str ts.1) = .ok ts := by
  obtain ⟨ts, hne, dt, hdt, hoffset⟩ := ts
  simp only [parseUtc, dif_neg hne]
  split
  · rename_i hnone
    rw [Option.mem_def.mp hdt] at hnone
    exact nomatch hnone
  · rename_i dt' hdt'
    rw [Option.mem_def.mp hdt] at hdt'
    injection hdt' with hdt'
    subst hdt'
    rw [if_neg (by simp [hoffset]), dif_pos hoffset]

theorem parseUtc_eq_ok {fieldName : String} {v : PyValue} {ts : UtcText iso}
    (h : parseUtc iso fieldName v = .ok ts) : v = .str ts.1 := by
  cases v with
  | str t =>
      simp only [parseUtc] at h
      split at h
      · exact nomatch h
      · split at h
        · exact nomatch h
        · split at h
          · exact nomatch h
          · split at h
            · injection h with h
              rw [← h]
            · exact nomatch h
  | _ => exact nomatch h

theorem parseOptionalUtc_self (fieldName : String) (ts : Option (UtcText iso)) :
    parseOptionalUtc iso fieldName (((ts.map Subtype.val).map PyValue.str).getD .none) =
      .ok ts := by
  cases ts with
  | none => rfl
  | some ts =>
      change (parseUtc iso fieldName (.str ts.1)).map some = _
      rw [parseUtc_self]
      rfl

theorem require_self (fieldName : String) (v : Given) : require fieldName v.1 = .ok v := by
  rw [require, dif_pos v.2]

theorem checkSource_self (source : TimestampSource) :
    checkSource (.str source.value) = .ok source := by
  cases source <;> rfl

theorem checkSequence_self (n : ℕ) : checkSequence (.num (.int n)) = .ok n := by
  simp [checkSequence]

theorem checkVersion_self (version : Version) : checkVersion (.str version.1) = .ok version := by
  rw [checkVersion, dif_pos version.2]

theorem checkMeasurements_self (measurements : Measurements) :
    checkMeasurements measurements.1 = .ok measurements := by
  obtain ⟨measurements, hne, hdistinct⟩ := measurements
  have hok : checkDistinct [] measurements = .ok () :=
    checkDistinct_eq_ok.mpr ⟨hdistinct, nofun⟩
  rw [checkMeasurements, dif_neg hne]
  split
  · rfl
  · rename_i herror
    rw [hok] at herror
    exact nomatch herror

end Checked

/-! ### The envelope -/

section Envelope

variable (iso : String → Option IsoTime)

@[ext] structure TelemetryEnvelope where
  tenantId : Given
  siteId : Given
  deviceId : Given
  meterId : Given
  timestampUtc : UtcText iso
  measurements : Measurements
  timestampSource : TimestampSource
  sourceProtocol : PyValue
  sourceSystem : PyValue
  sequenceNumber : ℕ
  schemaVersion : Version
  ingestionTimestamp : Option (UtcText iso)
  correlationId : PyValue

/-- The parameters without a default, besides `measurements`. -/
def requiredArgs : List String := ["tenant_id", "site_id", "device_id", "meter_id", "timestamp_utc"]

def optionalArgs : List String :=
  ["timestamp_source", "source_protocol", "source_system", "sequence_number", "schema_version",
    "ingestion_timestamp", "correlation_id"]

/-- The arguments of the constructor besides the measurements. -/
structure EnvelopeArgs where
  tenantId : PyValue
  siteId : PyValue
  deviceId : PyValue
  meterId : PyValue
  timestampUtc : PyValue
  timestampSource : PyValue
  sourceProtocol : PyValue
  sourceSystem : PyValue
  sequenceNumber : PyValue
  schemaVersion : PyValue
  ingestionTimestamp : PyValue
  correlationId : PyValue

/-- The arguments that are given, and the defaults; `freshId` is the `uuid4`
that is drawn. -/
def EnvelopeArgs.ofDict (freshId : String) (d : Dict PyValue) : EnvelopeArgs where
  tenantId := arg d "tenant_id" .none
  siteId := arg d "site_id" .none
  deviceId := arg d "device_id" .none
  meterId := arg d "meter_id" .none
  timestampUtc := arg d "timestamp_utc" .none
  timestampSource := arg d "timestamp_source" "GATEWAY"
  sourceProtocol := arg d "source_protocol" "dlms"
  sourceSystem := arg d "source_system" "ami-ingest"
  sequenceNumber := arg d "sequence_number" (.num (.int 0))
  schemaVersion := arg d "schema_version" currentVersion
  ingestionTimestamp := arg d "ingestion_timestamp" .none
  correlationId := arg d "correlation_id" freshId

/-- `__post_init__`. The measurements are a computation, for they may be made
before the call or here. -/
def postInit (a : EnvelopeArgs) (measured : Except Raised (List Measurement)) :
    Except Raised (TelemetryEnvelope iso) := do
  let tenantId ← require "tenant_id" a.tenantId
  let siteId ← require "site_id" a.siteId
  let deviceId ← require "device_id" a.deviceId
  let meterId ← require "meter_id" a.meterId
  let timestampUtc ← parseUtc iso "timestamp_utc" a.timestampUtc
  let ingestionTimestamp ← parseOptionalUtc iso "ingestion_timestamp" a.ingestionTimestamp
  let timestampSource ← checkSource a.timestampSource
  let sequenceNumber ← checkSequence a.sequenceNumber
  let version ← checkVersion a.schemaVersion
  -- `from_dict` has made them before the call, and then this cannot fail
  let measurements ← measured
  let measurements ← checkMeasurements measurements
  pure {
    tenantId := tenantId, siteId := siteId, deviceId := deviceId, meterId := meterId
    timestampUtc := timestampUtc, measurements := measurements
    timestampSource := timestampSource, sourceProtocol := a.sourceProtocol
    sourceSystem := a.sourceSystem, sequenceNumber := sequenceNumber
    schemaVersion := version, ingestionTimestamp := ingestionTimestamp
    correlationId := a.correlationId }

/-- The constructor, called with the keyword arguments and the measurements. -/
def construct (freshId : String) (d : Dict PyValue)
    (measured : Except Raised (List Measurement)) : Except Raised (TelemetryEnvelope iso) :=
  if Binds requiredArgs optionalArgs (d.map Prod.fst) then
    postInit iso (.ofDict freshId d) measured
  else .error .typeError

/-- What a `for` loop over the value goes through. -/
def iterate : PyValue → Except Raised (List PyValue)
  | .list items => .ok items
  -- a dictionary gives its keys and a text its characters; no item of these is an object
  | .dict items => .ok (items.map fun kv => .str kv.1)
  | .str s => .ok (s.toList.map fun c => .str (String.singleton c))
  | _ => .error .typeError

/-- `data.pop("measurements", [])` leaves the rest. -/
def withoutMeasurements (d : Dict PyValue) : Dict PyValue :=
  d.filter fun kv => kv.1 ≠ "measurements"

/-- `TelemetryEnvelope(**d)`. -/
def TelemetryEnvelope.init (freshId : String) (d : Dict PyValue) :
    Except Raised (TelemetryEnvelope iso) :=
  match d.get? "measurements" with
  | none => .error .typeError
  | some v =>
      construct iso freshId (withoutMeasurements d)
        (if v.truthy then iterate v >>= fun items => items.mapM Measurement.ofKwargs
        else .error (.contract .noMeasurements))

/-- `TelemetryEnvelope.from_dict`. -/
def TelemetryEnvelope.fromDict (freshId : String) (d : Dict PyValue) :
    Except Raised (TelemetryEnvelope iso) := do
  let items ← iterate (arg d "measurements" (.list []))
  let measurements ← items.mapM Measurement.ofKwargs
  construct iso freshId (withoutMeasurements d) (.ok measurements)

variable {iso}

namespace TelemetryEnvelope

variable (e : TelemetryEnvelope iso)

/-- `to_dict`, of an envelope whose measurements and ingestion time have been
replaced. -/
def dictWith (measurements : List Measurement) (ingestionTimestamp : Option String) :
    Dict PyValue :=
  [("tenant_id", e.tenantId.1), ("site_id", e.siteId.1), ("device_id", e.deviceId.1),
    ("meter_id", e.meterId.1), ("timestamp_utc", e.timestampUtc.1),
    ("measurements", .list (measurements.map fun m => .dict m.toDict)),
    ("timestamp_source", e.timestampSource.value), ("source_protocol", e.sourceProtocol),
    ("source_system", e.sourceSystem), ("sequence_number", .num (.int e.sequenceNumber)),
    ("schema_version", e.schemaVersion.1),
    ("ingestion_timestamp", (ingestionTimestamp.map PyValue.str).getD .none),
    ("correlation_id", e.correlationId)]

def toDict : Dict PyValue :=
  e.dictWith e.measurements.1 (e.ingestionTimestamp.map Subtype.val)

/-- `(tenant_id, device_id, timestamp_utc, sequence_number)`. -/
abbrev DedupKey := Key × Key × String × ℕ

instance : LawfulBEq DedupKey := inferInstance

/-- `dedup_key`, or none where it cannot be hashed. -/
def dedupKey? : Option DedupKey := do
  let tenantId ← e.tenantId.1.key?
  let deviceId ← e.deviceId.1.key?
  pure (tenantId, deviceId, e.timestampUtc.1, e.sequenceNumber)

theorem mapM_ofKwargs (measurements : List Measurement) :
    (measurements.map fun m => PyValue.dict m.toDict).mapM Measurement.ofKwargs =
      .ok measurements := by
  induction measurements with
  | nil => rfl
  | cons m rest ih =>
      rw [List.map_cons, List.mapM_cons, Measurement.ofKwargs_toDict, ih]
      rfl

/-- What the envelope has been made of. -/
def args : EnvelopeArgs where
  tenantId := e.tenantId.1
  siteId := e.siteId.1
  deviceId := e.deviceId.1
  meterId := e.meterId.1
  timestampUtc := e.timestampUtc.1
  timestampSource := e.timestampSource.value
  sourceProtocol := e.sourceProtocol
  sourceSystem := e.sourceSystem
  sequenceNumber := .num (.int e.sequenceNumber)
  schemaVersion := e.schemaVersion.1
  ingestionTimestamp := ((e.ingestionTimestamp.map Subtype.val).map PyValue.str).getD .none
  correlationId := e.correlationId

theorem postInit_args : postInit iso e.args (.ok e.measurements.1) = .ok e := by
  simp only [postInit, args, require_self, parseUtc_self, parseOptionalUtc_self,
    checkSource_self, checkSequence_self, checkVersion_self, ok_bind, checkMeasurements_self]
  rfl

/-- What an envelope consists of is constructed to the envelope. -/
theorem construct_self (freshId : String) (measured : Except Raised (List Measurement))
    (hmeasured : measured = .ok e.measurements.1) :
    construct iso freshId (withoutMeasurements e.toDict) measured = .ok e := by
  subst hmeasured
  have hbinds : Binds requiredArgs optionalArgs ((withoutMeasurements e.toDict).map Prod.fst) := by
    change Binds requiredArgs optionalArgs ["tenant_id", "site_id", "device_id", "meter_id",
      "timestamp_utc", "timestamp_source", "source_protocol", "source_system", "sequence_number",
      "schema_version", "ingestion_timestamp", "correlation_id"]
    decide
  have hargs : EnvelopeArgs.ofDict freshId (withoutMeasurements e.toDict) = e.args := rfl
  rw [construct, if_pos hbinds, hargs, postInit_args]

/-- `from_dict` reads back what `to_dict` writes. -/
theorem fromDict_toDict (freshId : String) : fromDict iso freshId e.toDict = .ok e := by
  have hitems : iterate (arg e.toDict "measurements" (.list [])) =
      .ok (e.measurements.1.map fun m => .dict m.toDict) := rfl
  rw [fromDict, hitems]
  change ((e.measurements.1.map fun m => PyValue.dict m.toDict).mapM Measurement.ofKwargs >>=
    fun measurements =>
      construct iso freshId (withoutMeasurements e.toDict) (.ok measurements)) = _
  rw [mapM_ofKwargs]
  exact construct_self e freshId _ rfl

/-- So does the constructor. -/
theorem init_toDict (freshId : String) : init iso freshId e.toDict = .ok e := by
  have hget : e.toDict.get? "measurements" =
      some (.list (e.measurements.1.map fun m => .dict m.toDict)) := rfl
  have htruthy :
      (PyValue.list (e.measurements.1.map fun m => .dict m.toDict)).truthy = true := by
    obtain ⟨hne, -⟩ := e.measurements.2
    cases hm : e.measurements.1 with
    | nil => exact absurd hm hne
    | cons m rest => rfl
  unfold init
  rw [hget]
  refine construct_self e freshId _ ?_
  rw [if_pos htruthy]
  exact mapM_ofKwargs _

end TelemetryEnvelope

end Envelope

end DiepLab.Contracts
