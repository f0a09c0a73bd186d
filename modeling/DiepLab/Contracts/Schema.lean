import Mathlib.Data.List.Nodup
import DiepLab.Contracts.Acceptance
import DiepLab.Contracts.RoundTrip
import DiepLab.JsonSchema

/-!
The JSON schema of the envelope.

The schema types the fields that construction only asks to be true, and counts
`1.0` among the integers. What both make of an object differs by these checks
and by no other.
-/

namespace DiepLab.Contracts

/-! ### `telemetry.schema.json` -/

/-- `^[0-9]+\.[0-9]+$`. -/
def isMajorMinor (version : String) : Bool :=
  match version.toList.dropWhile Char.isDigit with
  | '.' :: minor => version.toList.head?.any Char.isDigit && minor ≠ [] && minor.all Char.isDigit
  | _ => false

/-- `$defs/measurement`. -/
def measurementSchema : Schema :=
  objectSchema ["measurement_type", "unit", "value", "quality", "estimated"] [
    ("measurement_type", textSchema),
    ("unit", textSchema),
    ("value", [.type [.number]]),
    ("quality", enumSchema ["GOOD", "ESTIMATED", "SUBSTITUTED", "INVALID", "MISSING",
      "COMMUNICATION_FAILURE", "OUT_OF_RANGE", "DUPLICATE"]),
    ("estimated", [.type [.boolean]])]

def telemetrySchema : Schema :=
  objectSchema ["schema_version", "tenant_id", "site_id", "device_id", "meter_id",
      "timestamp_utc", "timestamp_source", "source_protocol", "source_system",
      "sequence_number", "correlation_id", "measurements"] [
    ("schema_version", [.type [.string], .pattern isMajorMinor]),
    ("tenant_id", textSchema),
    ("site_id", textSchema),
    ("device_id", textSchema),
    ("meter_id", textSchema),
    ("timestamp_utc", [.type [.string]]),
    ("timestamp_source", enumSchema ["DEVICE", "GATEWAY", "INGEST"]),
    ("source_protocol", textSchema),
    ("source_system", textSchema),
    ("sequence_number", [.type [.integer], .minimum 0]),
    ("ingestion_timestamp", [.type [.string, .null]]),
    ("correlation_id", [.type [.string]]),
    ("measurements", arraySchema measurementSchema)]

/-! ### Defaults -/

/-- The entries that are missing are added. -/
def fill (d defaults : Dict PyValue) : Dict PyValue :=
  d ++ defaults.filter fun kv => kv.1 ∉ d.map Prod.fst

theorem get?_fill (d defaults : Dict PyValue) (name : String) :
    (fill d defaults).get? name = (d.get? name).or (defaults.get? name) := by
  rw [fill, Dict.get?_append, Dict.get?_filter fun name => decide (name ∉ d.map Prod.fst)]
  by_cases hname : name ∈ d.map Prod.fst
  · obtain ⟨v, hv⟩ := Option.ne_none_iff_exists'.mp (Dict.get?_ne_none hname)
    rw [hv]
    rfl
  · rw [if_pos (decide_eq_true hname)]

theorem arg_fill (d defaults : Dict PyValue) (name : String) (default : PyValue) :
    arg (fill d defaults) name default = arg d name ((defaults.get? name).getD default) := by
  rw [arg, arg, get?_fill]
  cases d.get? name <;> rfl

theorem mem_fill {d defaults : Dict PyValue} {name : String} :
    name ∈ (fill d defaults).map Prod.fst ↔
      name ∈ d.map Prod.fst ∨ name ∈ defaults.map Prod.fst := by
  simp only [fill, List.map_append, List.mem_append, List.mem_map, List.mem_filter,
    decide_eq_true_eq]
  constructor
  · exact fun h => h.imp_right fun ⟨kv, hkv, hname⟩ => ⟨kv, hkv.1, hname⟩
  · rintro (h | ⟨kv, hkv, rfl⟩)
    · exact Or.inl h
    · by_cases hname : ∃ a ∈ d, a.1 = kv.1
      · exact Or.inl hname
      · exact Or.inr ⟨kv, ⟨hkv, hname⟩, rfl⟩

/-- Defaults of known names add no unknown one. -/
theorem names_fill {d defaults : Dict PyValue} {known : List String}
    (hknown : ∀ name ∈ defaults.map Prod.fst, name ∈ known) :
    (∀ name ∈ (fill d defaults).map Prod.fst, name ∈ known) ↔
      ∀ name ∈ d.map Prod.fst, name ∈ known := by
  constructor
  · exact fun h name hname => h name (mem_fill.mpr (Or.inl hname))
  · exact fun h name hname => (mem_fill.mp hname).elim (h name) (hknown name)

/-- The defaults of the optional arguments of a measurement. -/
def measurementDefaults : Dict PyValue :=
  [("quality", .str Quality.GOOD.value), ("estimated", .bool false)]

def envelopeDefaults (freshId : String) : Dict PyValue :=
  [("timestamp_source", "GATEWAY"), ("source_protocol", "dlms"), ("source_system", "ami-ingest"),
    ("sequence_number", .num (.int 0)), ("schema_version", currentVersion),
    ("ingestion_timestamp", .none), ("correlation_id", freshId)]

def fillMeasurement : PyValue → PyValue
  | .dict d => .dict (fill d measurementDefaults)
  | v => v

def fillMeasurements : PyValue → PyValue
  | .list items => .list (items.map fillMeasurement)
  | v => v

/-- The object, with the optional arguments that it leaves out. -/
def withDefaults (freshId : String) (d : Dict PyValue) : Dict PyValue :=
  match d.get? "measurements" with
  | none => fill d (envelopeDefaults freshId)
  | some v => fill (d.set "measurements" (fillMeasurements v)) (envelopeDefaults freshId)

theorem names_withDefaults {freshId : String} {d : Dict PyValue} :
    (∀ name ∈ (withDefaults freshId d).map Prod.fst, name ∈ envelopeNames) ↔
      ∀ name ∈ d.map Prod.fst, name ∈ envelopeNames := by
  have hknown : ∀ name ∈ (envelopeDefaults freshId).map Prod.fst, name ∈ envelopeNames := by
    change ∀ name ∈ ["timestamp_source", "source_protocol", "source_system", "sequence_number",
      "schema_version", "ingestion_timestamp", "correlation_id"], name ∈ envelopeNames
    decide
  unfold withDefaults
  split
  · exact names_fill hknown
  · rename_i v hget
    rw [names_fill hknown, Dict.map_fst_set, if_pos]
    exact List.mem_map.mpr ⟨_, Dict.mem_of_get? hget, rfl⟩

theorem arg_withDefaults (freshId : String) (d : Dict PyValue) {name : String}
    (h : name ≠ "measurements") :
    arg (withDefaults freshId d) name .none =
      arg d name (((envelopeDefaults freshId).get? name).getD .none) := by
  unfold withDefaults
  split
  · exact arg_fill ..
  · rw [arg_fill, arg, Dict.get?_set, if_neg (Ne.symm h), arg]

theorem measurements_withDefaults (freshId : String) (d : Dict PyValue) :
    arg (withDefaults freshId d) "measurements" .none =
      fillMeasurements (arg d "measurements" .none) := by
  unfold withDefaults
  split
  · rename_i hget
    rw [arg_fill, arg, arg, hget]
    rfl
  · rename_i v hget
    rw [arg_fill, arg, arg, Dict.get?_set, if_pos rfl, hget]
    rfl

/-! ### What is valid -/

/-- The form of an item for the schema. -/
structure TypedMeasurement (d : Dict PyValue) : Prop where
  measurementType : ∃ s, arg d "measurement_type" .none = .str s
  unit : ∃ s, arg d "unit" .none = .str s
  estimated : ∃ b, arg d "estimated" (.bool false) = .bool b

theorem truthy_str {s : String} : PyValue.truthy (.str s) = true ↔ s ≠ "" := by
  simp [PyValue.truthy]

/-- A text is true if it is not empty. -/
theorem text_iff {v : PyValue} :
    (∃ s, v = .str s ∧ s ≠ "") ↔ v.truthy = true ∧ ∃ s, v = .str s := by
  constructor
  · rintro ⟨s, rfl, hs⟩
    exact ⟨truthy_str.mpr hs, s, rfl⟩
  · rintro ⟨htrue, s, rfl⟩
    exact ⟨s, rfl, truthy_str.mp htrue⟩

theorem exists_quality {v : PyValue} :
    (∃ s ∈ ["GOOD", "ESTIMATED", "SUBSTITUTED", "INVALID", "MISSING", "COMMUNICATION_FAILURE",
      "OUT_OF_RANGE", "DUPLICATE"], v = .str s) ↔ ∃ q : Quality, v = .str q.value := by
  change (∃ s ∈ Quality.all.map Quality.value, v = .str s) ↔ _
  simp only [List.mem_map, exists_exists_and_eq_and]
  refine exists_congr fun q => and_iff_right ?_
  cases q <;> decide

theorem exists_source {v : PyValue} :
    (∃ s ∈ ["DEVICE", "GATEWAY", "INGEST"], v = .str s) ↔
      ∃ source : TimestampSource, v = .str source.value := by
  change (∃ s ∈ TimestampSource.all.map TimestampSource.value, v = .str s) ↔ _
  simp only [List.mem_map, exists_exists_and_eq_and]
  refine exists_congr fun source => and_iff_right ?_
  cases source <;> decide

theorem measurement_valid {v : PyValue} : validates measurementSchema (fillMeasurement v) = true ↔
    ItemForm v ∧ ∀ d, v = .dict d → TypedMeasurement d := by
  rw [measurementSchema, validates_object (by decide) (by decide)]
  by_cases hdict : ∃ d, v = .dict d
  · obtain ⟨d, rfl⟩ := hdict
    have hfilled (name : String) : (Dict.get? (fill d measurementDefaults) name).getD .none =
        arg d name ((measurementDefaults.get? name).getD .none) := arg_fill d _ name .none
    have hnames : (∀ name ∈ (fill d measurementDefaults).map Prod.fst,
        name ∈ ["measurement_type", "unit", "value", "quality", "estimated"]) ↔ _ :=
      names_fill (by decide)
    have htype : (measurementDefaults.get? "measurement_type").getD .none = .none := rfl
    have hunit : (measurementDefaults.get? "unit").getD .none = .none := rfl
    have hvalue : (measurementDefaults.get? "value").getD .none = .none := rfl
    have hquality : (measurementDefaults.get? "quality").getD .none =
        .str Quality.GOOD.value := rfl
    have hestimated : (measurementDefaults.get? "estimated").getD .none = .bool false := rfl
    constructor
    · rintro ⟨_, ⟨⟩, hknown, hfields⟩
      simp only [List.forall_mem_cons, hfilled, htype, hunit, hvalue, hquality, hestimated,
        validates_text, text_iff, validates_number, validates_enum, exists_quality,
        validates_boolean] at hfields
      obtain ⟨⟨htyped, htype⟩, ⟨hmeasured, hunit⟩, hnumber, hflag, hestimated, -⟩ := hfields
      refine ⟨⟨d, rfl, hnames.mp hknown, htyped, hmeasured, hnumber, hflag⟩, ?_⟩
      rintro _ ⟨⟩
      exact ⟨htype, hunit, hestimated⟩
    · rintro ⟨⟨_, ⟨⟩, hform⟩, htyped⟩
      refine ⟨_, rfl, hnames.mpr hform.names, ?_⟩
      have htyped := htyped d rfl
      simp only [List.forall_mem_cons, hfilled, htype, hunit, hvalue, hquality, hestimated,
        validates_text, text_iff, validates_number, validates_enum, exists_quality,
        validates_boolean]
      exact ⟨⟨hform.typed, htyped.measurementType⟩, ⟨hform.measured, htyped.unit⟩, hform.numeric,
        hform.flagged, htyped.estimated, nofun⟩
  · refine iff_of_false ?_ fun ⟨⟨d, hd, _⟩, _⟩ => hdict ⟨d, hd⟩
    rintro ⟨d, hd, -⟩
    cases v with
    | dict d => exact hdict ⟨d, rfl⟩
    | _ => exact nomatch hd

theorem measurements_valid {v : PyValue} :
    validates (arraySchema measurementSchema) (fillMeasurements v) = true ↔
      ∃ items, v = .list items ∧ items ≠ [] ∧
        ∀ v ∈ items, ItemForm v ∧ ∀ d, v = .dict d → TypedMeasurement d := by
  rw [validates_array]
  cases v with
  | list items =>
      constructor
      · rintro ⟨_, ⟨⟩, hne, hvalid⟩
        refine ⟨items, rfl, fun hnil => hne (by rw [hnil]; rfl), fun v hv => ?_⟩
        exact measurement_valid.mp (hvalid _ (List.mem_map_of_mem hv))
      · rintro ⟨_, ⟨⟩, hne, hvalid⟩
        refine ⟨_, rfl, fun hnil => hne (List.map_eq_nil_iff.mp hnil), fun v hv => ?_⟩
        obtain ⟨item, hitem, rfl⟩ := List.mem_map.mp hv
        exact measurement_valid.mpr (hvalid item hitem)
  | _ => simp [fillMeasurements]

/-- A text for a type is a key. -/
theorem typeKey?_ne_none {d : Dict PyValue} (h : TypedMeasurement d) :
    typeKey? (.dict d) ≠ none := by
  obtain ⟨s, hs⟩ := h.measurementType
  rw [arg] at hs
  rw [typeKey?]
  cases hget : Dict.get? d "measurement_type" with
  | none =>
      rw [hget] at hs
      cases hs
  | some v =>
      rw [hget] at hs
      rw [Option.bind_some, show v = .str s from hs]
      exact Option.some_ne_none _

/-- The objects in question: the version has the major 1, times are UTC, and no
two measurements have one type. -/
structure InDomain (iso : String → Option IsoTime) (d : Dict PyValue) : Prop where
  version : ∃ s, arg d "schema_version" currentVersion = .str s ∧ Compatible s
  captured : "timestamp_utc" ∈ d.map Prod.fst →
    ∃ s, arg d "timestamp_utc" .none = .str s ∧ IsUtc iso s
  stamped : arg d "ingestion_timestamp" .none = .none ∨
    ∃ s, arg d "ingestion_timestamp" .none = .str s ∧ IsUtc iso s
  distinct : ∀ items, arg d "measurements" .none = .list items →
    (items.filterMap typeKey?).Nodup

/-- What both check of such an object. -/
structure Shared (d : Dict PyValue) : Prop where
  names : ∀ name ∈ d.map Prod.fst, name ∈ envelopeNames
  identified : ∀ name ∈ ["tenant_id", "site_id", "device_id", "meter_id"],
    (arg d name .none).truthy = true
  captured : "timestamp_utc" ∈ d.map Prod.fst
  source : ∃ source : TimestampSource, arg d "timestamp_source" "GATEWAY" = .str source.value
  sequence : Natural (arg d "sequence_number" (.num (.int 0)))
  measurements : ∃ items, arg d "measurements" .none = .list items ∧ items ≠ [] ∧
    (∀ v ∈ items, ItemForm v) ∧ none ∉ items.map typeKey?

/-- The types that only the schema asks for. -/
structure Typed (freshId : String) (d : Dict PyValue) : Prop where
  identifiers : ∀ name ∈ ["tenant_id", "site_id", "device_id", "meter_id"],
    ∃ s, arg d name .none = .str s
  version : ∃ s, arg d "schema_version" currentVersion = .str s ∧ isMajorMinor s = true
  sourceProtocol : ∃ s, arg d "source_protocol" "dlms" = .str s ∧ s ≠ ""
  sourceSystem : ∃ s, arg d "source_system" "ami-ingest" = .str s ∧ s ≠ ""
  correlationId : ∃ s, arg d "correlation_id" freshId = .str s
  measurements : ∀ items, arg d "measurements" .none = .list items →
    ∀ v ∈ items, ∀ m, v = .dict m → TypedMeasurement m

/-- The sequence number is an integer of Python's. -/
def WholeSequence (d : Dict PyValue) : Prop :=
  ∃ n : ℕ, arg d "sequence_number" (.num (.int 0)) = .num (.int n)

/-- The properties of the schema are the names of the constructor. -/
theorem schemaNames_perm : ["schema_version", "tenant_id", "site_id", "device_id", "meter_id",
    "timestamp_utc", "timestamp_source", "source_protocol", "source_system", "sequence_number",
    "ingestion_timestamp", "correlation_id", "measurements"].Perm envelopeNames := by
  decide

theorem envelope_valid {iso : String → Option IsoTime} {freshId : String} {d : Dict PyValue}
    (hdomain : InDomain iso d) :
    validates telemetrySchema (.dict (withDefaults freshId d)) = true ↔
      Shared d ∧ Typed freshId d := by
  have hnames : (∀ name ∈ (withDefaults freshId d).map Prod.fst,
      name ∈ ["schema_version", "tenant_id", "site_id", "device_id", "meter_id", "timestamp_utc",
        "timestamp_source", "source_protocol", "source_system", "sequence_number",
        "ingestion_timestamp", "correlation_id", "measurements"]) ↔
      ∀ name ∈ d.map Prod.fst, name ∈ envelopeNames := by
    rw [← names_withDefaults]
    exact forall₂_congr fun name _ => schemaNames_perm.mem_iff
  have hfield (name : String) (default : PyValue) (h : name ≠ "measurements")
      (hdefault : ((envelopeDefaults freshId).get? name).getD .none = default) :
      (Dict.get? (withDefaults freshId d) name).getD .none = arg d name default :=
    hdefault ▸ arg_withDefaults freshId d h
  have hversion := hfield "schema_version" currentVersion (by decide) rfl
  have htenant := hfield "tenant_id" .none (by decide) rfl
  have hsite := hfield "site_id" .none (by decide) rfl
  have hdevice := hfield "device_id" .none (by decide) rfl
  have hmeter := hfield "meter_id" .none (by decide) rfl
  have hcaptured := hfield "timestamp_utc" .none (by decide) rfl
  have hsource := hfield "timestamp_source" "GATEWAY" (by decide) rfl
  have hprotocol := hfield "source_protocol" "dlms" (by decide) rfl
  have hsystem := hfield "source_system" "ami-ingest" (by decide) rfl
  have hsequence := hfield "sequence_number" (.num (.int 0)) (by decide) rfl
  have hstamped := hfield "ingestion_timestamp" .none (by decide) rfl
  have hcorrelation := hfield "correlation_id" freshId (by decide) rfl
  have hmeasurements : (Dict.get? (withDefaults freshId d) "measurements").getD .none =
      fillMeasurements (arg d "measurements" .none) := measurements_withDefaults freshId d
  rw [telemetrySchema, validates_object (by decide) (by decide)]
  constructor
  · rintro ⟨_, ⟨⟩, hknown, hfields⟩
    simp only [List.forall_mem_cons, hversion, htenant, hsite, hdevice, hmeter, hcaptured,
      hsource, hprotocol, hsystem, hsequence, hstamped, hcorrelation, hmeasurements,
      validates_pattern, validates_text, validates_string, validates_enum, exists_source,
      validates_natural, validates_nullable, measurements_valid] at hfields
    obtain ⟨hversion, htenant, hsite, hdevice, hmeter, ⟨ts, hts⟩, hsource, hprotocol, hsystem,
      hsequence, -, hcorrelation, ⟨items, hitems, hne, hforms⟩, -⟩ := hfields
    -- the contract checks the truth value of a name, the schema its type as well
    rw [text_iff] at htenant hsite hdevice hmeter
    refine ⟨⟨hnames.mp hknown, ?_, ?_, hsource, hsequence, items, hitems, hne,
      fun v hv => (hforms v hv).1, ?_⟩, ⟨?_, hversion, hprotocol, hsystem, hcorrelation, ?_⟩⟩
    · simp only [List.forall_mem_cons]
      exact ⟨htenant.1, hsite.1, hdevice.1, hmeter.1, nofun⟩
    · exact mem_of_arg fun hnone => by cases hts.symm.trans hnone
    -- an unhashable type is no string
    · intro hnone
      obtain ⟨v, hv, hkey⟩ := List.mem_map.mp hnone
      obtain ⟨⟨m, rfl, -⟩, htyped⟩ := hforms v hv
      exact typeKey?_ne_none (htyped m rfl) hkey
    · simp only [List.forall_mem_cons]
      exact ⟨htenant.2, hsite.2, hdevice.2, hmeter.2, nofun⟩
    · intro items' hitems' v hv
      injection hitems.symm.trans hitems' with heq
      exact (hforms v (heq ▸ hv)).2
  · rintro ⟨hshared, htyped⟩
    refine ⟨_, rfl, hnames.mpr hshared.names, ?_⟩
    have hidentified := hshared.identified
    have hidentifiers := htyped.identifiers
    obtain ⟨items, hitems, hne, hforms, -⟩ := hshared.measurements
    obtain ⟨ts, hts, -⟩ := hdomain.captured hshared.captured
    simp only [List.forall_mem_cons] at hidentified hidentifiers
    simp only [List.forall_mem_cons, hversion, htenant, hsite, hdevice, hmeter, hcaptured,
      hsource, hprotocol, hsystem, hsequence, hstamped, hcorrelation, hmeasurements,
      validates_pattern, validates_text, validates_string, validates_enum, exists_source,
      validates_natural, validates_nullable, measurements_valid, text_iff]
    refine ⟨htyped.version, ⟨hidentified.1, hidentifiers.1⟩, ⟨hidentified.2.1, hidentifiers.2.1⟩,
      ⟨hidentified.2.2.1, hidentifiers.2.2.1⟩, ⟨hidentified.2.2.2.1, hidentifiers.2.2.2.1⟩,
      ⟨ts, hts⟩, hshared.source, ?_, ?_, hshared.sequence, ?_, htyped.correlationId,
      ⟨items, hitems, hne, fun v hv => ⟨hforms v hv, htyped.measurements items hitems v hv⟩⟩,
      nofun⟩
    · exact text_iff.mp htyped.sourceProtocol
    · exact text_iff.mp htyped.sourceSystem
    · exact hdomain.stamped.imp_right fun ⟨s, hs, _⟩ => ⟨s, hs⟩

/-! ### What is accepted -/

/-- Where every item gives a key, the keys are those that are given. -/
theorem map_typeKey? {items : List PyValue} (h : none ∉ items.map typeKey?) :
    items.map typeKey? = (items.filterMap typeKey?).map some := by
  induction items with
  | nil => rfl
  | cons v rest ih =>
      rw [List.map_cons, List.mem_cons, not_or] at h
      obtain ⟨key, hkey⟩ := Option.ne_none_iff_exists'.mp (Ne.symm h.1)
      rw [List.map_cons, List.filterMap_cons_some hkey, List.map_cons, hkey, ih h.2]

theorem envelope_accepted {iso : String → Option IsoTime} {freshId : String} {d : Dict PyValue}
    (hdomain : InDomain iso d) :
    (∃ e, TelemetryEnvelope.fromDict iso freshId d = .ok e) ↔ Shared d ∧ WholeSequence d := by
  rw [fromDict_isOk]
  have hlist {items : List PyValue} (hne : items ≠ []) :
      arg d "measurements" (.list []) = .list items ↔
        arg d "measurements" .none = .list items := by
    rw [arg, arg]
    cases d.get? "measurements" with
    | some v => exact Iff.rfl
    | none =>
        refine iff_of_false (fun h => ?_) fun h => by cases h
        injection h with h
        exact hne h.symm
  constructor
  · rintro ⟨hnames, hargs, items, hitems, hne, hforms, hkeys, -⟩
    have hidentified : ∀ name ∈ ["tenant_id", "site_id", "device_id", "meter_id"],
        (arg d name .none).truthy = true := by
      simp only [List.forall_mem_cons]
      exact ⟨hargs.tenantId, hargs.siteId, hargs.deviceId, hargs.meterId,
        List.forall_mem_nil _⟩
    have hcaptured : "timestamp_utc" ∈ d.map Prod.fst := by
      obtain ⟨ts, hts, -⟩ := hargs.captured
      exact mem_of_arg fun hnone => by cases hts.symm.trans hnone
    have hsequence : Natural (arg d "sequence_number" (.num (.int 0))) := by
      obtain ⟨n, hn⟩ := hargs.sequence
      exact ⟨n, Or.inl hn⟩
    exact ⟨⟨hnames, hidentified, hcaptured, hargs.source, hsequence, items, (hlist hne).mp hitems,
      hne, hforms, hkeys⟩, hargs.sequence⟩
  · rintro ⟨hshared, hwhole⟩
    have hidentified := hshared.identified
    simp only [List.forall_mem_cons] at hidentified
    obtain ⟨items, hitems, hne, hforms, hkeys⟩ := hshared.measurements
    have hnodup : (items.map typeKey?).Nodup := by
      rw [map_typeKey? hkeys]
      exact List.Nodup.map (Option.some_injective _) (hdomain.distinct items hitems)
    exact ⟨hshared.names, ⟨hidentified.1, hidentified.2.1, hidentified.2.2.1, hidentified.2.2.2.1,
      hdomain.captured hshared.captured, hdomain.stamped, hshared.source, hwhole,
      hdomain.version⟩, items, (hlist hne).mpr hitems, hne, hforms, hkeys, hnodup⟩

/-- **The twins.** Construction and the schema make the same of an object exactly
if it fails a check that both make, or if its sequence number is an integer of
Python's exactly when the fields have the types that only the schema asks for. -/
theorem fromJson_iff_validates (iso : String → Option IsoTime) (freshId : String)
    (raw : List JsonToken) (d : Dict PyValue) (hraw : loads raw = some (.dict d))
    (hdomain : InDomain iso d) :
    ((∃ e, TelemetryEnvelope.fromJson iso freshId raw = .ok e) ↔
        validates telemetrySchema (.dict (withDefaults freshId d)) = true) ↔
      (Shared d → (WholeSequence d ↔ Typed freshId d)) := by
  have hfromJson : (∃ e, TelemetryEnvelope.fromJson iso freshId raw = .ok e) ↔
      ∃ e, TelemetryEnvelope.fromDict iso freshId d = .ok e := by
    simp only [TelemetryEnvelope.fromJson, hraw]
    split
    · rename_i herror
      rw [herror]
      constructor <;>
        · rintro ⟨_, h⟩
          cases h
    · exact Iff.rfl
  rw [hfromJson, envelope_accepted hdomain, envelope_valid hdomain]
  exact and_congr_right_iff

theorem meterReading_inDomain : InDomain anyUtc meterReading.toDict := by
  refine ⟨⟨_, rfl, by decide⟩, fun _ => ⟨_, rfl, by decide⟩, Or.inl rfl, ?_⟩
  rintro items hitems
  injection hitems with hitems
  rw [← hitems]
  decide

theorem fromJson_iff_validates_meterReading :
    ((∃ e, TelemetryEnvelope.fromJson anyUtc "" meterReading.toJson = .ok e) ↔
        validates telemetrySchema (.dict (withDefaults "" meterReading.toDict)) = true) ↔
      (Shared meterReading.toDict →
        (WholeSequence meterReading.toDict ↔ Typed "" meterReading.toDict)) :=
  fromJson_iff_validates anyUtc "" meterReading.toJson meterReading.toDict
    (loads_dumps (TelemetryEnvelope.wf_toDict (by decide +kernel))) meterReading_inDomain

/-- The reading, with a number for the tenant. -/
def numberedReading : TelemetryEnvelope anyUtc :=
  { meterReading with tenantId := ⟨.num (.int 5), by decide⟩ }

/-- Construction accepts its object, the schema does not. -/
theorem schema_refuses_numberedReading :
    loads numberedReading.toJson = some (.dict numberedReading.toDict) ∧
      InDomain anyUtc numberedReading.toDict ∧
      ¬ ((∃ e, TelemetryEnvelope.fromJson anyUtc "" numberedReading.toJson = .ok e) ↔
        validates telemetrySchema (.dict (withDefaults "" numberedReading.toDict)) = true) := by
  have hloads : loads numberedReading.toJson = some (.dict numberedReading.toDict) :=
    loads_dumps (TelemetryEnvelope.wf_toDict (by decide +kernel))
  refine ⟨hloads, ⟨⟨_, rfl, by decide⟩, fun _ => ⟨_, rfl, by decide⟩, Or.inl rfl, ?_⟩, ?_⟩
  · rintro items hitems
    injection hitems with hitems
    rw [← hitems]
    decide
  · intro hiff
    have hvalid := hiff.mp ⟨numberedReading, by
      simp only [TelemetryEnvelope.fromJson, hloads, TelemetryEnvelope.fromDict_toDict]⟩
    exact absurd hvalid (by decide +kernel)

end DiepLab.Contracts
