import DiepLab.Contracts.Telemetry

/-!
What construction accepts.

Each check of `__post_init__` accepts exactly the values of one form, and no
check looks at what an earlier one has made of its field. So an object is
accepted exactly if each field has its form.
-/

namespace DiepLab.Contracts

section Fields

variable {iso : String → Option IsoTime} {fieldName : String} {v : PyValue}

theorem require_isOk : (∃ x, require fieldName v = .ok x) ↔ v.truthy = true := by
  constructor
  · rintro ⟨x, h⟩
    unfold require at h
    split at h
    · assumption
    · exact nomatch h
  · exact fun h => ⟨⟨v, h⟩, require_self fieldName ⟨v, h⟩⟩

theorem parseUtc_isOk :
    (∃ ts, parseUtc iso fieldName v = .ok ts) ↔ ∃ s, v = .str s ∧ IsUtc iso s := by
  constructor
  · rintro ⟨ts, h⟩
    exact ⟨ts.1, parseUtc_eq_ok h, ts.2⟩
  · rintro ⟨s, rfl, hs⟩
    exact ⟨⟨s, hs⟩, parseUtc_self fieldName ⟨s, hs⟩⟩

theorem parseOptionalUtc_isOk : (∃ ts, parseOptionalUtc iso fieldName v = .ok ts) ↔
    v = .none ∨ ∃ s, v = .str s ∧ IsUtc iso s := by
  have hmap {x : Except Raised (UtcText iso)} :
      (∃ ts, x.map some = .ok ts) ↔ ∃ ts, x = .ok ts := by
    cases x with
    | ok ts => exact iff_of_true ⟨_, rfl⟩ ⟨_, rfl⟩
    | error e => exact iff_of_false (fun ⟨_, h⟩ => nomatch h) fun ⟨_, h⟩ => nomatch h
  by_cases hnone : v = .none
  · subst hnone
    exact iff_of_true ⟨none, rfl⟩ (Or.inl rfl)
  · rw [parseOptionalUtc.eq_2 iso fieldName v hnone, hmap, parseUtc_isOk, or_iff_right hnone]

theorem checkSource_isOk : (∃ source, checkSource v = .ok source) ↔
    ∃ source : TimestampSource, v = .str source.value := by
  constructor
  · rintro ⟨source, h⟩
    unfold checkSource at h
    split at h
    · exact nomatch h
    · rename_i key hkey
      split at h
      · rename_i found hfound
        have hsource := List.find?_some hfound
        rw [decide_eq_true_eq] at hsource
        exact ⟨found, PyValue.eq_str_of_key? (hsource ▸ hkey)⟩
      · exact nomatch h
  · rintro ⟨source, rfl⟩
    exact ⟨source, checkSource_self source⟩

theorem checkSequence_isOk : (∃ n, checkSequence v = .ok n) ↔ ∃ n : ℕ, v = .num (.int n) := by
  constructor
  · rintro ⟨n, h⟩
    unfold checkSequence at h
    split at h
    · rename_i k
      split at h
      · exact ⟨k.toNat, by rw [Int.toNat_of_nonneg ‹_›]⟩
      · exact nomatch h
    · exact nomatch h
  · rintro ⟨n, rfl⟩
    exact ⟨n, checkSequence_self n⟩

theorem checkVersion_isOk :
    (∃ version, checkVersion v = .ok version) ↔ ∃ s, v = .str s ∧ Compatible s := by
  constructor
  · rintro ⟨version, h⟩
    unfold checkVersion at h
    split at h
    · split at h
      · exact ⟨_, rfl, ‹_›⟩
      · exact nomatch h
    · exact nomatch h
  · rintro ⟨s, rfl, hs⟩
    exact ⟨⟨s, hs⟩, checkVersion_self ⟨s, hs⟩⟩

theorem checkMeasurements_isOk {measurements : List Measurement} :
    (∃ x, checkMeasurements measurements = .ok x) ↔ measurements ≠ [] ∧ Distinct measurements := by
  constructor
  · rintro ⟨x, h⟩
    unfold checkMeasurements at h
    split at h
    · exact nomatch h
    · rename_i hne
      split at h
      · rename_i hok
        exact ⟨hne, (checkDistinct_eq_ok.mp hok).1⟩
      · exact nomatch h
  · rintro ⟨hne, hdistinct⟩
    exact ⟨_, checkMeasurements_self ⟨measurements, hne, hdistinct⟩⟩

end Fields

/-! ### The measurements -/

/-- The form of the object of a measurement. -/
structure MeasurementForm (d : Dict PyValue) : Prop where
  names : ∀ name ∈ d.map Prod.fst,
    name ∈ ["measurement_type", "unit", "value", "quality", "estimated"]
  typed : (arg d "measurement_type" .none).truthy = true
  measured : (arg d "unit" .none).truthy = true
  numeric : ∃ x, arg d "value" .none = .num x
  flagged : ∃ q : Quality, arg d "quality" Quality.GOOD.value = .str q.value

/-- A name whose value is not the default is given. -/
theorem mem_of_arg {d : Dict PyValue} {name : String} {default : PyValue}
    (h : arg d name default ≠ default) : name ∈ d.map Prod.fst := by
  by_contra hmem
  refine h ?_
  rw [arg, Dict.get?_eq_none hmem]
  rfl

theorem ofDict_isOk {d : Dict PyValue} :
    (∃ m, Measurement.ofDict d = .ok m) ↔ MeasurementForm d := by
  have hne {v : PyValue} (h : v.truthy = true) : v ≠ .none := fun hnone => by
    rw [hnone] at h
    exact nomatch h
  constructor
  · rintro ⟨m, h⟩
    unfold Measurement.ofDict at h
    split at h
    · rename_i hbinds
      obtain ⟨htype, hunit, hvalue, hquality⟩ := Measurement.init_isOk.mp ⟨m, h⟩
      exact ⟨hbinds.1, htype, hunit, hvalue, hquality⟩
    · exact nomatch h
  · intro h
    have hbinds : Binds ["measurement_type", "unit", "value"] ["quality", "estimated"]
        (d.map Prod.fst) := by
      refine ⟨h.names, fun name hname => ?_⟩
      obtain ⟨x, hx⟩ := h.numeric
      simp only [List.mem_cons, List.not_mem_nil, or_false] at hname
      rcases hname with rfl | rfl | rfl
      · exact mem_of_arg (hne h.typed)
      · exact mem_of_arg (hne h.measured)
      · exact mem_of_arg fun hnone => nomatch hx.symm.trans hnone
    rw [Measurement.ofDict, if_pos hbinds]
    exact Measurement.init_isOk.mpr ⟨h.typed, h.measured, h.numeric, h.flagged⟩

/-- The form of an item of `measurements`. -/
def ItemForm (v : PyValue) : Prop := ∃ d, v = .dict d ∧ MeasurementForm d

theorem ofKwargs_isOk {v : PyValue} : (∃ m, Measurement.ofKwargs v = .ok m) ↔ ItemForm v := by
  cases v with
  | dict d =>
      refine ofDict_isOk.trans ⟨fun h => ⟨d, rfl, h⟩, ?_⟩
      rintro ⟨_, ⟨⟩, h⟩
      exact h
  | _ => exact iff_of_false (fun ⟨_, h⟩ => nomatch h) fun ⟨_, h, _⟩ => nomatch h

/-- The type that an item gives, as a key. -/
def typeKey? : PyValue → Option Key
  | .dict d => (Dict.get? d "measurement_type").bind PyValue.key?
  | _ => none

theorem key?_of_ofKwargs {v : PyValue} {m : Measurement} (h : Measurement.ofKwargs v = .ok m) :
    m.key? = typeKey? v := by
  obtain ⟨d, rfl, hform⟩ := ofKwargs_isOk.mp ⟨m, h⟩
  rw [Measurement.ofKwargs, Measurement.ofDict] at h
  split at h
  · have htype := (Measurement.init_eq_ok h).1
    rw [Measurement.key?, htype, typeKey?, arg]
    cases hget : Dict.get? d "measurement_type" with
    | some t => rfl
    | none =>
        have htrue := hform.typed
        rw [arg, hget] at htrue
        cases htrue
  · cases h

theorem mapM_ofKwargs_isOk {items : List PyValue} :
    (∃ ms, items.mapM Measurement.ofKwargs = .ok ms) ↔ ∀ v ∈ items, ItemForm v :=
  mapM_isOk.trans (forall₂_congr fun _ _ => ofKwargs_isOk)

theorem keys_of_mapM {items : List PyValue} {ms : List Measurement}
    (h : items.mapM Measurement.ofKwargs = .ok ms) :
    ms.map Measurement.key? = items.map typeKey? := by
  induction items generalizing ms with
  | nil =>
      injection h with h
      rw [← h]
      rfl
  | cons v rest ih =>
      rw [List.mapM_cons] at h
      obtain ⟨m, hm, h⟩ := bind_eq_ok.mp h
      obtain ⟨ms', hms', h⟩ := bind_eq_ok.mp h
      injection h with h
      rw [← h, List.map_cons, List.map_cons, key?_of_ofKwargs hm, ih hms']

/-! ### The object -/

/-- The form of the arguments. -/
structure ArgsForm (iso : String → Option IsoTime) (a : EnvelopeArgs) : Prop where
  tenantId : a.tenantId.truthy = true
  siteId : a.siteId.truthy = true
  deviceId : a.deviceId.truthy = true
  meterId : a.meterId.truthy = true
  captured : ∃ s, a.timestampUtc = .str s ∧ IsUtc iso s
  stamped : a.ingestionTimestamp = .none ∨ ∃ s, a.ingestionTimestamp = .str s ∧ IsUtc iso s
  source : ∃ source : TimestampSource, a.timestampSource = .str source.value
  sequence : ∃ n : ℕ, a.sequenceNumber = .num (.int n)
  version : ∃ s, a.schemaVersion = .str s ∧ Compatible s

theorem postInit_isOk {iso : String → Option IsoTime} {a : EnvelopeArgs}
    {measurements : List Measurement} :
    (∃ e, postInit iso a (.ok measurements) = .ok e) ↔
      ArgsForm iso a ∧ measurements ≠ [] ∧ Distinct measurements := by
  have hchecks : (∃ e, postInit iso a (.ok measurements) = .ok e) ↔
      (∃ x, require "tenant_id" a.tenantId = .ok x) ∧
        (∃ x, require "site_id" a.siteId = .ok x) ∧
        (∃ x, require "device_id" a.deviceId = .ok x) ∧
        (∃ x, require "meter_id" a.meterId = .ok x) ∧
        (∃ x, parseUtc iso "timestamp_utc" a.timestampUtc = .ok x) ∧
        (∃ x, parseOptionalUtc iso "ingestion_timestamp" a.ingestionTimestamp = .ok x) ∧
        (∃ x, checkSource a.timestampSource = .ok x) ∧
        (∃ x, checkSequence a.sequenceNumber = .ok x) ∧
        (∃ x, checkVersion a.schemaVersion = .ok x) ∧
        ∃ x, checkMeasurements measurements = .ok x := by
    unfold postInit
    -- one check after the other; none looks at what an earlier one has returned
    refine exists_bind fun _ _ => exists_bind fun _ _ => exists_bind fun _ _ =>
      exists_bind fun _ _ => exists_bind fun _ _ => exists_bind fun _ _ =>
        exists_bind fun _ _ => exists_bind fun _ _ => exists_bind fun _ _ => ?_
    rw [ok_bind]
    exact (exists_bind fun _ _ => iff_of_true ⟨_, rfl⟩ trivial).trans (and_iff_left trivial)
  rw [hchecks]
  simp only [require_isOk, parseUtc_isOk, parseOptionalUtc_isOk, checkSource_isOk,
    checkSequence_isOk, checkVersion_isOk, checkMeasurements_isOk]
  constructor
  · rintro ⟨h₁, h₂, h₃, h₄, h₅, h₆, h₇, h₈, h₉, hm⟩
    exact ⟨⟨h₁, h₂, h₃, h₄, h₅, h₆, h₇, h₈, h₉⟩, hm⟩
  · rintro ⟨⟨h₁, h₂, h₃, h₄, h₅, h₆, h₇, h₈, h₉⟩, hm⟩
    exact ⟨h₁, h₂, h₃, h₄, h₅, h₆, h₇, h₈, h₉, hm⟩

theorem arg_withoutMeasurements {d : Dict PyValue} {name : String} (h : name ≠ "measurements")
    (default : PyValue) : arg (withoutMeasurements d) name default = arg d name default := by
  rw [arg, withoutMeasurements, Dict.get?_filter fun name => decide (name ≠ "measurements")]
  rw [if_pos (decide_eq_true h), arg]

theorem ofDict_withoutMeasurements (freshId : String) (d : Dict PyValue) :
    EnvelopeArgs.ofDict freshId (withoutMeasurements d) = EnvelopeArgs.ofDict freshId d := by
  simp only [EnvelopeArgs.ofDict, arg_withoutMeasurements, ne_eq, String.reduceEq,
    not_false_eq_true]

/-- The names of the constructor. -/
def envelopeNames : List String := requiredArgs ++ "measurements" :: optionalArgs

/-- The form of the object of an envelope. -/
structure EnvelopeForm (iso : String → Option IsoTime) (freshId : String) (d : Dict PyValue) :
    Prop where
  names : ∀ name ∈ d.map Prod.fst, name ∈ envelopeNames
  args : ArgsForm iso (.ofDict freshId d)
  measurements : ∃ items, arg d "measurements" (.list []) = .list items ∧ items ≠ [] ∧
    (∀ v ∈ items, ItemForm v) ∧ none ∉ items.map typeKey? ∧ (items.map typeKey?).Nodup

/-- What a loop goes through, where it consists of objects. -/
theorem eq_list_of_iterate {v : PyValue} {items : List PyValue} (h : iterate v = .ok items)
    (hne : items ≠ []) (hitems : ∀ v ∈ items, ItemForm v) : v = .list items := by
  -- what a dictionary or a text gives are texts, and no text is an object
  obtain ⟨first, hfirst⟩ := List.exists_mem_of_ne_nil items hne
  obtain ⟨d, hd, -⟩ := hitems first hfirst
  unfold iterate at h
  split at h
  · injection h with h
    rw [h]
  · injection h with h
    rw [← h] at hfirst
    obtain ⟨kv, -, hkv⟩ := List.mem_map.mp hfirst
    exact nomatch hkv.trans hd
  · injection h with h
    rw [← h] at hfirst
    obtain ⟨c, -, hc⟩ := List.mem_map.mp hfirst
    exact nomatch hc.trans hd
  · exact nomatch h

theorem mem_withoutMeasurements {d : Dict PyValue} {name : String} :
    name ∈ (withoutMeasurements d).map Prod.fst ↔
      name ∈ d.map Prod.fst ∧ name ≠ "measurements" := by
  simp only [withoutMeasurements, List.mem_map, List.mem_filter, decide_eq_true_eq]
  constructor
  · rintro ⟨kv, ⟨hkv, hne⟩, rfl⟩
    exact ⟨⟨kv, hkv, rfl⟩, hne⟩
  · rintro ⟨⟨kv, hkv, rfl⟩, hne⟩
    exact ⟨kv, ⟨hkv, hne⟩, rfl⟩

/-- The call binds exactly if the names are those of the constructor; that the
required ones are given follows from the checks. -/
theorem binds_iff {iso : String → Option IsoTime} {freshId : String} {d : Dict PyValue}
    (h : ArgsForm iso (.ofDict freshId d)) :
    Binds requiredArgs optionalArgs ((withoutMeasurements d).map Prod.fst) ↔
      ∀ name ∈ d.map Prod.fst, name ∈ envelopeNames := by
  have hgiven {name : String} (htrue : (arg d name .none).truthy = true) :
      name ∈ d.map Prod.fst := mem_of_arg fun hnone => by
    rw [hnone] at htrue
    exact nomatch htrue
  constructor
  · rintro ⟨hnames, -⟩ name hname
    by_cases hm : name = "measurements"
    · subst hm
      decide
    · have hname := hnames name (mem_withoutMeasurements.mpr ⟨hname, hm⟩)
      rw [envelopeNames, List.mem_append, List.mem_cons]
      exact (List.mem_append.mp hname).imp_right Or.inr
  · refine fun hnames => ⟨fun name hname => ?_, fun name hname => ?_⟩
    · obtain ⟨hname, hm⟩ := mem_withoutMeasurements.mp hname
      have hname := hnames name hname
      rw [envelopeNames, List.mem_append, List.mem_cons] at hname
      exact List.mem_append.mpr (hname.imp_right fun hname => hname.resolve_left hm)
    -- a required argument that is missing would have failed its own check
    · have hcaptured : (arg d "timestamp_utc" .none).truthy = true := by
        obtain ⟨ts, hts, hne, -⟩ := h.captured
        rw [show arg d "timestamp_utc" .none = .str ts from hts]
        simpa [PyValue.truthy] using hne
      simp only [requiredArgs, List.mem_cons, List.not_mem_nil, or_false] at hname
      rcases hname with rfl | rfl | rfl | rfl | rfl
      · exact mem_withoutMeasurements.mpr ⟨hgiven h.tenantId, by decide⟩
      · exact mem_withoutMeasurements.mpr ⟨hgiven h.siteId, by decide⟩
      · exact mem_withoutMeasurements.mpr ⟨hgiven h.deviceId, by decide⟩
      · exact mem_withoutMeasurements.mpr ⟨hgiven h.meterId, by decide⟩
      · exact mem_withoutMeasurements.mpr ⟨hgiven hcaptured, by decide⟩

theorem construct_isOk {iso : String → Option IsoTime} {freshId : String} {d : Dict PyValue}
    {measurements : List Measurement} :
    (∃ e, construct iso freshId (withoutMeasurements d) (.ok measurements) = .ok e) ↔
      (∀ name ∈ d.map Prod.fst, name ∈ envelopeNames) ∧ ArgsForm iso (.ofDict freshId d) ∧
        measurements ≠ [] ∧ Distinct measurements := by
  rw [construct, ofDict_withoutMeasurements]
  constructor
  · rintro ⟨e, h⟩
    split at h
    · rename_i hbinds
      have hform := postInit_isOk.mp ⟨e, h⟩
      exact ⟨(binds_iff hform.1).mp hbinds, hform⟩
    · cases h
  · rintro ⟨hnames, hform⟩
    rw [if_pos ((binds_iff hform.1).mpr hnames)]
    exact postInit_isOk.mpr hform

theorem fromDict_isOk {iso : String → Option IsoTime} {freshId : String} {d : Dict PyValue} :
    (∃ e, TelemetryEnvelope.fromDict iso freshId d = .ok e) ↔ EnvelopeForm iso freshId d := by
  constructor
  · rintro ⟨e, h⟩
    obtain ⟨items, hitems, h⟩ := bind_eq_ok.mp h
    obtain ⟨measurements, hm, h⟩ := bind_eq_ok.mp h
    obtain ⟨hnames, hargs, hne, hdistinct⟩ := construct_isOk.mp ⟨e, h⟩
    have hforms := mapM_ofKwargs_isOk.mp ⟨measurements, hm⟩
    have hitemsne : items ≠ [] := by
      rintro rfl
      injection hm with hm
      exact hne hm.symm
    rw [Distinct, keys_of_mapM hm] at hdistinct
    exact ⟨hnames, hargs, items, eq_list_of_iterate hitems hitemsne hforms, hitemsne, hforms,
      hdistinct⟩
  · rintro ⟨hnames, hargs, items, hitems, hitemsne, hforms, hdistinct⟩
    obtain ⟨measurements, hm⟩ := mapM_ofKwargs_isOk.mpr hforms
    rw [← keys_of_mapM hm] at hdistinct
    have hne : measurements ≠ [] := by
      rintro rfl
      have hlength := congrArg List.length (keys_of_mapM hm)
      rw [List.map_nil, List.length_map] at hlength
      exact hitemsne (List.length_eq_zero_iff.mp hlength.symm)
    obtain ⟨e, he⟩ := construct_isOk.mpr ⟨hnames, hargs, hne, hdistinct⟩
    refine ⟨e, ?_⟩
    rw [TelemetryEnvelope.fromDict, hitems]
    exact bind_eq_ok.mpr ⟨items, rfl, bind_eq_ok.mpr ⟨measurements, hm, he⟩⟩

/-! ### What is constructed -/

/-- The measurement consists of the entries of the object. -/
structure Measurement.MadeOf (d : Dict PyValue) (m : Measurement) : Prop where
  measurementType : m.measurementType = arg d "measurement_type" .none
  unit : m.unit = arg d "unit" .none
  value : arg d "value" .none = .num m.value
  quality : arg d "quality" Quality.GOOD.value = .str m.quality.value
  estimated : m.estimated = estimatedFlag m.quality (arg d "estimated" (.bool false))

theorem Measurement.madeOf {v : PyValue} {m : Measurement} (h : Measurement.ofKwargs v = .ok m) :
    ∃ d, v = .dict d ∧ m.MadeOf d := by
  obtain ⟨d, rfl, -⟩ := ofKwargs_isOk.mp ⟨m, h⟩
  rw [Measurement.ofKwargs, Measurement.ofDict] at h
  split at h
  · obtain ⟨htype, hunit, hvalue, hquality, hestimated⟩ := Measurement.init_eq_ok h
    exact ⟨d, rfl, htype, hunit, hvalue, hquality, hestimated⟩
  · cases h

/-- What a check returns is what was checked. -/
theorem require_eq_ok {fieldName : String} {v : PyValue} {x : Given}
    (h : require fieldName v = .ok x) : x.1 = v := by
  unfold require at h
  split at h
  · injection h with h
    rw [← h]
  · exact nomatch h

theorem checkSequence_eq_ok {v : PyValue} {n : ℕ} (h : checkSequence v = .ok n) :
    v = .num (.int n) := by
  unfold checkSequence at h
  split at h
  · split at h
    · injection h with h
      rw [← h, Int.toNat_of_nonneg ‹_›]
    · exact nomatch h
  · exact nomatch h

theorem checkMeasurements_eq_ok {measurements : List Measurement} {x : Measurements}
    (h : checkMeasurements measurements = .ok x) : x.1 = measurements := by
  unfold checkMeasurements at h
  split at h
  · exact nomatch h
  · split at h
    · injection h with h
      rw [← h]
    · exact nomatch h

/-- The envelope consists of the entries of the object, as far as its users look
at it. -/
structure TelemetryEnvelope.MadeOf {iso : String → Option IsoTime} (freshId : String)
    (d : Dict PyValue) (e : TelemetryEnvelope iso) : Prop where
  tenantId : e.tenantId.1 = arg d "tenant_id" .none
  siteId : e.siteId.1 = arg d "site_id" .none
  deviceId : e.deviceId.1 = arg d "device_id" .none
  meterId : e.meterId.1 = arg d "meter_id" .none
  timestampUtc : arg d "timestamp_utc" .none = .str e.timestampUtc.1
  sequenceNumber : arg d "sequence_number" (.num (.int 0)) = .num (.int e.sequenceNumber)
  sourceProtocol : e.sourceProtocol = arg d "source_protocol" "dlms"
  correlationId : e.correlationId = arg d "correlation_id" freshId
  measurements : ∃ items, arg d "measurements" (.list []) = .list items ∧
    items.mapM Measurement.ofKwargs = .ok e.measurements.1

theorem TelemetryEnvelope.madeOf {iso : String → Option IsoTime} {freshId : String}
    {d : Dict PyValue} {e : TelemetryEnvelope iso} (h : fromDict iso freshId d = .ok e) :
    e.MadeOf freshId d := by
  obtain ⟨-, -, items, hlist, hne, hforms, -⟩ := fromDict_isOk.mp ⟨e, h⟩
  obtain ⟨items', hitems, hrest⟩ := bind_eq_ok.mp h
  obtain ⟨measurements, hm, h⟩ := bind_eq_ok.mp hrest
  rw [hlist] at hitems
  injection hitems with hitems
  rw [← hitems] at hm
  change construct iso freshId (withoutMeasurements d) (.ok measurements) = .ok e at h
  rw [construct, ofDict_withoutMeasurements] at h
  split at h
  · obtain ⟨tenantId, htenant, h⟩ := bind_eq_ok.mp h
    obtain ⟨siteId, hsite, h⟩ := bind_eq_ok.mp h
    obtain ⟨deviceId, hdevice, h⟩ := bind_eq_ok.mp h
    obtain ⟨meterId, hmeter, h⟩ := bind_eq_ok.mp h
    obtain ⟨ts, hts, h⟩ := bind_eq_ok.mp h
    obtain ⟨_, -, h⟩ := bind_eq_ok.mp h
    obtain ⟨_, -, h⟩ := bind_eq_ok.mp h
    obtain ⟨n, hn, h⟩ := bind_eq_ok.mp h
    obtain ⟨_, -, h⟩ := bind_eq_ok.mp h
    obtain ⟨_, hmeasured, h⟩ := bind_eq_ok.mp h
    obtain ⟨checked, hchecked, h⟩ := bind_eq_ok.mp h
    injection hmeasured with hmeasured
    injection h with h
    subst h hmeasured
    exact {
      tenantId := require_eq_ok htenant
      siteId := require_eq_ok hsite
      deviceId := require_eq_ok hdevice
      meterId := require_eq_ok hmeter
      timestampUtc := parseUtc_eq_ok hts
      sequenceNumber := checkSequence_eq_ok hn
      sourceProtocol := rfl
      correlationId := rfl
      measurements :=
        ⟨items, hlist, hm.trans (congrArg _ (checkMeasurements_eq_ok hchecked).symm)⟩ }
  · cases h

/-- Each object among the measurements of the object of an envelope. -/
def EachMeasurement (payload : Dict PyValue) (P : Dict PyValue → Prop) : Prop :=
  ∀ items, arg payload "measurements" (.list []) = .list items →
    ∀ v ∈ items, ∀ d, v = .dict d → P d

/-- What is said of the measurements of an envelope is said of the objects that
they are made of. -/
theorem eachMeasurement_iff {iso : String → Option IsoTime} {freshId : String}
    {payload : Dict PyValue} {e : TelemetryEnvelope iso} (h : e.MadeOf freshId payload)
    {P : Measurement → Prop} {Q : Dict PyValue → Prop}
    (hPQ : ∀ d m, m.MadeOf d → (P m ↔ Q d)) :
    (∀ m ∈ e.measurements.1, P m) ↔ EachMeasurement payload Q := by
  obtain ⟨items, hitems, hmade⟩ := h.measurements
  rw [EachMeasurement, hitems]
  simp only [PyValue.list.injEq, forall_eq']
  refine forall_mem_of_mapM (fun v m hm => ?_) hmade
  obtain ⟨d, rfl, hd⟩ := Measurement.madeOf hm
  simp only [PyValue.dict.injEq, forall_eq', hPQ d m hd]

/-! ### Keys -/

/-- The key of an envelope, read off its object. -/
def payloadKey? (payload : Dict PyValue) : Option TelemetryEnvelope.DedupKey := do
  let tenantId ← (arg payload "tenant_id" .none).key?
  let deviceId ← (arg payload "device_id" .none).key?
  match arg payload "timestamp_utc" .none, arg payload "sequence_number" (.num (.int 0)) with
  | .str ts, .num (.int n) => some (tenantId, deviceId, ts, n.toNat)
  | _, _ => none

/-- Two values make one exactly if both are there. -/
theorem both_ne_none {α β γ : Type} {x : Option α} {y : Option β} {f : α → β → γ} :
    (do let a ← x; let b ← y; pure (f a b)) ≠ none ↔ x ≠ none ∧ y ≠ none := by
  cases x with
  | none => exact iff_of_false (fun h => h rfl) fun h => h.1 rfl
  | some a =>
      cases y with
      | none => exact iff_of_false (fun h => h rfl) fun h => h.2 rfl
      | some b => exact iff_of_true nofun ⟨nofun, nofun⟩

section Keys

variable {iso : String → Option IsoTime}

theorem dedupKey?_ne_none {e : TelemetryEnvelope iso} :
    e.dedupKey? ≠ none ↔ e.tenantId.1.key? ≠ none ∧ e.deviceId.1.key? ≠ none :=
  both_ne_none

theorem dedupKey?_eq {freshId : String} {payload : Dict PyValue} {e : TelemetryEnvelope iso}
    (h : e.MadeOf freshId payload) : e.dedupKey? = payloadKey? payload := by
  rw [payloadKey?, h.timestampUtc, h.sequenceNumber, ← h.tenantId, ← h.deviceId]
  rfl

end Keys

end DiepLab.Contracts
