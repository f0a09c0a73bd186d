import DiepLab.Contracts.Acceptance

/-!
The stages of the pipeline that look at an envelope and rewrite nothing.

Validation is construction, a check of the correlation id and a check of the
units against a registry; the other stages compare an envelope with what they
have recorded of its device. `uuid.UUID` is a parameter.
-/

namespace DiepLab.Mdm

open Contracts

section Stages

variable {iso : String → Option IsoTime}

/-! ### Validation -/

/-- `KNOWN_UNITS`. -/
def knownUnits : Dict (List String) :=
  [("voltage", ["V", "kV"]), ("current", ["A", "mA"]), ("power_kw", ["kW", "W", "MW"]),
    ("frequency", ["Hz"]), ("active_power", ["kW", "W", "MW"]),
    ("energy_import_kwh", ["kWh", "Wh", "MWh"]), ("energy_export_kwh", ["kWh", "Wh", "MWh"]),
    ("power_factor", ["", "ratio"]), ("temperature", ["C", "F", "K"])]

inductive ValidationResult (iso : String → Option IsoTime) where
  | accepted (envelope : TelemetryEnvelope iso)
  | contractViolation (raised : Raised)
  | malformedCorrelationId (got : PyValue)
  | invalidUnit (measurementTypes : List PyValue)

/-- The type is known, and the unit is none of its units. -/
def isBadUnit (m : Measurement) : Except PyError Bool :=
  match lookup? knownUnits m.measurementType with
  | none => .ok false
  | some units =>
      match m.unit.key? with
      -- membership in a set hashes the unit, outside of the `try`
      | none => .error .typeError
      | some key => .ok (units.all fun unit => key ≠ .str unit)

def badUnits : List Measurement → Except PyError (List PyValue)
  | [] => .ok []
  | m :: rest => do
      let bad ← isBadUnit m
      let others ← badUnits rest
      pure (if bad then m.measurementType :: others else others)

/-- `uuid.UUID(correlation_id)` does not raise. -/
def IsUuid (uuid : String → Bool) : PyValue → Bool
  | .str s => uuid s
  | _ => false

variable (iso) in
/-- `ValidationEngine.validate`. -/
def validate (uuid : String → Bool) (freshId : String) (raw : Dict PyValue) :
    Except PyError (ValidationResult iso) :=
  match TelemetryEnvelope.fromDict iso freshId raw with
  | .error raised => .ok (.contractViolation raised)
  | .ok e =>
      if IsUuid uuid e.correlationId then do
        let bad ← badUnits e.measurements.1
        pure (if bad.isEmpty then .accepted e else .invalidUnit bad)
      else .ok (.malformedCorrelationId e.correlationId)

/-- A unit of a type in the registry can be hashed. -/
def HashableUnit (measurementType unit : PyValue) : Prop :=
  lookup? knownUnits measurementType ≠ none → unit.key? ≠ none

/-- A unit of a type in the registry is one of the units of the type. -/
def KnownUnit (measurementType unit : PyValue) : Prop :=
  ∀ units ∈ lookup? knownUnits measurementType, ∃ known ∈ units, unit = .str known

theorem isBadUnit_isOk {m : Measurement} :
    (∃ bad, isBadUnit m = .ok bad) ↔ HashableUnit m.measurementType m.unit := by
  unfold isBadUnit HashableUnit
  cases lookup? knownUnits m.measurementType with
  | none => exact iff_of_true ⟨false, rfl⟩ fun h => absurd rfl h
  | some units =>
      cases m.unit.key? with
      | none => exact iff_of_false (fun ⟨_, h⟩ => nomatch h) fun h => h nofun rfl
      | some key => exact iff_of_true ⟨_, rfl⟩ fun _ => nofun

theorem isBadUnit_eq_false {m : Measurement} :
    isBadUnit m = .ok false ↔ KnownUnit m.measurementType m.unit := by
  unfold isBadUnit KnownUnit
  cases lookup? knownUnits m.measurementType with
  | none => exact iff_of_true rfl nofun
  | some units =>
      simp only [Option.mem_def, Option.some.injEq, forall_eq']
      cases hkey : m.unit.key? with
      | none =>
          refine iff_of_false nofun ?_
          rintro ⟨known, -, hunit⟩
          rw [hunit] at hkey
          exact nomatch hkey
      | some key =>
          simp only [Except.ok.injEq, List.all_eq_false, decide_not, Bool.not_eq_true',
            Bool.not_eq_false, decide_eq_true_eq]
          refine exists_congr fun known => and_congr_right fun _ => ?_
          constructor
          · rintro rfl
            exact PyValue.eq_str_of_key? hkey
          · intro hunit
            rw [hunit] at hkey
            exact (Option.some.inj hkey).symm

theorem badUnits_isOk {ms : List Measurement} :
    (∃ bad, badUnits ms = .ok bad) ↔ ∀ m ∈ ms, HashableUnit m.measurementType m.unit := by
  induction ms with
  | nil => exact iff_of_true ⟨[], rfl⟩ nofun
  | cons m rest ih =>
      rw [badUnits, List.forall_mem_cons, ← ih, ← isBadUnit_isOk]
      refine exists_bind fun bad _ => ?_
      refine (exists_bind fun others _ => ?_).trans (and_iff_left trivial)
      exact iff_of_true ⟨_, rfl⟩ trivial

theorem badUnits_eq_nil {ms : List Measurement} :
    badUnits ms = .ok [] ↔ ∀ m ∈ ms, KnownUnit m.measurementType m.unit := by
  induction ms with
  | nil => exact iff_of_true rfl nofun
  | cons m rest ih =>
      rw [badUnits, List.forall_mem_cons, ← ih, ← isBadUnit_eq_false, bind_eq_ok]
      constructor
      · rintro ⟨bad, hbad, h⟩
        obtain ⟨others, hothers, h⟩ := bind_eq_ok.mp h
        cases bad with
        | true => exact nomatch h
        | false =>
            injection h with h
            exact ⟨hbad, h ▸ hothers⟩
      · rintro ⟨hbad, hothers⟩
        exact ⟨false, hbad, bind_eq_ok.mpr ⟨[], hothers, rfl⟩⟩

/-- Only a unit that cannot be hashed makes validation raise. -/
theorem validate_isOk {uuid : String → Bool} {freshId : String} {raw : Dict PyValue} :
    (∃ result, validate iso uuid freshId raw = .ok result) ↔
      ∀ e, TelemetryEnvelope.fromDict iso freshId raw = .ok e →
        IsUuid uuid e.correlationId = true →
        ∀ m ∈ e.measurements.1, HashableUnit m.measurementType m.unit := by
  unfold validate
  cases TelemetryEnvelope.fromDict iso freshId raw with
  | error raised => exact iff_of_true ⟨_, rfl⟩ fun _ h => nomatch h
  | ok e =>
      simp only [Except.ok.injEq, forall_eq']
      by_cases huuid : IsUuid uuid e.correlationId = true
      · rw [if_pos huuid, forall_prop_of_true huuid, ← badUnits_isOk]
        refine (exists_bind fun bad _ => ?_).trans (and_iff_left trivial)
        exact iff_of_true ⟨_, rfl⟩ trivial
      · rw [if_neg huuid]
        exact iff_of_true ⟨_, rfl⟩ fun h => absurd h huuid

theorem validate_eq_accepted {uuid : String → Bool} {freshId : String} {raw : Dict PyValue}
    {e : TelemetryEnvelope iso} :
    validate iso uuid freshId raw = .ok (.accepted e) ↔
      TelemetryEnvelope.fromDict iso freshId raw = .ok e ∧
        IsUuid uuid e.correlationId = true ∧
        ∀ m ∈ e.measurements.1, KnownUnit m.measurementType m.unit := by
  unfold validate
  cases TelemetryEnvelope.fromDict iso freshId raw with
  | error raised => exact iff_of_false nofun nofun
  | ok e' =>
      dsimp only
      by_cases huuid : IsUuid uuid e'.correlationId = true
      · rw [if_pos huuid, bind_eq_ok]
        constructor
        · rintro ⟨bad, hbad, h⟩
          cases bad with
          | nil =>
              injection h with h
              injection h with h
              subst h
              exact ⟨rfl, huuid, badUnits_eq_nil.mp hbad⟩
          | cons first others => exact nomatch h
        · rintro ⟨⟨⟩, -, hknown⟩
          exact ⟨[], badUnits_eq_nil.mpr hknown, rfl⟩
      · rw [if_neg huuid]
        refine iff_of_false nofun ?_
        rintro ⟨⟨⟩, h, -⟩
        exact huuid h

/-! ### Timestamps -/

/-- `received_at`, with its `isoformat`. -/
structure Received where
  instant : ℚ
  text : String

structure TimestampAssessment where
  ingestionTimestamp : String
  driftSeconds : Double
  isDrifted : Bool
  isOutOfOrder : Bool

/-- A device of a tenant. -/
abbrev DeviceKey := Key × Key

/-- The time that the envelope was captured at. -/
def capturedTime (e : TelemetryEnvelope iso) : IsoTime :=
  (capturedAt iso e.timestampUtc.1).get (by
    obtain ⟨_, dt, hdt, -⟩ := e.timestampUtc.2
    rw [Option.mem_def.mp hdt]
    rfl)

/-- `TimestampNormalizer.assess`, with `CLOCK_DRIFT_THRESHOLD_S`. The last sequence
number is the highest one seen. -/
def assessTimestamp (e : TelemetryEnvelope iso) (device : DeviceKey) (received : Received)
    (lastSequence : DeviceKey → Option ℕ) :
    TimestampAssessment × (DeviceKey → Option ℕ) :=
  let drift := Double.ofRat (received.instant - (capturedTime e).instant)
  let last := lastSequence device
  ({ ingestionTimestamp := received.text
     driftSeconds := drift
     isDrifted := Double.lt (.finite 30) drift.abs
     isOutOfOrder := last.any fun last => e.sequenceNumber < last },
    Function.update lastSequence device (some (max (last.getD 0) e.sequenceNumber)))

/-! ### Gaps -/

structure GapEvent where
  measurementType : PyValue
  gapSeconds : Double
  estimatedMissedSamples : ℤ

/-- `max(0, round(gap_seconds / expected) - 1)`, with the default interval. -/
def missedSamples (gap : Double) : ℤ :=
  match gap.divBy 5 with
  | .finite q => max 0 (Double.roundEven q - 1)
  | _ => 0

abbrev LastSeen := DeviceKey × Key → Option ℚ

/-- One measurement. The tolerance is twice the default interval. -/
def checkGap (measurementType : PyValue) (current : ℚ) (lastSeen : Option ℚ) :
    Option GapEvent := do
  let gap := Double.ofRat (current - (← lastSeen))
  if Double.lt (.finite 10) gap then some ⟨measurementType, gap, missedSamples gap⟩ else none

/-- `GapDetector.check`. -/
def checkGaps (device : DeviceKey) (current : ℚ) :
    List Measurement → LastSeen → Except PyError (List GapEvent) × LastSeen
  | [], lastSeen => (.ok [], lastSeen)
  | m :: rest, lastSeen =>
      match m.key? with
      | none => (.error .typeError, lastSeen)
      | some key =>
          let event := checkGap m.measurementType current (lastSeen (device, key))
          let (events, lastSeen) := checkGaps device current rest
            (Function.update lastSeen (device, key) (some current))
          (events.map fun events => event.toList ++ events, lastSeen)

/-- The types of an envelope are keys. -/
theorem checkGaps_isOk (device : DeviceKey) (current : ℚ) {ms : List Measurement}
    (h : none ∉ ms.map Measurement.key?) (lastSeen : LastSeen) :
    ∃ events, (checkGaps device current ms lastSeen).1 = .ok events := by
  induction ms generalizing lastSeen with
  | nil => exact ⟨[], rfl⟩
  | cons m rest ih =>
      rw [List.map_cons, List.mem_cons, not_or] at h
      obtain ⟨key, hkey⟩ := Option.ne_none_iff_exists'.mp (Ne.symm h.1)
      obtain ⟨events, hevents⟩ :=
        ih h.2 (Function.update lastSeen (device, key) (some current))
      rw [checkGaps, hkey]
      dsimp only
      rw [hevents]
      exact ⟨_, rfl⟩

/-! ### Enrichment -/

structure DeviceRow where
  tenantId : Option String
  siteName : Option String
  deviceType : Option String

structure GridNode where
  nodeId : String
  nodeType : String
  parentId : Option String

structure DeviceMetadata where
  tenantId : Option String
  siteId : Option String
  deviceType : Option String
  assetClass : Option String
  feederId : Option String
  transformerId : Option String

/-- What the lookups of a device return. -/
structure DeviceLookup where
  deviceRow : PyValue → Option DeviceRow
  gridNode : PyValue → Option GridNode

/-- The loop of `_walk_to_node_type`, over so many hops. -/
def walkToNodeType (lookup : DeviceLookup) (targetType : String) :
    ℕ → Option GridNode → Option String
  | 0, _ => none
  | _ + 1, none => none
  | hops + 1, some node =>
      if node.nodeType = targetType then some node.nodeId
      else
        match given node.parentId with
        | none => none
        | some parentId => walkToNodeType lookup targetType hops (lookup.gridNode (.str parentId))

abbrev DeviceCache := Key → Option (DeviceMetadata × ℚ)

/-- `DeviceMetadataEnricher.enrich`, with its defaults. -/
def enrich (lookup : DeviceLookup) (deviceId : PyValue) (key : Key) (now : ℚ)
    (cache : DeviceCache) : DeviceMetadata × DeviceCache :=
  match (cache key).filter fun cached => now - cached.2 < 300 with
  | some cached => (cached.1, cache)
  | none =>
      let row := lookup.deviceRow deviceId
      let deviceType := row.bind DeviceRow.deviceType
      let metadata := {
        tenantId := row.bind DeviceRow.tenantId
        siteId := row.bind DeviceRow.siteName
        deviceType := deviceType
        assetClass := deviceType
        feederId := walkToNodeType lookup "feeder" 10 (lookup.gridNode deviceId)
        transformerId := walkToNodeType lookup "transformer" 10 (lookup.gridNode deviceId) }
      (metadata, Function.update cache key (some (metadata, now)))

end Stages

end DiepLab.Mdm
