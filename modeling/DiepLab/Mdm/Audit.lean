import DiepLab.Library.Journal
import DiepLab.Mdm.Pipeline

/-!
The trail of the rewriting engines.

What a conversion or an assessment changes is entered in a list of its own, under
the type of the measurement. The types of an envelope are distinct, so that each
measurement has its own entries, and `recover` takes the changes back from the
published payload alone.
-/

namespace DiepLab.Mdm

open Contracts

/-! ### What the engines do -/

/-- A measurement is kept, or converted and the conversion recorded. -/
inductive Normalized (m : Measurement) : Measurement → Option ConversionRecord → Prop
  | kept (h : conversion? m.measurementType m.unit = none) : Normalized m m none
  | converted {conversion : Conversion} {canonicalUnit : { unit : String // unit ≠ "" }}
      {x : Double} (h : conversion? m.measurementType m.unit = some conversion)
      (hunit : lookup? canonicalUnits m.measurementType = some canonicalUnit)
      (hx : conversion.apply m.value = some x) :
      Normalized m (converted m canonicalUnit x) (some {
        measurementType := m.measurementType, originalUnit := m.unit, originalValue := m.value
        canonicalUnit := canonicalUnit.1, canonicalValue := x })

theorem normalize_eq_ok {m m' : Measurement} {record : Option ConversionRecord}
    (h : normalize m = .ok (m', record)) : Normalized m m' record := by
  cases hconversion : conversion? m.measurementType m.unit with
  | none =>
      by_cases hunit : lookup? canonicalUnits m.measurementType ≠ none → m.unit.key? ≠ none
      · rw [normalize_of_none hconversion hunit] at h
        obtain ⟨rfl, rfl⟩ := Prod.mk.inj (Except.ok.inj h)
        exact .kept hconversion
      · rw [Classical.not_imp, not_not] at hunit
        rw [normalize_of_unhashable hunit.1 hunit.2] at h
        exact nomatch h
  | some conversion =>
      obtain ⟨-, canonicalUnit, hentry, -⟩ := canonicalUnit_of_conversion? hconversion
      rw [normalize_of_some hconversion hentry] at h
      split at h
      · exact nomatch h
      · rename_i x hx
        obtain ⟨rfl, rfl⟩ := Prod.mk.inj (Except.ok.inj h)
        exact .converted hconversion hentry hx

section Normalized

variable {m m' : Measurement} {record : Option ConversionRecord}

theorem Normalized.measurementType (h : Normalized m m' record) :
    m'.measurementType = m.measurementType := by
  cases h <;> rfl

theorem Normalized.quality (h : Normalized m m' record) : m'.quality = m.quality := by
  cases h <;> rfl

theorem Normalized.type_of_record (h : Normalized m m' record) :
    ∀ entry ∈ record, entry.measurementType = m.measurementType := by
  cases h with
  | kept => exact nofun
  | converted =>
      rintro _ ⟨⟩
      rfl

/-- What is changed is recorded. -/
theorem Normalized.recorded (h : Normalized m m' record)
    (hchanged : m'.unit ≠ m.unit ∨ m'.value ≠ m.value) :
    ∃ entry, record.toList = [entry] ∧ entry.originalUnit = m.unit ∧
      entry.originalValue = m.value := by
  cases h with
  | kept => exact absurd hchanged (by simp)
  | converted => exact ⟨_, rfl, rfl, rfl⟩

theorem Normalized.canonical (h : Normalized m m' record) :
    ∀ conversion ∈ conversion? m.measurementType m.unit,
      ∃ canonicalUnit ∈ lookup? canonicalUnits m.measurementType, ∃ x ∈ conversion.apply m.value,
        m'.unit = canonicalUnit.1 ∧ m'.value = .float x := by
  cases h with
  | kept h =>
      rw [h]
      exact nofun
  | converted h hunit hx =>
      rw [h]
      rintro _ ⟨⟩
      exact ⟨_, hunit, _, hx, rfl, rfl⟩

end Normalized

/-- A measurement that is not GOOD is kept, and one that is may get another quality,
and the transition is recorded. -/
inductive Assessed (m : Measurement) : Measurement → Option QualityTransition → Prop
  | flagged (h : m.quality ≠ .GOOD) : Assessed m m none
  | passed (hgood : m.quality = .GOOD) (hfinite : m.value.finite = true)
      (hwithin : ∀ limits ∈ lookup? rangeLimits m.measurementType, within limits m.value = true) :
      Assessed m m none
  | nonFinite (hgood : m.quality = .GOOD) (hfinite : m.value.finite = false) :
      Assessed m (requalified m .INVALID nofun)
        (some ⟨m.measurementType, .GOOD, .INVALID, "non_finite_value"⟩)
  | outOfRange {limits : ℚ × ℚ} (hgood : m.quality = .GOOD) (hfinite : m.value.finite = true)
      (hlimits : lookup? rangeLimits m.measurementType = some limits)
      (hwithin : within limits m.value = false) :
      Assessed m (requalified m .OUT_OF_RANGE nofun)
        (some ⟨m.measurementType, .GOOD, .OUT_OF_RANGE, "out_of_range"⟩)

theorem assess_eq_ok {m m' : Measurement} {transition : Option QualityTransition}
    (h : assess m = .ok (m', transition)) : Assessed m m' transition := by
  unfold assess at h
  by_cases hgood : m.quality = .GOOD
  · rw [if_neg (not_not.mpr hgood)] at h
    split at h
    · exact nomatch h
    · rename_i htest
      obtain ⟨rfl, rfl⟩ := Prod.mk.inj (Except.ok.inj h)
      exact .nonFinite hgood (Number.finite_of_isFinite? htest)
    · rename_i htest
      split at h
      · rename_i hlimits
        obtain ⟨rfl, rfl⟩ := Prod.mk.inj (Except.ok.inj h)
        refine .passed hgood (Number.finite_of_isFinite? htest) ?_
        rw [hlimits]
        exact nofun
      · rename_i limits hlimits
        split at h
        · rename_i hwithin
          obtain ⟨rfl, rfl⟩ := Prod.mk.inj (Except.ok.inj h)
          refine .passed hgood (Number.finite_of_isFinite? htest) ?_
          rw [hlimits]
          rintro _ ⟨⟩
          exact hwithin
        · rename_i hwithin
          obtain ⟨rfl, rfl⟩ := Prod.mk.inj (Except.ok.inj h)
          exact .outOfRange hgood (Number.finite_of_isFinite? htest) hlimits
            (Bool.not_eq_true _ ▸ hwithin)
  · rw [if_pos hgood] at h
    obtain ⟨rfl, rfl⟩ := Prod.mk.inj (Except.ok.inj h)
    exact .flagged hgood

section Assessed

variable {m m' : Measurement} {transition : Option QualityTransition}

theorem Assessed.measurementType (h : Assessed m m' transition) :
    m'.measurementType = m.measurementType := by
  cases h <;> rfl

theorem Assessed.unit (h : Assessed m m' transition) : m'.unit = m.unit := by
  cases h <;> rfl

theorem Assessed.value (h : Assessed m m' transition) : m'.value = m.value := by
  cases h <;> rfl

theorem Assessed.type_of_transition (h : Assessed m m' transition) :
    ∀ entry ∈ transition, entry.measurementType = m.measurementType := by
  cases h with
  | flagged | passed => exact fun _ h => nomatch h
  | nonFinite | outOfRange =>
      rintro _ ⟨⟩
      rfl

theorem Assessed.kept (h : Assessed m m' transition) (hflagged : m.quality ≠ .GOOD) :
    m'.quality = m.quality := by
  cases h with
  | flagged | passed => rfl
  | nonFinite hgood | outOfRange hgood => exact absurd hgood hflagged

/-- A transition is recorded exactly if there is one. -/
theorem Assessed.recorded (h : Assessed m m' transition) :
    m'.quality ≠ m.quality ↔ ∃ entry, transition.toList = [entry] ∧
      entry.originalQuality = m.quality ∧ entry.newQuality = m'.quality := by
  cases h with
  | flagged | passed => exact iff_of_false (fun h => h rfl) fun ⟨_, h, _⟩ => nomatch h
  | nonFinite hgood | outOfRange hgood =>
      refine iff_of_true ?_ ⟨_, rfl, hgood.symm, rfl⟩
      rw [hgood]
      exact nofun

theorem Assessed.ranged (h : Assessed m m' transition) (hgood : m.quality = .GOOD) :
    m'.quality = .OUT_OF_RANGE ↔ m.value.finite = true ∧
      ∃ limits ∈ lookup? rangeLimits m.measurementType, within limits m.value = false := by
  cases h with
  | flagged hflagged => exact absurd hgood hflagged
  | passed _ _ hwithin =>
      rw [hgood]
      refine iff_of_false nofun ?_
      rintro ⟨-, limits, hlimits, houtside⟩
      exact Bool.noConfusion (houtside.symm.trans (hwithin limits hlimits))
  | nonFinite _ hfinite =>
      refine iff_of_false nofun fun h => ?_
      exact Bool.noConfusion (hfinite.symm.trans h.1)
  | outOfRange _ hfinite hlimits hwithin =>
      exact iff_of_true rfl ⟨hfinite, _, hlimits, hwithin⟩

end Assessed

/-! ### The loop -/

/-- What one turn of the loop makes. -/
structure Turn where
  measurement : Measurement
  conversion : Option ConversionRecord
  transition : Option QualityTransition

/-- A turn of this measurement. -/
def IsTurn (m : Measurement) (t : Turn) : Prop :=
  ∃ m', Normalized m m' t.conversion ∧ Assessed m' t.measurement t.transition

def Refined.enter (acc : Refined) (t : Turn) : Refined where
  measurements := acc.measurements ++ [t.measurement]
  unitConversions := acc.unitConversions ++ t.conversion.toList
  qualityTransitions := acc.qualityTransitions ++ t.transition.toList

theorem refine_eq_ok {acc acc' : Refined} {m : Measurement} (h : refine acc m = .ok acc') :
    ∃ t, IsTurn m t ∧ acc' = acc.enter t := by
  obtain ⟨⟨m', conversion⟩, hnormalize, h⟩ := bind_eq_ok.mp h
  obtain ⟨⟨m'', transition⟩, hassess, h⟩ := bind_eq_ok.mp h
  injection h with h
  exact ⟨⟨m'', conversion, transition⟩,
    ⟨m', normalize_eq_ok hnormalize, assess_eq_ok hassess⟩, h.symm⟩

theorem foldl_enter (turns : List Turn) (acc : Refined) :
    turns.foldl Refined.enter acc = {
      measurements := acc.measurements ++ turns.map Turn.measurement
      unitConversions := acc.unitConversions ++ turns.filterMap Turn.conversion
      qualityTransitions := acc.qualityTransitions ++ turns.filterMap Turn.transition } := by
  induction turns generalizing acc with
  | nil => simp
  | cons t rest ih =>
      rw [List.foldl_cons, ih, Journal.filterMap_cons, Journal.filterMap_cons, Refined.enter]
      simp only [List.append_assoc, List.map_cons, List.singleton_append]

section Turns

variable {m : Measurement} {t : Turn}

theorem IsTurn.type_of_conversion (h : IsTurn m t) :
    ∀ entry ∈ t.conversion, entry.measurementType = m.measurementType := by
  obtain ⟨m', hnormalized, -⟩ := h
  exact hnormalized.type_of_record

theorem IsTurn.type_of_transition (h : IsTurn m t) :
    ∀ entry ∈ t.transition, entry.measurementType = m.measurementType := by
  obtain ⟨m', hnormalized, hassessed⟩ := h
  exact fun entry hentry =>
    (hassessed.type_of_transition entry hentry).trans hnormalized.measurementType

end Turns

/-! ### The trail -/

def transitionsOf (transitions : List QualityTransition) (m : Measurement) :
    List QualityTransition :=
  transitions.filter fun entry => entry.measurementType.key? = m.key?

def conversionsOf (conversions : List ConversionRecord) (m : Measurement) :
    List ConversionRecord :=
  conversions.filter fun entry => entry.measurementType.key? = m.key?

/-- The lists say how the one measurement has become the other. -/
structure Traced (transitions : List QualityTransition) (conversions : List ConversionRecord)
    (m m' : Measurement) : Prop where
  measurementType : m'.measurementType = m.measurementType
  /-- A quality that is not GOOD is kept. -/
  kept : m.quality ≠ .GOOD → m'.quality = m.quality
  /-- A quality is another one exactly if a single entry says so. -/
  requalified : m'.quality ≠ m.quality ↔ ∃ entry, transitionsOf transitions m = [entry] ∧
    entry.originalQuality = m.quality ∧ entry.newQuality = m'.quality
  /-- A unit or a value is another one only if a single entry has the original. -/
  converted : m'.unit ≠ m.unit ∨ m'.value ≠ m.value →
    ∃ entry, conversionsOf conversions m = [entry] ∧
      entry.originalUnit = m.unit ∧ entry.originalValue = m.value
  /-- What can be converted is published in the canonical unit. -/
  canonical : ∀ conversion ∈ conversion? m.measurementType m.unit,
    ∃ canonicalUnit ∈ lookup? canonicalUnits m.measurementType, ∃ x ∈ conversion.apply m.value,
      m'.unit = canonicalUnit.1 ∧ m'.value = .float x
  /-- The limits are those of what is published. -/
  ranged : m.quality = .GOOD → (m'.quality = .OUT_OF_RANGE ↔ m'.value.finite = true ∧
    ∃ limits ∈ lookup? rangeLimits m.measurementType, within limits m'.value = false)

/-- A turn whose entries are all that the lists have under its type. -/
theorem IsTurn.traced {m : Measurement} {t : Turn} {transitions : List QualityTransition}
    {conversions : List ConversionRecord} (h : IsTurn m t)
    (htransitions : transitionsOf transitions m = t.transition.toList)
    (hconversions : conversionsOf conversions m = t.conversion.toList) :
    Traced transitions conversions m t.measurement := by
  obtain ⟨m', hnormalized, hassessed⟩ := h
  constructor
  · exact hassessed.measurementType.trans hnormalized.measurementType
  · rw [← hnormalized.quality]
    exact hassessed.kept
  · rw [htransitions, ← hnormalized.quality]
    exact hassessed.recorded
  · rw [hconversions, hassessed.unit, hassessed.value]
    exact hnormalized.recorded
  · rw [hassessed.unit, hassessed.value]
    exact hnormalized.canonical
  · rw [hassessed.value, ← hnormalized.quality, ← hnormalized.measurementType]
    exact hassessed.ranged

/-! ### Recovery -/

/-- The objects of a list. -/
def objects : PyValue → List (Dict PyValue)
  | .list items => items.filterMap fun
      | .dict d => some d
      | _ => none
  | _ => []

/-- The first entry under a type. -/
def entryFor (entries : List (Dict PyValue)) (measurementType : PyValue) : Option (Dict PyValue) :=
  entries.find? fun entry => (arg entry "measurement_type" .none).key? = measurementType.key?

/-- A measurement with what its entries record in the place of what is
published. -/
def restore (conversions transitions : List (Dict PyValue)) (d : Dict PyValue) : Dict PyValue :=
  let measurementType := arg d "measurement_type" .none
  let d :=
    match entryFor conversions measurementType with
    | some entry =>
        (d.set "unit" (arg entry "original_unit" .none)).set "value"
          (arg entry "original_value" .none)
    | none => d
  match entryFor transitions measurementType with
  | some entry => d.set "quality" (arg entry "original_quality" .none)
  | none => d

/-- An entry of `payload["mdm"]`. -/
def finding (payload : Dict PyValue) (name : String) : PyValue :=
  match payload.get? "mdm" with
  | some (.dict findings) => arg findings name .none
  | _ => .none

/-- The measurements before all changes, read off the published payload. -/
def recover (payload : Dict PyValue) : Except Raised (List Measurement) :=
  (objects (arg payload "measurements" .none)).mapM fun d =>
    Measurement.ofDict (restore (objects (finding payload "unit_conversions"))
      (objects (finding payload "quality_transitions")) d)

theorem objects_listOf {α : Type} (toDict : α → Dict PyValue) (items : List α) :
    objects (listOf toDict items) = items.map toDict := by
  induction items with
  | nil => rfl
  | cons item rest ih => exact congrArg (List.cons (toDict item)) ih

/-- The entries of both engines restore the measurement. -/
theorem restore_eq {m m' m'' : Measurement} {record : Option ConversionRecord}
    {transition : Option QualityTransition} {conversions transitions : List (Dict PyValue)}
    (hnormalized : Normalized m m' record) (hassessed : Assessed m' m'' transition)
    (hconversion : entryFor conversions m.measurementType = record.map ConversionRecord.toDict)
    (htransition : entryFor transitions m.measurementType =
      transition.map QualityTransition.toDict) :
    restore conversions transitions m''.toDict = m.toDict := by
  have htype : arg m''.toDict "measurement_type" .none = m.measurementType :=
    hassessed.measurementType.trans hnormalized.measurementType
  have hquality := hnormalized.quality
  -- the type is never rewritten, so that the entries are found under the original one
  rw [restore, htype, hconversion, htransition]
  cases hnormalized with
  | kept =>
      cases hassessed with
      | flagged | passed => rfl
      | nonFinite hgood | outOfRange hgood =>
          simp only [Measurement.toDict, hgood]
          rfl
  | converted =>
      cases hassessed with
      | flagged | passed => rfl
      | nonFinite hgood | outOfRange hgood =>
          simp only [Measurement.toDict, ← hquality, hgood]
          rfl

/-! ### The payload -/

/-- The payload lists these measurements and these entries. -/
structure Lists (payload : Dict PyValue) (refined : Refined) : Prop where
  measurements : arg payload "measurements" .none =
    listOf Measurement.toDict refined.measurements
  transitions : finding payload "quality_transitions" =
    listOf QualityTransition.toDict refined.qualityTransitions
  conversions : finding payload "unit_conversions" =
    listOf ConversionRecord.toDict refined.unitConversions

theorem lists_trustedPayload {iso : String → Option IsoTime} (e : TelemetryEnvelope iso)
    (processedAt : String) (metadata : DeviceMetadata) (refined : Refined) (gaps : List GapEvent)
    (assessment : TimestampAssessment) :
    Lists (trustedPayload e processedAt metadata refined gaps assessment) refined :=
  ⟨rfl, rfl, rfl⟩

section Loop

variable {ms : List Measurement} {refined : Refined}

/-- Each measurement has its own entries. -/
theorem refined_entries (hkeys : (ms.map Measurement.key?).Nodup)
    (h : ms.foldlM refine {} = .ok refined) :
    ∃ turns, refined.measurements = turns.map Turn.measurement ∧
      List.Forall₂ (fun m t => IsTurn m t ∧
        transitionsOf refined.qualityTransitions m = t.transition.toList ∧
        conversionsOf refined.unitConversions m = t.conversion.toList) ms turns := by
  obtain ⟨turns, hturns, hrefined⟩ :=
    Journal.foldlM_turns (f := refine) (fun _ _ _ => refine_eq_ok) h
  rw [foldl_enter] at hrefined
  subst hrefined
  obtain ⟨hlength, hturn⟩ := List.forall₂_iff_zip.mp hturns
  refine ⟨turns, rfl, List.forall₂_iff_zip.mpr ⟨hlength, fun hmem => ⟨hturn hmem, ?_, ?_⟩⟩⟩
  · refine Journal.filter_entries hturns (fun m t ht entry hentry => ?_) hkeys hmem
    rw [Measurement.key?, ht.type_of_transition entry hentry]
  · refine Journal.filter_entries hturns (fun m t ht entry hentry => ?_) hkeys hmem
    rw [Measurement.key?, ht.type_of_conversion entry hentry]

theorem refined_traced (hkeys : (ms.map Measurement.key?).Nodup)
    (h : ms.foldlM refine {} = .ok refined) :
    List.Forall₂ (Traced refined.qualityTransitions refined.unitConversions) ms
      refined.measurements := by
  obtain ⟨turns, hmeasurements, hturns⟩ := refined_entries hkeys h
  rw [hmeasurements, List.forall₂_map_right_iff]
  exact hturns.imp fun _ _ ⟨hturn, htransitions, hconversions⟩ =>
    hturn.traced htransitions hconversions

/-- What is found under a type in the list of a payload. -/
theorem entryFor_map {β : Type} {toDict : β → Dict PyValue} {typeOf : β → PyValue}
    (htype : ∀ b, arg (toDict b) "measurement_type" .none = typeOf b) (entries : List β)
    (measurementType : PyValue) :
    entryFor (entries.map toDict) measurementType =
      (entries.find? fun b => (typeOf b).key? = measurementType.key?).map toDict := by
  rw [entryFor, List.find?_map]
  simp only [Function.comp_def, htype]

theorem refined_recovered (hkeys : (ms.map Measurement.key?).Nodup)
    (h : ms.foldlM refine {} = .ok refined) {payload : Dict PyValue}
    (hlists : Lists payload refined) : recover payload = .ok ms := by
  obtain ⟨turns, hmeasurements, hturns⟩ := refined_entries hkeys h
  rw [recover, hlists.measurements, hlists.transitions, hlists.conversions, objects_listOf,
    objects_listOf, objects_listOf, hmeasurements]
  clear hmeasurements hkeys h hlists
  -- turn by turn: the entries that are found are those of the turn
  induction hturns with
  | nil => rfl
  | cons hturn _ ih =>
      obtain ⟨⟨m', hnormalized, hassessed⟩, htransitions, hconversions⟩ := hturn
      have hrestored := restore_eq hnormalized hassessed
        ((entryFor_map (fun _ => rfl) _ _).trans
          (congrArg _ (Journal.find?_of_filter hconversions)))
        ((entryFor_map (fun _ => rfl) _ _).trans
          (congrArg _ (Journal.find?_of_filter htransitions)))
      rw [List.map_cons, List.map_cons, List.mapM_cons, hrestored, ih]
      exact bind_eq_ok.mpr ⟨_, Measurement.ofKwargs_toDict _, rfl⟩

end Loop

section Process

variable {iso : String → Option IsoTime} {uuid : String → Bool} {str : PyValue → String}
variable {policy : DedupPolicy} {size : ℕ} {c : Surroundings}

/-- **Audit trail.** An accepted envelope is published with its measurements in
their order, each traced to what it was, and what it was is read off the
payload. -/
theorem process_audited {raw : Dict PyValue} {domain : String} {s : PipelineState size}
    {result : PipelineResult} (h : (process iso uuid str policy c raw domain s).1 = .ok result)
    (haccepted : result.accepted = true) :
    ∃ e payload refined, TelemetryEnvelope.fromDict iso c.freshId raw = .ok e ∧
      result.payload = some payload ∧ Lists payload refined ∧
      List.Forall₂ (Traced refined.qualityTransitions refined.unitConversions)
        e.measurements.1 refined.measurements ∧
      recover payload = .ok e.measurements.1 := by
  -- the pipeline ends in a rejection or publishes what its loop has made
  rcases process_eq_ok h with ⟨hrejected, -⟩ | ⟨e, _, hvalid, hpublished⟩
  · exact Bool.noConfusion (haccepted.symm.trans hrejected)
  · obtain ⟨-, refined, metadata, gaps, assessment, hrefined, hpayload⟩ :=
      publish_eq_ok hpublished
    have hkeys := e.measurements.2.2.2
    have hlists := lists_trustedPayload e c.processedAt metadata refined gaps assessment
    exact ⟨e, _, refined, (validate_eq_accepted.mp hvalid).1, hpayload, hlists,
      refined_traced hkeys hrefined, refined_recovered hkeys hrefined hlists⟩

end Process

/-- A voltage in another unit and out of range. -/
def kilovoltReading : Dict PyValue :=
  meterReading.toDict.set "measurements" (.list [.dict [("measurement_type", "voltage"),
    ("unit", "kV"), ("value", .num (.float (.finite (3 / 4))))]])

def processedKilovolts : Except PyError PipelineResult :=
  (process anyUtc isReadingId (fun _ => "") .any atNoon kilovoltReading "meter"
    ({} : PipelineState cacheSize)).1

/-- It is converted, found out of range and published. -/
theorem kilovoltReading_audited :
    ∃ result, processedKilovolts = .ok result ∧
      ∃ e payload refined, TelemetryEnvelope.fromDict anyUtc "" kilovoltReading = .ok e ∧
        result.payload = some payload ∧ Lists payload refined ∧
        List.Forall₂ (Traced refined.qualityTransitions refined.unitConversions)
          e.measurements.1 refined.measurements ∧
        recover payload = .ok e.measurements.1 := by
  have haccepted : (processedKilovolts.toOption.map PipelineResult.accepted) = some true := by
    decide +kernel
  obtain ⟨result, hresult, haccepted⟩ := Option.map_eq_some_iff.mp haccepted
  cases hprocessed : processedKilovolts with
  | error raised =>
      rw [hprocessed] at hresult
      exact nomatch hresult
  | ok result' =>
      rw [hprocessed] at hresult
      injection hresult with hresult
      exact ⟨result', rfl, process_audited hprocessed (hresult ▸ haccepted)⟩

end DiepLab.Mdm
