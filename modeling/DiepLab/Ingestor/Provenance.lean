import DiepLab.Contracts.RoundTrip
import DiepLab.Ingestor.Body

/-!
What a body tells of its envelope.

The quality map has the type, the quality and the flag of every measurement, and
a column has its value. The unit is nowhere, and so no envelope can be recovered.
-/

namespace DiepLab.Ingestor

open Contracts

variable {iso : String → Option IsoTime}

/-- What the body has of the measurements beside the columns. -/
theorem extra_envelopeToLegacyBody {e : TelemetryEnvelope iso} {body : Body}
    (h : envelopeToLegacyBody e = .ok body) :
    body.extra = some {
      fields := envelopeExtra e, quality := some (e.measurements.1.map qualityEntry) } := by
  obtain ⟨⟨fields, quality⟩, hloop, h⟩ := bind_eq_ok.mp h
  injection h with h
  have hquality := (foldlM_flatten hloop).1
  rw [List.nil_append] at hquality
  dsimp only at hquality
  rw [← h, hquality]

/-- A finite measurement is kept with its quality and its flag. -/
theorem qualityEntry_of_finite {m : Measurement} (h : m.value.finite = true) :
    qualityEntry m = (m.measurementType, keptQuality m) := by
  rw [qualityEntry, if_neg]
  rintro ⟨-, hfinite⟩
  exact Bool.noConfusion (h.symm.trans hfinite)

/-- Bodies of finite envelopes that are one agree in the types, the qualities and
the flags. -/
theorem types_of_body {e e' : TelemetryEnvelope iso} {body : Body}
    (he : ∀ m ∈ e.measurements.1, m.value.finite = true)
    (he' : ∀ m ∈ e'.measurements.1, m.value.finite = true)
    (h : envelopeToLegacyBody e = .ok body) (h' : envelopeToLegacyBody e' = .ok body) :
    e.measurements.1.map (fun m => (m.measurementType, keptQuality m)) =
      e'.measurements.1.map fun m => (m.measurementType, keptQuality m) := by
  have hextra := (extra_envelopeToLegacyBody h).symm.trans (extra_envelopeToLegacyBody h')
  injection hextra with hextra
  injection hextra with _ hquality
  injection hquality with hquality
  rw [← List.map_congr_left fun m hm => qualityEntry_of_finite (he m hm), hquality]
  exact List.map_congr_left fun m hm => qualityEntry_of_finite (he' m hm)

/-! ### Units -/

/-- The measurement in another unit. -/
def relabel (unit : Given) (m : Measurement) : Measurement :=
  { m with unit := unit.1, measured := unit.2 }

/-- The envelope with all measurements in one unit. -/
def relabelled (unit : Given) (e : TelemetryEnvelope iso) : TelemetryEnvelope iso :=
  { e with
    measurements := ⟨e.measurements.1.map (relabel unit),
      fun hnil => e.measurements.2.1 (List.map_eq_nil_iff.mp hnil), by
        have hkeys : (e.measurements.1.map (relabel unit)).map Measurement.key? =
            e.measurements.1.map Measurement.key? := by
          rw [List.map_map]
          rfl
        rw [Distinct, hkeys]
        exact e.measurements.2.2⟩ }

theorem envelopeToLegacyBody_relabelled (unit : Given) (e : TelemetryEnvelope iso) :
    envelopeToLegacyBody (relabelled unit e) = envelopeToLegacyBody e := by
  have hloop : (e.measurements.1.map (relabel unit)).foldlM flatten (zeros, []) =
      e.measurements.1.foldlM flatten (zeros, []) := by
    rw [List.foldlM_map]
    rfl
  rw [envelopeToLegacyBody, relabelled]
  dsimp only
  rw [hloop]
  rfl

def FiniteValues (e : TelemetryEnvelope iso) : Prop :=
  ∀ m ∈ e.measurements.1, m.value.finite = true

/-- The measurements of the envelope can be recovered from its body. -/
def Determined (e : TelemetryEnvelope iso) : Prop :=
  ∀ e' : TelemetryEnvelope iso, FiniteValues e' →
    envelopeToLegacyBody e' = envelopeToLegacyBody e → e'.measurements = e.measurements

/-- **Lost units.** No envelope can be recovered from its body. -/
theorem not_determined (e : TelemetryEnvelope iso) (hfinite : FiniteValues e) :
    ¬ Determined e := by
  intro hdetermined
  have hrelabelled (unit : Given) : (relabelled unit e).measurements = e.measurements := by
    refine hdetermined _ (fun m hm => ?_) (envelopeToLegacyBody_relabelled unit e)
    obtain ⟨m', hm', rfl⟩ := List.mem_map.mp hm
    exact hfinite m' hm'
  have hsame := congrArg Subtype.val
    ((hrelabelled ⟨"V", by decide⟩).trans (hrelabelled ⟨"A", by decide⟩).symm)
  obtain ⟨m, hm⟩ := List.exists_mem_of_ne_nil _ e.measurements.2.1
  have hunit : (relabel ⟨"V", by decide⟩ m).unit =
      (relabel ⟨"A", by decide⟩ m).unit :=
    congrArg Measurement.unit (List.map_inj_left.mp hsame m hm)
  injection hunit with hunit
  exact absurd hunit (by decide)

theorem meterReading_not_determined : ¬ Determined meterReading :=
  not_determined meterReading (by
    unfold FiniteValues
    decide)

/-- The reading, with everything in millivolts. -/
def millivoltReading : TelemetryEnvelope anyUtc := relabelled ⟨"mV", by decide⟩ meterReading

/-- Both readings have the same body. -/
theorem units_not_recovered :
    FiniteValues meterReading ∧ FiniteValues millivoltReading ∧
      envelopeToLegacyBody millivoltReading = envelopeToLegacyBody meterReading ∧
      millivoltReading.measurements ≠ meterReading.measurements := by
  refine ⟨?_, ?_, envelopeToLegacyBody_relabelled _ _, fun hsame => ?_⟩
  · unfold FiniteValues
    decide
  · unfold FiniteValues
    decide
  · have hunits := congrArg (fun ms : Measurements => ms.1.map Measurement.unit) hsame
    change [PyValue.str "mV", PyValue.str "mV"] = [PyValue.str "V", PyValue.str "kW"] at hunits
    injection hunits with hunit
    injection hunit with hunit
    exact absurd hunit (by decide)

end DiepLab.Ingestor
