import DiepLab.Contracts.Acceptance

/-!
The engines that rewrite measurements.

A measurement is first converted to the canonical unit of its type and then, if
its quality is GOOD, tested for being finite and within the limits. Whatever
changes is logged under the type of the measurement. Converting or testing an
integer that no float is near to raises.
-/

namespace DiepLab.Mdm

open Contracts

/-! ### Units -/

/-- `CANONICAL_UNITS`. -/
def canonicalUnits : Dict { unit : String // unit ≠ "" } :=
  [("voltage", ⟨"V", by decide⟩), ("current", ⟨"A", by decide⟩), ("power_kw", ⟨"kW", by decide⟩),
    ("frequency", ⟨"Hz", by decide⟩), ("active_power", ⟨"kW", by decide⟩),
    ("energy_import_kwh", ⟨"kWh", by decide⟩), ("energy_export_kwh", ⟨"kWh", by decide⟩),
    ("temperature", ⟨"C", by decide⟩)]

/-- A temperature is converted by an affine map, everything else by a factor. -/
inductive Conversion where
  | factor (f : ℚ)
  | fahrenheit
  | kelvin
  deriving DecidableEq, Repr

/-- `_CONVERSIONS`, and the special case of the temperature. -/
def conversions : List ((String × String) × Conversion) :=
  [(("temperature", "F"), .fahrenheit), (("temperature", "K"), .kelvin),
    (("voltage", "kV"), .factor 1000), (("current", "mA"), .factor (1 / 1000)),
    (("power_kw", "W"), .factor (1 / 1000)), (("power_kw", "MW"), .factor 1000),
    (("active_power", "W"), .factor (1 / 1000)), (("active_power", "MW"), .factor 1000),
    (("energy_import_kwh", "Wh"), .factor (1 / 1000)),
    (("energy_import_kwh", "MWh"), .factor 1000),
    (("energy_export_kwh", "Wh"), .factor (1 / 1000)),
    (("energy_export_kwh", "MWh"), .factor 1000)]

def conversion? (measurementType unit : PyValue) : Option Conversion :=
  (conversions.find? fun entry =>
    measurementType.key? = some (.str entry.1.1) ∧ unit.key? = some (.str entry.1.2)).map Prod.snd

/-- The value in the canonical unit, or none where it raises `OverflowError`. -/
def Conversion.apply (conversion : Conversion) (value : Number) : Option Double :=
  value.toDouble?.map fun x =>
    match conversion with
    | .factor f => x.mul (Double.ofRat f)
    | .fahrenheit => ((x.sub (.finite 32)).mul (.finite 5)).divBy 9
    | .kelvin => x.sub (Double.ofRat (27315 / 100))

structure ConversionRecord where
  measurementType : PyValue
  originalUnit : PyValue
  originalValue : Number
  canonicalUnit : String
  canonicalValue : Double

/-- `replace(measurement, unit=..., value=...)`: the checks of the constructor
pass. -/
def converted (m : Measurement) (unit : { unit : String // unit ≠ "" }) (value : Double) :
    Measurement :=
  { m with unit := unit.1, value := .float value, measured := by simp [PyValue.truthy, unit.2] }

/-- `UnitNormalizer.normalize`. -/
def normalize (m : Measurement) : Except PyError (Measurement × Option ConversionRecord) :=
  match lookup? canonicalUnits m.measurementType with
  | none => .ok (m, none)
  | some canonicalUnit =>
      if m.unit.key? = some (.str canonicalUnit.1) then .ok (m, none)
      -- `key in _CONVERSIONS` hashes the unit
      else if m.unit.key? = none then .error .typeError
      else
        match conversion? m.measurementType m.unit with
        | none => .ok (m, none)
        | some conversion =>
            match conversion.apply m.value with
            | none => .error .overflowError
            | some canonicalValue =>
                .ok (converted m canonicalUnit canonicalValue, some {
                  measurementType := m.measurementType, originalUnit := m.unit
                  originalValue := m.value, canonicalUnit := canonicalUnit.1
                  canonicalValue := canonicalValue })

/-! ### Quality -/

/-- `Settings.RANGE_LIMITS`. -/
def rangeLimits : Dict (ℚ × ℚ) :=
  [("voltage", (0, 500)), ("current", (0, 200)), ("power_kw", (-1000, 1000)),
    ("frequency", (45, 65))]

/-- `lo <= value <= hi`. -/
def within (limits : ℚ × ℚ) : Number → Bool
  | .int n => limits.1 ≤ n && n ≤ limits.2
  | .float x => Double.le (.finite limits.1) x && Double.le x (.finite limits.2)

structure QualityTransition where
  measurementType : PyValue
  originalQuality : Quality
  newQuality : Quality
  reason : String

/-- `replace(measurement, quality=...)`. -/
def requalified (m : Measurement) (quality : Quality) (h : quality ≠ .ESTIMATED) : Measurement :=
  { m with quality := quality, flagged := fun hq => absurd hq h }

/-- `QualityAssessor.assess`. -/
def assess (m : Measurement) : Except PyError (Measurement × Option QualityTransition) :=
  if m.quality ≠ .GOOD then .ok (m, none)
  else
    -- NaN and the infinities come first, for no limit compares with them
    match m.value.isFinite? with
    | none => .error .overflowError
    | some false =>
        .ok (requalified m .INVALID nofun,
          some ⟨m.measurementType, .GOOD, .INVALID, "non_finite_value"⟩)
    | some true =>
        match lookup? rangeLimits m.measurementType with
        | none => .ok (m, none)
        | some limits =>
            if within limits m.value then .ok (m, none)
            else .ok (requalified m .OUT_OF_RANGE nofun,
              some ⟨m.measurementType, .GOOD, .OUT_OF_RANGE, "out_of_range"⟩)

/-! ### Both -/

/-- What the loop of the pipeline has made so far. -/
structure Refined where
  measurements : List Measurement := []
  unitConversions : List ConversionRecord := []
  qualityTransitions : List QualityTransition := []

/-- One turn of the loop. The unit comes first, for the limits are in canonical
units. -/
def refine (acc : Refined) (m : Measurement) : Except PyError Refined := do
  let (m, conversion) ← normalize m
  let (m, transition) ← assess m
  pure {
    measurements := acc.measurements ++ [m]
    unitConversions := acc.unitConversions ++ conversion.toList
    qualityTransitions := acc.qualityTransitions ++ transition.toList }

/-! ### What raises -/

theorem apply_eq_none {conversion : Conversion} {value : Number} :
    conversion.apply value = none ↔ value.huge = true := by
  rw [Conversion.apply, Option.map_eq_none_iff, Number.toDouble?_eq_none]

/-- What can be converted has a canonical unit, and is in another one. -/
theorem canonicalUnit_of_conversion? {measurementType unit : PyValue} {conversion : Conversion}
    (h : conversion? measurementType unit = some conversion) :
    unit.key? ≠ none ∧ ∃ canonicalUnit, lookup? canonicalUnits measurementType =
      some canonicalUnit ∧ unit.key? ≠ some (.str canonicalUnit.1) := by
  have htable : ∀ entry ∈ conversions, ∃ canonicalUnit,
      canonicalUnits.get? entry.1.1 = some canonicalUnit ∧ entry.1.2 ≠ canonicalUnit.1 := by
    decide
  obtain ⟨entry, hfind, -⟩ := Option.map_eq_some_iff.mp h
  have hmatch := List.find?_some hfind
  rw [decide_eq_true_eq] at hmatch
  obtain ⟨canonicalUnit, hget, hne⟩ := htable entry (List.mem_of_find?_eq_some hfind)
  rw [PyValue.eq_str_of_key? hmatch.1, hmatch.2]
  exact ⟨nofun, canonicalUnit, hget, fun hkey => hne (Key.str.inj (Option.some.inj hkey))⟩

theorem normalize_of_none {m : Measurement} (h : conversion? m.measurementType m.unit = none)
    (hunit : lookup? canonicalUnits m.measurementType ≠ none → m.unit.key? ≠ none) :
    normalize m = .ok (m, none) := by
  unfold normalize
  cases hentry : lookup? canonicalUnits m.measurementType with
  | none => rfl
  | some canonicalUnit =>
      dsimp only
      split
      · rfl
      · rw [if_neg (hunit (by rw [hentry]; exact nofun)), h]

theorem normalize_of_some {m : Measurement} {conversion : Conversion}
    {canonicalUnit : { unit : String // unit ≠ "" }}
    (h : conversion? m.measurementType m.unit = some conversion)
    (hentry : lookup? canonicalUnits m.measurementType = some canonicalUnit) :
    normalize m =
      match conversion.apply m.value with
      | none => .error .overflowError
      | some canonicalValue => .ok (converted m canonicalUnit canonicalValue, some {
          measurementType := m.measurementType, originalUnit := m.unit
          originalValue := m.value, canonicalUnit := canonicalUnit.1
          canonicalValue := canonicalValue }) := by
  obtain ⟨hkey, canonicalUnit', hentry', hne⟩ := canonicalUnit_of_conversion? h
  have hsame : canonicalUnit' = canonicalUnit := Option.some.inj (hentry'.symm.trans hentry)
  rw [hsame] at hne
  unfold normalize
  rw [hentry]
  dsimp only
  rw [if_neg hne, if_neg hkey, h]

theorem normalize_of_unhashable {m : Measurement}
    (h : lookup? canonicalUnits m.measurementType ≠ none) (hunit : m.unit.key? = none) :
    normalize m = .error .typeError := by
  obtain ⟨canonicalUnit, hentry⟩ := Option.ne_none_iff_exists'.mp h
  unfold normalize
  rw [hentry]
  dsimp only
  rw [hunit, if_neg nofun, if_pos rfl]

theorem assess_isOk {m : Measurement} :
    (∃ out, assess m = .ok out) ↔ (m.quality = .GOOD → m.value.huge = false) := by
  unfold assess
  by_cases hgood : m.quality = .GOOD
  · rw [if_neg (not_not.mpr hgood)]
    cases htest : m.value.isFinite? with
    | none =>
        refine iff_of_false (fun ⟨_, h⟩ => nomatch h) fun h => ?_
        exact absurd (Number.isFinite?_eq_none.mp htest) (by simp [h hgood])
    | some finite =>
        refine iff_of_true ?_ fun _ => ?_
        · cases finite with
          | false => exact ⟨_, rfl⟩
          | true =>
              dsimp only
              split
              · exact ⟨_, rfl⟩
              · split <;> exact ⟨_, rfl⟩
        · rw [← Bool.not_eq_true, ← Number.isFinite?_eq_none, htest]
          exact nofun
  · exact iff_of_true ⟨_, if_pos hgood⟩ fun h => absurd h hgood

/-- A measurement that both engines let pass. -/
def Refinable (m : Measurement) : Prop :=
  (lookup? canonicalUnits m.measurementType ≠ none → m.unit.key? ≠ none) ∧
    (m.value.huge = true → conversion? m.measurementType m.unit = none ∧ m.quality ≠ .GOOD)

theorem refine_isOk (acc : Refined) (m : Measurement) :
    (∃ acc', refine acc m = .ok acc') ↔ Refinable m := by
  have hrest (m' : Measurement) (conversion : Option ConversionRecord)
      (h : normalize m = .ok (m', conversion)) :
      (∃ acc', refine acc m = .ok acc') ↔ (m'.quality = .GOOD → m'.value.huge = false) := by
    rw [refine, h, ok_bind, ← assess_isOk]
    refine (exists_bind fun out _ => ?_).trans (and_iff_left trivial)
    exact iff_of_true ⟨_, rfl⟩ trivial
  unfold Refinable
  cases hconversion : conversion? m.measurementType m.unit with
  | none =>
      by_cases hunit : lookup? canonicalUnits m.measurementType ≠ none → m.unit.key? ≠ none
      · rw [hrest m none (normalize_of_none hconversion hunit), and_iff_right hunit]
        cases m.value.huge <;> simp
      · rw [Classical.not_imp, not_not] at hunit
        refine iff_of_false ?_ fun h => h.1 hunit.1 hunit.2
        rw [refine, normalize_of_unhashable hunit.1 hunit.2]
        exact fun ⟨_, h⟩ => nomatch h
  | some conversion =>
      obtain ⟨hkey, canonicalUnit, hentry, -⟩ := canonicalUnit_of_conversion? hconversion
      have hnormalize := normalize_of_some hconversion hentry
      cases happly : conversion.apply m.value with
      | none =>
          refine iff_of_false ?_ fun h => nomatch (h.2 (apply_eq_none.mp happly)).1
          rw [refine, hnormalize, happly]
          exact fun ⟨_, h⟩ => nomatch h
      | some canonicalValue =>
          rw [happly] at hnormalize
          rw [hrest _ _ hnormalize]
          have hhuge : m.value.huge = false := by
            rw [← Bool.not_eq_true, ← apply_eq_none, happly]
            exact nofun
          refine iff_of_true (fun _ => rfl) ⟨fun _ => hkey, fun h => ?_⟩
          exact Bool.noConfusion (h.symm.trans hhuge)

end DiepLab.Mdm
