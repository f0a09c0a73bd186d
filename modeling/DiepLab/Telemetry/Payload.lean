import DiepLab.Json

/-!
A reading, as the drivers post it and as the telemetry table keeps it.
-/

namespace DiepLab

/-- `TelemetryPayload`. -/
structure TelemetryPayload where
  deviceId : String
  /-- The capture time. -/
  time : Option Stamp := none
  voltage : ℚ
  current : ℚ
  powerKw : ℚ
  frequency : ℚ
  solarKw : ℚ
  batterySoc : ℚ
  gridImportKw : ℚ
  gridExportKw : ℚ
  powerFactor : Option ℚ := none
  energyImportKwh : Option ℚ := none
  energyExportKwh : Option ℚ := none
  temperature : Option ℚ := none
  soh : Option ℚ := none
  state : Option String := none
  extra : Dict Json := []

/-- A row of `telemetry`: its columns are the fields of the reading, `metadata`
is `extra`. -/
structure TelemetryRow where
  time : Stamp
  reading : TelemetryPayload

end DiepLab
