import DiepLab.Drivers.Readback

/-!
The register maps of the battery and of the meter.
-/

namespace DiepLab.Drivers

open Sunspec

namespace Battery

def cmdMode : Point := ⟨"cmd_mode", 4013, .u16⟩

def powerSetpointKw : Point := ⟨"power_setpoint_kw", 4014, .f32⟩

def targetSoc : Point := ⟨"target_soc", 4016, .u16⟩

def powerLimitKw : Point := ⟨"power_limit_kw", 4017, .f32⟩

def registerMap : TiledMap where
  points :=
    [⟨"battery_soc", 4000, .f32⟩, ⟨"voltage", 4002, .f32⟩, ⟨"current", 4004, .f32⟩,
      ⟨"power_kw", 4006, .f32⟩, ⟨"temperature", 4008, .f32⟩, ⟨"soh", 4010, .f32⟩,
      ⟨"state", 4012, .u16⟩, cmdMode, powerSetpointKw, targetSoc, powerLimitKw]
  blockLength := 19
  start := 4000

/-- What `_write_control` writes for its arguments, in this order. -/
def controls (mode : Option ℤ) (power : Option Double) (target : Option ℤ)
    (limit : Option Double) : List (Point × Number) :=
  mode.toList.map (fun v => (cmdMode, .int v)) ++
    power.toList.map (fun x => (powerSetpointKw, .float x)) ++
      target.toList.map (fun v => (targetSoc, .int v)) ++
        limit.toList.map fun x => (powerLimitKw, .float x)

/-- `_write_control`. What it raises is caught and reported as FAILED. -/
def writeControl (net : Arrivals) (mode : Option ℤ) (power : Option Double) (target : Option ℤ)
    (limit : Option Double) : Session → Except PyExc Session :=
  writeControls net (controls mode power target limit)

/-- A call of `_write_control` with numbers of 16 bits and floats that can be packed. -/
def Controls (writes : List (Point × Number)) : Prop :=
  ∃ mode power target limit, writes = controls mode power target limit ∧
    (∀ v ∈ mode, 0 ≤ v ∧ v < 65536) ∧ (∀ x ∈ power, ∃ packed, packFloat x = .ok packed) ∧
      (∀ v ∈ target, 0 ≤ v ∧ v < 65536) ∧ ∀ x ∈ limit, ∃ packed, packFloat x = .ok packed

theorem inRange_u16 {v : ℤ} (h : 0 ≤ v ∧ v < 65536) : InRange (.int v) .u16 :=
  ⟨v.toNat, by omega, by rw [Int.toNat_of_nonneg h.1]⟩

theorem inRange_f32 {x : Double} (h : ∃ packed, packFloat x = .ok packed) :
    InRange (.float x) .f32 := by
  obtain ⟨packed, hpacked⟩ := h
  exact ⟨x, packed, rfl, hpacked⟩

theorem mem_points : ∀ p ∈ [cmdMode, powerSetpointKw, targetSoc, powerLimitKw],
    p ∈ registerMap.points ∧ cmdMode.address ≤ p.address := by
  decide

/-- An argument that may be missing writes one point or none. -/
theorem names_sublist {α : Type} (argument : Option α) (p : Point) (value : α → Number) :
    ((argument.toList.map fun v => (p, value v)).map fun control => control.1.name).Sublist
      [p.name] := by
  cases argument with
  | none => exact List.nil_sublist _
  | some v => exact List.Sublist.refl _

theorem controlsFrom : ControlsFrom registerMap Controls cmdMode where
  mem := by decide
  word := rfl
  one := ⟨some 1, none, none, none, rfl, by decide, nofun, nofun, nofun⟩
  points := by
    rintro _ ⟨mode, power, target, limit, rfl, hmode, hpower, htarget, hlimit⟩ control hcontrol
    simp only [controls, List.mem_append, List.mem_map, Option.mem_toList] at hcontrol
    rw [← and_assoc]
    obtain ((⟨v, hv, rfl⟩ | ⟨x, hx, rfl⟩) | ⟨v, hv, rfl⟩) | ⟨x, hx, rfl⟩ := hcontrol
    · exact ⟨mem_points cmdMode (by decide), inRange_u16 (hmode v hv)⟩
    · exact ⟨mem_points powerSetpointKw (by decide), inRange_f32 (hpower x hx)⟩
    · exact ⟨mem_points targetSoc (by decide), inRange_u16 (htarget v hv)⟩
    · exact ⟨mem_points powerLimitKw (by decide), inRange_f32 (hlimit x hx)⟩
  names := by
    rintro _ ⟨mode, power, target, limit, rfl, -⟩
    have hall : [cmdMode.name, powerSetpointKw.name, targetSoc.name, powerLimitKw.name].Nodup := by
      decide
    refine hall.sublist ?_
    rw [controls, List.map_append, List.map_append, List.map_append]
    exact (((names_sublist mode cmdMode _).append (names_sublist power powerSetpointKw _)).append
      (names_sublist target targetSoc _)).append (names_sublist limit powerLimitKw _)

end Battery

namespace Meter

def relayState : Point := ⟨"relay_state", 3014, .u16⟩

def registerMap : TiledMap where
  points :=
    [⟨"voltage", 3000, .f32⟩, ⟨"current", 3002, .f32⟩, ⟨"power_kw", 3004, .f32⟩,
      ⟨"frequency", 3006, .f32⟩, ⟨"power_factor", 3008, .f32⟩,
      ⟨"energy_import_kwh", 3010, .f32⟩, ⟨"energy_export_kwh", 3012, .f32⟩, relayState]
  blockLength := 15
  start := 3000

/-- `_set_relay`. What it raises is caught and reported as FAILED. -/
def setRelay (net : Arrivals) (state : ℤ) : Session → Except PyExc Session :=
  writeControls net [(relayState, .int state)]

/-- A call of `_set_relay` with a number of 16 bits. -/
def Controls (writes : List (Point × Number)) : Prop :=
  ∃ state : ℤ, writes = [(relayState, .int state)] ∧ 0 ≤ state ∧ state < 65536

theorem relayState_mem : relayState ∈ registerMap.points := by decide

theorem controlsFrom : ControlsFrom registerMap Controls relayState where
  mem := relayState_mem
  word := rfl
  one := ⟨1, rfl, by decide, by decide⟩
  points := by
    rintro _ ⟨state, rfl, hstate⟩ control hcontrol
    rw [List.mem_singleton.mp hcontrol]
    exact ⟨relayState_mem, le_rfl, Battery.inRange_u16 hstate⟩
  names := by
    rintro _ ⟨state, rfl, -⟩
    exact List.nodup_singleton _

end Meter

/-- **The bases of the drivers.** The battery's blocks and controls are consistent
exactly for the bases from 4000 to 4013, the meter's for those from 3000 to 3014. -/
theorem consistent_bases (base : ℤ) :
    (Consistent Battery.registerMap.toRegisterMap Battery.Controls base ↔
      4000 ≤ base ∧ base ≤ 4013) ∧
    (Consistent Meter.registerMap.toRegisterMap Meter.Controls base ↔
      3000 ≤ base ∧ base ≤ 3014) :=
  ⟨consistent_iff Battery.controlsFrom, consistent_iff Meter.controlsFrom⟩

/-- With the base 0 no block of the battery is decoded; with the base 4014 the block
is, but a mode that is set is not read back. -/
theorem battery_inconsistent :
    (Battery.registerMap.decodeRegisters (List.replicate 19 0) 0 = .error .indexError) ∧
      ¬Consistent Battery.registerMap.toRegisterMap Battery.Controls 0 ∧
        ¬Consistent Battery.registerMap.toRegisterMap Battery.Controls 4014 := by
  refine ⟨rfl, fun h => ?_, fun h => ?_⟩
  · exact absurd ((consistent_iff Battery.controlsFrom).mp h).1 (by decide)
  · exact absurd ((consistent_iff Battery.controlsFrom).mp h).2 (by decide)

end DiepLab.Drivers
