import DiepLab.Drivers.RegisterMaps
import DiepLab.Sunspec.Limit

/-!
What a command that says FAILED has done.

The battery's commands write up to three control points, and the inverter's two, each in a
request of its own. If a later one fails, what the earlier ones wrote stays
(`failed_commands_unchanged_iff`): the first of them may already have changed the mode.
-/

namespace DiepLab.Drivers

open Microgrid (CommandResult acked commandFailed)
open Requests Sunspec

/-- The request that a control comes to. -/
def controlRequest (control : Point × Number) : Except PyExc RegisterWrite := do
  let regs ← encodePoint control.2 control.1.type
  pure (control.1.address, regs)

/-! ### The battery -/

namespace Battery

def supportedCommands : List String :=
  ["charge", "discharge", "standby", "idle", "set_power_limit", "set_soc_target"]

/-- `CMD_STANDBY`. -/
def cmdStandby : ℤ := 0

/-- `CMD_CHARGE`. -/
def cmdCharge : ℤ := 1

/-- `CMD_DISCHARGE`. -/
def cmdDischarge : ℤ := 2

/-- `params.get(k1, params.get(k2, ...))`. -/
def firstGiven (params : Dict PyValue) (keys : List String) : Option PyValue :=
  keys.findSome? params.get?

/-- `int(round(x))`. -/
def pyRound : Double → Except PyExc ℤ
  | .finite q => .ok (Double.roundEven q)
  | .inf _ => .error (.overflowError "cannot convert float infinity to integer")
  | .nan => .error (.valueError "cannot convert float NaN to integer")

/-- The requests of `_write_control`. -/
def controlRequests (mode : Option ℤ) (power : Option Double) (target : Option ℤ)
    (limit : Option Double) : List (Except PyExc RegisterWrite) :=
  (controls mode power target limit).map controlRequest

variable (readFloat : String → Option Double)

/-- `int(round(float(target)))`, where a target is given. -/
def targetArg (target : Option PyValue) : Except PyExc (Option ℤ) :=
  match target.getD .none with
  | .none => .ok none
  | v => do
      let x ← toFloat readFloat v
      let n ← pyRound x
      pure (some n)

/-- `float(power)`, where the default is a float. -/
def powerArg (defaultPowerKw : Double) : Option PyValue → Except PyExc Double
  | none => .ok defaultPowerKw
  | some v => toFloat readFloat v

/-- `execute_command` up to the writes. -/
def command (defaultPowerKw : Double) (commandType : String) (params : Dict PyValue) :
    Sunspec.Command :=
  if commandType ∉ supportedCommands then
    .ok (.inl (commandFailed s!"unsupported command '{commandType}'"))
  else if commandType = "standby" ∨ commandType = "idle" then
    .ok (.inr (controlRequests (some cmdStandby) none none none))
  else if commandType = "set_power_limit" then
    match (firstGiven params ["power_kw", "limit_kw", "max_power_kw"]).getD .none with
    | .none => .ok (.inl (commandFailed "set_power_limit requires params.power_kw"))
    | limit => do
        let x ← toFloat readFloat limit
        pure (.inr (controlRequests none none none (some x)))
  else if commandType = "set_soc_target" then do
    match ← targetArg readFloat (firstGiven params ["soc_target", "target_soc"]) with
    | none => pure (.inl (commandFailed "set_soc_target requires params.soc_target"))
    | some n => pure (.inr (controlRequests none none (some n) none))
  else do
    let mode := if commandType = "charge" then cmdCharge else cmdDischarge
    let power ← powerArg readFloat defaultPowerKw (firstGiven params ["power_kw", "max_power_kw"])
    let target ← targetArg readFloat (firstGiven params ["target_soc", "soc_target"])
    pure (.inr (controlRequests (some mode) (some power) target none))

/-- `execute_command`. -/
def executeCommand (outcome : ℕ → Outcome PyExc) (defaultPowerKw : Double)
    (commandType : String) (params : Dict PyValue) (registers : Registers) :
    Except PyExc CommandResult × Registers :=
  execute "control write failed" outcome (command readFloat defaultPowerKw commandType params)
    registers

end Battery

/-! ### Requests do not meet -/

theorem length_encodePoint {v : Number} {t : PointType} {regs : List UInt16}
    (h : encodePoint v t = .ok regs) : regs.length = t.size := by
  cases t with
  | f32 =>
      rw [encodePoint] at h
      cases hx : v.toDouble? with
      | none =>
          rw [hx] at h
          cases h
      | some x =>
          rw [hx] at h
          obtain ⟨packed, -, h⟩ := bind_eq_ok.mp h
          unfold unpackWords at h
          split at h
          · rename_i hlength
            injection h with h
            rw [← h]
            exact (packWords_words hlength).1
          · cases h
  | u16 =>
      obtain ⟨n, -, h⟩ := bind_eq_ok.mp h
      injection h with h
      rw [← h]
      rfl

/-- Where every request can be made and none fails, the registers are what the client leaves
at its server. -/
theorem writeControls_idle (net : Arrivals) {controls : List (Point × Number)}
    {writes : List RegisterWrite} (hmade : controls.map controlRequest = writes.map .ok)
    (hrange : ∀ w ∈ writes, w.1 + w.2.length ≤ 65536) {s : Session} {registers : Registers}
    (hidle : s.Idle registers) :
    ∃ s', writeControls net controls s = .ok s' ∧
      s'.Idle (writes.foldl Registers.write registers) := by
  induction controls generalizing writes s registers with
  | nil =>
      rw [List.map_nil] at hmade
      rw [List.map_eq_nil_iff.mp hmade.symm]
      exact ⟨s, rfl, hidle⟩
  | cons control controls ih =>
      obtain ⟨w, writes, rfl, hw, hrest⟩ := List.map_eq_cons_iff.mp hmade.symm
      obtain ⟨regs, hregs, hw⟩ := bind_eq_ok.mp hw.symm
      injection hw with hw
      obtain ⟨hfirst, hothers⟩ := List.forall_mem_cons.mp hrange
      have hmask : (regs.map fun reg => (reg.toNat : ℤ)).map mask = regs := by
        rw [List.map_map]
        exact (List.map_congr_left fun v _ => mask_toNat v).trans (List.map_id _)
      rw [← hw] at hfirst ⊢
      obtain ⟨s₁, hwrite, hidle₁⟩ := registers_write net hidle control.1.address
        (regs.map fun reg => (reg.toNat : ℤ)) (by simpa using hfirst)
      rw [hmask] at hidle₁
      obtain ⟨s₂, hcalls, hidle₂⟩ := ih hrest.symm hothers hidle₁
      refine ⟨s₂, ?_, hidle₂⟩
      rw [writeControls, hregs, ok_bind, hwrite]
      exact hcalls

/-- Points of a map that are written in the order of their addresses. -/
def Ascending (points : List Point) : Prop :=
  points.Pairwise fun p q => p.address + p.type.size ≤ q.address

instance (points : List Point) : Decidable (Ascending points) :=
  inferInstanceAs (Decidable (points.Pairwise _))

theorem requestsSeparate_of_ascending {controls : List (Point × Number)}
    (h : Ascending (controls.map Prod.fst)) :
    RequestsSeparate (controls.map controlRequest) := by
  refine List.pairwise_map.mpr ((List.pairwise_map.mp h).imp fun {p q} hpq v w hv hw => ?_)
  obtain ⟨regs, hregs, hv⟩ := bind_eq_ok.mp hv
  obtain ⟨regs', -, hw⟩ := bind_eq_ok.mp hw
  injection hv with hv
  injection hw with hw
  rw [← hv, ← hw]
  refine Or.inl ?_
  rw [length_encodePoint hregs]
  exact hpq

namespace Battery

theorem points_sublist {α : Type} (argument : Option α) (p : Point) (value : α → Number) :
    ((argument.toList.map fun v => (p, value v)).map Prod.fst).Sublist [p] := by
  cases argument with
  | none => exact List.nil_sublist _
  | some v => exact List.Sublist.refl _

theorem ascending_controls (mode : Option ℤ) (power : Option Double) (target : Option ℤ)
    (limit : Option Double) : Ascending ((controls mode power target limit).map Prod.fst) := by
  have hall : Ascending [cmdMode, powerSetpointKw, targetSoc, powerLimitKw] := by decide
  refine hall.sublist ?_
  rw [controls, List.map_append, List.map_append, List.map_append]
  exact (((points_sublist mode cmdMode _).append (points_sublist power powerSetpointKw _)).append
    (points_sublist target targetSoc _)).append (points_sublist limit powerLimitKw _)

theorem separate_controlRequests (mode : Option ℤ) (power : Option Double) (target : Option ℤ)
    (limit : Option Double) : RequestsSeparate (controlRequests mode power target limit) :=
  requestsSeparate_of_ascending (ascending_controls mode power target limit)

theorem separate_of_command {readFloat : String → Option Double} {defaultPowerKw : Double}
    {commandType : String} {params : Dict PyValue} {requests : List (Except PyExc RegisterWrite)}
    (h : command readFloat defaultPowerKw commandType params = .ok (.inr requests)) :
    RequestsSeparate requests := by
  suffices hmade : ∃ mode power target limit, requests = controlRequests mode power target limit by
    obtain ⟨mode, power, target, limit, rfl⟩ := hmade
    exact separate_controlRequests mode power target limit
  unfold command at h
  split at h
  · exact nomatch h
  · split at h
    · injection h with h
      injection h with h
      exact ⟨_, _, _, _, h.symm⟩
    · split at h
      · split at h
        · exact nomatch h
        · obtain ⟨x, -, h⟩ := bind_eq_ok.mp h
          injection h with h
          injection h with h
          exact ⟨_, _, _, _, h.symm⟩
      · split at h
        · obtain ⟨target, -, h⟩ := bind_eq_ok.mp h
          cases target with
          | none => exact nomatch h
          | some n =>
              injection h with h
              injection h with h
              exact ⟨_, _, _, _, h.symm⟩
        · obtain ⟨power, -, h⟩ := bind_eq_ok.mp h
          obtain ⟨target, -, h⟩ := bind_eq_ok.mp h
          injection h with h
          injection h with h
          exact ⟨_, _, _, _, h.symm⟩

end Battery

theorem separate_of_limit {d : SunSpecDriver} {readFloat : String → Option Double}
    {commandType : String} {params : Dict PyValue} {requests : List (Except PyExc RegisterWrite)}
    (h : d.command readFloat commandType params = .ok (.inr requests)) :
    RequestsSeparate requests := by
  have hlimit (location : ModelLocation) (pct : ℚ) (enable : Bool) :
      RequestsSeparate (limitRequests location pct enable) := by
    rw [RequestsSeparate, limitRequests, List.pairwise_pair]
    intro v w hv hw
    injection hv with hv
    injection hw with hw
    rw [← hv, ← hw]
    exact Or.inl (by simp [wMaxLimPct, wMaxLimEna])
  unfold SunSpecDriver.command at h
  split at h
  · cases h
  · split at h
    · cases h
    · split at h
      · injection h with h
        injection h with h
        exact h ▸ hlimit _ _ _
      · obtain ⟨kw, -, h⟩ := bind_eq_ok.mp h
        cases kw with
        | none => cases h
        | some kw =>
            injection h with h
            injection h with h
            exact h ▸ hlimit _ _ _

/-- **Failed commands.** For all registers, commands and outcomes of the requests: a battery
and an inverter that say FAILED have left their registers as they were exactly if no request
failed after one that changed something, nor one that changes something for want of an
answer. -/
theorem failed_commands_unchanged_iff (readFloat : String → Option Double)
    (outcome : ℕ → Outcome PyExc) (commandType : String) (params : Dict PyValue)
    (registers : Registers) :
    (∀ defaultPowerKw, UnchangedIfFailed "control write failed" outcome
        (Battery.command readFloat defaultPowerKw commandType params) registers ↔
      Sunspec.Harmless outcome (Battery.command readFloat defaultPowerKw commandType params)
        registers) ∧
    ∀ d : SunSpecDriver, UnchangedIfFailed "register write failed" outcome
        (d.command readFloat commandType params) registers ↔
      Sunspec.Harmless outcome (d.command readFloat commandType params) registers :=
  ⟨fun _ => failed_unchanged_iff fun _ => Battery.separate_of_command,
    fun _ => failed_unchanged_iff fun _ => separate_of_limit⟩

/-- The first request is done, the second is refused. -/
def secondRefused : ℕ → Outcome PyExc
  | 0 => .done
  | _ => .refused (.ioError "Modbus exception function=0x90 code=4")

/-- A battery on standby whose power setpoint cannot be written: the command says FAILED, and
the mode is that of charging. -/
theorem failed_charge_changes_mode :
    ¬ UnchangedIfFailed "control write failed" secondRefused
      (Battery.command (fun _ => none) (.finite 50) "charge" []) (fun _ => none) := by
  have hmode : encodePoint (.int 1) .u16 = .ok [1] := by decide +kernel
  have hpower : encodePoint (.float (.finite 50)) .f32 = .ok [0x4248, 0] := by decide +kernel
  have hcommand : Battery.command (fun _ => none) (.finite 50) "charge" [] =
      .ok (.inr [.ok (4013, [1]), .ok (4014, [0x4248, 0])]) := by
    change Except.ok (Sum.inr [encodePoint (.int 1) .u16 >>= fun regs => .ok (4013, regs),
      encodePoint (.float (.finite 50)) .f32 >>= fun regs => .ok (4014, regs)]) = _
    rw [hmode, hpower]
    rfl
  intro h
  rw [hcommand] at h
  exact absurd (congrFun (h _ _ rfl rfl) 4013) (by decide)

end DiepLab.Drivers
