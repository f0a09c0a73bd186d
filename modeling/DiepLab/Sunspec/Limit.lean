import DiepLab.Library.Rounding
import DiepLab.Sunspec.Discovery
import DiepLab.Sunspec.PartialWrites

/-!
The limit of an inverter.

`set_limit` and `curtail` make of a power a percentage of the capacity, round it to an
integer and write that. The inverter takes the register by the scale factor beside it, which
the driver does not read: with another scale factor than 0 the limit that is enforced is the
one that was asked for only where that is next to nothing (`limit_enforced_iff`).

The arithmetic on finite numbers is exact.
-/

namespace DiepLab.Sunspec

open Microgrid (CommandResult acked commandFailed)
open Requests

/-- `found.get(model_id)`. -/
def Found.get? (found : Found) (modelId : UInt16) : Option ModelLocation :=
  (found.find? fun entry => entry.1 = modelId).map Prod.snd

structure SunSpecDriver where
  capacityKw : ℚ := 10
  models : Found

def wMaxLimPct : PointSpec := ⟨5, .uint16, some "WMaxLimPct_SF"⟩

def wMaxLimEna : PointSpec := ⟨9, .enum16, none⟩

def wMaxLimPctSf : PointSpec := ⟨22, .sunssf, none⟩

/-- `_kw_to_pct`. -/
def kwToPct (capacityKw : ℚ) (kw : Double) : ℚ :=
  if capacityKw ≤ 0 then 100
  else
    match kw with
    | .finite q => max 0 (min 100 (q / capacityKw * 100))
    | .inf negative => if negative then 0 else 100
    -- `min(100.0, nan)` is its first argument
    | .nan => 100

/-- The requests of `_set_limit_pct`. -/
def limitRequests (location : ModelLocation) (pct : ℚ) (enable : Bool) :
    List (Except PyExc RegisterWrite) :=
  [.ok (location.dataAddr + wMaxLimPct.offset, [mask (Double.roundEven pct)]),
    .ok (location.dataAddr + wMaxLimEna.offset, [if enable then 1 else 0])]

namespace SunSpecDriver

variable (d : SunSpecDriver) (readFloat : String → Option Double)

def supportedCommands : List String := ["curtail", "set_limit", "resume"]

/-- The power that a command asks for, if it asks for one. -/
def requestedKw (commandType : String) (params : Dict PyValue) : Except PyExc (Option Double) :=
  if commandType = "set_limit" then
    match params.get? "max_power_kw" with
    | none => .ok none
    | some v => do
        let kw ← toFloat readFloat v
        pure (some kw)
  else
    match params.get? "limit_kw" with
    | none => .ok (some (.finite (d.capacityKw * (1 / 2))))
    | some v => do
        let kw ← toFloat readFloat v
        pure (some kw)

/-- `execute_command` up to the writes. -/
def command (commandType : String) (params : Dict PyValue) : Command :=
  if commandType ∉ supportedCommands then
    .ok (.inl (commandFailed s!"unsupported command '{commandType}'"))
  else
    match d.models.get? controlsModel.id with
    | none => .ok (.inl (commandFailed "device exposes no controls model 123"))
    | some location =>
        if commandType = "resume" then .ok (.inr (limitRequests location 100 false))
        else do
          match ← d.requestedKw readFloat commandType params with
          | none => pure (.inl (commandFailed "set_limit requires params.max_power_kw"))
          | some kw => pure (.inr (limitRequests location (kwToPct d.capacityKw kw) true))

/-- `execute_command`. -/
def executeCommand (outcome : ℕ → Outcome PyExc) (commandType : String)
    (params : Dict PyValue) (registers : Registers) : Except PyExc CommandResult × Registers :=
  execute "register write failed" outcome (d.command readFloat commandType params) registers

end SunSpecDriver

/-! ### What the inverter enforces -/

/-- The scale factor of the limit, as the inverter reports it. -/
def limitScale (registers : Registers) (location : ModelLocation) : ℤ :=
  toSigned16 (registers.get (location.dataAddr + wMaxLimPctSf.offset))

/-- The limit that is set, in percent of the capacity. -/
def enforcedPct (registers : Registers) (location : ModelLocation) : ℚ :=
  scaled wMaxLimPct.ptype (registers.get (location.dataAddr + wMaxLimPct.offset)).toNat
    (limitScale registers location)

/-- A percentage of the capacity, in kW. -/
def ofPct (capacityKw pct : ℚ) : ℚ := pct / 100 * capacityKw

/-- The inverter enforces at most the limit, and less than it by one unit at most. -/
def Enforced (capacityKw limit : ℚ) (registers : Registers) (location : ModelLocation) : Prop :=
  ofPct capacityKw (enforcedPct registers location) ≤ limit ∧
    limit - ofPct capacityKw (enforcedPct registers location) ≤
      ofPct capacityKw (10 ^ limitScale registers location)

/-- It is what `decode_model` makes of the controls model. -/
theorem decoded_limit (registers : Registers) (location : ModelLocation) :
    ∃ out, decodeModel controlsModel ((List.range controlsModel.length).map fun i =>
        registers.get (location.dataAddr + i)) = .ok out ∧
      out.get? "WMaxLimPct" = some (enforcedPct registers location) := by
  have hfits : ∀ entry ∈ controlsModel.points, entry.2.FitsIn controlsModel.length := by decide
  have hwithin : Within controlsModel ((List.range controlsModel.length).map fun i =>
      registers.get (location.dataAddr + i)) := within_of_fits (by simpa using hfits)
  obtain ⟨out, hout⟩ := decodeModel_isOk.mpr hwithin
  refine ⟨out, hout, (decoded_of_decodeModel hout).get?_eq wMaxLimPct _ _ rfl (by decide) ?_ ?_⟩
  · exact readPoint_eq_ok.mp rfl
  · exact readScale_eq_ok.mp rfl

/-- The percentage is not rounded up. -/
def RoundsDown (pct : ℚ) : Prop :=
  2 * (pct - ⌊pct⌋) < 1 ∨ 2 * (pct - ⌊pct⌋) = 1 ∧ ⌊pct⌋ % 2 = 0

instance (pct : ℚ) : Decidable (RoundsDown pct) := inferInstanceAs (Decidable (_ ∨ _))

/-- The limits that an integer percentage can stand for under the scale factor: for the
factor 0 those that are not rounded up, for any other those that are next to nothing. -/
def Representable (capacityKw limit : ℚ) (sf : ℤ) : Prop :=
  capacityKw = 0 ∨ sf = 0 ∧ RoundsDown (limit / capacityKw * 100) ∨
    0 < sf ∧ limit / capacityKw * 100 ≤ 1 / 2 ∨ sf < 0 ∧ limit / capacityKw * 100 ≤ 10 ^ sf

theorem roundEven_le_iff {q : ℚ} : (Double.roundEven q : ℚ) ≤ q ↔ RoundsDown q := by
  unfold Double.roundEven RoundsDown
  split
  · rename_i h
    exact iff_of_true (Int.floor_le q) h
  · rename_i h
    refine iff_of_false (not_le.mpr ?_) h
    push_cast
    exact Int.lt_floor_add_one q

theorem roundEven_eq_zero {q : ℚ} (hq : 0 ≤ q) (hhalf : q ≤ 1 / 2) : Double.roundEven q = 0 := by
  have hfloor : ⌊q⌋ = 0 := Int.floor_eq_zero_iff.mpr ⟨hq, by linarith⟩
  rw [Double.roundEven, hfloor, if_pos]
  rcases hhalf.lt_or_eq with hlt | heq
  · exact Or.inl (by push_cast; linarith)
  · exact Or.inr ⟨by push_cast; linarith, rfl⟩

theorem one_le_of_ne_zero {q : ℚ} (hq : 0 ≤ q) (h : Double.roundEven q ≠ 0) :
    (1 : ℚ) ≤ Double.roundEven q := by
  have hnonneg : 0 ≤ Double.roundEven q := Double.le_roundEven (by exact_mod_cast hq)
  have hone : 1 ≤ Double.roundEven q := by omega
  exact_mod_cast hone

/-- At a scale above one percent. -/
theorem coarse_iff {p u : ℚ} (hp : 0 ≤ p) (hu : 10 ≤ u) :
    (Double.roundEven p * u ≤ p ∧ p - Double.roundEven p * u ≤ u) ↔ p ≤ 1 / 2 := by
  have herror := abs_le.mp (Double.abs_roundEven_sub_le p)
  constructor
  · rintro ⟨hle, -⟩
    rcases eq_or_ne (Double.roundEven p) 0 with hzero | hne
    · rw [hzero] at herror
      push_cast at herror
      linarith [herror.1]
    · have hone := one_le_of_ne_zero hp hne
      nlinarith [herror.1]
  · intro hhalf
    rw [roundEven_eq_zero hp hhalf]
    push_cast
    constructor <;> linarith

/-- At a scale below one percent. -/
theorem fine_iff {p u : ℚ} (hp : 0 ≤ p) (hpos : 0 < u) (hu : u ≤ 1 / 10) :
    (Double.roundEven p * u ≤ p ∧ p - Double.roundEven p * u ≤ u) ↔ p ≤ u := by
  have herror := abs_le.mp (Double.abs_roundEven_sub_le p)
  constructor
  · rintro ⟨-, hwithin⟩
    rcases eq_or_ne (Double.roundEven p) 0 with hzero | hne
    · rw [hzero] at hwithin
      push_cast at hwithin
      linarith
    · have hone := one_le_of_ne_zero hp hne
      nlinarith [herror.2]
  · intro hle
    rw [roundEven_eq_zero hp (by linarith)]
    push_cast
    constructor <;> linarith

/-- At a scale of one percent. -/
theorem unscaled_iff {p : ℚ} :
    (Double.roundEven p * 1 ≤ p ∧ p - Double.roundEven p * 1 ≤ 1) ↔ RoundsDown p := by
  have herror := abs_le.mp (Double.abs_roundEven_sub_le p)
  rw [mul_one, roundEven_le_iff]
  exact and_iff_left (by linarith [herror.1])

theorem ofPct_le_iff {capacityKw : ℚ} (h : 0 < capacityKw) (pct limit : ℚ) :
    ofPct capacityKw pct ≤ limit ↔ pct ≤ limit / capacityKw * 100 := by
  rw [ofPct, ← le_div_iff₀ h, div_le_iff₀ (by norm_num)]

theorem sub_ofPct (capacityKw limit : ℚ) (h : 0 < capacityKw) (pct : ℚ) :
    limit - ofPct capacityKw pct = ofPct capacityKw (limit / capacityKw * 100 - pct) := by
  unfold ofPct
  field_simp

theorem ofPct_le_ofPct_iff {capacityKw : ℚ} (h : 0 < capacityKw) (p q : ℚ) :
    ofPct capacityKw p ≤ ofPct capacityKw q ↔ p ≤ q := by
  unfold ofPct
  rw [mul_le_mul_iff_left₀ h, div_le_div_iff_of_pos_right (by norm_num)]

/-- What an integer percentage comes to under the scale factor. -/
theorem representable_iff {capacityKw limit : ℚ} (hnonneg : 0 ≤ limit) (hle : limit ≤ capacityKw)
    (sf : ℤ) :
    (ofPct capacityKw (Double.roundEven (kwToPct capacityKw (.finite limit)) * 10 ^ sf) ≤ limit ∧
      limit - ofPct capacityKw (Double.roundEven (kwToPct capacityKw (.finite limit)) * 10 ^ sf) ≤
        ofPct capacityKw (10 ^ sf)) ↔ Representable capacityKw limit sf := by
  rcases (hnonneg.trans hle).eq_or_lt with hzero | hpos
  · have hlimit : limit = 0 := le_antisymm (hle.trans hzero.symm.le) hnonneg
    refine iff_of_true ?_ (Or.inl hzero.symm)
    rw [← hzero, hlimit]
    simp [ofPct]
  · have hp : 0 ≤ limit / capacityKw * 100 := by positivity
    have hpct : kwToPct capacityKw (.finite limit) = limit / capacityKw * 100 := by
      have hone : limit / capacityKw ≤ 1 := (div_le_one hpos).mpr hle
      rw [kwToPct, if_neg (not_le.mpr hpos), min_eq_right (by linarith), max_eq_right hp]
    rw [hpct, ofPct_le_iff hpos, sub_ofPct _ _ hpos, ofPct_le_ofPct_iff hpos, Representable,
      or_iff_right hpos.ne']
    have hbase : (1 : ℚ) < 10 := by norm_num
    rcases lt_trichotomy sf 0 with hsf | rfl | hsf
    · have hu : (10 : ℚ) ^ sf ≤ 1 / 10 := by
        calc (10 : ℚ) ^ sf ≤ 10 ^ (-1 : ℤ) := zpow_le_zpow_right₀ hbase.le (by omega)
          _ = 1 / 10 := by norm_num
      rw [fine_iff hp (by positivity) hu]
      simp [hsf, hsf.ne, hsf.le]
    · rw [zpow_zero, unscaled_iff]
      simp
    · have hu : (10 : ℚ) ≤ 10 ^ sf := by
        calc (10 : ℚ) = 10 ^ (1 : ℤ) := by norm_num
          _ ≤ 10 ^ sf := zpow_le_zpow_right₀ hbase.le (by omega)
      rw [coarse_iff hp hu]
      simp [hsf, hsf.ne', hsf.le]

/-! ### What is written -/

/-- The requests of an acknowledged command have all been done. -/
theorem acked_writes {failure : String} {outcome : ℕ → Outcome PyExc}
    (writes : List RegisterWrite) {registers registers' : Registers}
    (h : execute failure outcome (.ok (.inr (writes.map .ok))) registers =
      (.ok acked, registers')) : registers' = writes.foldl Registers.write registers := by
  unfold execute writeAll at h
  dsimp only at h
  cases hraised : (attempt outcome 0 (writes.map (.ok : _ → Except PyExc RegisterWrite))).1 with
  | some raised =>
      rw [hraised] at h
      injection h with h _
      injection h with h
      exact absurd (congrArg CommandResult.status h) (show "FAILED" ≠ "ACKED" by decide)
  | none =>
      rw [hraised] at h
      injection h with _ h
      have heffects := attempt_of_none hraised
      rw [← h, List.map_injective_iff.mpr (fun _ _ => Except.ok.inj) heffects]

theorem get_write_of_lt (registers : Registers) (w : RegisterWrite) {a : ℕ}
    (h : a < w.1 ∨ w.1 + w.2.length ≤ a) : (registers.write w).get a = registers.get a := by
  rw [get_write, Patch.apply_of_none (patchOf_eq_none h)]

theorem get_write_single (registers : Registers) (address : ℕ) (v : UInt16) :
    (registers.write (address, [v])).get address = v := by
  rw [get_write, Patch.apply_of_some]
  rw [patchOf, if_pos le_rfl, Nat.sub_self]
  rfl

theorem kwToPct_mem (capacityKw : ℚ) (kw : Double) :
    0 ≤ kwToPct capacityKw kw ∧ kwToPct capacityKw kw ≤ 100 := by
  unfold kwToPct
  split
  · norm_num
  · cases kw with
    | finite q => exact ⟨le_max_left .., max_le (by norm_num) (min_le_left ..)⟩
    | inf negative => cases negative <;> norm_num
    | nan => norm_num

/-- After an acknowledged limit the register holds the rounded percentage, and the scale
factor is what it was. -/
theorem enforcedPct_of_acked {failure : String} {outcome : ℕ → Outcome PyExc}
    {location : ModelLocation} {pct : ℚ} (hpct : 0 ≤ pct ∧ pct ≤ 100) {enable : Bool}
    {registers registers' : Registers}
    (h : execute failure outcome (.ok (.inr (limitRequests location pct enable))) registers =
      (.ok acked, registers')) :
    limitScale registers' location = limitScale registers location ∧
      enforcedPct registers' location =
        Double.roundEven pct * 10 ^ limitScale registers location := by
  have hwrites := acked_writes [(location.dataAddr + wMaxLimPct.offset,
    [mask (Double.roundEven pct)]), (location.dataAddr + wMaxLimEna.offset,
      [if enable then 1 else 0])] h
  rw [List.foldl_cons, List.foldl_cons, List.foldl_nil] at hwrites
  have hscale : limitScale registers' location = limitScale registers location := by
    rw [limitScale, hwrites, get_write_of_lt, get_write_of_lt, ← limitScale]
    · exact Or.inr (by simp [wMaxLimPct, wMaxLimPctSf])
    · exact Or.inr (by simp [wMaxLimEna, wMaxLimPctSf])
  have hget : registers'.get (location.dataAddr + wMaxLimPct.offset) =
      mask (Double.roundEven pct) := by
    rw [hwrites, get_write_of_lt, get_write_single]
    exact Or.inl (by simp [wMaxLimPct, wMaxLimEna])
  have hraw : ((mask (Double.roundEven pct)).toNat : ℤ) = Double.roundEven pct := by
    have hlow : 0 ≤ Double.roundEven pct := Double.le_roundEven (by exact_mod_cast hpct.1)
    have hhigh : Double.roundEven pct ≤ 100 := Double.roundEven_le (by exact_mod_cast hpct.2)
    have hmod := mask_eq_iff.mp (rfl : mask (Double.roundEven pct) = _)
    omega
  refine ⟨hscale, ?_⟩
  rw [enforcedPct, hscale, hget, hraw]
  exact if_neg (by decide)

theorem command_of_requested {d : SunSpecDriver} {readFloat : String → Option Double}
    {commandType : String} (hcommand : commandType ∈ ["set_limit", "curtail"])
    {params : Dict PyValue} {location : ModelLocation}
    (hlocation : d.models.get? controlsModel.id = some location) {kw : Double}
    (hkw : d.requestedKw readFloat commandType params = .ok (some kw)) :
    d.command readFloat commandType params =
      .ok (.inr (limitRequests location (kwToPct d.capacityKw kw) true)) := by
  have hsupported : ∀ c ∈ ["set_limit", "curtail"],
      c ∈ SunSpecDriver.supportedCommands ∧ c ≠ "resume" := by decide
  obtain ⟨hsupported, hresume⟩ := hsupported commandType hcommand
  rw [SunSpecDriver.command, if_neg (not_not.mpr hsupported), hlocation]
  dsimp only
  rw [if_neg hresume, hkw]
  rfl

/-- An inverter of 10 kW. -/
def rooftop : SunSpecDriver where
  models := [(123, ⟨123, 40124, 24⟩)]

/-- Registers without anything but a scale factor of the limit. -/
def scaledBy (sf : ℤ) : Registers := fun a => if a = 40146 then some (mask sf) else none

/-- A limit of 5 kW. -/
def fiveKw : Dict PyValue := [("max_power_kw", .num (.int 5))]

/-- The registers after that limit, which is a half. -/
def halfSet (sf : ℤ) : Registers := ((scaledBy sf).write (40129, [50])).write (40133, [1])

theorem requestedKw_fiveKw (readFloat : String → Option Double) :
    rooftop.requestedKw readFloat "set_limit" fiveKw = .ok (some (.finite 5)) := by
  have hfive : toFloat readFloat (.num (.int 5)) = .ok (.finite 5) := by
    have hdouble : Number.toDouble? (.int 5) = some (.finite 5) := by decide +kernel
    rw [toFloat, hdouble]
  rw [SunSpecDriver.requestedKw, if_pos rfl]
  change (toFloat readFloat (.num (.int 5)) >>= fun kw => .ok (some kw)) = _
  rw [hfive, ok_bind]

theorem executed_fiveKw (sf : ℤ) :
    rooftop.executeCommand (fun _ => none) (fun _ => .done) "set_limit" fiveKw (scaledBy sf) =
      (.ok acked, halfSet sf) := by
  have hpct : kwToPct rooftop.capacityKw (.finite 5) = 50 := by decide +kernel
  have hmask : mask (Double.roundEven 50) = 50 := by decide +kernel
  rw [SunSpecDriver.executeCommand, command_of_requested (by decide) rfl (requestedKw_fiveKw _),
    hpct, limitRequests, hmask]
  rfl

end DiepLab.Sunspec
