import DiepLab.Common
import DiepLab.Sunspec.RoundTrip
import Mathlib.Data.Nat.Bitwise

/-!
The models of a SunSpec device.

A device describes its registers: after a marker each model has a header with its id and
the length of its data, up to an end model. `discover` walks from header to header, so
that its address is always that of the first model that has not been found, whatever the
lengths of those before (`discoverLoop_eq`). In the data of a model a point stands for a
number, which another point of the same data scales by a power of ten (`decodeModel_isOk`,
`decoded_of_decodeModel`).

The arithmetic is exact.
-/

namespace DiepLab.Sunspec

/-! ### Points -/

/-- The type of a point; any other cannot be decoded. -/
inductive PointType where
  | uint16
  | int16
  | acc32
  | sunssf
  | enum16
  | other (name : String)
  deriving DecidableEq, Repr

structure PointSpec where
  offset : ℕ
  ptype : PointType
  scaleFactor : Option String := none
  deriving DecidableEq, Repr

structure ModelDef where
  id : UInt16
  length : ℕ
  points : Dict PointSpec
  names : (points.map Prod.fst).Nodup := by decide

/-- `COMMON_MODEL`. -/
def commonModel : ModelDef where
  id := 1
  length := 66
  points := []

/-- `INVERTER_MODEL_103`. -/
def inverterModel : ModelDef where
  id := 103
  length := 50
  points :=
    [("A", ⟨0, .uint16, some "A_SF"⟩), ("A_SF", ⟨4, .sunssf, none⟩),
      ("PhVphA", ⟨8, .uint16, some "V_SF"⟩), ("V_SF", ⟨11, .sunssf, none⟩),
      ("W", ⟨12, .int16, some "W_SF"⟩), ("W_SF", ⟨13, .sunssf, none⟩),
      ("Hz", ⟨14, .uint16, some "Hz_SF"⟩), ("Hz_SF", ⟨15, .sunssf, none⟩),
      ("WH", ⟨22, .acc32, some "WH_SF"⟩), ("WH_SF", ⟨24, .sunssf, none⟩),
      ("DCW", ⟨29, .int16, some "DCW_SF"⟩), ("DCW_SF", ⟨30, .sunssf, none⟩),
      ("St", ⟨36, .enum16, none⟩)]

/-- `CONTROLS_MODEL_123`. -/
def controlsModel : ModelDef where
  id := 123
  length := 24
  points :=
    [("WMaxLimPct", ⟨5, .uint16, some "WMaxLimPct_SF"⟩), ("WMaxLim_Ena", ⟨9, .enum16, none⟩),
      ("WMaxLimPct_SF", ⟨22, .sunssf, none⟩)]

/-- `_to_signed16`. -/
def toSigned16 (v : UInt16) : ℤ :=
  if v.toNat &&& 0x8000 ≠ 0 then (v.toNat : ℤ) - 0x10000 else v.toNat

/-- `data[i]`. -/
def register (data : List UInt16) (i : ℕ) : Except PyExc UInt16 :=
  match data[i]? with
  | some v => .ok v
  | none => .error .indexError

/-- `_read_point`. -/
def readPoint (data : List UInt16) (spec : PointSpec) : Except PyExc ℤ :=
  match spec.ptype with
  | .uint16 | .enum16 => do
      let v ← register data spec.offset
      pure v.toNat
  | .int16 | .sunssf => do
      let v ← register data spec.offset
      pure (toSigned16 v)
  | .acc32 => do
      let hi ← register data spec.offset
      let lo ← register data (spec.offset + 1)
      pure ((hi.toNat <<< 16 ||| lo.toNat : ℕ) : ℤ)
  | .other name => .error (.valueError s!"unknown point type '{name}'")

/-- `sf`: the scale factor of a point, from the same data. -/
def readScale (points : Dict PointSpec) (data : List UInt16) (spec : PointSpec) :
    Except PyExc ℤ :=
  match spec.scaleFactor.bind points.get? with
  | some factor => readPoint data factor
  | none => .ok 0

/-- `raw * (10.0 ** sf)`, but a number of an enumeration is not scaled. -/
def scaled (ptype : PointType) (raw sf : ℤ) : ℚ :=
  if ptype = .enum16 then raw else raw * 10 ^ sf

def decodePoint (points : Dict PointSpec) (data : List UInt16) (spec : PointSpec) :
    Except PyExc ℚ := do
  let raw ← readPoint data spec
  let sf ← readScale points data spec
  pure (scaled spec.ptype raw sf)

/-- The loop of `decode_model`. -/
def decodePoints (points : Dict PointSpec) (data : List UInt16) :
    Dict PointSpec → Dict ℚ → Except PyExc (Dict ℚ)
  | [], out => .ok out
  | (name, spec) :: rest, out =>
      -- scale factors are applied, not reported
      if spec.ptype = .sunssf then decodePoints points data rest out
      else do
        let value ← decodePoint points data spec
        decodePoints points data rest (out.set name value)

/-- `decode_model`. -/
def decodeModel (model : ModelDef) (data : List UInt16) : Except PyExc (Dict ℚ) :=
  decodePoints model.points data model.points []

/-! ### What is stored -/

/-- The registers of a point hold a number: the low words of its two's complement. -/
def Stored (data : List UInt16) (spec : PointSpec) (raw : ℤ) : Prop :=
  match spec.ptype with
  | .uint16 | .enum16 => (0 ≤ raw ∧ raw < 65536) ∧ data[spec.offset]? = some (mask raw)
  | .int16 | .sunssf => (-32768 ≤ raw ∧ raw < 32768) ∧ data[spec.offset]? = some (mask raw)
  | .acc32 => (0 ≤ raw ∧ raw < 4294967296) ∧
      data[spec.offset]? = some (mask (raw / 65536)) ∧
        data[spec.offset + 1]? = some (mask raw)
  | .other _ => False

/-- The data hold the scale factor of a point; without one it is 0. -/
def ScaleStored (points : Dict PointSpec) (data : List UInt16) (spec : PointSpec) (sf : ℤ) :
    Prop :=
  match spec.scaleFactor.bind points.get? with
  | some factor => Stored data factor sf
  | none => sf = 0

theorem mask_eq_iff {raw : ℤ} {v : UInt16} : mask raw = v ↔ raw % 65536 = v.toNat := by
  have hlt := v.toNat_lt
  have hmod := Int.emod_nonneg raw (b := 65536) (by decide)
  have hmod' := Int.emod_lt_of_pos raw (b := 65536) (by decide)
  rw [mask, ← UInt16.toNat_inj, UInt16.toNat_ofNat', Nat.mod_eq_of_lt (by omega)]
  omega

theorem toSigned16_eq_iff {v : UInt16} {raw : ℤ} :
    toSigned16 v = raw ↔ (-32768 ≤ raw ∧ raw < 32768) ∧ mask raw = v := by
  have hlt := v.toNat_lt
  -- the highest bit says that the number is negative
  have hbit : v.toNat &&& 0x8000 ≠ 0 ↔ 32768 ≤ v.toNat := by
    rw [show (0x8000 : ℕ) = 2 ^ 15 from rfl, Nat.and_two_pow, Nat.testBit_eq_decide_div_mod_eq]
    by_cases h : 32768 ≤ v.toNat
    · have hdiv : v.toNat / 32768 % 2 = 1 := by omega
      simp [hdiv, h]
    · have hdiv : v.toNat / 32768 % 2 = 0 := by omega
      simp [hdiv, h]
  rw [mask_eq_iff, toSigned16]
  split
  · rename_i h
    have := hbit.mp h
    omega
  · rename_i h
    have := mt hbit.mpr h
    omega

theorem register_eq_ok {data : List UInt16} {i : ℕ} {v : UInt16} :
    register data i = .ok v ↔ data[i]? = some v := by
  unfold register
  cases data[i]? <;> simp

theorem bind_register_eq_ok {α : Type} {data : List UInt16} {i : ℕ}
    {f : UInt16 → Except PyExc α} {a : α} :
    register data i >>= f = .ok a ↔ ∃ v, data[i]? = some v ∧ f v = .ok a :=
  bind_eq_ok.trans (exists_congr fun _ => and_congr_left' register_eq_ok)

/-- What is read of a point is what its registers hold. -/
theorem readPoint_eq_ok {data : List UInt16} {spec : PointSpec} {raw : ℤ} :
    readPoint data spec = .ok raw ↔ Stored data spec raw := by
  have hunsigned : (register data spec.offset >>= fun v => .ok (v.toNat : ℤ)) = .ok raw ↔
      (0 ≤ raw ∧ raw < 65536) ∧ data[spec.offset]? = some (mask raw) := by
    rw [bind_register_eq_ok]
    constructor
    · rintro ⟨v, hv, h⟩
      injection h with h
      have hlt := v.toNat_lt
      refine ⟨by omega, hv.trans (congrArg some (mask_eq_iff.mpr ?_).symm)⟩
      omega
    · rintro ⟨hraw, hv⟩
      have hmask := mask_eq_iff.mp (rfl : mask raw = mask raw)
      exact ⟨_, hv, congrArg Except.ok (by omega)⟩
  have hsigned : (register data spec.offset >>= fun v => .ok (toSigned16 v)) = .ok raw ↔
      (-32768 ≤ raw ∧ raw < 32768) ∧ data[spec.offset]? = some (mask raw) := by
    rw [bind_register_eq_ok]
    constructor
    · rintro ⟨v, hv, h⟩
      injection h with h
      obtain ⟨hraw, hmask⟩ := toSigned16_eq_iff.mp h
      exact ⟨hraw, hmask ▸ hv⟩
    · rintro ⟨hraw, hv⟩
      exact ⟨_, hv, congrArg Except.ok (toSigned16_eq_iff.mpr ⟨hraw, rfl⟩)⟩
  unfold readPoint Stored
  cases spec.ptype with
  | uint16 => exact hunsigned
  | enum16 => exact hunsigned
  | int16 => exact hsigned
  | sunssf => exact hsigned
  | other name => exact iff_of_false nofun id
  | acc32 =>
      dsimp only
      rw [bind_register_eq_ok]
      simp only [bind_register_eq_ok]
      constructor
      · rintro ⟨hi, hhi, lo, hlo, h⟩
        injection h with h
        have hhilt := hi.toNat_lt
        have hlolt := lo.toNat_lt
        rw [← Nat.shiftLeft_add_eq_or_of_lt hlolt, Nat.shiftLeft_eq] at h
        push_cast at h
        refine ⟨by omega, hhi.trans (congrArg some (mask_eq_iff.mpr ?_).symm),
          hlo.trans (congrArg some (mask_eq_iff.mpr ?_).symm)⟩ <;> omega
      · rintro ⟨hraw, hhi, hlo⟩
        have hmask := mask_eq_iff.mp (rfl : mask raw = mask raw)
        have hmask' := mask_eq_iff.mp (rfl : mask (raw / 65536) = mask (raw / 65536))
        refine ⟨_, hhi, _, hlo, congrArg Except.ok ?_⟩
        rw [← Nat.shiftLeft_add_eq_or_of_lt (mask raw).toNat_lt, Nat.shiftLeft_eq]
        push_cast
        omega

theorem readScale_eq_ok {points : Dict PointSpec} {data : List UInt16} {spec : PointSpec}
    {sf : ℤ} : readScale points data spec = .ok sf ↔ ScaleStored points data spec sf := by
  unfold readScale ScaleStored
  cases spec.scaleFactor.bind points.get? with
  | some factor => exact readPoint_eq_ok
  | none => exact ⟨fun h => (Except.ok.inj h).symm, fun h => congrArg Except.ok h.symm⟩

theorem decodePoint_eq_ok {points : Dict PointSpec} {data : List UInt16} {spec : PointSpec}
    {value : ℚ} : decodePoint points data spec = .ok value ↔
      ∃ raw sf, Stored data spec raw ∧ ScaleStored points data spec sf ∧
        value = scaled spec.ptype raw sf := by
  rw [decodePoint, bind_eq_ok]
  refine exists_congr fun raw => ?_
  rw [readPoint_eq_ok, bind_eq_ok, ← exists_and_left]
  refine exists_congr fun sf => and_congr_right fun _ => ?_
  rw [readScale_eq_ok]
  exact and_congr_right fun _ => ⟨fun h => (Except.ok.inj h).symm, fun h => congrArg _ h.symm⟩

/-! ### What is decoded -/

/-- All points of a model and their scale factors lie in the data. -/
def Within (model : ModelDef) (data : List UInt16) : Prop :=
  ∀ name spec, (name, spec) ∈ model.points → spec.ptype ≠ .sunssf →
    (∃ raw, Stored data spec raw) ∧ ∃ sf, ScaleStored model.points data spec sf

/-- What `decode_model` returns: the points other than scale factors, each by the scale
factor that is stored in the same data. -/
structure Decoded (model : ModelDef) (data : List UInt16) (out : Dict ℚ) : Prop where
  emitted : ∀ name spec, model.points.get? name = some spec → spec.ptype ≠ .sunssf →
    ∃ raw sf, Stored data spec raw ∧ ScaleStored model.points data spec sf ∧
      out.get? name = some (scaled spec.ptype raw sf)
  only : ∀ name value, out.get? name = some value →
    ∃ spec, model.points.get? name = some spec ∧ spec.ptype ≠ .sunssf

theorem decodePoints_isOk {points : Dict PointSpec} {data : List UInt16}
    {rest : Dict PointSpec} {out : Dict ℚ} :
    (∃ out', decodePoints points data rest out = .ok out') ↔
      ∀ name spec, (name, spec) ∈ rest → spec.ptype ≠ .sunssf →
        ∃ value, decodePoint points data spec = .ok value := by
  induction rest generalizing out with
  | nil => exact iff_of_true ⟨out, rfl⟩ nofun
  | cons entry rest ih =>
      obtain ⟨name, spec⟩ := entry
      have hsplit : (∀ name' spec', (name', spec') ∈ (name, spec) :: rest →
            spec'.ptype ≠ .sunssf → ∃ value, decodePoint points data spec' = .ok value) ↔
          (spec.ptype ≠ .sunssf → ∃ value, decodePoint points data spec = .ok value) ∧
            ∀ name' spec', (name', spec') ∈ rest → spec'.ptype ≠ .sunssf →
              ∃ value, decodePoint points data spec' = .ok value := by
        simp only [List.mem_cons, Prod.mk.injEq]
        constructor
        · intro h
          exact ⟨h name spec (Or.inl ⟨rfl, rfl⟩), fun name' spec' hmem =>
            h name' spec' (Or.inr hmem)⟩
        · rintro ⟨hfirst, hrest⟩ name' spec' (⟨rfl, rfl⟩ | hmem)
          · exact hfirst
          · exact hrest name' spec' hmem
      rw [hsplit, decodePoints]
      split
      · rename_i hfactor
        rw [ih]
        exact (and_iff_right fun h => absurd hfactor h).symm
      · rename_i hfactor
        rw [forall_prop_of_true hfactor]
        exact exists_bind fun value _ => ih

theorem get?_decodePoints {points : Dict PointSpec} {data : List UInt16}
    {rest : Dict PointSpec} (hnames : (rest.map Prod.fst).Nodup) {out out' : Dict ℚ}
    (h : decodePoints points data rest out = .ok out') (name : String) :
    out'.get? name =
      match (rest.get? name).filter fun spec => spec.ptype ≠ .sunssf with
      | some spec => (decodePoint points data spec).toOption
      | none => out.get? name := by
  induction rest generalizing out with
  | nil =>
      injection h with h
      rw [h]
      rfl
  | cons entry rest ih =>
      obtain ⟨name', spec⟩ := entry
      obtain ⟨hfresh, hnames⟩ := List.nodup_cons.mp hnames
      rw [decodePoints] at h
      rw [Dict.get?_cons]
      split at h
      · rename_i hfactor
        rw [ih hnames h]
        by_cases hname : name' = name
        · subst hname
          rw [Dict.get?_eq_none hfresh]
          simp [Option.filter_some, hfactor]
        · rw [if_neg hname]
      · rename_i hfactor
        obtain ⟨value, hvalue, h⟩ := bind_eq_ok.mp h
        rw [ih hnames h, Dict.get?_set]
        by_cases hname : name' = name
        · subst hname
          rw [Dict.get?_eq_none hfresh]
          simp [Option.filter_some, hfactor, hvalue, Except.toOption]
        · rw [if_neg hname, if_neg hname]

theorem decodeModel_isOk {model : ModelDef} {data : List UInt16} :
    (∃ out, decodeModel model data = .ok out) ↔ Within model data := by
  rw [decodeModel, decodePoints_isOk, Within]
  refine forall₂_congr fun name spec => forall₂_congr fun _ _ => ?_
  simp only [decodePoint_eq_ok]
  constructor
  · rintro ⟨value, raw, sf, hraw, hsf, -⟩
    exact ⟨⟨raw, hraw⟩, sf, hsf⟩
  · rintro ⟨⟨raw, hraw⟩, sf, hsf⟩
    exact ⟨_, raw, sf, hraw, hsf, rfl⟩

theorem decoded_of_decodeModel {model : ModelDef} {data : List UInt16} {out : Dict ℚ}
    (h : decodeModel model data = .ok out) : Decoded model data out where
  emitted name spec hspec hscaled := by
    obtain ⟨value, hvalue⟩ :=
      decodePoints_isOk.mp ⟨out, h⟩ name spec (Dict.mem_of_get? hspec) hscaled
    obtain ⟨raw, sf, hraw, hsf, heq⟩ := decodePoint_eq_ok.mp hvalue
    refine ⟨raw, sf, hraw, hsf, ?_⟩
    rw [get?_decodePoints model.names h, hspec]
    simp [Option.filter_some, hscaled, hvalue, heq, Except.toOption]
  only name value hvalue := by
    rw [get?_decodePoints model.names h] at hvalue
    split at hvalue
    · rename_i spec hfilter
      obtain ⟨hspec, hscaled⟩ := Option.filter_eq_some_iff.mp hfilter
      exact ⟨spec, hspec, by simpa using hscaled⟩
    · exact nomatch hvalue

/-- The registers of a point, if it can be decoded. -/
def PointType.size : PointType → Option ℕ
  | .acc32 => some 2
  | .other _ => none
  | _ => some 1

def PointSpec.FitsIn (spec : PointSpec) (length : ℕ) : Prop :=
  ∃ size ∈ spec.ptype.size, spec.offset + size ≤ length

instance (spec : PointSpec) (length : ℕ) : Decidable (spec.FitsIn length) :=
  match h : spec.ptype.size with
  | some size => decidable_of_iff (spec.offset + size ≤ length) (by simp [PointSpec.FitsIn, h])
  | none => isFalse (by simp [PointSpec.FitsIn, h])

theorem register_of_lt (data : List UInt16) {i : ℕ} (h : i < data.length) :
    ∃ v, register data i = .ok v :=
  ⟨data[i], register_eq_ok.mpr (List.getElem?_eq_getElem h)⟩

theorem exists_stored {data : List UInt16} {spec : PointSpec} (h : spec.FitsIn data.length) :
    ∃ raw, Stored data spec raw := by
  obtain ⟨size, hsize, hfits⟩ := h
  simp only [← readPoint_eq_ok]
  unfold PointType.size at hsize
  unfold readPoint
  cases htype : spec.ptype with
  | other name =>
      rw [htype] at hsize
      exact nomatch hsize
  | acc32 =>
      rw [htype] at hsize
      injection hsize with hsize
      obtain ⟨hi, hhi⟩ := register_of_lt data (i := spec.offset) (by omega)
      obtain ⟨lo, hlo⟩ := register_of_lt data (i := spec.offset + 1) (by omega)
      exact ⟨_, by rw [hhi, ok_bind, hlo]; rfl⟩
  | _ =>
      rw [htype] at hsize
      injection hsize with hsize
      obtain ⟨v, hv⟩ := register_of_lt data (i := spec.offset) (by omega)
      exact ⟨_, by rw [hv]; rfl⟩

/-- A model whose points all fit is decoded. -/
theorem within_of_fits {model : ModelDef} {data : List UInt16}
    (h : ∀ entry ∈ model.points, entry.2.FitsIn data.length) : Within model data := by
  intro name spec hmem _
  refine ⟨exists_stored (h _ hmem), ?_⟩
  unfold ScaleStored
  cases hfactor : spec.scaleFactor.bind model.points.get? with
  | none => exact ⟨0, rfl⟩
  | some factor =>
      obtain ⟨name', -, hget⟩ := Option.bind_eq_some_iff.mp hfactor
      exact exists_stored (h _ (Dict.mem_of_get? hget))

/-! ### Discovery -/

/-- `SUNS_MARKER`. -/
def sunsMarker : List UInt16 := [0x5375, 0x6E53]

/-- `END_MODEL_ID`. -/
def endModelId : UInt16 := 0xFFFF

structure ModelLocation where
  modelId : UInt16
  dataAddr : ℕ
  length : ℕ
  deriving DecidableEq, Repr

/-- The dictionary of the models that have been found. -/
abbrev Found := List (UInt16 × ModelLocation)

/-- `found[model_id] = location`. -/
def Found.set (found : Found) (modelId : UInt16) (location : ModelLocation) : Found :=
  if modelId ∈ found.map Prod.fst then
    found.map fun entry => if entry.1 = modelId then (modelId, location) else entry
  else found ++ [(modelId, location)]

section Discover

variable {σ : Type} (read : ℕ → ℕ → σ → Except PyExc (List UInt16 × σ))

/-- The loop of `discover`, over so many models. -/
def discoverLoop : ℕ → ℕ → Found → σ → Except PyExc (Found × σ)
  | 0, _, found, s => .ok (found, s)
  | models + 1, addr, found, s => do
      let (header, s) ← read addr 2 s
      match header with
      | modelId :: length :: _ =>
          if modelId = endModelId then pure (found, s)
          else
            discoverLoop models (addr + (2 + length.toNat))
              (found.set modelId ⟨modelId, addr + 2, length.toNat⟩) s
      | _ => .error .indexError

/-- `discover`; `read` is its `read_holding`. -/
def discover (base maxModels : ℕ) (s : σ) : Except PyExc (Found × σ) := do
  let (marker, s) ← read base 2 s
  if marker.take 2 ≠ sunsMarker then
    .error (.valueError
      s!"SunSpec marker not found at {base} (got {marker.take 2}); not a SunSpec device")
  else discoverLoop read maxModels (base + 2) [] s

end Discover

/-! ### The layout -/

/-- A model as a device has it. Id and length of the data are registers of their own. -/
structure DeviceModel where
  id : UInt16
  data : List UInt16
  id_ne : id ≠ endModelId := by decide
  length_lt : data.length < 65536 := by decide

/-- A header and its data. -/
def DeviceModel.registers (m : DeviceModel) : List UInt16 :=
  m.id :: UInt16.ofNat m.data.length :: m.data

theorem length_registers (m : DeviceModel) : m.registers.length = 2 + m.data.length := by
  rw [DeviceModel.registers, List.length_cons, List.length_cons]
  omega

def endModel : List UInt16 := [endModelId, 0]

/-- The registers of a device, from the marker to the end model. -/
def image (models : List DeviceModel) : List UInt16 :=
  sunsMarker ++ models.flatMap DeviceModel.registers ++ endModel

/-- The locations of models whose first header is at `addr`. -/
def locations : ℕ → List DeviceModel → Found
  | _, [] => []
  | addr, m :: models =>
      (m.id, ⟨m.id, addr + 2, m.data.length⟩) ::
        locations (addr + (2 + m.data.length)) models

section Served

variable {σ : Type} (read : ℕ → ℕ → σ → Except PyExc (List UInt16 × σ))

/-- In the states `I` a call reads these registers at their addresses, whatever part of them
it asks for. -/
def Serves (I : σ → Prop) (base : ℕ) (registers : List UInt16) : Prop :=
  ∀ before part after, registers = before ++ part ++ after → ∀ s, I s →
    ∃ s', read (base + before.length) part.length s = .ok (part, s') ∧ I s'

variable {read} {I : σ → Prop} {base : ℕ}

theorem Found.set_of_not_mem {found : Found} {modelId : UInt16} (h : modelId ∉ found.map Prod.fst)
    (location : ModelLocation) : found.set modelId location = found ++ [(modelId, location)] :=
  if_neg h

theorem map_fst_locations (addr : ℕ) (models : List DeviceModel) :
    (locations addr models).map Prod.fst = models.map DeviceModel.id := by
  induction models generalizing addr with
  | nil => rfl
  | cons m models ih => rw [locations, List.map_cons, List.map_cons, ih]

/-- A location is where the registers before it end. -/
theorem mem_locations (addr : ℕ) (before : List DeviceModel) (m : DeviceModel)
    (after : List DeviceModel) :
    (m.id, ⟨m.id, addr + (before.flatMap DeviceModel.registers).length + 2, m.data.length⟩) ∈
      locations addr (before ++ m :: after) := by
  induction before generalizing addr with
  | nil => exact List.mem_cons_self
  | cons m' before ih =>
      have hmem := ih (addr + (2 + m'.data.length))
      rw [Nat.add_assoc addr] at hmem
      rw [List.cons_append, locations, List.flatMap_cons, List.length_append, length_registers]
      exact List.mem_cons_of_mem _ hmem

/-- The walk from a header on: the address is that of the next model, and what has been found
is what comes before. -/
theorem discoverLoop_eq {before : List UInt16} {models : List DeviceModel}
    (hserves : Serves read I base (before ++ models.flatMap DeviceModel.registers ++ endModel))
    {found : Found} (hids : (found.map Prod.fst ++ models.map DeviceModel.id).Nodup)
    {maxModels : ℕ} (hcount : models.length ≤ maxModels) {s : σ} (hs : I s) :
    ∃ s', discoverLoop read maxModels (base + before.length) found s =
        .ok (found ++ locations (base + before.length) models, s') ∧ I s' := by
  induction models generalizing before found maxModels s with
  | nil =>
      cases maxModels with
      | zero => exact ⟨s, by rw [discoverLoop, locations, List.append_nil], hs⟩
      | succ maxModels =>
          obtain ⟨s', hread, hs'⟩ := hserves before endModel [] (by simp) s hs
          refine ⟨s', ?_, hs'⟩
          rw [discoverLoop, locations, List.append_nil]
          change read (base + before.length) endModel.length s >>= _ = _
          rw [hread]
          rfl
  | cons m models ih =>
      obtain ⟨maxModels, rfl⟩ := Nat.exists_eq_succ_of_ne_zero
        (Nat.ne_of_gt (Nat.lt_of_lt_of_le (Nat.zero_lt_succ _) hcount))
      obtain ⟨s₁, hread, hs₁⟩ := hserves before [m.id, UInt16.ofNat m.data.length]
        (m.data ++ models.flatMap DeviceModel.registers ++ endModel)
        (by simp [DeviceModel.registers]) s hs
      have hlength : (UInt16.ofNat m.data.length).toNat = m.data.length := by
        rw [UInt16.toNat_ofNat', Nat.mod_eq_of_lt m.length_lt]
      have hfresh : m.id ∉ found.map Prod.fst := fun hmem =>
        (List.nodup_append.mp hids).2.2 m.id hmem m.id List.mem_cons_self rfl
      have hnext : base + (before ++ m.registers).length =
          base + before.length + (2 + m.data.length) := by
        rw [List.length_append, length_registers, Nat.add_assoc]
      have hserves' : Serves read I base ((before ++ m.registers) ++
          models.flatMap DeviceModel.registers ++ endModel) := by
        simpa [List.append_assoc] using hserves
      have hids' :
          ((found ++ [(m.id,
              (⟨m.id, base + before.length + 2, m.data.length⟩ : ModelLocation))]).map Prod.fst ++
            models.map DeviceModel.id).Nodup := by
        simpa [List.append_assoc] using hids
      obtain ⟨s', hloop, hs'⟩ := ih hserves' hids' (Nat.le_of_succ_le_succ hcount) hs₁
      refine ⟨s', ?_, hs'⟩
      rw [hnext] at hloop
      rw [discoverLoop]
      change read (base + before.length) [m.id, UInt16.ofNat m.data.length].length s >>= _ = _
      rw [hread, ok_bind]
      dsimp only
      rw [if_neg m.id_ne, hlength, Found.set_of_not_mem hfresh, hloop, locations,
        List.append_assoc, List.singleton_append]

end Served

/-- A client reads what its server holds. -/
theorem serves_setFrom (net : Arrivals) (registers : Registers) {base : ℕ} {part : List UInt16}
    (h : base + part.length ≤ 65536) :
    Serves (readHolding net) (Session.Idle · (registers.setFrom base part)) base part := by
  rintro before wanted after rfl s hs
  have hrange : base + before.length + wanted.length ≤ 65536 := by
    simp only [List.length_append] at h
    omega
  obtain ⟨s', hread, hs'⟩ := registers_read net hs _ _ hrange
  refine ⟨s', ?_, hs'⟩
  have hget (i : ℕ) (hi : i < wanted.length) :
      (registers.setFrom base (before ++ wanted ++ after)).get (base + before.length + i) =
        wanted[i] := by
    have hsub : base + before.length + i - base = before.length + i := by omega
    rw [Registers.get, Registers.setFrom_apply, if_pos (by omega), hsub, List.append_assoc,
      List.getElem?_append_right (by omega), Nat.add_sub_cancel_left,
      List.getElem?_append_left hi, List.getElem?_eq_getElem hi]
    rfl
  rw [hread]
  congr 2
  exact List.ext_getElem (by simp) fun i hi hi' => by
    rw [List.getElem_map, List.getElem_range, hget i hi']

/-! ### The simulator -/

/-- `_pad_model`. -/
def padModel (length : ℕ) (data : List (ℕ × ℤ)) : List UInt16 :=
  data.foldl (fun block entry => block.set entry.1 (mask entry.2)) (List.replicate length 0)

theorem length_padModel (length : ℕ) (data : List (ℕ × ℤ)) :
    (padModel length data).length = length := by
  have hkept (block : List UInt16) :
      (data.foldl (fun block entry => block.set entry.1 (mask entry.2)) block).length =
        block.length := by
    induction data generalizing block with
    | nil => rfl
    | cons entry data ih => rw [List.foldl_cons, ih, List.length_set]
  rw [padModel, hkept, List.length_replicate]

/-- A register is what has been put there last, or zero. -/
theorem getElem?_padModel (length : ℕ) {i : ℕ} (hi : i < length) (data : List (ℕ × ℤ)) :
    (padModel length data)[i]? =
      some (((data.filter fun entry => entry.1 = i).getLast?.map fun entry => mask entry.2).getD
        0) := by
  have hfold (block : List UInt16) (hblock : i < block.length) :
      (data.foldl (fun block entry => block.set entry.1 (mask entry.2)) block)[i]? =
        some (((data.filter fun entry => entry.1 = i).getLast?.map fun entry =>
          mask entry.2).getD block[i]) := by
    induction data generalizing block with
    | nil => exact List.getElem?_eq_getElem hblock
    | cons entry data ih =>
        rw [List.foldl_cons, ih _ (by rwa [List.length_set]), List.filter_cons, List.getElem_set]
        by_cases hentry : entry.1 = i
        · rw [if_pos hentry, if_pos (decide_eq_true hentry), List.getLast?_cons]
          cases (data.filter fun entry => entry.1 = i).getLast? <;> rfl
        · rw [if_neg hentry, if_neg (by simpa using hentry)]
  rw [padModel, hfold _ (by rwa [List.length_replicate]), List.getElem_replicate]

theorem getElem?_padModel_of_mem {length i : ℕ} {v : ℤ} {data : List (ℕ × ℤ)}
    (hnodup : (data.map Prod.fst).Nodup) (hmem : (i, v) ∈ data) (hi : i < length) :
    (padModel length data)[i]? = some (mask v) := by
  have hput : (i, v) ∈ data.filter fun entry => entry.1 = i :=
    List.mem_filter.mpr ⟨hmem, decide_eq_true rfl⟩
  have hne := List.ne_nil_of_mem hput
  obtain ⟨hentry, hsame⟩ := List.mem_filter.mp (List.getLast_mem hne)
  have hlast : (data.filter fun entry => entry.1 = i).getLast hne = (i, v) :=
    List.inj_on_of_nodup_map hnodup hentry hmem (of_decide_eq_true hsame)
  rw [getElem?_padModel length hi, List.getLast?_eq_some_getLast hne, hlast]
  rfl

/-- The arguments of `build_image`. -/
structure SimulatedPv where
  acW : ℤ
  dcW : ℤ
  voltageV : ℚ
  currentA : ℚ
  hz : ℚ
  state : ℤ
  wmaxlimpct : ℚ := 100
  wmaxlimEna : ℤ := 0

namespace SimulatedPv

variable (pv : SimulatedPv)

def common : DeviceModel where
  id := commonModel.id
  data := padModel commonModel.length [(0, 0x4449), (1, 0x4550)]

def inverter : DeviceModel where
  id := inverterModel.id
  data := padModel inverterModel.length
    [(0, Double.roundEven (pv.currentA * 100)), (4, -2),
      (8, Double.roundEven (pv.voltageV * 10)), (11, -1), (12, pv.acW), (13, 0),
      (14, Double.roundEven (pv.hz * 100)), (15, -2), (24, 0), (29, pv.dcW), (30, 0),
      (36, pv.state)]
  length_lt := by
    rw [length_padModel]
    decide

def controls : DeviceModel where
  id := controlsModel.id
  data := padModel controlsModel.length
    [(5, Double.roundEven pv.wmaxlimpct), (9, pv.wmaxlimEna), (22, 0)]
  length_lt := by
    rw [length_padModel]
    decide

/-- `build_image`. -/
def buildImage : List UInt16 := image [common, pv.inverter, pv.controls]

/-- The numbers fit into their registers. -/
structure InRange : Prop where
  acW : -32768 ≤ pv.acW ∧ pv.acW < 32768
  dcW : -32768 ≤ pv.dcW ∧ pv.dcW < 32768
  voltageV : 0 ≤ Double.roundEven (pv.voltageV * 10) ∧ Double.roundEven (pv.voltageV * 10) < 65536
  currentA : 0 ≤ Double.roundEven (pv.currentA * 100) ∧
    Double.roundEven (pv.currentA * 100) < 65536
  hz : 0 ≤ Double.roundEven (pv.hz * 100) ∧ Double.roundEven (pv.hz * 100) < 65536
  state : 0 ≤ pv.state ∧ pv.state < 65536

end SimulatedPv

/-- What is stored, is what is decoded. -/
theorem Decoded.get?_eq {model : ModelDef} {data : List UInt16} {out : Dict ℚ}
    (h : Decoded model data out) {name : String} (spec : PointSpec) (raw sf : ℤ)
    (hspec : model.points.get? name = some spec) (hscaled : spec.ptype ≠ .sunssf)
    (hraw : Stored data spec raw) (hsf : ScaleStored model.points data spec sf) :
    out.get? name = some (scaled spec.ptype raw sf) := by
  obtain ⟨raw', sf', hraw', hsf', hget⟩ := h.emitted name spec hspec hscaled
  have hsame : raw' = raw :=
    Except.ok.inj ((readPoint_eq_ok.mpr hraw').symm.trans (readPoint_eq_ok.mpr hraw))
  have hsame' : sf' = sf :=
    Except.ok.inj ((readScale_eq_ok.mpr hsf').symm.trans (readScale_eq_ok.mpr hsf))
  rw [hget, hsame, hsame']

/-- The simulator is decoded, and its telemetry is its state, to the last digit of each
scale. -/
theorem decoded_simulated {pv : SimulatedPv} (h : pv.InRange) :
    ∃ out, decodeModel inverterModel pv.inverter.data = .ok out ∧
      out.get? "W" = some (pv.acW : ℚ) ∧ out.get? "DCW" = some (pv.dcW : ℚ) ∧
      out.get? "PhVphA" = some (Double.roundEven (pv.voltageV * 10) / 10 : ℚ) ∧
      out.get? "A" = some (Double.roundEven (pv.currentA * 100) / 100 : ℚ) ∧
      out.get? "Hz" = some (Double.roundEven (pv.hz * 100) / 100 : ℚ) ∧
      out.get? "St" = some (pv.state : ℚ) := by
  have hfits : ∀ entry ∈ inverterModel.points, entry.2.FitsIn pv.inverter.data.length := by
    rw [SimulatedPv.inverter, length_padModel]
    decide
  obtain ⟨out, hout⟩ := decodeModel_isOk.mpr (within_of_fits hfits)
  have hdecoded := decoded_of_decodeModel hout
  have hword {i : ℕ} {v : ℤ} (hi : i < 50)
      (hmem : (i, v) ∈ [(0, Double.roundEven (pv.currentA * 100)), (4, -2),
        (8, Double.roundEven (pv.voltageV * 10)), (11, -1), (12, pv.acW), (13, 0),
        (14, Double.roundEven (pv.hz * 100)), (15, -2), (24, 0), (29, pv.dcW), (30, 0),
        (36, pv.state)]) : pv.inverter.data[i]? = some (mask v) :=
    getElem?_padModel_of_mem (show [0, 4, 8, 11, 12, 13, 14, 15, 24, 29, 30, 36].Nodup by decide)
      hmem hi
  refine ⟨out, hout, ?_, ?_, ?_, ?_, ?_, ?_⟩
  · rw [hdecoded.get?_eq ⟨12, .int16, some "W_SF"⟩ pv.acW 0 rfl (by decide)
      ⟨h.acW, hword (by decide) (by simp)⟩ ⟨by decide, hword (by decide) (by simp)⟩]
    simp [scaled]
  · rw [hdecoded.get?_eq ⟨29, .int16, some "DCW_SF"⟩ pv.dcW 0 rfl (by decide)
      ⟨h.dcW, hword (by decide) (by simp)⟩ ⟨by decide, hword (by decide) (by simp)⟩]
    simp [scaled]
  · rw [hdecoded.get?_eq ⟨8, .uint16, some "V_SF"⟩ _ (-1) rfl (by decide)
      ⟨h.voltageV, hword (by decide) (by simp)⟩ ⟨by decide, hword (by decide) (by simp)⟩]
    simp [scaled, div_eq_mul_inv]
  · rw [hdecoded.get?_eq ⟨0, .uint16, some "A_SF"⟩ _ (-2) rfl (by decide)
      ⟨h.currentA, hword (by decide) (by simp)⟩ ⟨by decide, hword (by decide) (by simp)⟩,
      scaled, if_neg (by decide)]
    norm_num [div_eq_mul_inv]
  · rw [hdecoded.get?_eq ⟨14, .uint16, some "Hz_SF"⟩ _ (-2) rfl (by decide)
      ⟨h.hz, hword (by decide) (by simp)⟩ ⟨by decide, hword (by decide) (by simp)⟩,
      scaled, if_neg (by decide)]
    norm_num [div_eq_mul_inv]
  · rw [hdecoded.get?_eq ⟨36, .enum16, none⟩ pv.state 0 rfl (by decide)
      ⟨h.state, hword (by decide) (by simp)⟩ rfl]
    simp [scaled]

/-- An inverter at noon. -/
def noon : SimulatedPv where
  acW := 4200
  dcW := 4350
  voltageV := 230
  currentA := 18
  hz := 50
  state := 4

theorem SimulatedPv.length_buildImage (pv : SimulatedPv) : pv.buildImage.length = 150 := by
  simp [buildImage, image, length_registers, common, inverter, controls, length_padModel,
    sunsMarker, endModel, commonModel, inverterModel, controlsModel]

end DiepLab.Sunspec
