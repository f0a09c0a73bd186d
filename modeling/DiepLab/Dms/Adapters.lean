import DiepLab.Dms.Estimate
import DiepLab.Dms.Sweep

/-!
Telemetry on its way to the two engines.

`_se_measurements` makes measurements of the estimator and `_pf_loads` makes loads of the
power flow, of the latest fresh telemetry of the device behind a node. Both engines count
consumption as positive. The power flow turns the sign of what a DER has measured; the
estimator is given the measurement as it is, so the two agree on a DER only where its
readings say the same in both directions (`realPowersAgree_iff`).

The arithmetic is exact.
-/

namespace DiepLab.Dms

open StateEstimation Sweep

/-! ### The rows -/

/-- The columns of `grid_nodes` that the adapters read. -/
structure SeNode where
  nodeId : String
  nodeType : NodeType
  nominalKv : Option ℚ := none
  baseLoadKw : Option ℚ := none
  baseLoadKvar : Option ℚ := none
  phases : Option String := some "ABC"
  deviceId : Option String := none

/-- The columns of `telemetry` that the adapters read. -/
structure MeterRow where
  deviceId : String
  time : ℚ
  voltage : Option ℚ := none
  powerKw : Option ℚ := none
  gridImportKw : Option ℚ := none
  deriving DecidableEq

structure AdapterDb where
  nodes : List SeNode
  telemetry : List MeterRow
  now : ℚ
  /-- `TELEMETRY_FRESH_S`. -/
  telemetryFreshS : ℚ := 600
  nodeKey : (nodes.map SeNode.nodeId).Nodup := by decide

namespace AdapterDb

variable (db : AdapterDb)

/-- `SELECT DISTINCT ON (device_id) ... ORDER BY device_id, time DESC`. -/
def latest (deviceId : String) : Option MeterRow :=
  (db.telemetry.filter fun r => r.deviceId = deviceId).argmax MeterRow.time

/-- `fresh.get(device_id)`. -/
def fresh (deviceId : String) : Option MeterRow :=
  (db.latest deviceId).filter fun r => db.now - r.time ≤ db.telemetryFreshS

end AdapterDb

/-! ### The measurements of the estimator -/

/-- `math.sqrt(3.0)`. -/
def sqrtThree : ℚ := 7800463371553962 / 2 ^ 52

/-- `voltage_pu`, on the phase-voltage base of the node. -/
def voltagePu (nominalKv voltage : Option ℚ) : Option ℚ := do
  let v ← voltage
  let kv ← nominalKv.filter fun kv => kv ≠ 0
  let baseV := kv * 1000 / sqrtThree
  if 0 < baseV then some (roundTo 4 (v / baseV)) else none

/-- `grid_import_kw`, else `power_kw`. -/
def MeterRow.pKw (r : MeterRow) : Option ℚ := r.gridImportKw.or r.powerKw

/-- The entry of a node; an empty one is left out. -/
def seMeasurement (db : AdapterDb) (n : SeNode) : Option NodeTelemetry := do
  let deviceId ← n.deviceId
  let r ← db.fresh deviceId
  let m : NodeTelemetry := { pKw := r.pKw, voltagePu := voltagePu n.nominalKv r.voltage }
  if m.pKw.isSome ∨ m.voltagePu.isSome then some m else none

/-- A dictionary by node id, filled node by node. -/
def byNodeId {ν : Type} (entry : SeNode → Option ν) (nodes : List SeNode) : Dict ν :=
  Dict.update [] (nodes.filterMap fun n => (entry n).map fun v => (n.nodeId, v))

/-- `_se_measurements`. -/
def seMeasurements (db : AdapterDb) : Dict NodeTelemetry := byNodeId (seMeasurement db) db.nodes

/-! ### The loads of the power flow -/

/-- The real load that a row of telemetry stands for. -/
def telemetryLoad (nodeType : NodeType) (r : MeterRow) : ℚ :=
  match nodeType with
  -- DER telemetry power is generation
  | .der => -orDefault r.powerKw 0
  | _ => r.gridImportKw.getD (orDefault r.powerKw 0)

/-- `p_kw`: fresh telemetry where available, else the base load. -/
def loadKw (db : AdapterDb) (n : SeNode) : ℚ :=
  match (given n.deviceId).bind db.fresh with
  | some r => telemetryLoad n.nodeType r
  | none => orDefault n.baseLoadKw 0

/-- The load of a node, split evenly across its phases. -/
def pfLoad (db : AdapterDb) (n : SeNode) : Option (Dict Power) :=
  let phases := phaseSet n.phases
  if phases = [] then none
  else
    let per : ℚ := phases.length
    some (phases.map fun ph =>
      (String.singleton ph.letter, ⟨loadKw db n / per, orDefault n.baseLoadKvar 0 / per⟩))

/-- `_pf_loads`. -/
def pfLoads (db : AdapterDb) : Loads := byNodeId (pfLoad db) db.nodes

/-- The real loads of a node, over its phases. -/
def realLoad (load : Dict Power) : ℚ := (load.map fun kv => kv.2.kw).sum

/-! ### What the dictionaries hold -/

theorem map_fst_filterMap_sublist {ν : Type} (entry : SeNode → Option ν) (nodes : List SeNode) :
    ((nodes.filterMap fun n => (entry n).map fun v => (n.nodeId, v)).map Prod.fst).Sublist
      (nodes.map SeNode.nodeId) := by
  induction nodes with
  | nil => exact .slnil
  | cons n nodes ih =>
      rw [List.filterMap_cons]
      cases entry n with
      | none => exact ih.cons n.nodeId
      | some v => exact ih.cons_cons n.nodeId

/-- The entry of a node is found under its id. -/
theorem get?_byNodeId {ν : Type} (entry : SeNode → Option ν) {nodes : List SeNode}
    (hkey : (nodes.map SeNode.nodeId).Nodup) {n : SeNode} (hn : n ∈ nodes) :
    (byNodeId entry nodes).get? n.nodeId = entry n := by
  have hnodup := hkey.sublist (map_fst_filterMap_sublist entry nodes)
  rw [byNodeId, Dict.get?_update _ hnodup, Dict.get?_nil, Option.or_none]
  cases hentry : entry n with
  | some v =>
      refine Dict.get?_of_mem hnodup (List.mem_filterMap.mpr ⟨n, hn, ?_⟩)
      rw [hentry, Option.map_some]
  | none =>
      refine Dict.get?_eq_none fun hmem => ?_
      obtain ⟨kv, hkv, hid⟩ := List.mem_map.mp hmem
      obtain ⟨n', hn', hv⟩ := List.mem_filterMap.mp hkv
      obtain ⟨v, hv, rfl⟩ := Option.map_eq_some_iff.mp hv
      -- no other node has the id
      have hsame : n' = n := List.inj_on_of_nodup_map hkey hn' hn hid
      rw [hsame, hentry] at hv
      exact nomatch hv

theorem sum_map_div_length {α : Type} {items : List α} (h : items ≠ []) (p : ℚ) :
    (items.map fun _ => p / (items.length : ℚ)).sum = p := by
  have hlength : (items.length : ℚ) ≠ 0 := by
    rwa [Nat.cast_ne_zero, ne_eq, List.length_eq_zero_iff]
  rw [List.map_const', List.sum_replicate, nsmul_eq_mul, mul_div_cancel₀ _ hlength]

/-- Over the phases the load is what it was before the split. -/
theorem realLoad_of_pfLoad {db : AdapterDb} {n : SeNode} {load : Dict Power}
    (h : pfLoad db n = some load) : realLoad load = loadKw db n := by
  unfold pfLoad at h
  dsimp only at h
  split at h
  · exact nomatch h
  · rename_i hphases
    rw [← Option.some.inj h, realLoad, List.map_map]
    exact sum_map_div_length hphases _

/-! ### Agreement -/

/-- Whenever both define one, the injection of the estimator is the real load of the power
flow. -/
def RealPowersAgree (db : AdapterDb) (n : SeNode) : Prop :=
  ∀ m load p, (seMeasurements db).get? n.nodeId = some m → m.pKw = some p →
    (pfLoads db).get? n.nodeId = some load → p = realLoad load

/-- What a DER imports is the opposite of its power, and a DER that reports its power alone
has none. -/
def Mirrored (r : MeterRow) : Prop :=
  match r.gridImportKw, r.powerKw with
  | some imported, power => imported = -power.getD 0
  | none, some power => power = 0
  | none, none => True

/-- The condition on a node and the latest fresh row of its device. A device id that is empty
is none for the power flow, which then takes the base load. -/
def SameConvention (n : SeNode) (deviceId : String) (r : MeterRow) : Prop :=
  if deviceId = "" then ∀ p ∈ r.pKw, p = n.baseLoadKw.getD 0
  else n.nodeType = .der → Mirrored r

theorem orDefault_zero (v : Option ℚ) : orDefault v 0 = v.getD 0 := by
  cases v with
  | none => rfl
  | some q =>
      rw [orDefault, Option.getD_some]
      split
      · rename_i h
        exact h.symm
      · rfl

/-- What a node other than a DER draws is what it measures. -/
theorem telemetryLoad_eq {nodeType : NodeType} (h : nodeType ≠ .der) {r : MeterRow} {p : ℚ}
    (hp : r.pKw = some p) : telemetryLoad nodeType r = p := by
  have hload : telemetryLoad nodeType r = r.gridImportKw.getD (orDefault r.powerKw 0) := by
    cases nodeType with
    | der => exact absurd rfl h
    | _ => rfl
  rw [hload, orDefault_zero]
  rw [MeterRow.pKw] at hp
  cases hgrid : r.gridImportKw with
  | some imported =>
      rw [hgrid, Option.some_or] at hp
      exact Option.some.inj hp
  | none =>
      rw [hgrid, Option.none_or] at hp
      rw [hp]
      rfl

theorem mirrored_iff {r : MeterRow} :
    Mirrored r ↔ ∀ p ∈ r.pKw, p = telemetryLoad .der r := by
  rw [telemetryLoad, orDefault_zero, MeterRow.pKw, Mirrored]
  cases r.gridImportKw with
  | some imported => simp
  | none =>
      cases r.powerKw with
      | none => simp
      | some power =>
          simp only [Option.none_or, Option.mem_def, Option.some.injEq, forall_eq',
            Option.getD_some]
          exact self_eq_neg.symm

/-- The condition compares what the two adapters take from the row. -/
theorem sameConvention_iff {db : AdapterDb} {n : SeNode} {deviceId : String} {r : MeterRow}
    (hdevice : n.deviceId = some deviceId) (hr : db.fresh deviceId = some r) :
    SameConvention n deviceId r ↔ ∀ p ∈ r.pKw, p = loadKw db n := by
  unfold SameConvention loadKw
  rw [hdevice, given]
  split
  · rw [Option.bind_none]
    simp only [orDefault_zero]
  · rw [Option.bind_some, hr]
    by_cases hder : n.nodeType = .der
    · rw [hder, mirrored_iff]
      exact forall_prop_of_true rfl
    · exact iff_of_true (fun h => absurd h hder) fun p hp => (telemetryLoad_eq hder hp).symm

/-- **Where the adapters agree.** On a node with a device whose latest telemetry is fresh the
two agree exactly if the power flow has no load for it, for want of a phase, or the row is of
the same convention for both. -/
theorem realPowersAgree_iff (db : AdapterDb) {n : SeNode} (hn : n ∈ db.nodes) {deviceId : String}
    (hdevice : n.deviceId = some deviceId) {r : MeterRow} (hr : db.fresh deviceId = some r) :
    RealPowersAgree db n ↔ phaseSet n.phases = [] ∨ SameConvention n deviceId r := by
  have hload : (pfLoads db).get? n.nodeId = pfLoad db n := get?_byNodeId _ db.nodeKey hn
  have hmeasured : (seMeasurements db).get? n.nodeId = seMeasurement db n :=
    get?_byNodeId _ db.nodeKey hn
  rw [RealPowersAgree, hload, hmeasured, sameConvention_iff hdevice hr]
  constructor
  · intro h
    refine or_iff_not_imp_left.mpr fun hphases p hp => ?_
    obtain ⟨load, hsome⟩ : ∃ load, pfLoad db n = some load := ⟨_, if_neg hphases⟩
    rw [← realLoad_of_pfLoad hsome]
    refine h { pKw := r.pKw, voltagePu := voltagePu n.nominalKv r.voltage } load p ?_ hp hsome
    have hmeasures : r.pKw.isSome ∨ (voltagePu n.nominalKv r.voltage).isSome := by
      rw [Option.mem_def.mp hp]
      exact Or.inl rfl
    simp only [seMeasurement, hdevice, Option.bind_eq_bind, Option.bind_some, hr, hmeasures,
      if_true]
  · rintro (hphases | hsame) m load p hm hp hsome
    · exact nomatch (if_pos hphases).symm.trans hsome
    · rw [realLoad_of_pfLoad hsome]
      refine hsame p ?_
      simp only [seMeasurement, hdevice, Option.bind_eq_bind, Option.bind_some, hr] at hm
      split at hm
      · rw [← Option.some.inj hm] at hp
        exact hp
      · exact nomatch hm

/-- A smart meter, and a node for it. -/
def meterNode : SeNode where
  nodeId := "ND-METER001"
  nodeType := .meter
  deviceId := some "METER001"

/-- An inverter, and a node for it. -/
def inverterNode : SeNode where
  nodeId := "ND-INV001"
  nodeType := .der
  deviceId := some "INV001"

/-- The two devices, read a minute ago. -/
def twoReadings : AdapterDb where
  nodes := [meterNode, inverterNode]
  telemetry :=
    [{ deviceId := "METER001", time := 0, powerKw := some 3, gridImportKw := some 2 },
      { deviceId := "INV001", time := 0, powerKw := some 5 }]
  now := 60

theorem meter_agrees : RealPowersAgree twoReadings meterNode := by
  have hmeter : meterNode ∈ twoReadings.nodes := by simp [twoReadings]
  have hdevice : meterNode.deviceId = some "METER001" := rfl
  have hfresh : twoReadings.fresh "METER001" =
      some { deviceId := "METER001", time := 0, powerKw := some 3, gridImportKw := some 2 } := by
    decide +kernel
  exact (realPowersAgree_iff twoReadings hmeter hdevice hfresh).mpr
    (Or.inr fun hder => absurd hder (by decide))

/-- The inverter generates 5 kW: for the estimator it draws them. -/
theorem inverter_disagrees : ¬ RealPowersAgree twoReadings inverterNode := by
  intro h
  have hinverter : inverterNode ∈ twoReadings.nodes := by simp [twoReadings]
  have hfresh : twoReadings.fresh "INV001" =
      some { deviceId := "INV001", time := 0, powerKw := some 5 } := by decide +kernel
  have hmeasured : (seMeasurements twoReadings).get? inverterNode.nodeId =
      some { pKw := some 5 } := by
    rw [seMeasurements, get?_byNodeId _ twoReadings.nodeKey hinverter]
    simp [seMeasurement, inverterNode, hfresh, MeterRow.pKw, voltagePu]
  obtain ⟨load, hload, hreal⟩ : ∃ load,
      (pfLoads twoReadings).get? inverterNode.nodeId = some load ∧ realLoad load = -5 :=
    ⟨[("a", ⟨-5 / 3, 0⟩), ("b", ⟨-5 / 3, 0⟩), ("c", ⟨-5 / 3, 0⟩)], by decide +kernel,
      by decide +kernel⟩
  have hsame := h { pKw := some 5 } load 5 hmeasured rfl hload
  rw [hreal] at hsame
  exact absurd hsame (by decide)

end DiepLab.Dms
