import DiepLab.Dms.Linalg
import DiepLab.Dms.LinDistFlow
import DiepLab.Dms.PowerFlow
import DiepLab.Library.LeastSquares

/-!
The weighted least squares estimate, `estimate`.

Every node of the state vector has two pseudo-measurements, its base load as its
injection, and up to three rows of telemetry. `estimate` forms the normal
equations of all rows and solves them.

The pseudo-measurements bound the quadratic form of the rows below, whatever has
been measured (`form_rows`), so no pivot is too small, and what is returned is the
one minimiser (`estimate_minimises`). The residual of a voltage row is the
reconstructed voltage less the measured one (`voltage_reconstructed`).
-/

namespace DiepLab.StateEstimation

open SpanningTree Matrix LeastSquares

/-- `measurements[node_id]`: consumption positive. -/
structure NodeTelemetry where
  pKw : Option ℚ := none
  qKvar : Option ℚ := none
  voltagePu : Option ℚ := none

/-- The standard deviations of `DEFAULTS`, tunable. -/
structure Options where
  sigmaPMeterKw : ℚ := 2
  sigmaQMeterKvar : ℚ := 2
  sigmaVMeterPu : ℚ := 4 / 1000
  sigmaPPseudoKw : ℚ := 30
  sigmaQPseudoKvar : ℚ := 20

/-- `meta["kind"]`. -/
inductive RowKind where
  | pseudoP | pseudoQ | meterP | meterQ | meterV
  deriving DecidableEq, Repr

/-- A row of `H` with its entries of `z`, `w` and `meta`. -/
structure MeasurementRow (ncol : ℕ) where
  coeffs : Fin ncol → ℚ
  z : ℚ
  w : ℚ
  kind : RowKind
  node : String

section Rows

variable (t : RadialTree) (pu : Dict (ℚ × ℚ)) (ratings : Ratings)
  (measurements : Dict NodeTelemetry) (opt : Options)

/-- The pseudo injections of a node, always, and its telemetry injections. -/
def injectionRows (nid : String) : List (MeasurementRow t.ncol) :=
  let m := (measurements.get? nid).getD {}
  [{ coeffs := unitRow (t.ip nid) 1, z := orDefault (ratings.baseLoadKw nid) 0
     w := 1 / opt.sigmaPPseudoKw ^ 2, kind := .pseudoP, node := nid },
   { coeffs := unitRow (t.iq nid) 1, z := orDefault (ratings.baseLoadKvar nid) 0
     w := 1 / opt.sigmaQPseudoKvar ^ 2, kind := .pseudoQ, node := nid }] ++
  (m.pKw.map fun p =>
    { coeffs := unitRow (t.ip nid) 1, z := p, w := 1 / opt.sigmaPMeterKw ^ 2
      kind := .meterP, node := nid }).toList ++
  (m.qKvar.map fun q =>
    { coeffs := unitRow (t.iq nid) 1, z := q, w := 1 / opt.sigmaQMeterKvar ^ 2
      kind := .meterQ, node := nid }).toList

/-- The row of a voltage measurement. -/
def voltageRow (opt : Options) (nid : String) (coeffs : Fin t.ncol → ℚ) (measured : ℚ) :
    MeasurementRow t.ncol where
  coeffs := coeffs
  z := 1 - measured
  w := 1 / opt.sigmaVMeterPu ^ 2
  kind := .meterV
  node := nid

/-- The rows of a node. -/
def nodeRows (nid : String) : Except Exc (List (MeasurementRow t.ncol)) :=
  let rows := injectionRows t ratings measurements opt nid
  match ((measurements.get? nid).getD {}).voltagePu with
  | none => pure rows
  | some v => do
      let row ← vSensitivityRow t pu nid
      pure (rows ++ [voltageRow t opt nid row v])

/-- `H`, `z`, `w` and `meta`. -/
def measurementRows : Except Exc (List (MeasurementRow t.ncol)) := do
  let parts ← t.stateNodes.mapM (nodeRows t pu ratings measurements opt)
  pure parts.flatten

end Rows

section Matrices

variable {ncol : ℕ} (rows : List (MeasurementRow ncol))

def matrixH : Matrix (Fin rows.length) (Fin ncol) ℚ := of fun k => (rows.get k).coeffs

def vectorZ : Fin rows.length → ℚ := fun k => (rows.get k).z

def vectorW : Fin rows.length → ℚ := fun k => (rows.get k).w

/-- `HtW`. -/
def matrixHtW : Matrix (Fin ncol) (Fin rows.length) ℚ :=
  of fun i k => (matrixH rows)ᵀ i k * vectorW rows k

/-- `resid`. -/
def resid (xhat : Fin ncol → ℚ) : Fin rows.length → ℚ := fun k =>
  vectorZ rows k - (matrixH rows *ᵥ xhat) k

/-- `J`. -/
def objectiveJ (xhat : Fin ncol → ℚ) : ℚ := ∑ k, vectorW rows k * resid rows xhat k ^ 2

end Matrices

/-- `branch[eid]`, as far as it is linear in the state. -/
structure BranchFlow where
  edgeId : String
  fromNode : String
  toNode : String
  pKw : ℚ
  qKvar : ℚ

/-- `node_results`, the confidence apart. -/
structure NodeEstimate where
  nodeId : String
  energized : Bool
  estimatedVoltagePu : Option ℚ := none
  estimatedPKw : Option ℚ := none
  estimatedQKvar : Option ℚ := none

/-- What `estimate` works out and returns, as far as it takes no root. -/
structure Estimate where
  states : ℕ
  rows : List (MeasurementRow states)
  xhat : Fin states → ℚ
  ginv : Fin states → Fin states → ℚ
  objectiveJ : ℚ
  dof : ℕ
  branches : List BranchFlow
  nodes : List NodeEstimate

section Results

variable (t : RadialTree) (pu : Dict (ℚ × ℚ)) (xhat : Fin t.ncol → ℚ)

/-- The flow over the edge to `nid`, unless the edge has one already. -/
def addBranch (branch : Dict BranchFlow) (nid : String) : Except Exc (Dict BranchFlow) := do
  let e ← lookup t.parentEdge nid
  if (branch.get? e.edgeId).isSome then pure branch
  else
    let below ← lookup t.subtree e.edgeId
    let (p, q) := branchFlow t xhat below
    pure (branch.set e.edgeId
      { edgeId := e.edgeId, fromNode := e.fromNode, toNode := e.toNode
        pKw := roundTo 2 p, qKvar := roundTo 2 q })

def nodeEstimate (n : GridNode) : Except Exc NodeEstimate :=
  let nid := n.nodeId
  if nid ∉ t.energized then
    pure { nodeId := nid, energized := false }
  else if nid = t.root then
    pure { nodeId := nid, energized := true, estimatedVoltagePu := some 1
           estimatedPKw := some 0, estimatedQKvar := some 0 }
  else do
    let vpu ← voltagePu t pu xhat nid
    pure { nodeId := nid, energized := true, estimatedVoltagePu := some (roundTo 4 vpu)
           estimatedPKw := some (roundTo 2 (inj xhat (t.ip nid)))
           estimatedQKvar := some (roundTo 2 (inj xhat (t.iq nid))) }

end Results

/-- Nothing energized beyond the source. -/
def trivialEstimate (t : RadialTree) (nodes : List GridNode) : Estimate where
  states := 0
  rows := []
  xhat := Fin.elim0
  ginv := Fin.elim0
  objectiveJ := 0
  dof := 0
  branches := []
  nodes := nodes.map fun n =>
    { nodeId := n.nodeId, energized := decide (n.nodeId ∈ t.energized)
      estimatedVoltagePu := if n.nodeId = t.root then some 1 else none }

/-- Run WLS state estimation on the tree. -/
def estimateOn (t : RadialTree) (nodes : List GridNode) (ratings : Ratings)
    (measurements : Dict NodeTelemetry) (opt : Options) : Except Exc Estimate := do
  let pu ← impedances ratings t
  if t.ncol = 0 then pure (trivialEstimate t nodes)
  else
    let rows ← measurementRows t pu ratings measurements opt
    let G := matrixHtW rows * matrixH rows
    let rhs := matrixHtW rows *ᵥ vectorZ rows
    let xhat ← Linalg.solve G rhs
    let Ginv ← Linalg.inverse G
    let branch ← t.stateNodes.foldlM (addBranch t xhat) []
    let nodeResults ← nodes.mapM (nodeEstimate t pu xhat)
    pure {
      states := t.ncol
      rows := rows
      xhat := xhat
      ginv := Ginv
      objectiveJ := objectiveJ rows xhat
      dof := max (rows.length - t.ncol) 1
      branches := branch.map Prod.snd
      nodes := nodeResults }

/-- Run WLS state estimation. -/
def estimate (fuel : ℕ) (nodes : List GridNode) (edges : List GridEdge) (ratings : Ratings)
    (measurements : Dict NodeTelemetry) (opt : Options) : Looping Estimate := do
  let t ← buildRadial fuel nodes edges
  estimateOn t nodes ratings measurements opt

/-! ### The rows -/

section Rows

variable {t : RadialTree} {pu : Dict (ℚ × ℚ)} {ratings : Ratings}
  {measurements : Dict NodeTelemetry} {opt : Options}

theorem injectionRows_spec {nid : String} {row : MeasurementRow t.ncol}
    (h : row ∈ injectionRows t ratings measurements opt nid) :
    row.kind ≠ .meterV ∧ 0 ≤ row.w := by
  simp only [injectionRows, List.mem_append, List.mem_cons, List.not_mem_nil, or_false,
    Option.mem_toList, Option.map_eq_some_iff] at h
  rcases h with ((rfl | rfl) | ⟨p, -, rfl⟩) | ⟨q, -, rfl⟩ <;> exact ⟨nofun, by positivity⟩

variable (ratings measurements opt) in
/-- The rows of a node are its injections and, if its voltage is measured, the row of the
voltage. -/
theorem nodeRows_eq {nid : String} {coeffs : Fin t.ncol → ℚ}
    (hcoeffs : vSensitivityRow t pu nid = .ok coeffs) :
    nodeRows t pu ratings measurements opt nid =
      .ok (injectionRows t ratings measurements opt nid ++
        (((measurements.get? nid).getD {}).voltagePu.map
          (voltageRow t opt nid coeffs)).toList) := by
  rw [nodeRows]
  cases ((measurements.get? nid).getD {}).voltagePu with
  | none => exact congrArg Except.ok (List.append_nil _).symm
  | some v =>
      dsimp only
      rw [hcoeffs]
      rfl

variable (ratings measurements opt) in
/-- Every row is an injection or the row of a measured voltage. -/
theorem measurementRows_eq {coeffs : String → Fin t.ncol → ℚ}
    (hcoeffs : ∀ nid ∈ t.stateNodes, vSensitivityRow t pu nid = .ok (coeffs nid)) :
    ∃ rows, measurementRows t pu ratings measurements opt = .ok rows ∧
      ∀ row, row ∈ rows ↔ ∃ nid ∈ t.stateNodes,
        row ∈ injectionRows t ratings measurements opt nid ∨
          ∃ v, ((measurements.get? nid).getD {}).voltagePu = some v ∧
            voltageRow t opt nid (coeffs nid) v = row := by
  have hparts := Loops.mapM_of_forall fun nid hnid =>
    nodeRows_eq ratings measurements opt (hcoeffs nid hnid)
  refine ⟨_, by rw [measurementRows, hparts]; rfl, fun row => ?_⟩
  simp only [List.mem_flatten, List.mem_map, exists_exists_and_eq_and, List.mem_append,
    Option.mem_toList, Option.map_eq_some_iff]

/-- A column is the real or the reactive injection of some node. -/
theorem exists_column (hnodup : t.stateNodes.Nodup) (c : Fin t.ncol) :
    ∃ nid ∈ t.stateNodes, t.ip nid = some c ∨ t.iq nid = some c := by
  have hlt : c.val / 2 < t.stateNodes.length := by
    have := c.isLt
    unfold RadialTree.ncol at this
    omega
  have hmem : t.stateNodes[c.val / 2] ∈ t.stateNodes := List.getElem_mem hlt
  have hidx : t.stateNodes.idxOf t.stateNodes[c.val / 2] = c.val / 2 := hnodup.idxOf_getElem _ hlt
  refine ⟨_, hmem, ?_⟩
  unfold RadialTree.ip RadialTree.iq
  rw [dif_pos hmem, dif_pos hmem, Option.some_inj, Option.some_inj, Fin.ext_iff, Fin.ext_iff]
  dsimp only
  rw [hidx]
  omega

end Rows

/-! ### On a network -/

theorem RadialTree.mem_stateNodes {t : RadialTree} {n : String} :
    n ∈ t.stateNodes ↔ n ∈ t.order ∧ n ≠ t.root := by
  rw [RadialTree.stateNodes, List.mem_filter, decide_eq_true_eq]

section Tree

variable {net : Network} {t : RadialTree} {found : List (Found String GridEdge)}
  (h : Represents net t found)
include h

variable {ratings : Ratings} {pu : Dict (ℚ × ℚ)}
  (hpu : ∀ f ∈ found, Dict.get? pu f.edge.edgeId = some (impedance ratings f.node f.edge))
include hpu

/-- The row of an energised node and its voltage at any state. -/
theorem exists_voltage {n : String} (hn : n ∈ t.order) :
    ∃ row, vSensitivityRow t pu n = .ok row ∧
      ∀ xhat, ∃ v, voltagePu t pu xhat n = .ok v ∧ 1 - v = row ⬝ᵥ xhat := by
  obtain ⟨row, hrow, hv⟩ := voltage_along _ (path_lookups h ratings hpu hn) 0
  refine ⟨row, hrow, fun xhat => hv xhat 1 ?_⟩
  rw [sub_self, zero_dotProduct]

/-- What is reported of an energised node is its voltage, rounded. -/
theorem nodeEstimate_energized (xhat : Fin t.ncol → ℚ) {n : GridNode}
    (hn : n.nodeId ∈ t.energized) :
    ∃ v result, voltagePu t pu xhat n.nodeId = .ok v ∧ nodeEstimate t pu xhat n = .ok result ∧
      result.estimatedVoltagePu = some (roundTo 4 v) := by
  have hlive : ¬n.nodeId ∉ t.energized := not_not.mpr hn
  by_cases hroot : n.nodeId = t.root
  · have hpath : t.pathEdges.get? t.root = some [] := h.pathEdges t.root [] (Or.inl rfl) .root
    refine ⟨1, _, ?_, (if_neg hlive).trans (if_pos hroot), ?_⟩
    · rw [hroot, voltagePu, hpath]
      rfl
    · have hone : roundTo 4 1 = 1 := by norm_num [roundTo, roundHalfEven]
      rw [hone]
  · obtain ⟨row, -, hv⟩ := exists_voltage h hpu ((h.energized n.nodeId).mp hn)
    obtain ⟨v, hvoltage, -⟩ := hv xhat
    have hresult : nodeEstimate t pu xhat n = .ok {
        nodeId := n.nodeId, energized := true, estimatedVoltagePu := some (roundTo 4 v)
        estimatedPKw := some (roundTo 2 (inj xhat (t.ip n.nodeId)))
        estimatedQKvar := some (roundTo 2 (inj xhat (t.iq n.nodeId))) } := by
      refine (if_neg hlive).trans ((if_neg hroot).trans ?_)
      rw [hvoltage]
      rfl
    exact ⟨v, _, hvoltage, hresult, rfl⟩

theorem exists_nodeEstimate (xhat : Fin t.ncol → ℚ) (n : GridNode) :
    ∃ result, nodeEstimate t pu xhat n = .ok result := by
  by_cases hn : n.nodeId ∈ t.energized
  · obtain ⟨-, result, -, hresult, -⟩ := nodeEstimate_energized h hpu xhat hn
    exact ⟨result, hresult⟩
  · exact ⟨_, if_pos hn⟩

end Tree

/-- **The reconstructed voltage is the measured function of the state.** On every
network, at every state and for every energised node the reconstruction from the
branch flows and the row of the voltage agree; so what is left over of a measured
voltage is the reconstructed voltage, the one that is reported, less the measured
one. -/
theorem voltage_reconstructed (net : Network) {fuel : ℕ} (hfuel : net.nodes.length ≤ fuel)
    {t : RadialTree} (hbuild : buildRadial fuel net.nodes net.edges = pure t) (ratings : Ratings) :
    ∃ pu, impedances ratings t = .ok pu ∧
      (∀ xhat : Fin t.ncol → ℚ, ∀ n ∈ t.energized, ∃ row v, vSensitivityRow t pu n = .ok row ∧
        voltagePu t pu xhat n = .ok v ∧ 1 - v = row ⬝ᵥ xhat) ∧
      (∀ (xhat : Fin t.ncol → ℚ) (n : GridNode), n.nodeId ∈ t.energized →
        ∃ v result, voltagePu t pu xhat n.nodeId = .ok v ∧
          nodeEstimate t pu xhat n = .ok result ∧
            result.estimatedVoltagePu = some (roundTo 4 v)) ∧
      ∀ measurements opt, ∃ rows, measurementRows t pu ratings measurements opt = .ok rows ∧
        ∀ (xhat : Fin t.ncol → ℚ) (k : Fin rows.length), (rows.get k).kind = .meterV →
          ∃ v measured, voltagePu t pu xhat (rows.get k).node = .ok v ∧
            ((measurements.get? (rows.get k).node).getD {}).voltagePu = some measured ∧
            resid rows xhat k = v - measured := by
  obtain ⟨found, h⟩ := represents_of_buildRadial net hfuel hbuild
  obtain ⟨pu, himpedances, hpu⟩ := impedances_eq h ratings
  refine ⟨pu, himpedances, fun xhat n hn => ?_,
    fun xhat n hn => nodeEstimate_energized h hpu xhat hn, fun measurements opt => ?_⟩
  · obtain ⟨row, hrow, hv⟩ := exists_voltage h hpu ((h.energized n).mp hn)
    obtain ⟨v, hvoltage, heq⟩ := hv xhat
    exact ⟨row, v, hrow, hvoltage, heq⟩
  · choose! coeffs hcoeffs hvoltage using fun n (hn : n ∈ t.stateNodes) =>
      exists_voltage h hpu (RadialTree.mem_stateNodes.mp hn).1
    obtain ⟨rows, hrows, hmem⟩ := measurementRows_eq ratings measurements opt hcoeffs
    refine ⟨rows, hrows, fun xhat k hkind => ?_⟩
    obtain ⟨nid, hnid, hinjection | ⟨measured, hmeasured, hrow⟩⟩ :=
      (hmem _).mp (List.get_mem rows k)
    · exact absurd hkind (injectionRows_spec hinjection).1
    · obtain ⟨v, hv, heq⟩ := hvoltage nid hnid xhat
      have hresid : resid rows xhat k = (1 - measured) - coeffs nid ⬝ᵥ xhat := by
        change (rows.get k).z - (rows.get k).coeffs ⬝ᵥ xhat = _
        rw [← hrow]
        rfl
      have hnode : (rows.get k).node = nid := hrow ▸ rfl
      rw [hnode]
      refine ⟨v, measured, hv, hmeasured, ?_⟩
      rw [hresid, ← heq]
      ring

/-- There are two columns for a node at most. -/
theorem ncol_le (net : Network) {fuel : ℕ} (hfuel : net.nodes.length ≤ fuel) {t : RadialTree}
    (hbuild : buildRadial fuel net.nodes net.edges = pure t) : t.ncol ≤ 2 * net.nodes.length := by
  obtain ⟨found, h⟩ := represents_of_buildRadial net hfuel hbuild
  have horder := length_order_le net h.tree (substation_mem_nodes net h.root_mem)
  exact Nat.mul_le_mul_left 2 ((List.length_filter_le _ _).trans horder)

/-! ### The normal equations -/

section Solved

variable {t : RadialTree} {ratings : Ratings} {measurements : Dict NodeTelemetry}
  {coeffs : String → Fin t.ncol → ℚ} {rows : List (MeasurementRow t.ncol)}

/-- With the default deviations the pseudo-measurements bound the form of the rows below,
whatever else has been measured. -/
theorem form_rows (hnodup : t.stateNodes.Nodup)
    (hrows : ∀ row, row ∈ rows ↔ ∃ nid ∈ t.stateNodes,
      row ∈ injectionRows t ratings measurements {} nid ∨
        ∃ v, ((measurements.get? nid).getD {}).voltagePu = some v ∧
          voltageRow t {} nid (coeffs nid) v = row) (v : Fin t.ncol → ℚ) :
    1 / 900 * ∑ c, v c ^ 2 ≤ ∑ k, vectorW rows k * (matrixH rows *ᵥ v) k ^ 2 := by
  refine form_of_anchored (fun k => ?_) (fun c => ?_) v
  · obtain ⟨nid, -, hinjection | ⟨measured, -, hrow⟩⟩ := (hrows _).mp (List.get_mem rows k)
    · exact (injectionRows_spec hinjection).2
    · change 0 ≤ (rows.get k).w
      rw [← hrow]
      unfold voltageRow
      positivity
  · obtain ⟨nid, hnid, hcolumn⟩ := exists_column hnodup c
    have hpseudo : ∃ row ∈ injectionRows t ratings measurements {} nid,
        row.coeffs = Pi.single c 1 ∧ 1 / 900 ≤ row.w := by
      rcases hcolumn with hip | hiq
      · refine ⟨_, List.mem_append_left _ (List.mem_append_left _ List.mem_cons_self), ?_, ?_⟩
        · rw [hip]
          rfl
        · norm_num
      · refine ⟨_, List.mem_append_left _ (List.mem_append_left _
          (List.mem_cons_of_mem _ List.mem_cons_self)), ?_, ?_⟩
        · rw [hiq]
          rfl
        · norm_num
    obtain ⟨row, hrow, hcoeffs, hweight⟩ := hpseudo
    obtain ⟨k, rfl⟩ := List.mem_iff_get.mp ((hrows row).mpr ⟨nid, hnid, Or.inl hrow⟩)
    exact ⟨k, hcoeffs, hweight⟩

theorem matrixHtW_eq {ncol : ℕ} (rows : List (MeasurementRow ncol)) :
    matrixHtW rows = (matrixH rows)ᵀ * diagonal (vectorW rows) := by
  ext i k
  exact (mul_diagonal _ _ _ _).symm

/-- The pivots of fewer than `10 ^ 12` columns are above the tolerance. -/
theorem tolerance_small {ncol : ℕ} (hsize : ncol < 10 ^ 12) :
    (ncol : ℚ) * Linalg.tolerance ^ 2 ≤ (1 / 900) ^ 2 := by
  have hcast : (ncol : ℚ) ≤ 10 ^ 12 := by exact_mod_cast hsize.le
  calc (ncol : ℚ) * Linalg.tolerance ^ 2 ≤ 10 ^ 12 * Linalg.tolerance ^ 2 :=
        mul_le_mul_of_nonneg_right hcast (sq_nonneg _)
    _ ≤ (1 / 900) ^ 2 := by norm_num [Linalg.tolerance]

/-- The normal equations are solved, and the solution is the one minimiser. -/
theorem normal_solved {ncol : ℕ} {rows : List (MeasurementRow ncol)} (hsize : ncol < 10 ^ 12)
    (hform : ∀ v : Fin ncol → ℚ,
      1 / 900 * ∑ c, v c ^ 2 ≤ ∑ k, vectorW rows k * (matrixH rows *ᵥ v) k ^ 2) :
    ∃ xhat inv, Linalg.solve (matrixHtW rows * matrixH rows) (matrixHtW rows *ᵥ vectorZ rows) =
        .ok xhat ∧ Linalg.inverse (matrixHtW rows * matrixH rows) = .ok inv ∧
      ∀ y, y ≠ xhat → objectiveJ rows xhat < objectiveJ rows y := by
  have hbound : Elimination.BoundedBelow ((1 / 900) ^ 2) (matrixHtW rows * matrixH rows) := by
    rw [matrixHtW_eq]
    exact boundedBelow_normalMatrix (by norm_num) hform
  obtain ⟨xhat, hsolve, hxhat⟩ :=
    Linalg.solve_eq (tolerance_small hsize) hbound (matrixHtW rows *ᵥ vectorZ rows)
  obtain ⟨inv, hinverse, -⟩ := Linalg.inverse_eq (tolerance_small hsize) hbound
  refine ⟨xhat, inv, hsolve, hinverse, fun y hy => ?_⟩
  refine weightedSquares_lt (by norm_num) hform ?_ hy
  have hnormal := (hxhat xhat).mpr rfl
  rw [matrixHtW_eq] at hnormal
  exact hnormal

end Solved

/-! ### The estimate -/

section Succeeds

variable {net : Network} {t : RadialTree} {found : List (Found String GridEdge)}
  (h : Represents net t found)
include h

theorem exists_addBranch (xhat : Fin t.ncol → ℚ) {nid : String} (hnid : nid ∈ t.stateNodes)
    (branch : Dict BranchFlow) : ∃ branch', addBranch t xhat branch nid = .ok branch' := by
  obtain ⟨hn, hroot⟩ := RadialTree.mem_stateNodes.mp hnid
  obtain ⟨f, hf, rfl⟩ := h.tree.exists_found hn hroot
  obtain ⟨below, hbelow, -⟩ := h.subtree f hf
  by_cases hseen : (Dict.get? branch f.edge.edgeId).isSome
  · refine ⟨branch, ?_⟩
    rw [addBranch, lookup_eq (h.parentEdge_get? hf)]
    exact if_pos hseen
  · simp only [addBranch, lookup_eq (h.parentEdge_get? hf), lookup_eq hbelow, bind, Except.bind,
      if_neg hseen]
    exact ⟨_, rfl⟩

theorem exists_branches (xhat : Fin t.ncol → ℚ) :
    ∃ branch, t.stateNodes.foldlM (addBranch t xhat) [] = .ok branch := by
  have hloop : ∃ branch, t.stateNodes.foldlM (addBranch t xhat) [] = pure branch ∧ True :=
    Loops.foldlM_prefix (P := fun _ _ => True) trivial fun left nid right branch hsplit _ => by
      obtain ⟨branch', hbranch⟩ := exists_addBranch h xhat
        (hsplit ▸ List.mem_append_right left List.mem_cons_self) branch
      exact ⟨branch', hbranch, trivial⟩
  exact hloop.imp fun _ => And.left

end Succeeds

/-- **The estimate is the one minimiser.** In exact arithmetic and with the default
deviations `estimate` never finds a singular matrix: it refuses a network without a
substation, and on every other one it returns a state at which the weighted sum of the
squared residuals over all rows is smaller than at any other. -/
theorem estimate_minimises (net : Network) {fuel : ℕ} (hfuel : net.nodes.length ≤ fuel)
    (ratings : Ratings) (measurements : Dict NodeTelemetry)
    (hsize : ∀ t, buildRadial fuel net.nodes net.edges = pure t → t.ncol < 10 ^ 12) :
    (net.substations = [] ∧ estimate fuel net.nodes net.edges ratings measurements {} =
        throw (.other "no substation/source node")) ∨
      ∃ est : Estimate, estimate fuel net.nodes net.edges ratings measurements {} = pure est ∧
        ∀ x, x ≠ est.xhat → objectiveJ est.rows est.xhat < objectiveJ est.rows x := by
  by_cases hsource : net.substations = []
  · refine Or.inl ⟨hsource, ?_⟩
    have hsources : Contingency.sources net.nodes = [] := hsource
    rw [estimate, buildRadial, hsources]
    rfl
  · refine Or.inr ?_
    obtain ⟨t, found, hbuild, h⟩ := buildRadial_represents net hsource hfuel
    obtain ⟨pu, himpedances, hpu⟩ := impedances_eq h ratings
    have hestimate (est : Estimate)
        (hok : estimateOn t net.nodes ratings measurements {} = .ok est) :
        estimate fuel net.nodes net.edges ratings measurements {} = pure est := by
      rw [estimate, hbuild, pure_bind, hok]
      rfl
    by_cases hcol : t.ncol = 0
    · refine ⟨trivialEstimate t net.nodes, hestimate _ ?_, fun x hx => ?_⟩
      · rw [estimateOn, himpedances]
        exact if_pos hcol
      · exact absurd (funext fun i => i.elim0) hx
    · choose! coeffs hcoeffs _ using fun n (hn : n ∈ t.stateNodes) =>
        exists_voltage h hpu (RadialTree.mem_stateNodes.mp hn).1
      obtain ⟨rows, hrows, hmem⟩ := measurementRows_eq ratings measurements {} hcoeffs
      obtain ⟨xhat, inv, hsolve, hinverse, hleast⟩ := normal_solved (hsize t hbuild)
        (form_rows (h.tree.nodup.filter _) hmem)
      obtain ⟨branch, hbranch⟩ := exists_branches h xhat
      choose result hresult using exists_nodeEstimate h hpu xhat
      let est : Estimate := {
        states := t.ncol
        rows := rows
        xhat := xhat
        ginv := inv
        objectiveJ := objectiveJ rows xhat
        dof := max (rows.length - t.ncol) 1
        branches := branch.map Prod.snd
        nodes := net.nodes.map result }
      refine ⟨est, hestimate _ ?_, hleast⟩
      rw [estimateOn, himpedances]
      refine (if_neg hcol).trans ?_
      simp only [hrows, bind, Except.bind, hsolve, hinverse, hbranch,
        Loops.mapM_of_forall fun n _ => hresult n]
      rfl

/-- The looped feeder on the LV base. -/
def loopedFeederRatings : Ratings where
  nominalKv _ := some (415 / 1000)
  baseLoadKw n := if n = "S" then none else some 5
  baseLoadKvar _ := none
  resistanceROhm _ := some (1 / 20)
  reactanceXOhm _ := some (1 / 40)

def loopedFeederTelemetry : Dict NodeTelemetry :=
  [("B", { pKw := some 4, voltagePu := some (98 / 100) })]

theorem loopedFeeder_estimated :
    (loopedFeeder.substations = [] ∧
      estimate 3 loopedFeeder.nodes loopedFeeder.edges loopedFeederRatings
        loopedFeederTelemetry {} = throw (.other "no substation/source node")) ∨
      ∃ est : Estimate, estimate 3 loopedFeeder.nodes loopedFeeder.edges loopedFeederRatings
          loopedFeederTelemetry {} = pure est ∧
        ∀ x, x ≠ est.xhat → objectiveJ est.rows est.xhat < objectiveJ est.rows x := by
  refine estimate_minimises loopedFeeder (by decide) loopedFeederRatings loopedFeederTelemetry
    fun t ht => ?_
  exact (ncol_le loopedFeeder (by decide) ht).trans_lt (by decide)

theorem loopedFeeder_reconstructed :
    ∃ t, buildRadial 3 loopedFeeder.nodes loopedFeeder.edges = pure t ∧
      ∃ pu, impedances loopedFeederRatings t = .ok pu ∧
        (∀ xhat : Fin t.ncol → ℚ, ∀ n ∈ t.energized, ∃ row v, vSensitivityRow t pu n = .ok row ∧
          voltagePu t pu xhat n = .ok v ∧ 1 - v = row ⬝ᵥ xhat) ∧
        (∀ (xhat : Fin t.ncol → ℚ) (n : GridNode), n.nodeId ∈ t.energized →
          ∃ v result, voltagePu t pu xhat n.nodeId = .ok v ∧
            nodeEstimate t pu xhat n = .ok result ∧
              result.estimatedVoltagePu = some (roundTo 4 v)) ∧
        ∀ measurements opt, ∃ rows,
          measurementRows t pu loopedFeederRatings measurements opt = .ok rows ∧
          ∀ (xhat : Fin t.ncol → ℚ) (k : Fin rows.length), (rows.get k).kind = .meterV →
            ∃ v measured, voltagePu t pu xhat (rows.get k).node = .ok v ∧
              ((measurements.get? (rows.get k).node).getD {}).voltagePu = some measured ∧
              resid rows xhat k = v - measured := by
  obtain ⟨t, found, hbuild, -⟩ := buildRadial_represents loopedFeeder (by decide) le_rfl
  exact ⟨t, hbuild, voltage_reconstructed loopedFeeder (by decide) hbuild loopedFeederRatings⟩

end DiepLab.StateEstimation
