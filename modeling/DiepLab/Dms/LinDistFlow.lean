import DiepLab.Dms.StateEstimation
import Mathlib.Algebra.BigOperators.Pi
import Mathlib.Data.Matrix.Mul

/-!
The voltages of the state estimator.

The state vector holds the injections of the energised nodes other than the root,
real and reactive in turn. What a voltage drops by is a linear function of it, and
`estimate` has it twice: as the row of a voltage measurement, summed up node by
node over the subtrees behind the edges of the path (`vSensitivityRow`), and as the
reconstruction from the branch flows (`voltagePu`). In exact arithmetic the two
are one (`voltage_along`).
-/

namespace DiepLab.StateEstimation

open Worklist SpanningTree Matrix

/-- The columns of `grid_nodes` and `grid_edges` that carry numbers, by the id of the row. -/
structure Ratings where
  nominalKv : String → Option ℚ
  baseLoadKw : String → Option ℚ
  baseLoadKvar : String → Option ℚ
  resistanceROhm : String → Option ℚ
  reactanceXOhm : String → Option ℚ

/-- `float(v or default)`. -/
def orDefault (v : Option ℚ) (default : ℚ) : ℚ :=
  match v with
  | none => default
  | some q => if q = 0 then default else q

/-- `SBASE_KW`. -/
def sbaseKw : ℚ := 1000

/-! ### Impedances -/

/-- The pu impedance of the edge `e` over which `n` was found, on the base of `n`. -/
def impedance (ratings : Ratings) (n : String) (e : GridEdge) : ℚ × ℚ :=
  let vbaseKv := orDefault (ratings.nominalKv n) (415 / 1000)
  let zbase := vbaseKv ^ 2 / (sbaseKw / 1000)
  let r := if zbase = 0 then 0 else orDefault (ratings.resistanceROhm e.edgeId) 0 / zbase
  let x := if zbase = 0 then 0 else orDefault (ratings.reactanceXOhm e.edgeId) 0 / zbase
  (r, x)

/-- `pu[e["edge_id"]] = (r, x)`. -/
def addImpedance (ratings : Ratings) (t : RadialTree) (pu : Dict (ℚ × ℚ)) (n : String) :
    Except Exc (Dict (ℚ × ℚ)) :=
  if n = t.root then pure pu
  else do
    let e ← lookup t.parentEdge n
    pure (pu.set e.edgeId (impedance ratings n e))

/-- `pu` of `build_radial`. -/
def impedances (ratings : Ratings) (t : RadialTree) : Except Exc (Dict (ℚ × ℚ)) :=
  t.order.foldlM (addImpedance ratings t) []

/-! ### The state vector -/

/-- `state_nodes`. -/
def RadialTree.stateNodes (t : RadialTree) : List String := t.order.filter fun n => n ≠ t.root

def RadialTree.ncol (t : RadialTree) : ℕ := 2 * t.stateNodes.length

theorem RadialTree.idxOf_lt {t : RadialTree} {nid : String} (h : nid ∈ t.stateNodes) :
    2 * t.stateNodes.idxOf nid + 1 < t.ncol := by
  have := List.idxOf_lt_length_iff.mpr h
  unfold RadialTree.ncol
  omega

/-- The column of the real injection. -/
def RadialTree.ip (t : RadialTree) (nid : String) : Option (Fin t.ncol) :=
  if h : nid ∈ t.stateNodes then
    some ⟨2 * t.stateNodes.idxOf nid, (Nat.lt_succ_self _).trans (t.idxOf_lt h)⟩
  else none

/-- The column of the reactive injection. -/
def RadialTree.iq (t : RadialTree) (nid : String) : Option (Fin t.ncol) :=
  if h : nid ∈ t.stateNodes then some ⟨2 * t.stateNodes.idxOf nid + 1, t.idxOf_lt h⟩ else none

section Vector

variable {k : ℕ}

/-- `inj(nid, idx)`, of the column that `idx` has for the node. -/
def inj (xhat : Fin k → ℚ) (idx : Option (Fin k)) : ℚ :=
  match idx with
  | some i => xhat i
  | none => 0

/-- A row of noughts but for the one column. -/
def unitRow (idx : Option (Fin k)) (a : ℚ) : Fin k → ℚ :=
  match idx with
  | some i => Pi.single i a
  | none => 0

@[simp] theorem unitRow_dotProduct (idx : Option (Fin k)) (a : ℚ) (xhat : Fin k → ℚ) :
    unitRow idx a ⬝ᵥ xhat = a * inj xhat idx := by
  cases idx with
  | none => simp [unitRow, inj]
  | some i => exact single_dotProduct xhat a i

end Vector

/-! ### The two voltages -/

/-- What the edge `e` adds to the row: its impedance at every node behind it. -/
def addEdge (t : RadialTree) (pu : Dict (ℚ × ℚ)) (row : Fin t.ncol → ℚ) (e : GridEdge) :
    Except Exc (Fin t.ncol → ℚ) := do
  let (rPu, xPu) ← lookup pu e.edgeId
  let below ← lookup t.subtree e.edgeId
  pure (row + ∑ k ∈ below,
    (unitRow (t.ip k) (rPu / sbaseKw) + unitRow (t.iq k) (xPu / sbaseKw)))

/-- Row of ∂(1−V)/∂x for a (hypothetical or real) voltage at `nodeId`. -/
def vSensitivityRow (t : RadialTree) (pu : Dict (ℚ × ℚ)) (nodeId : String) :
    Except Exc (Fin t.ncol → ℚ) :=
  ((t.pathEdges.get? nodeId).getD []).foldlM (addEdge t pu) 0

/-- `P`, `Q` of an edge: the sums of the injections behind it. -/
def branchFlow (t : RadialTree) (xhat : Fin t.ncol → ℚ) (below : Finset String) : ℚ × ℚ :=
  (∑ k ∈ below, inj xhat (t.ip k), ∑ k ∈ below, inj xhat (t.iq k))

/-- The voltage behind the edge `e`. -/
def dropAlong (t : RadialTree) (pu : Dict (ℚ × ℚ)) (xhat : Fin t.ncol → ℚ) (v : ℚ)
    (e : GridEdge) : Except Exc ℚ := do
  let (rPu, xPu) ← lookup pu e.edgeId
  let below ← lookup t.subtree e.edgeId
  let (p, q) := branchFlow t xhat below
  pure (v - (rPu * p + xPu * q) / sbaseKw)

/-- `voltage_pu`. -/
def voltagePu (t : RadialTree) (pu : Dict (ℚ × ℚ)) (xhat : Fin t.ncol → ℚ) (nid : String) :
    Except Exc ℚ :=
  ((t.pathEdges.get? nid).getD []).foldlM (dropAlong t pu xhat) 1

/-- One edge adds to the row what it takes from the voltage. -/
theorem drop_eq_dotProduct (t : RadialTree) (z : ℚ × ℚ) (below : Finset String)
    (xhat : Fin t.ncol → ℚ) :
    (∑ k ∈ below, (unitRow (t.ip k) (z.1 / sbaseKw) + unitRow (t.iq k) (z.2 / sbaseKw))) ⬝ᵥ xhat =
      (z.1 * (branchFlow t xhat below).1 + z.2 * (branchFlow t xhat below).2) / sbaseKw := by
  rw [sum_dotProduct]
  simp only [add_dotProduct, unitRow_dotProduct, Finset.sum_add_distrib, branchFlow]
  rw [← Finset.mul_sum, ← Finset.mul_sum, add_div, mul_div_right_comm, mul_div_right_comm]

/-- Along a path whose edges have an impedance and a subtree, the row and the voltage
stay together. -/
theorem voltage_along {t : RadialTree} {pu : Dict (ℚ × ℚ)} (path : List GridEdge)
    (hpath : ∀ e ∈ path, ∃ z below, lookup pu e.edgeId = .ok z ∧
      lookup t.subtree e.edgeId = .ok below) (row : Fin t.ncol → ℚ) :
    ∃ row', path.foldlM (addEdge t pu) row = .ok row' ∧
      ∀ xhat v, 1 - v = row ⬝ᵥ xhat →
        ∃ v', path.foldlM (dropAlong t pu xhat) v = .ok v' ∧ 1 - v' = row' ⬝ᵥ xhat := by
  induction path generalizing row with
  | nil => exact ⟨row, rfl, fun xhat v h => ⟨v, rfl, h⟩⟩
  | cons e path ih =>
      obtain ⟨⟨z, below, hz, hbelow⟩, hrest⟩ := List.forall_mem_cons.mp hpath
      have hadd : addEdge t pu row e = .ok (row + ∑ k ∈ below,
          (unitRow (t.ip k) (z.1 / sbaseKw) + unitRow (t.iq k) (z.2 / sbaseKw))) := by
        rw [addEdge, hz, hbelow]
        rfl
      obtain ⟨row', hrow', hv'⟩ := ih hrest (row + ∑ k ∈ below,
        (unitRow (t.ip k) (z.1 / sbaseKw) + unitRow (t.iq k) (z.2 / sbaseKw)))
      refine ⟨row', ?_, fun xhat v hv => ?_⟩
      · rw [List.foldlM_cons, hadd]
        exact hrow'
      · have hdrop : dropAlong t pu xhat v e = .ok (v -
            (z.1 * (branchFlow t xhat below).1 + z.2 * (branchFlow t xhat below).2) / sbaseKw) := by
          rw [dropAlong, hz, hbelow]
          rfl
        rw [List.foldlM_cons, hdrop]
        refine hv' xhat _ ?_
        rw [add_dotProduct, ← hv, drop_eq_dotProduct]
        ring

/-! ### On a network -/

section Tree

variable {net : Network} {t : RadialTree} {found : List (Found String GridEdge)}
  (h : Represents net t found) (ratings : Ratings)
include h

/-- Every edge of the tree has the impedance on the base of the node that it has led to. -/
theorem impedances_eq : ∃ pu, impedances ratings t = .ok pu ∧
    ∀ f ∈ found, Dict.get? pu f.edge.edgeId = some (impedance ratings f.node f.edge) := by
  obtain ⟨pu, hrun, hpu⟩ : ∃ pu, impedances ratings t = .ok pu ∧ ∀ f ∈ found,
      ∃ v, Dict.get? pu f.edge.edgeId = some v ∧ v = impedance ratings f.node f.edge := by
    refine foldlM_edges h.tree (fun f hf g hg => found_eq_of_edgeId net h.tree hf hg)
      (fun d => if_pos rfl) fun f hf d => ⟨_, ?_, rfl⟩
    rw [addImpedance, if_neg (h.tree.node_ne_root hf), lookup_eq (h.parentEdge_get? hf)]
    rfl
  refine ⟨pu, hrun, fun f hf => ?_⟩
  obtain ⟨v, hv, rfl⟩ := hpu f hf
  exact hv

/-- No lookup along a path fails. -/
theorem path_lookups {pu : Dict (ℚ × ℚ)}
    (hpu : ∀ f ∈ found, Dict.get? pu f.edge.edgeId = some (impedance ratings f.node f.edge))
    {n : String} (hn : n ∈ t.order) (e : GridEdge) (he : e ∈ (t.pathEdges.get? n).getD []) :
    ∃ z below, lookup pu e.edgeId = .ok z ∧ lookup t.subtree e.edgeId = .ok below := by
  obtain ⟨path, hpath⟩ := h.tree.exists_path hn
  rw [h.pathEdges n path (Or.inr hn) hpath] at he
  obtain ⟨f, hf, rfl⟩ := List.mem_map.mp he
  have hfound := Tree.of_mem_path hpath hf
  obtain ⟨below, hbelow, -⟩ := h.subtree f hfound
  exact ⟨_, below, lookup_eq (hpu f hfound), lookup_eq hbelow⟩

end Tree

end DiepLab.StateEstimation
