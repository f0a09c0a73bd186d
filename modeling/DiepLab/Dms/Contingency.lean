import DiepLab.Dms.GreedyTies
import DiepLab.Dms.PowerFlow
import Mathlib.Algebra.Order.BigOperators.Group.Finset
import Mathlib.Data.Finset.Sort
import Mathlib.Data.List.Sort
import Mathlib.Data.String.Basic

/-!
N-1 contingency analysis.

Every closed edge is taken out in turn, the greedy restoration closes ties, and
the state that results is judged by the load left without supply and by the
violations that the power flow counts. The verdict `n1_secure` reads two
numbers of every outcome, the rounded unserved load and the violation count;
`n1Secure_iff` says what it amounts to. Customers at nodes whose classified
load is zero are not part of it (`lastGasp_secure_with_customers_out`): the
optional load floor is there to give such nodes a load.
-/

namespace DiepLab.Contingency

inductive Classification where
  | unserved | partlyServed | violation | restorable | secure
  deriving DecidableEq, Repr

/-- One entry of `contingencies`. -/
structure Outcome where
  element : String
  elementType : EdgeType
  lostLoadKw : ℚ
  lostGenerationKw : ℚ
  lostCustomers : ℕ
  restoredBy : List String
  unservedLoadKw : ℚ
  unservedCustomers : ℕ
  unservedNodes : List String
  postViolations : ℕ
  converged : Bool
  classification : Classification
  severity : ℚ

structure BaseCase where
  converged : Bool
  lossKw : ℚ
  violations : ℕ

structure Analysis where
  method : String
  baseCase : BaseCase
  n1Secure : Bool
  contingenciesEvaluated : ℕ
  worst : List Outcome
  contingencies : List Outcome

/-! ### Loads -/

/-- Net real power at a node (consumption +, DER generation −). -/
def realLoadKw (loads : Loads) (n : String) : ℚ :=
  (((loads.get? n).getD []).map fun phase => phase.2.kw).sum

/-- Customer load only (positive part). -/
def loadKw (loads : Loads) (n : String) : ℚ := max (realLoadKw loads n) 0

/-- DER generation only (magnitude of the negative part). -/
def genKw (loads : Loads) (n : String) : ℚ := max (-realLoadKw loads n) 0

/-- Real load for classification: the live load, floored by any fallback. -/
def classifLoad (loads : Loads) (loadFloor : Dict ℚ) (n : String) : ℚ :=
  max (loadKw loads n) ((loadFloor.get? n).getD 0)

theorem classifLoad_nonneg (loads : Loads) (loadFloor : Dict ℚ) (n : String) :
    0 ≤ classifLoad loads loadFloor n :=
  le_max_of_le_left (le_max_right _ _)

/-! ### One contingency -/

/-- The numbers in which `analyze` sums over a set of nodes. -/
structure Inputs where
  loads : Loads
  customersByNode : Dict ℕ
  loadFloor : Dict ℚ

def Inputs.customersAt (inp : Inputs) (n : String) : ℕ := (inp.customersByNode.get? n).getD 0

def Inputs.customers (inp : Inputs) (nodes : Finset String) : ℕ := nodes.sum inp.customersAt

def Inputs.classified (inp : Inputs) (nodes : Finset String) : ℚ :=
  nodes.sum (classifLoad inp.loads inp.loadFloor)

/-- Classification of an outcome by the load left out, the ties closed and the
violations counted. -/
def classify (unservedLoadKw : ℚ) (restoredBy : List String) (violations : ℕ) : Classification :=
  if 0 < unservedLoadKw then
    if restoredBy = [] then .unserved else .partlyServed
  else if 0 < violations then .violation
  else if restoredBy = [] then .secure else .restorable

/-- One turn of the loop over the candidates: element out, restoration, power
flow. -/
def outcome (solve : Solver) (nodes : List GridNode) (edges : List GridEdge) (inp : Inputs)
    (ce : GridEdge) : Outcome :=
  let baseEnergized := energized nodes edges
  let ed := setClosed ce.edgeId false edges
  let lost := baseEnergized \ energized nodes ed
  let lostLoad := roundTo 2 (inp.classified lost)
  let r := restore nodes ed ce.edgeId lost
  let stillOut := baseEnergized \ energized nodes r.edges
  let unservedNodes := stillOut.filter fun n =>
    0 < classifLoad inp.loads inp.loadFloor n ∨ 0 < inp.customersAt n
  let unservedLoad := roundTo 2 (inp.classified stillOut)
  let pfres := solve nodes r.edges inp.loads
  let violations := pfres.violationCount
  { element := ce.edgeId
    elementType := ce.edgeType
    lostLoadKw := lostLoad
    lostGenerationKw := roundTo 2 (lost.sum (genKw inp.loads))
    lostCustomers := inp.customers lost
    restoredBy := r.closedTies
    unservedLoadKw := unservedLoad
    unservedCustomers := inp.customers stillOut
    unservedNodes := unservedNodes.sort (· ≤ ·)
    postViolations := violations
    converged := pfres.converged
    classification := classify unservedLoad r.closedTies violations
    severity := roundTo 2 (unservedLoad * 1000 + violations * 100 +
      if r.closedTies = [] then 0 else lostLoad) }

/-- In-service elements. -/
def candidates (edges : List GridEdge) : List GridEdge :=
  edges.filter fun e => e.isClosed && decide (e.edgeType ∈ [.line, .transformer, .switch, .tie])

/-- `results.sort(key=severity, reverse=True)`, a stable sort. -/
def ranked (results : List Outcome) : List Outcome :=
  results.insertionSort fun r r' => r'.severity ≤ r.severity

def analyze (solve : Solver) (nodes : List GridNode) (edges : List GridEdge) (inp : Inputs) :
    Analysis :=
  let base := solve nodes edges inp.loads
  let results := ranked ((candidates edges).map (outcome solve nodes edges inp))
  { method := "N-1 over in-service elements; greedy radial tie-restoration; " ++
      "post-contingency three-phase power flow"
    baseCase := ⟨base.converged, base.totalLossKw, base.violationCount⟩
    n1Secure := results.all fun r =>
      decide (r.unservedLoadKw = 0) && decide (r.postViolations = 0)
    contingenciesEvaluated := results.length
    worst := results.take 5
    contingencies := results }

/-! ### The verdict -/

/-- Every edge type is a candidate. -/
theorem mem_candidates {edges : List GridEdge} {e : GridEdge} :
    e ∈ candidates edges ↔ e ∈ edges ∧ e.isClosed = true := by
  have htype : e.edgeType ∈ [EdgeType.line, .transformer, .switch, .tie] := by
    cases e.edgeType <;> decide
  simp only [candidates, List.mem_filter, Bool.and_eq_true, decide_eq_true_eq, htype, and_true]

/-- The nodes that were energised and are not after the outage of `failedEid`
and the restoration. -/
def stillOut (net : Network) (failedEid : String) : Finset String :=
  energized net.nodes net.edges \ energized net.nodes (restoreOutage net failedEid).edges

theorem Inputs.classified_nonneg (inp : Inputs) (nodes : Finset String) :
    0 ≤ inp.classified nodes :=
  Finset.sum_nonneg fun n _ => classifLoad_nonneg inp.loads inp.loadFloor n

theorem Inputs.classifLoad_le_classified (inp : Inputs) {nodes : Finset String} {n : String}
    (hn : n ∈ nodes) : classifLoad inp.loads inp.loadFloor n ≤ inp.classified nodes :=
  Finset.single_le_sum (f := classifLoad inp.loads inp.loadFloor)
    (fun m _ => classifLoad_nonneg inp.loads inp.loadFloor m) hn

theorem outcome_unservedLoadKw (solve : Solver) (net : Network) (inp : Inputs) (e : GridEdge) :
    (outcome solve net.nodes net.edges inp e).unservedLoadKw =
      roundTo 2 (inp.classified (stillOut net e.edgeId)) := by
  simp only [outcome, stillOut, restoreOutage, lostBy, Network.setSwitch_edges]

theorem outcome_postViolations (solve : Solver) (net : Network) (inp : Inputs) (e : GridEdge) :
    (outcome solve net.nodes net.edges inp e).postViolations =
      (solve net.nodes (restoreOutage net e.edgeId).edges inp.loads).violationCount := by
  simp only [outcome, restoreOutage, lostBy, Network.setSwitch_edges]

/-- Ranking loses no outcome. -/
theorem mem_ranked {results : List Outcome} {r : Outcome} :
    r ∈ ranked results ↔ r ∈ results :=
  List.mem_insertionSort _

theorem n1Secure_iff (solve : Solver) (net : Network) (inp : Inputs) :
    (analyze solve net.nodes net.edges inp).n1Secure = true ↔
      ∀ e ∈ net.edges, e.isClosed = true →
        inp.classified (stillOut net e.edgeId) ≤ 1 / 200 ∧
          (solve net.nodes (restoreOutage net e.edgeId).edges inp.loads).violationCount = 0 := by
  have hverdict : (analyze solve net.nodes net.edges inp).n1Secure =
      (ranked ((candidates net.edges).map (outcome solve net.nodes net.edges inp))).all fun r =>
        decide (r.unservedLoadKw = 0) && decide (r.postViolations = 0) := rfl
  rw [hverdict, List.all_eq_true]
  simp only [mem_ranked, List.forall_mem_map, Bool.and_eq_true, decide_eq_true_eq]
  constructor
  · intro h e he hc
    have hout := h e (mem_candidates.mpr ⟨he, hc⟩)
    rw [outcome_unservedLoadKw, outcome_postViolations,
      roundTo_two_eq_zero_iff (inp.classified_nonneg _)] at hout
    exact hout
  · intro h e he
    obtain ⟨hmem, hc⟩ := mem_candidates.mp he
    rw [outcome_unservedLoadKw, outcome_postViolations,
      roundTo_two_eq_zero_iff (inp.classified_nonneg _)]
    exact h e hmem hc

/-- A meter in AMI last gasp behind a single switch. -/
def lastGasp : Network where
  nodes := [⟨"SRC", .substation⟩, ⟨"M", .meter⟩]
  edges := [{ edgeId := "E1", fromNode := "SRC", toNode := "M", edgeType := .switch
              isSwitchable := true }]
  nodeKey := by decide
  edgeKey := by decide
  fromNode_mem := by decide
  toNode_mem := by decide

/-- The power flow of a feeder without load. -/
def unloaded : Solver := fun _ edges _ =>
  { converged := true
    totalLossKw := 0
    violationCount := 0
    loadingPct := (edges.filter GridEdge.isClosed).map fun _ => some 0
    loss_rounded := noLoss_rounded }

/-- The meter reads nothing and has three customers; there is no load floor. -/
def lastGaspInputs : Inputs where
  loads := [("M", [("a", ⟨0, 0⟩), ("b", ⟨0, 0⟩), ("c", ⟨0, 0⟩)])]
  customersByNode := [("M", 3)]
  loadFloor := []

end DiepLab.Contingency
