import DiepLab.Dms.LoopTest
import DiepLab.Dms.PowerFlow
import DiepLab.Library.FirstLeast
import Mathlib.Data.Prod.Lex

/-!
Optimal reconfiguration.

`recommend` tries every combination of the reconfigurable switches and keeps
the best feasible one: least loss, and among losses that agree up to a small
epsilon the fewest switch moves. Losses come rounded to three decimals, so the
epsilon only ever identifies equal ones (`lt_sub_eps_iff`, `abs_sub_le_eps_iff`),
and the loop is a scan for the first least pair of loss and moves: its
invariant is `Scanned`, over the combinations tried so far.

The evaluation of a combination is an argument of `recommendWith`;
`recommend` is the case of the feasibility check and the power flow.
-/

namespace DiepLab.Reconfiguration

/-- Switches eligible for reconfiguration: switchable sectionalizers and ties,
excluding device-islanding breakers. -/
def reconfigurable (edges : List GridEdge) : List GridEdge :=
  edges.filter fun e => e.isSwitchable && decide (e.edgeType = .switch ∨ e.edgeType = .tie) &&
    decide (e.attrs.role ≠ some "islanding_breaker")

/-- What a configuration is judged by. -/
structure Metrics where
  lossKw : ℚ
  violations : ℕ
  maxLoadingPct : ℚ
  loss_rounded : ∃ k : ℤ, lossKw = k / 1000

structure Evaluation where
  metrics : Metrics
  switchState : Dict Bool

/-- The highest branch loading; an unrated branch counts as idle. -/
def maxLoadingPct (loadings : List (Option ℚ)) : ℚ :=
  match loadings.map fun l => l.getD 0 with
  | [] => 0
  | l :: rest => rest.foldl max l

/-- `_evaluate`, its judgement: none if the configuration is infeasible or the
power flow does not converge. -/
def judge (solve : Solver) (nodes : List GridNode) (loads : Loads) (edges : List GridEdge) :
    Option Metrics :=
  if (radialFeasible nodes edges).1 then
    let res := solve nodes edges loads
    if res.converged then
      some ⟨res.totalLossKw, res.violationCount,
        roundTo 1 (maxLoadingPct res.loadingPct), res.loss_rounded⟩
    else none
  else none

/-- The state of the reconfigurable switches. -/
def switchState (edges : List GridEdge) : Dict Bool :=
  (reconfigurable edges).map fun e => (e.edgeId, e.isClosed)

/-- `_evaluate`: the judgement together with the switch state. -/
def evaluate (judge : List GridEdge → Option Metrics) (edges : List GridEdge) :
    Option Evaluation :=
  (judge edges).map fun m => ⟨m, switchState edges⟩

/-- `itertools.product([False, True], repeat=k)`. -/
def combos : ℕ → List (List Bool)
  | 0 => [[]]
  | k + 1 => (combos k).map (false :: ·) ++ (combos k).map (true :: ·)

/-- The candidate edges of a combination. -/
def setStates (states : List (String × Bool)) (edges : List GridEdge) : List GridEdge :=
  states.foldl (fun es kv => setClosed kv.1 kv.2 es) edges

/-- The running best: the evaluation, the combination as a map and the number
of switches it moves. -/
structure Best where
  evaluation : Evaluation
  combo : Dict Bool
  changes : ℕ

def eps : ℚ := 1 / 1000000

/-- The switches that a combination moves. -/
def moved (swIds : List String) (current combo : Dict Bool) : List String :=
  swIds.filter fun eid => combo.get? eid ≠ current.get? eid

/-- Minimise loss; tie-break (within `eps`) on fewest switching changes. -/
def better (lossKw : ℚ) (changes : ℕ) : Option Best → Bool
  | none => true
  | some b =>
      decide (lossKw < b.evaluation.metrics.lossKw - eps) ||
        (decide (|lossKw - b.evaluation.metrics.lossKw| ≤ eps) && decide (changes < b.changes))

/-- What the search loop carries. -/
structure Search where
  best : Option Best
  evaluated : ℕ
  feasibleCount : ℕ

/-- One turn of the search. -/
def tryCombo (judge : List GridEdge → Option Metrics) (edges : List GridEdge)
    (swIds : List String) (current : Dict Bool) (s : Search) (combo : List Bool) : Search :=
  match evaluate judge (setStates (swIds.zip combo) edges) with
  | none => { s with evaluated := s.evaluated + 1 }
  | some m =>
      let comboMap : Dict Bool := swIds.zip combo
      let changes := (moved swIds current comboMap).length
      { best := if better m.metrics.lossKw changes s.best then some ⟨m, comboMap, changes⟩
          else s.best
        evaluated := s.evaluated + 1
        feasibleCount := s.feasibleCount + 1 }

structure PlanStep where
  edgeId : String
  /-- `close` rather than `open`. -/
  closes : Bool
  deriving DecidableEq

/-- The difference from the current state. -/
def planFor (swIds : List String) (current : Dict Bool) (best : Option Best) : List PlanStep :=
  match best with
  | none => []
  | some b => (moved swIds current b.combo).map fun eid => ⟨eid, (b.combo.get? eid).getD false⟩

structure Recommendation where
  method : String
  reconfigurableSwitches : List String
  evaluated : ℕ
  feasibleCount : ℕ
  current : Option Evaluation
  recommended : Option Evaluation
  switchingPlan : List PlanStep
  actionRequired : Bool
  lossReductionKw : Option ℚ
  lossReductionPct : Option ℚ
  note : String

def search (judge : List GridEdge → Option Metrics) (edges : List GridEdge) : Search :=
  let swIds := (reconfigurable edges).map GridEdge.edgeId
  (combos swIds.length).foldl (tryCombo judge edges swIds (switchState edges)) ⟨none, 0, 0⟩

def recommendWith (judge : List GridEdge → Option Metrics) (edges : List GridEdge) :
    Recommendation :=
  let swIds := (reconfigurable edges).map GridEdge.edgeId
  let current := evaluate judge edges
  let found := search judge edges
  let plan := planFor swIds (switchState edges) found.best
  let improvement := match current, found.best with
    | some c, some b => some (roundTo 3 (c.metrics.lossKw - b.evaluation.metrics.lossKw))
    | _, _ => none
  { method := "exhaustive over reconfigurable switches; objective = min total I²R loss, " ++
      "subject to radial + fully-served + no voltage/thermal violation"
    reconfigurableSwitches := swIds
    evaluated := found.evaluated
    feasibleCount := found.feasibleCount
    current := current
    recommended := found.best.map Best.evaluation
    switchingPlan := plan
    actionRequired := !plan.isEmpty
    lossReductionKw := improvement
    lossReductionPct := match current, improvement with
      | some c, some i =>
          if c.metrics.lossKw = 0 then none else some (roundTo 1 (100 * i / c.metrics.lossKw))
      | _, _ => none
    note := "recommendation only — execute via governed OC-2 switch / FLISR control actions" }

/-- Search switch configurations for the minimum-loss feasible radial one. -/
def recommend (solve : Solver) (nodes : List GridNode) (edges : List GridEdge) (loads : Loads) :
    Recommendation :=
  recommendWith (judge solve nodes loads) edges

/-! ### Combinations -/

theorem mem_combos {k : ℕ} {c : List Bool} : c ∈ combos k ↔ c.length = k := by
  induction k generalizing c with
  | zero => rw [combos, List.mem_singleton, List.length_eq_zero_iff]
  | succ k ih =>
      rw [combos, List.mem_append, List.mem_map, List.mem_map]
      cases c with
      | nil => simp
      | cons b c =>
          rw [List.length_cons, Nat.succ_inj, ← ih]
          cases b <;> simp

theorem length_combos (k : ℕ) : (combos k).length = 2 ^ k := by
  induction k with
  | zero => rfl
  | succ k ih =>
      rw [combos, List.length_append, List.length_map, List.length_map, ih, Nat.pow_succ]
      omega

/-! ### Switch states -/

/-- Setting states one by one sets each edge to the value of its id. -/
theorem setStates_eq_map {states : List (String × Bool)} (h : (states.map Prod.fst).Nodup)
    (edges : List GridEdge) :
    setStates states edges =
      edges.map fun e => { e with isClosed := (Dict.get? states e.edgeId).getD e.isClosed } := by
  induction states generalizing edges with
  | nil =>
      rw [setStates, List.foldl_nil]
      simp
  | cons kv states ih =>
      obtain ⟨k, b⟩ := kv
      rw [List.map_cons, List.nodup_cons] at h
      rw [setStates, List.foldl_cons, ← setStates, ih h.2, setClosed, List.map_map]
      refine List.map_congr_left fun e _ => ?_
      simp only [Function.comp_apply]
      by_cases hid : e.edgeId = k
      · have hnone : Dict.get? states k = none := Dict.get?_eq_none h.1
        simp [hid, Dict.get?_cons, hnone]
      · simp [hid, Dict.get?_cons, Ne.symm hid]

/-- Eligibility does not depend on the switch state. -/
theorem reconfigurable_map_isClosed (f : GridEdge → Bool) (edges : List GridEdge) :
    reconfigurable (edges.map fun e => { e with isClosed := f e }) =
      (reconfigurable edges).map fun e => { e with isClosed := f e } := by
  rw [reconfigurable, List.filter_map]
  rfl

/-- A combination read back by its keys, entry by entry. -/
theorem map_get?_zip {rows : List GridEdge} (hnodup : (rows.map GridEdge.edgeId).Nodup)
    {combo : List Bool} (hlen : combo.length = (rows.map GridEdge.edgeId).length) :
    (rows.map fun e => (e.edgeId,
        (Dict.get? ((rows.map GridEdge.edgeId).zip combo) e.edgeId).getD e.isClosed)) =
      (rows.map GridEdge.edgeId).zip combo := by
  induction rows generalizing combo with
  | nil => rfl
  | cons e rows ih =>
      cases combo with
      | nil => exact nomatch hlen
      | cons b combo =>
          rw [List.map_cons, List.nodup_cons] at hnodup
          rw [List.map_cons, List.map_cons, List.zip_cons_cons, Dict.get?_cons, if_pos rfl]
          refine congrArg₂ List.cons rfl ?_
          rw [← ih hnodup.2 (Nat.succ.inj hlen)]
          refine List.map_congr_left fun f hf => ?_
          have hne : e.edgeId ≠ f.edgeId :=
            fun h => hnodup.1 (h ▸ List.mem_map_of_mem hf)
          rw [Dict.get?_cons, if_neg hne, ih hnodup.2 (Nat.succ.inj hlen)]

section Ids

variable {edges : List GridEdge} (hkey : EdgeKey edges)

/-- `sw_ids`. -/
def switchIds (edges : List GridEdge) : List String :=
  (reconfigurable edges).map GridEdge.edgeId

include hkey in
theorem nodup_switchIds : (switchIds edges).Nodup :=
  hkey.sublist (List.filter_sublist.map _)

theorem map_fst_switchState : (switchState edges).map Prod.fst = switchIds edges := by
  rw [switchState, List.map_map]
  rfl

theorem map_fst_zip {combo : List Bool} (hlen : combo.length = (switchIds edges).length) :
    ((switchIds edges).zip combo).map Prod.fst = switchIds edges :=
  List.map_fst_zip (Nat.le_of_eq hlen.symm)

include hkey in
/-- The state that a combination leaves is the combination. -/
theorem switchState_setStates {combo : List Bool}
    (hlen : combo.length = (switchIds edges).length) :
    switchState (setStates ((switchIds edges).zip combo) edges) =
      (switchIds edges).zip combo := by
  have hfst := map_fst_zip hlen
  have hnodup := nodup_switchIds hkey
  have hstate : switchState (setStates ((switchIds edges).zip combo) edges) =
      (reconfigurable edges).map fun e => (e.edgeId,
        (Dict.get? ((switchIds edges).zip combo) e.edgeId).getD e.isClosed) := by
    rw [setStates_eq_map (by rw [hfst]; exact hnodup), switchState,
      reconfigurable_map_isClosed, List.map_map]
    rfl
  rw [hstate]
  exact map_get?_zip hnodup hlen

include hkey in
/-- The current state is one of the combinations. -/
theorem setStates_switchState : setStates (switchState edges) edges = edges := by
  have hget : ∀ e ∈ edges, (Dict.get? (switchState edges) e.edgeId).getD e.isClosed =
      e.isClosed := by
    intro e he
    cases hfind : Dict.get? (switchState edges) e.edgeId with
    | none => rfl
    | some b =>
        have hmem : ∀ rows : List GridEdge, (∀ f ∈ rows, f ∈ edges) →
            Dict.get? (rows.map fun f => (f.edgeId, f.isClosed)) e.edgeId = some b →
            b = e.isClosed := by
          intro rows hrows hb
          induction rows with
          | nil => exact nomatch hb
          | cons f rows ih =>
              rw [List.forall_mem_cons] at hrows
              rw [List.map_cons, Dict.get?_cons] at hb
              split at hb
              · rename_i hid
                rw [← hkey.eq hrows.1 he hid]
                exact (Option.some.inj hb).symm
              · exact ih hrows.2 hb
        exact hmem _ (fun f hf => List.mem_of_mem_filter hf) hfind
  rw [setStates_eq_map (by rw [map_fst_switchState]; exact nodup_switchIds hkey)]
  conv_rhs => rw [← List.map_id edges]
  refine List.map_congr_left fun e he => ?_
  rw [hget e he]
  rfl

end Ids

end DiepLab.Reconfiguration
