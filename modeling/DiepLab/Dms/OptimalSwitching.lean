import DiepLab.Dms.Contingency
import DiepLab.Dms.Reconfiguration
import DiepLab.Grid.Radial

/-!
What the reconfiguration search recommends.

The cost of a combination is its loss together with the number of switches it
moves, compared in this order. The search keeps the first least one
(`search_spec`), the plan is the way from the current state to it
(`apply_planFor`), and a current state that is already optimal needs no plan.
For the power flow this is `recommend_acceptable_iff`: the recommendation is
radial, serves every load and has converged because the judgement asks for
these, but violations are counted and never asked for.
-/

namespace DiepLab.Reconfiguration

/-! ### Losses rounded to three decimals -/

section Eps

variable {x y : ℚ} (hx : ∃ k : ℤ, x = k / 1000) (hy : ∃ k : ℤ, y = k / 1000)

include hx hy

theorem lt_sub_eps_iff : x < y - eps ↔ x < y := by
  obtain ⟨j, rfl⟩ := hx
  obtain ⟨k, rfl⟩ := hy
  constructor
  · intro h
    unfold eps at h
    linarith
  · intro h
    have hjk : (j : ℚ) < k := by linarith
    have hint : j + 1 ≤ k := by exact_mod_cast hjk
    have hq : (j : ℚ) + 1 ≤ k := by exact_mod_cast hint
    unfold eps
    linarith

theorem abs_sub_le_eps_iff : |x - y| ≤ eps ↔ x = y := by
  constructor
  · intro h
    rw [abs_le] at h
    have hpos : (0 : ℚ) < eps := by unfold eps; norm_num
    rcases lt_trichotomy x y with hlt | heq | hgt
    · have := (lt_sub_eps_iff hx hy).mpr hlt
      linarith
    · exact heq
    · have := (lt_sub_eps_iff hy hx).mpr hgt
      linarith
  · rintro rfl
    rw [sub_self, abs_zero]
    unfold eps
    norm_num

end Eps

/-- A candidate replaces the best exactly when its pair of loss and moves is
smaller. -/
theorem better_some_iff (m : Metrics) (changes : ℕ) (b : Best) :
    better m.lossKw changes (some b) = true ↔
      toLex (m.lossKw, changes) < toLex (b.evaluation.metrics.lossKw, b.changes) := by
  rw [better, Bool.or_eq_true, Bool.and_eq_true, decide_eq_true_eq, decide_eq_true_eq,
    decide_eq_true_eq, lt_sub_eps_iff m.loss_rounded b.evaluation.metrics.loss_rounded,
    abs_sub_le_eps_iff m.loss_rounded b.evaluation.metrics.loss_rounded, Prod.Lex.toLex_lt_toLex]

/-! ### The search -/

section Search

variable (judge : List GridEdge → Option Metrics) (edges : List GridEdge)

/-- The edges under a combination. -/
def underCombo (combo : List Bool) : List GridEdge :=
  setStates ((switchIds edges).zip combo) edges

/-- How many switches a combination moves. -/
def changes (combo : List Bool) : ℕ :=
  (moved (switchIds edges) (switchState edges) ((switchIds edges).zip combo)).length

/-- Loss and moves of a feasible combination. -/
def cost (combo : List Bool) : Option (ℚ ×ₗ ℕ) :=
  (judge (underCombo edges combo)).map fun m => toLex (m.lossKw, changes edges combo)

/-- `b` records the first least combination of `pre`. -/
structure BestOf (pre : List (List Bool)) (combo : List Bool) (b : Best) : Prop where
  combo_eq : b.combo = (switchIds edges).zip combo
  evaluation_eq : evaluate judge (underCombo edges combo) = some b.evaluation
  first : FirstLeast (cost judge edges) pre combo
    (toLex (b.evaluation.metrics.lossKw, b.changes))

/-- The loop invariant, over the combinations tried so far. -/
structure Scanned (pre : List (List Bool)) (s : Search) : Prop where
  evaluated_eq : s.evaluated = pre.length
  of_none : s.best = none → ∀ c ∈ pre, cost judge edges c = none
  of_some : ∀ b, s.best = some b → ∃ c, BestOf judge edges pre c b

variable {judge edges} {pre : List (List Bool)} {s : Search} {combo : List Bool}

theorem cost_of_evaluate {m : Evaluation}
    (h : evaluate judge (underCombo edges combo) = some m) :
    cost judge edges combo = some (toLex (m.metrics.lossKw, changes edges combo)) := by
  rw [evaluate, Option.map_eq_some_iff] at h
  obtain ⟨metrics, hm, rfl⟩ := h
  rw [cost, hm]
  rfl

theorem cost_eq_none_iff :
    cost judge edges combo = none ↔ judge (underCombo edges combo) = none := by
  rw [cost, Option.map_eq_none_iff]

/-- One turn keeps the invariant. -/
theorem Scanned.tryCombo (h : Scanned judge edges pre s) :
    Scanned judge edges (pre ++ [combo])
      (tryCombo judge edges (switchIds edges) (switchState edges) s combo) := by
  rw [Reconfiguration.tryCombo]
  cases heval : evaluate judge (setStates ((switchIds edges).zip combo) edges) with
  | none =>
      -- infeasible: nothing to compare
      have hcost : cost judge edges combo = none := by
        rw [cost_eq_none_iff]
        exact Option.map_eq_none_iff.mp heval
      refine ⟨by simp [h.evaluated_eq], fun hnone => ?_, fun b hb => ?_⟩
      · exact List.forall_mem_append.mpr
          ⟨h.of_none hnone, fun c hc => List.mem_singleton.mp hc ▸ hcost⟩
      · obtain ⟨c, hc⟩ := h.of_some b hb
        refine ⟨c, hc.combo_eq, hc.evaluation_eq, hc.first.keep fun k hk => ?_⟩
        rw [hcost] at hk
        exact nomatch hk
  | some m =>
      have hcost : cost judge edges combo =
          some (toLex (m.metrics.lossKw, changes edges combo)) := cost_of_evaluate heval
      refine ⟨by simp [h.evaluated_eq], fun hnone => ?_, fun b hb => ?_⟩
      · -- a feasible combination always leaves a best one
        dsimp only at hnone
        split at hnone
        · exact nomatch hnone
        · rename_i hbetter
          rw [hnone] at hbetter
          exact absurd rfl hbetter
      · dsimp only at hb
        split at hb
        · rename_i hbetter
          obtain rfl := Option.some.inj hb
          refine ⟨combo, rfl, heval, ?_⟩
          cases hbest : s.best with
          | none => exact FirstLeast.first (h.of_none hbest) hcost
          | some b' =>
              obtain ⟨c, hc⟩ := h.of_some b' hbest
              rw [hbest] at hbetter
              exact hc.first.replace hcost ((better_some_iff m.metrics _ b').mp hbetter)
        · rename_i hworse
          obtain ⟨c, hc⟩ := h.of_some b hb
          refine ⟨c, hc.combo_eq, hc.evaluation_eq, hc.first.keep fun k hk => ?_⟩
          obtain rfl := Option.some.inj (hcost.symm.trans hk)
          rw [hb] at hworse
          exact not_lt.mp fun hlt => hworse ((better_some_iff m.metrics _ b).mpr hlt)

theorem Scanned.foldl (h : Scanned judge edges pre s) (cs : List (List Bool)) :
    Scanned judge edges (pre ++ cs)
      (cs.foldl (Reconfiguration.tryCombo judge edges (switchIds edges) (switchState edges))
        s) := by
  induction cs generalizing pre s with
  | nil =>
      rw [List.append_nil]
      exact h
  | cons c cs ih =>
      rw [List.append_cons, List.foldl_cons]
      exact ih h.tryCombo

/-- All combinations have been tried. -/
theorem search_spec (judge : List GridEdge → Option Metrics) (edges : List GridEdge) :
    Scanned judge edges (combos (switchIds edges).length) (search judge edges) := by
  have hstart : Scanned judge edges [] ⟨none, 0, 0⟩ :=
    ⟨rfl, fun _ c hc => absurd hc List.not_mem_nil, fun b hb => nomatch hb⟩
  exact hstart.foldl (combos (switchIds edges).length)

/-! ### The plan -/

/-- Carry out a plan on a switch state. -/
def applyPlan (plan : List PlanStep) (state : Dict Bool) : Dict Bool :=
  Dict.update state (plan.map fun step => (step.edgeId, step.closes))

theorem get?_zip_isSome {ids : List String} {combo : List Bool} (hlen : combo.length = ids.length)
    {k : String} (hk : k ∈ ids) : ∃ b, Dict.get? (ids.zip combo) k = some b := by
  induction ids generalizing combo with
  | nil => exact absurd hk List.not_mem_nil
  | cons i ids ih =>
      cases combo with
      | nil => exact nomatch hlen
      | cons b combo =>
          rw [List.zip_cons_cons, Dict.get?_cons]
          by_cases hi : i = k
          · exact ⟨b, if_pos hi⟩
          · rw [if_neg hi]
            exact ih (Nat.succ.inj hlen) ((List.mem_cons.mp hk).resolve_left fun h => hi h.symm)

theorem mem_moved {ids : List String} {current combo : Dict Bool} {eid : String} :
    eid ∈ moved ids current combo ↔ eid ∈ ids ∧ combo.get? eid ≠ current.get? eid := by
  rw [moved, List.mem_filter, decide_eq_true_eq]

/-- The plan leads from the current state to the combination. -/
theorem apply_planFor (hkey : EdgeKey edges) (b : Best)
    (hlen : combo.length = (switchIds edges).length)
    (hcombo : b.combo = (switchIds edges).zip combo) :
    applyPlan (planFor (switchIds edges) (switchState edges) (some b)) (switchState edges) =
      (switchIds edges).zip combo := by
  have hplan : (planFor (switchIds edges) (switchState edges) (some b)).map
      (fun step => (step.edgeId, step.closes)) =
      (moved (switchIds edges) (switchState edges) b.combo).map fun eid =>
        (eid, (b.combo.get? eid).getD false) := by
    rw [planFor, List.map_map]
    rfl
  have hmoved : ∀ eid ∈ moved (switchIds edges) (switchState edges) b.combo,
      eid ∈ switchIds edges := fun eid heid => (mem_moved.mp heid).1
  have hkeys : (applyPlan (planFor (switchIds edges) (switchState edges) (some b))
      (switchState edges)).map Prod.fst = switchIds edges := by
    rw [applyPlan, hplan, Dict.map_fst_update, map_fst_switchState]
    rintro kv hkv
    obtain ⟨eid, heid, rfl⟩ := List.mem_map.mp hkv
    rw [map_fst_switchState]
    exact hmoved eid heid
  refine Dict.eq_of_get? ?_ ?_ ?_
  · rw [hkeys]
    exact (List.map_fst_zip (Nat.le_of_eq hlen.symm)).symm
  · rw [hkeys]
    exact nodup_switchIds hkey
  intro k
  rw [applyPlan, hplan, Dict.get?_update_map, ← hcombo]
  by_cases hk : k ∈ switchIds edges
  · obtain ⟨v, hv⟩ := get?_zip_isSome hlen hk
    rw [← hcombo] at hv
    by_cases hsame : b.combo.get? k = (switchState edges).get? k
    · rw [if_neg fun h => (mem_moved.mp h).2 hsame, hsame]
    · rw [if_pos (mem_moved.mpr ⟨hk, hsame⟩), hv]
      rfl
  · have hnot : k ∉ (switchState edges).map Prod.fst := by
      rw [map_fst_switchState]
      exact hk
    have hnot' : k ∉ b.combo.map Prod.fst := by
      rw [hcombo, List.map_fst_zip (Nat.le_of_eq hlen.symm)]
      exact hk
    rw [if_neg fun h => hk (hmoved k h), Dict.get?_eq_none hnot, Dict.get?_eq_none hnot']

/-- The combination in which nothing moves. -/
def currentCombo (edges : List GridEdge) : List Bool :=
  (reconfigurable edges).map GridEdge.isClosed

theorem zip_currentCombo : (switchIds edges).zip (currentCombo edges) = switchState edges := by
  rw [switchIds, currentCombo, switchState]
  induction reconfigurable edges with
  | nil => rfl
  | cons e rest ih =>
      rw [List.map_cons, List.map_cons, List.map_cons, List.zip_cons_cons, ih]

theorem changes_currentCombo : changes edges (currentCombo edges) = 0 := by
  rw [changes, zip_currentCombo, moved, List.length_eq_zero_iff, List.filter_eq_nil_iff]
  exact fun eid _ h => of_decide_eq_true h rfl

theorem underCombo_currentCombo (hkey : EdgeKey edges) :
    underCombo edges (currentCombo edges) = edges := by
  rw [underCombo, zip_currentCombo, setStates_switchState hkey]

theorem currentCombo_mem : currentCombo edges ∈ combos (switchIds edges).length := by
  rw [mem_combos, currentCombo, switchIds, List.length_map, List.length_map]

/-! ### What is recommended -/

/-- Nothing is found only when nothing is feasible. -/
theorem search_eq_none_iff :
    (search judge edges).best = none ↔
      ∀ combo : List Bool, combo.length = (switchIds edges).length →
        judge (underCombo edges combo) = none := by
  have hscan := search_spec judge edges
  constructor
  · exact fun hnone combo hlen =>
      cost_eq_none_iff.mp (hscan.of_none hnone combo (mem_combos.mpr hlen))
  · intro hall
    cases hbest : (search judge edges).best with
    | none => rfl
    | some b =>
        obtain ⟨c, hc⟩ := hscan.of_some b hbest
        have hnone := cost_eq_none_iff.mpr (hall c (mem_combos.mp hc.first.mem))
        exact nomatch hc.first.key_eq.symm.trans hnone

namespace BestOf

variable {b : Best} (h : BestOf judge edges (combos (switchIds edges).length) combo b)
include h

theorem length_eq : combo.length = (switchIds edges).length := mem_combos.mp h.first.mem

theorem judge_eq : judge (underCombo edges combo) = some b.evaluation.metrics := by
  obtain ⟨m, hm, hmb⟩ := Option.map_eq_some_iff.mp h.evaluation_eq
  exact (congrArg Evaluation.metrics hmb : m = _) ▸ hm

theorem switchState_eq (hkey : EdgeKey edges) :
    b.evaluation.switchState = (switchIds edges).zip combo := by
  obtain ⟨m, -, hmb⟩ := Option.map_eq_some_iff.mp h.evaluation_eq
  rw [← hmb]
  exact switchState_setStates hkey h.length_eq

theorem changes_eq : b.changes = changes edges combo := by
  have hkeys := (cost_of_evaluate h.evaluation_eq).symm.trans h.first.key_eq
  exact (Prod.mk.inj (toLex.injective (Option.some.inj hkeys))).2.symm

/-- No feasible combination costs less. -/
theorem least {combo' : List Bool} {m' : Metrics}
    (hlen : combo'.length = (switchIds edges).length)
    (hm' : judge (underCombo edges combo') = some m') :
    toLex (b.evaluation.metrics.lossKw, b.changes) ≤ toLex (m'.lossKw, changes edges combo') := by
  refine h.first.le (mem_combos.mpr hlen) ?_
  rw [cost, hm']
  rfl

/-- When the current state is feasible and of least loss, the best combination
moves no switch. -/
theorem changes_eq_zero (hkey : EdgeKey edges) {m : Metrics} (hm : judge edges = some m)
    (hleast : ∀ (combo' : List Bool) (m' : Metrics), combo'.length = (switchIds edges).length →
      judge (underCombo edges combo') = some m' → m.lossKw ≤ m'.lossKw) : b.changes = 0 := by
  have hcurrent : judge (underCombo edges (currentCombo edges)) = some m := by
    rw [underCombo_currentCombo hkey, hm]
  have hle := h.least (mem_combos.mp currentCombo_mem) hcurrent
  have hloss := hleast combo _ h.length_eq h.judge_eq
  rw [changes_currentCombo] at hle
  rcases Prod.Lex.toLex_le_toLex.mp hle with hlt | ⟨-, hzero⟩
  · exact absurd hloss (not_le.mpr hlt)
  · exact Nat.le_zero.mp hzero

end BestOf

end Search

/-- **The recommendation is optimal.** It is missing only when no combination
is feasible. Otherwise it is the evaluation of a feasible combination whose
pair of loss and moves is least among all `2 ^ k` combinations of the
reconfigurable switches, the plan leads from the current state to its switch
state, and the plan is empty when the current state is feasible and of least
loss. -/
theorem recommend_optimal (judge : List GridEdge → Option Metrics) (net : Network) :
    let r := recommendWith judge net.edges
    let ids := switchIds net.edges
    r.evaluated = 2 ^ ids.length ∧
    (r.recommended = none ↔
      ∀ combo : List Bool, combo.length = ids.length →
        judge (underCombo net.edges combo) = none) ∧
    ∀ best, r.recommended = some best →
      (∃ combo : List Bool, combo.length = ids.length ∧
        judge (underCombo net.edges combo) = some best.metrics ∧
        best.switchState = ids.zip combo ∧
        ∀ (combo' : List Bool) (m' : Metrics), combo'.length = ids.length →
          judge (underCombo net.edges combo') = some m' →
          best.metrics.lossKw < m'.lossKw ∨ (best.metrics.lossKw = m'.lossKw ∧
            changes net.edges combo ≤ changes net.edges combo')) ∧
      applyPlan r.switchingPlan (switchState net.edges) = best.switchState ∧
      (∀ m, judge net.edges = some m →
        (∀ (combo' : List Bool) (m' : Metrics), combo'.length = ids.length →
          judge (underCombo net.edges combo') = some m' → m.lossKw ≤ m'.lossKw) →
        r.switchingPlan = []) := by
  intro r ids
  have hscan := search_spec judge net.edges
  have hrecommended : r.recommended = (search judge net.edges).best.map Best.evaluation := rfl
  have hplan : r.switchingPlan =
      planFor ids (switchState net.edges) (search judge net.edges).best := rfl
  refine ⟨hscan.evaluated_eq.trans (length_combos _), ?_, fun best hbest => ?_⟩
  · rw [hrecommended, Option.map_eq_none_iff]
    exact search_eq_none_iff
  · rw [hrecommended, Option.map_eq_some_iff] at hbest
    obtain ⟨b, hb, rfl⟩ := hbest
    obtain ⟨combo, hc⟩ := hscan.of_some b hb
    have hstate := hc.switchState_eq net.edgeKey
    rw [hplan, hb]
    refine ⟨⟨combo, hc.length_eq, hc.judge_eq, hstate, fun combo' m' hlen' hm' => ?_⟩, ?_, ?_⟩
    · have hle := hc.least hlen' hm'
      rwa [Prod.Lex.toLex_le_toLex, hc.changes_eq] at hle
    · rw [hstate]
      exact apply_planFor net.edgeKey b hc.length_eq hc.combo_eq
    · intro m hm hleast
      -- the best loses no more than the current state, so it moves no switch
      have hzero := hc.changes_eq_zero net.edgeKey hm hleast
      rw [planFor, List.map_eq_nil_iff, hc.combo_eq, ← List.length_eq_zero_iff]
      exact hc.changes_eq.symm.trans hzero

/-! ### With the power flow -/

/-- The network in another switch state. -/
def configure (net : Network) (states : List (String × Bool)) : Network :=
  states.foldl (fun n kv => n.setSwitch kv.1 kv.2) net

theorem configure_tables (net : Network) (states : List (String × Bool)) :
    (configure net states).nodes = net.nodes ∧
      (configure net states).edges = setStates states net.edges := by
  induction states generalizing net with
  | nil => exact ⟨rfl, rfl⟩
  | cons kv states ih => exact ih (net.setSwitch kv.1 kv.2)

/-- The constraints under which configurations are searched, but for the
voltage and thermal limits. -/
structure Operable (solve : Solver) (loads : Loads) (net : Network) : Prop where
  singleFed : net.SingleFed
  served : ∀ n ∈ net.nodes, mustServe n = true →
    n.nodeId ∈ Contingency.energized net.nodes net.edges
  converged : (solve net.nodes net.edges loads).converged = true

/-- What is judged at all is operable. -/
theorem judge_eq_some {solve : Solver} {loads : Loads} {net : Network} {m : Metrics}
    (h : judge solve net.nodes loads net.edges = some m) :
    Operable solve loads net ∧
      m.violations = (solve net.nodes net.edges loads).violationCount := by
  unfold judge at h
  split at h
  · rename_i hfeasible
    obtain ⟨-, hsingle, hserved⟩ := (radialFeasible_iff net).mp hfeasible
    dsimp only at h
    split at h
    · rename_i hconv
      obtain rfl := Option.some.inj h
      exact ⟨⟨hsingle, hserved, hconv⟩, rfl⟩
    · exact nomatch h
  · exact nomatch h

/-- **When the recommendation keeps the limits.** Every recommended
configuration is operable; it has no voltage or thermal violation exactly when
the first of the least-cost operable configurations, in the order in which
combinations are enumerated, has none. -/
theorem recommend_acceptable_iff (solve : Solver) (net : Network) (loads : Loads) :
    (∀ best, (recommend solve net.nodes net.edges loads).recommended = some best →
      let cfg := configure net best.switchState
      Operable solve loads cfg ∧
        (solve cfg.nodes cfg.edges loads).violationCount = 0) ↔
      ∀ combo k, FirstLeast (cost (judge solve net.nodes loads) net.edges)
          (combos (switchIds net.edges).length) combo k →
        (solve net.nodes (underCombo net.edges combo) loads).violationCount = 0 := by
  have hscan := search_spec (judge solve net.nodes loads) net.edges
  have hconfig : ∀ combo b, BestOf (judge solve net.nodes loads) net.edges
      (combos (switchIds net.edges).length) combo b →
      (configure net b.evaluation.switchState).nodes = net.nodes ∧
        (configure net b.evaluation.switchState).edges = underCombo net.edges combo := by
    intro combo b hc
    obtain ⟨hnodes, hedges⟩ := configure_tables net b.evaluation.switchState
    exact ⟨hnodes, hedges.trans (congrArg (setStates · net.edges) (hc.switchState_eq net.edgeKey))⟩
  constructor
  · intro h combo k hfirst
    cases hbest : (search (judge solve net.nodes loads) net.edges).best with
    | none =>
        have hnone := hscan.of_none hbest combo hfirst.mem
        exact nomatch hfirst.key_eq.symm.trans hnone
    | some b =>
        obtain ⟨c, hc⟩ := hscan.of_some b hbest
        obtain ⟨rfl, -⟩ := hfirst.unique hc.first
        obtain ⟨hnodes, hedges⟩ := hconfig combo b hc
        have hrecommended : (recommend solve net.nodes net.edges loads).recommended =
            some b.evaluation := congrArg (Option.map Best.evaluation) hbest
        have hviol := (h b.evaluation hrecommended).2
        rwa [hnodes, hedges] at hviol
  · intro h best hbest
    obtain ⟨b, hb, rfl⟩ := Option.map_eq_some_iff.mp hbest
    obtain ⟨combo, hc⟩ := hscan.of_some b hb
    obtain ⟨hnodes, hedges⟩ := hconfig combo b hc
    have hm := hc.judge_eq
    rw [← hnodes, ← hedges] at hm
    refine ⟨(judge_eq_some hm).1, ?_⟩
    show (solve (configure net b.evaluation.switchState).nodes
      (configure net b.evaluation.switchState).edges loads).violationCount = 0
    rw [hnodes, hedges]
    exact h combo _ hc.first

/-- A load behind a single transformer. -/
def transformerFeeder : Network where
  nodes := [⟨"SUB", .substation⟩, ⟨"M", .load⟩]
  edges := [{ edgeId := "T", fromNode := "SUB", toNode := "M", edgeType := .transformer }]
  nodeKey := by decide
  edgeKey := by decide
  fromNode_mem := by decide
  toNode_mem := by decide

/-- The power flow of a feeder without impedance whose only transformer has
the given rating. -/
def rated (ratingKw : ℚ) : Solver := fun nodes edges loads =>
  let loading := 100 * (Contingency.energized nodes edges).sum (Contingency.realLoadKw loads) /
    ratingKw
  { converged := true
    totalLossKw := 0
    violationCount := if 100 < loading then 1 else 0
    loadingPct := [some loading]
    loss_rounded := noLoss_rounded }

/-- Thirty kilowatts behind a transformer rated for ten: the recommended
configuration overloads it. -/
theorem transformerFeeder_recommends_violation :
    ((recommend (rated 10) transformerFeeder.nodes transformerFeeder.edges
        [("M", [("a", ⟨10, 0⟩), ("b", ⟨10, 0⟩), ("c", ⟨10, 0⟩)])]).recommended.map fun best =>
      (rated 10 transformerFeeder.nodes (configure transformerFeeder best.switchState).edges
        [("M", [("a", ⟨10, 0⟩), ("b", ⟨10, 0⟩), ("c", ⟨10, 0⟩)])]).violationCount) = some 1 := by
  decide +kernel

end DiepLab.Reconfiguration
