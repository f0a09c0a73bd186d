import DiepLab.Grid.Database
import Mathlib.Data.Finset.Sort
import Mathlib.Data.List.MinMax
import Mathlib.Data.String.Basic

/-!
The FLISR planner, `plan_flisr`.

`switching` is everything the planner decides from the node and edge rows:
the faulted node, the isolating switch, and the ties it closes one after the
other on an in-memory copy of the edges. `planFlisr` is the function itself, a
program that reads the rows, decides, and counts customers.

`planFlisr_run` is what later modules use: the planner writes nothing, and on
tables that do not change under it it returns a plan exactly when `switching`
does. Then come the facts about the pieces: the isolating switch is a closed
switchable edge upstream of the fault (`mem_candidates`), and the edges of the
last trial are the edges with the plan applied (`apply_plan`).
-/

namespace DiepLab.Dms

open StatementProgram

structure FlisrPlan where
  faultNode : String
  faultEdge : Option String
  isolatedEdge : String
  isolatedEdges : List String
  restoredEdges : List String
  customersLost : ℕ
  customersRestored : ℕ
  customersStillOut : ℕ
  stillOutNodes : List String
  steps : List String
  beforeSwitchState : Dict Bool

/-- The faulted node that the two arguments name. -/
def faultNodeOf (nodes : List GridNode) (edges : List GridEdge)
    (faultNodeArg faultEdgeArg : Option String) : Except Exc String :=
  match given faultEdgeArg, given faultNodeArg with
  | some fe, _ =>
      match edges.find? fun e => e.edgeId = fe with
      | none => .error (.http 404 (.text ("unknown edge '" ++ fe ++ "'")))
      | some e => .ok e.toNode
  | none, some fn =>
      if fn ∈ nodes.map GridNode.nodeId then .ok fn
      else .error (.http 404 (.text ("unknown node '" ++ fn ++ "'")))
  | none, none => .error (.http 422 (.text "fault_node or fault_edge required"))

/-- `_substations`. -/
def substations (nodes : List GridNode) : List String :=
  (nodes.filter fun n => n.nodeType = .substation).map GridNode.nodeId

/-! ### Isolation -/

/-- The closed switchable edges whose subtree contains the fault. -/
def candidates (edges : List GridEdge) (faultNode : String) : List GridEdge :=
  edges.filter fun e => e.isSwitchable && e.isClosed && decide (faultNode ∈ reach edges [e.toNode])

/-- The candidate with the smallest subtree, the first one among equals. -/
def isolatingSwitch (edges : List GridEdge) (faultNode : String) : Option GridEdge :=
  (candidates edges faultNode).argmin fun e => (reach edges [e.toNode]).card

/-! ### Restoration -/

/-- An edge that restoration may close. -/
def isTie (e : GridEdge) : Bool := decide (e.edgeType = .tie) || !e.normallyClosed

def openTies (edges : List GridEdge) : List GridEdge :=
  edges.filter fun e => !e.isClosed && isTie e

/-- The state of the restore loop: `edges_cur`, `restored_edges`, `steps`. -/
structure Restoration where
  edges : List GridEdge
  restored : List String
  steps : List String

/-- The planner's test for closing `t` on top of the edges `cur`. -/
def Accepts (sources : List String) (faultNode : String) (lost : Finset String)
    (cur : List GridEdge) (t : GridEdge) : Prop :=
  (t.toNode ∈ lost ∨ t.fromNode ∈ lost) ∧
    faultNode ∉ reach (setClosed t.edgeId true cur) sources ∧
    (reach (setClosed t.edgeId true cur) sources ∩ lost).Nonempty

instance (sources : List String) (faultNode : String) (lost : Finset String)
    (cur : List GridEdge) (t : GridEdge) : Decidable (Accepts sources faultNode lost cur t) :=
  inferInstanceAs (Decidable (_ ∧ _ ∧ _))

/-- Keep the trial state in which `t` is closed. -/
def Restoration.close (r : Restoration) (t : GridEdge) : Restoration where
  edges := setClosed t.edgeId true r.edges
  restored := r.restored ++ [t.edgeId]
  steps := r.steps ++ ["close tie " ++ t.edgeId ++ " to back-feed " ++ t.toNode]

/-- One turn of the restore loop. -/
def tryTie (sources : List String) (faultNode : String) (lost : Finset String)
    (r : Restoration) (t : GridEdge) : Restoration :=
  if Accepts sources faultNode lost r.edges t then r.close t else r

/-- The restore loop. -/
def restore (sources : List String) (faultNode : String) (lost : Finset String)
    (edgesIso : List GridEdge) (steps : List String) : Restoration :=
  (openTies edgesIso).foldl (tryTie sources faultNode lost) ⟨edgesIso, [], steps⟩

/-! ### The planner -/

/-- What the planner knows before it counts customers. -/
structure Switching where
  faultNode : String
  isolated : GridEdge
  lost : Finset String
  restored : Finset String
  stillOut : Finset String
  restoration : Restoration

def switching (nodes : List GridNode) (edges : List GridEdge)
    (faultNodeArg faultEdgeArg : Option String) : Except Exc Switching :=
  let sources := substations nodes
  match faultNodeOf nodes edges faultNodeArg faultEdgeArg with
  | .error e => .error e
  | .ok faultNode =>
      let before := reach edges sources
      match isolatingSwitch edges faultNode with
      | none => .error (.http 409 (.text "no upstream switch can isolate this fault"))
      | some iso =>
          let edgesIso := setClosed iso.edgeId false edges
          let afterIso := reach edgesIso sources
          let lost := before \ afterIso
          let steps := ["fault detected at " ++ (given faultEdgeArg).getD faultNode,
            "open switch " ++ iso.edgeId ++ " to isolate " ++ iso.toNode]
          let restoration := restore sources faultNode lost edgesIso steps
          let afterRestore := reach restoration.edges sources
          .ok {
            faultNode := faultNode
            isolated := iso
            lost := lost
            restored := (afterRestore \ afterIso) \ {faultNode}
            stillOut := before \ afterRestore
            restoration := restoration }

/-- `len(_service_points_in(nodes))`; an empty set is not asked about. -/
def countServicePoints (nodes : Finset String) : GridProg ℕ :=
  if nodes = ∅ then pure 0
  else do
    let rows ← Sql.servicePointsIn nodes
    pure rows.length

def Switching.toPlan (s : Switching) (faultEdgeArg : Option String)
    (customersLost customersRestored customersStillOut : ℕ) : FlisrPlan :=
  { faultNode := s.faultNode
    faultEdge := faultEdgeArg
    isolatedEdge := s.isolated.edgeId
    isolatedEdges := [s.isolated.edgeId]
    restoredEdges := s.restoration.restored
    customersLost := customersLost
    customersRestored := customersRestored
    customersStillOut := customersStillOut
    stillOutNodes := s.stillOut.sort
    steps :=
      if s.restoration.restored = [] then
        s.restoration.steps ++ ["no tie available to restore lost load — section remains out"]
      else s.restoration.steps
    beforeSwitchState := Dict.update [(s.isolated.edgeId, true)]
      (s.restoration.restored.map fun eid => (eid, false)) }

/-- Pure FLISR planner: isolate the fault at the nearest upstream switch,
restore lost load via normally-open ties without re-energizing the fault. -/
def planFlisr (faultNodeArg faultEdgeArg : Option String) : GridProg FlisrPlan := do
  let nodes ← Sql.loadNodes
  let edges ← Sql.loadEdges
  match switching nodes edges faultNodeArg faultEdgeArg with
  | .error e => throw e
  | .ok s =>
      let customersLost ← countServicePoints s.lost
      let customersRestored ← countServicePoints s.restored
      let customersStillOut ← countServicePoints s.stillOut
      pure (s.toPlan faultEdgeArg customersLost customersRestored customersStillOut)

/-- Close one edge after the other. -/
def closeTies (edgeIds : List String) (edges : List GridEdge) : List GridEdge :=
  edgeIds.foldl (fun es eid => setClosed eid true es) edges

/-- The switch state that the plan asks for. -/
def FlisrPlan.apply (plan : FlisrPlan) (edges : List GridEdge) : List GridEdge :=
  closeTies plan.restoredEdges (setClosed plan.isolatedEdge false edges)

/-! ### Running the planner -/

/-- Statement by statement success on tables that nobody else changes. -/
abbrev quiet : (q : GridStmt) → GridDb → Except Exc (GridResp q) × GridDb := gridSem {}

def servicePointCount (db : GridDb) (nodes : Finset String) : ℕ :=
  if nodes = ∅ then 0 else (db.servicePointsIn nodes).length

theorem countServicePoints_run (db : GridDb) (nodes : Finset String) :
    (countServicePoints nodes).run quiet db = (.ok (servicePointCount db nodes), db) := by
  unfold countServicePoints servicePointCount
  split <;> rfl

/-- The plan made on quiet tables. -/
def planOn (db : GridDb) (faultNodeArg faultEdgeArg : Option String) : Except Exc FlisrPlan :=
  match switching db.network.nodes db.network.edges faultNodeArg faultEdgeArg with
  | .error e => .error e
  | .ok s => .ok (s.toPlan faultEdgeArg (servicePointCount db s.lost)
      (servicePointCount db s.restored) (servicePointCount db s.stillOut))

theorem planFlisr_run (db : GridDb) (faultNodeArg faultEdgeArg : Option String) :
    (planFlisr faultNodeArg faultEdgeArg).run quiet db =
      (planOn db faultNodeArg faultEdgeArg, db) := by
  have hnodes : quiet GridStmt.loadNodes db = (.ok db.network.nodes, db) := rfl
  have hedges : quiet GridStmt.loadEdges db = (.ok db.network.edges, db) := rfl
  simp only [planFlisr, planOn, Prog.run_bind, Prog.run_call, hnodes, hedges]
  cases switching db.network.nodes db.network.edges faultNodeArg faultEdgeArg with
  | error e => rfl
  | ok s => simp only [Prog.run_bind, countServicePoints_run, Prog.run_pure]

/-! ### What the planner decides -/

/-- The nodes that opening `iso` puts out. -/
def lostBy (edges : List GridEdge) (sources : List String) (iso : GridEdge) : Finset String :=
  reach edges sources \ reach (setClosed iso.edgeId false edges) sources

theorem mem_candidates {edges : List GridEdge} {faultNode : String} {e : GridEdge} :
    e ∈ candidates edges faultNode ↔
      e ∈ edges ∧ e.isSwitchable = true ∧ e.isClosed = true ∧
        grid.Reach (closed edges) e.toNode faultNode := by
  rw [candidates, List.mem_filter]
  simp only [Bool.and_eq_true, decide_eq_true_eq, mem_reach_singleton, and_assoc]

/-- The nearest upstream switch: no candidate cuts off fewer nodes. -/
theorem isolatingSwitch_spec {edges : List GridEdge} {faultNode : String} {iso : GridEdge}
    (h : isolatingSwitch edges faultNode = some iso) :
    iso ∈ candidates edges faultNode ∧ ∀ e ∈ candidates edges faultNode,
      (reach edges [iso.toNode]).card ≤ (reach edges [e.toNode]).card := by
  refine ⟨List.argmin_mem h, fun e he => ?_⟩
  exact List.le_of_mem_argmin (f := fun e => (reach edges [e.toNode]).card) he h

/-- A switching that succeeds has found the fault node and the switch above it, and
the rest of it is computed from these two. -/
theorem of_switching {nodes : List GridNode} {edges : List GridEdge}
    {faultNodeArg faultEdgeArg : Option String} {s : Switching}
    (h : switching nodes edges faultNodeArg faultEdgeArg = .ok s) :
    ∃ faultNode iso steps,
      faultNodeOf nodes edges faultNodeArg faultEdgeArg = .ok faultNode ∧
      isolatingSwitch edges faultNode = some iso ∧
      s = (let edgesIso := setClosed iso.edgeId false edges
        let before := reach edges (substations nodes)
        let afterIso := reach edgesIso (substations nodes)
        let restoration :=
          restore (substations nodes) faultNode (before \ afterIso) edgesIso steps
        let afterRestore := reach restoration.edges (substations nodes)
        { faultNode := faultNode
          isolated := iso
          lost := before \ afterIso
          restored := (afterRestore \ afterIso) \ {faultNode}
          stillOut := before \ afterRestore
          restoration := restoration }) := by
  rw [switching] at h
  cases hf : faultNodeOf nodes edges faultNodeArg faultEdgeArg with
  | error e => simp [hf] at h
  | ok f =>
      cases hi : isolatingSwitch edges f with
      | none => simp [hf, hi] at h
      | some iso =>
          simp only [hf, hi, Except.ok.injEq] at h
          exact ⟨f, iso, _, rfl, hi, h.symm⟩

theorem switching_ok {nodes : List GridNode} {edges : List GridEdge}
    {faultNodeArg faultEdgeArg : Option String} {s : Switching}
    (h : switching nodes edges faultNodeArg faultEdgeArg = .ok s) :
    faultNodeOf nodes edges faultNodeArg faultEdgeArg = .ok s.faultNode ∧
      isolatingSwitch edges s.faultNode = some s.isolated ∧
      ∃ steps, s.restoration = restore (substations nodes) s.faultNode
        (lostBy edges (substations nodes) s.isolated)
        (setClosed s.isolated.edgeId false edges) steps := by
  obtain ⟨faultNode, iso, steps, hf, hi, rfl⟩ := of_switching h
  exact ⟨hf, hi, steps, rfl⟩

theorem planOn_ok {db : GridDb} {faultNodeArg faultEdgeArg : Option String} {plan : FlisrPlan}
    (h : planOn db faultNodeArg faultEdgeArg = .ok plan) :
    ∃ s, switching db.network.nodes db.network.edges faultNodeArg faultEdgeArg = .ok s ∧
      plan = s.toPlan faultEdgeArg (servicePointCount db s.lost)
        (servicePointCount db s.restored) (servicePointCount db s.stillOut) := by
  rw [planOn] at h
  cases hs : switching db.network.nodes db.network.edges faultNodeArg faultEdgeArg with
  | error e => simp [hs] at h
  | ok s =>
      simp only [hs, Except.ok.injEq] at h
      exact ⟨s, rfl, h.symm⟩

/-! ### The restore loop, tie by tie -/

theorem closeTies_append (ids : List String) (eid : String) (edges : List GridEdge) :
    closeTies (ids ++ [eid]) edges = setClosed eid true (closeTies ids edges) := by
  rw [closeTies, List.foldl_append]
  rfl

/-- The branches that conduct after the ties have been closed. -/
theorem mem_closed_closeTies {ids : List String} {edges : List GridEdge} {b : Branch} :
    b ∈ closed (closeTies ids edges) ↔
      b ∈ closed edges ∨ (b ∈ edges.map GridEdge.branch ∧ b.edgeId ∈ ids) := by
  induction ids generalizing edges with
  | nil => simp [closeTies]
  | cons eid ids ih =>
      rw [closeTies, List.foldl_cons, ← closeTies, ih, mem_closed_setClosed_true,
        map_branch_setClosed, List.mem_cons, or_assoc, and_or_left]

theorem map_branch_closeTies (ids : List String) (edges : List GridEdge) :
    (closeTies ids edges).map GridEdge.branch = edges.map GridEdge.branch := by
  induction ids generalizing edges with
  | nil => rfl
  | cons eid ids ih => exact (ih _).trans (map_branch_setClosed eid true edges)

section Loop

variable (sources : List String) (faultNode : String) (lost : Finset String)

/-- The loop closes exactly the ties it lists. -/
theorem foldl_tryTie_edges (base : List GridEdge) (ties : List GridEdge) (r : Restoration)
    (hr : r.edges = closeTies r.restored base) :
    (ties.foldl (tryTie sources faultNode lost) r).edges =
      closeTies (ties.foldl (tryTie sources faultNode lost) r).restored base := by
  induction ties generalizing r with
  | nil => exact hr
  | cons t ties ih =>
      rw [List.foldl_cons]
      apply ih
      unfold tryTie
      split
      · rw [Restoration.close, closeTies_append, hr]
      · exact hr

/-- What has been restored stays restored. -/
theorem foldl_tryTie_extends (ties : List GridEdge) (r : Restoration) :
    r.restored <+: (ties.foldl (tryTie sources faultNode lost) r).restored := by
  induction ties generalizing r with
  | nil => exact List.prefix_rfl
  | cons t ties ih =>
      rw [List.foldl_cons]
      refine List.IsPrefix.trans ?_ (ih (tryTie sources faultNode lost r t))
      unfold tryTie
      split
      · exact List.prefix_append ..
      · exact List.prefix_rfl

/-- Either every tie is refused on the isolated network and nothing is
restored, or some tie that is accepted there is among the restored ones. -/
theorem restore_cases (edgesIso : List GridEdge) (steps : List String) :
    ((restore sources faultNode lost edgesIso steps).restored = [] ∧
        ∀ t ∈ openTies edgesIso, ¬ Accepts sources faultNode lost edgesIso t) ∨
      ∃ t ∈ openTies edgesIso, Accepts sources faultNode lost edgesIso t ∧
        t.edgeId ∈ (restore sources faultNode lost edgesIso steps).restored := by
  rw [restore]
  generalize openTies edgesIso = ties
  induction ties with
  | nil => exact Or.inl ⟨rfl, fun t ht => absurd ht List.not_mem_nil⟩
  | cons t ties ih =>
      rw [List.foldl_cons]
      by_cases ht : Accepts sources faultNode lost edgesIso t
      · refine Or.inr ⟨t, List.mem_cons_self, ht, ?_⟩
        rw [tryTie, if_pos ht]
        apply (foldl_tryTie_extends sources faultNode lost ties _).subset
        exact List.mem_append_right _ (List.mem_singleton.mpr rfl)
      · rw [tryTie, if_neg ht]
        rcases ih with ⟨hnil, hrefused⟩ | ⟨u, hu, hacc, hmem⟩
        · exact Or.inl ⟨hnil, List.forall_mem_cons.mpr ⟨ht, hrefused⟩⟩
        · exact Or.inr ⟨u, List.mem_cons_of_mem t hu, hacc, hmem⟩

theorem restore_edges (edgesIso : List GridEdge) (steps : List String) :
    (restore sources faultNode lost edgesIso steps).edges =
      closeTies (restore sources faultNode lost edgesIso steps).restored edgesIso :=
  foldl_tryTie_edges sources faultNode lost edgesIso _ _ rfl

end Loop

/-- The edges of the last trial are the edges with the plan applied. -/
theorem apply_plan {nodes : List GridNode} {edges : List GridEdge}
    {faultNodeArg faultEdgeArg : Option String} {s : Switching}
    (h : switching nodes edges faultNodeArg faultEdgeArg = .ok s) (nl nr ns : ℕ) :
    (s.toPlan faultEdgeArg nl nr ns).apply edges = s.restoration.edges := by
  obtain ⟨-, -, steps, hrest⟩ := switching_ok h
  rw [hrest, restore_edges, ← hrest]
  rfl

end DiepLab.Dms
