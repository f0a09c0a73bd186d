import DiepLab.Common
import DiepLab.Dms.LoopTest
import DiepLab.Grid.Radial
import Mathlib.Algebra.BigOperators.Fin
import Mathlib.Algebra.Order.BigOperators.Group.Finset
import Mathlib.Data.List.Sort
import Mathlib.Data.String.Basic

/-!
Validation of the stored network model.

`validate_topology` counts independent loops as edges less nodes plus
components, on the graph of all edges and on that of the closed ones, and
reports the model as radial when the closed graph has no loop and no node is
fed by two closed edges.

Edges are counted through neighbour sets. A set forgets how many edges lead to
a neighbour and counts a self-loop once instead of twice, so the count is that
of the multigraph only when there is neither (`PlainEdges`);
`validate_radial_iff` is the exact condition under which the report is right.
-/

namespace DiepLab.Topology

open Worklist

/-! ### The validation -/

/-- The neighbour set of a node over some rows. -/
def adjacency (rows : List GridEdge) (n : String) : List String :=
  ((rows.filter fun e => e.fromNode = n).map GridEdge.toNode ++
    (rows.filter fun e => e.toNode = n).map GridEdge.fromNode).dedup

/-- `sorted`. -/
def sorted (ids : List String) : List String := ids.insertionSort (· ≤ ·)

/-- One start node of `_components`: the nodes marked so far and the
components found. What a walk pops is what it has newly marked. -/
def startFrom (fuel : ℕ) (adj : String → List String)
    (state : List String × List (List String)) (start : String) :
    List String × List (List String) :=
  if start ∈ state.1 then state
  else
    let seen := walk adj fuel (state.1 ++ [start]) [start]
    (seen, state.2 ++ [sorted (seen.drop state.1.length)])

/-- Connected components of an undirected adjacency map. -/
def components (nodeIds : List String) (adj : String → List String) : List (List String) :=
  ((sorted nodeIds).foldl (startFrom (nodeIds.length + 1) adj) ([], [])).2

/-- `sum(len(v) for v in adj.values())`. -/
def degreeSum (nodeIds : List String) (adj : String → List String) : ℕ :=
  (nodeIds.map fun n => (adj n).length).sum

/-- Cyclomatic loop count: independent_loops = |E| - |N| + components. -/
def loops (nodeIds : List String) (adj : String → List String) : ℤ :=
  ((degreeSum nodeIds adj / 2 : ℕ) : ℤ) - nodeIds.length + (components nodeIds adj).length

/-- Conditions that break radial-network assumptions. -/
inductive TopologyError where
  | noSubstation
  | orphans (ids : List String)
  | closedLoops (count : ℤ)
  | multipleFeeds (ids : List String)
  | unknownParent (nodeId parentId : String)
  deriving DecidableEq

/-- Things to review. -/
inductive TopologyWarning where
  | substationsPresent (ids : List String)
  | noParent (nodeId : String)
  | parentWithoutEdge (ids : List String)
  | missingImpedance (ids : List String)
  deriving DecidableEq

structure Report where
  ok : Bool
  radial : Bool
  nodeCount : ℕ
  edgeCount : ℕ
  sourceCount : ℕ
  componentCount : ℕ
  structuralLoops : ℤ
  operationalLoops : ℤ
  loopClosingSwitches : List String
  orphanNodes : List String
  multiFedNodes : List String
  errors : List TopologyError
  warnings : List TopologyWarning

/-- The columns that the rows of the model leave out: `parent_id`, and the ids
of the edges whose impedance is missing. -/
structure Extra where
  parentId : String → Option String
  missingZ : List String

/-- Nodes presently fed by two closed edges. -/
def multiFed (nodeIds : List String) (closedRows : List GridEdge) : List String :=
  sorted (nodeIds.filter fun n => 1 < (closedRows.filter fun e => e.toNode = n).length)

/-- Open switches both of whose ends are in one component of the closed
graph. -/
def loopClosing (edges : List GridEdge) (comps : List (List String)) : List String :=
  sorted ((edges.filter fun e => !e.isClosed && e.isSwitchable &&
    comps.any fun c => decide (e.fromNode ∈ c) && decide (e.toNode ∈ c)).map GridEdge.edgeId)

/-- Two nodes are the ends of a stored edge. -/
def edgeBetween (edges : List GridEdge) (a b : String) : Bool :=
  edges.any fun e => decide (e.fromNode = a ∧ e.toNode = b ∨ e.fromNode = b ∧ e.toNode = a)

/-- A node that names a parent with which it shares no edge. -/
def hierarchyIssue (nodeIds : List String) (edges : List GridEdge) (extra : Extra)
    (n : GridNode) : Bool :=
  match extra.parentId n.nodeId with
  | none => false
  | some p => decide (p ∈ nodeIds) && !edgeBetween edges p n.nodeId

def parentError (nodeIds : List String) (extra : Extra) (n : GridNode) : Option TopologyError :=
  match extra.parentId n.nodeId with
  | none => none
  | some p => if p ∈ nodeIds then none else some (.unknownParent n.nodeId p)

def parentWarning (extra : Extra) (n : GridNode) : Option TopologyWarning :=
  if extra.parentId n.nodeId = none ∧ n.nodeType ≠ .substation then some (.noParent n.nodeId)
  else none

/-- The entry, if there is something to report. -/
def reportIf {α β : Type} (entry : List α → β) (found : List α) : List β :=
  if found = [] then [] else [entry found]

def validateTopology (nodes : List GridNode) (edges : List GridEdge) (extra : Extra) : Report :=
  let nodeIds := nodes.map GridNode.nodeId
  let sources := (nodes.filter fun n => n.nodeType = .substation).map GridNode.nodeId
  let closedRows := edges.filter GridEdge.isClosed
  let comps := components nodeIds (adjacency edges)
  let energizable := (comps.filter fun c => c.any fun n => decide (n ∈ sources)).flatten
  let orphans := sorted (nodeIds.filter fun n => decide (n ∉ energizable ∧ n ∉ sources))
  let structuralLoops := loops nodeIds (adjacency edges)
  let operationalLoops := loops nodeIds (adjacency closedRows)
  let fed := multiFed nodeIds closedRows
  let hierarchy := (nodes.filter (hierarchyIssue nodeIds edges extra)).map GridNode.nodeId
  let errors := (if sources = [] then [.noSubstation] else []) ++ reportIf .orphans orphans ++
    (if 0 < operationalLoops then [.closedLoops operationalLoops] else []) ++
    reportIf .multipleFeeds fed ++ nodes.filterMap (parentError nodeIds extra)
  let warnings := (if 1 < sources.length then [.substationsPresent sources] else []) ++
    nodes.filterMap (parentWarning extra) ++ reportIf .parentWithoutEdge (sorted hierarchy) ++
    reportIf .missingImpedance extra.missingZ
  { ok := errors.isEmpty
    radial := decide (operationalLoops = 0) && fed.isEmpty
    nodeCount := nodeIds.length
    edgeCount := edges.length
    sourceCount := sources.length
    componentCount := comps.length
    structuralLoops := structuralLoops
    operationalLoops := operationalLoops
    loopClosingSwitches := loopClosing edges (components nodeIds (adjacency closedRows))
    orphanNodes := orphans
    multiFedNodes := fed
    errors := errors
    warnings := warnings }

/-! ### Components -/

/-- The branches of some rows. -/
def branches (rows : List GridEdge) : Set Branch := { b | ∃ e ∈ rows, e.branch = b }

theorem mem_adjacency {rows : List GridEdge} {a b : String} :
    b ∈ adjacency rows a ↔ grid.Link (branches rows) a b ∨ grid.Link (branches rows) b a := by
  simp only [adjacency, List.mem_dedup, List.mem_append, List.mem_map, List.mem_filter,
    decide_eq_true_eq]
  constructor
  · rintro (⟨e, ⟨he, rfl⟩, rfl⟩ | ⟨e, ⟨he, rfl⟩, rfl⟩)
    · exact Or.inl ⟨e.branch, ⟨e, he, rfl⟩, rfl, rfl⟩
    · exact Or.inr ⟨e.branch, ⟨e, he, rfl⟩, rfl, rfl⟩
  · rintro (⟨-, ⟨e, he, rfl⟩, rfl, rfl⟩ | ⟨-, ⟨e, he, rfl⟩, rfl, rfl⟩)
    · exact Or.inl ⟨e, ⟨he, rfl⟩, rfl⟩
    · exact Or.inr ⟨e, ⟨he, rfl⟩, rfl⟩

theorem reaches_adjacency {rows : List GridEdge} {a b : String} :
    Reaches (adjacency rows) a b ↔ grid.Conn (branches rows) a b := by
  unfold Reaches Multigraph.Conn
  rw [show (fun a b => b ∈ adjacency rows a) = _ from funext₂ fun _ _ => propext mem_adjacency]

theorem mem_sorted {ids : List String} {n : String} : n ∈ sorted ids ↔ n ∈ ids :=
  List.mem_insertionSort _

section Components

variable {nodeIds : List String} {rows : List GridEdge}

/-- The loop invariant of `_components`: one start node for every component
found, and everything connected to a start node is marked. -/
structure Started (rows : List GridEdge) (pre : List String)
    (state : List String × List (List String)) (starts : List String) : Prop where
  starts_sub : ∀ r ∈ starts, r ∈ pre
  starts_nodup : starts.Nodup
  apart : ∀ r ∈ starts, ∀ r' ∈ starts, grid.Conn (branches rows) r r' → r = r'
  mem_seen : ∀ x, x ∈ state.1 ↔ ∃ r ∈ starts, grid.Conn (branches rows) r x
  covered : ∀ x ∈ pre, x ∈ state.1
  length_eq : state.2.length = starts.length

theorem Started.seen_closed {pre : List String} {state : List String × List (List String)}
    {starts : List String} (h : Started rows pre state starts) {a b : String} (ha : a ∈ state.1)
    (hab : grid.Conn (branches rows) a b) : b ∈ state.1 := by
  obtain ⟨r, hr, hra⟩ := (h.mem_seen a).mp ha
  exact (h.mem_seen b).mpr ⟨r, hr, hra.trans hab⟩

/-- A walk from a fresh node marks its component. -/
theorem mem_walk_adjacency (hends : ∀ e ∈ rows, e.fromNode ∈ nodeIds ∧ e.toNode ∈ nodeIds)
    {seen : List String} (hclosed : ∀ a b, a ∈ seen → grid.Conn (branches rows) a b → b ∈ seen)
    (start x : String) :
    x ∈ walk (adjacency rows) (nodeIds.length + 1) (seen ++ [start]) [start] ↔
      x ∈ seen ∨ grid.Conn (branches rows) start x := by
  have hU : ∀ a, ∀ b ∈ adjacency rows a, b ∈ nodeIds.toFinset := by
    intro a b hb
    rw [List.mem_toFinset]
    rcases mem_adjacency.mp hb with ⟨-, ⟨e, he, rfl⟩, -, rfl⟩ | ⟨-, ⟨e, he, rfl⟩, rfl, -⟩
    · exact (hends e he).2
    · exact (hends e he).1
  have hfront : Frontier (adjacency rows) (seen ++ [start]).toFinset [start] := by
    refine ⟨fun a ha => ?_, fun a ha hns b hb => ?_⟩
    · exact List.mem_toFinset.mpr (List.mem_append_right _ ha)
    · have haseen : a ∈ seen := by
        rcases List.mem_append.mp (List.mem_toFinset.mp ha) with ha | ha
        · exact ha
        · exact absurd ha hns
      have hbseen := hclosed a b haseen (Relation.ReflTransGen.single (mem_adjacency.mp hb))
      exact List.mem_toFinset.mpr (List.mem_append_left _ hbseen)
  have hfuel : [start].length + (nodeIds.toFinset \ (seen ++ [start]).toFinset).card ≤
      nodeIds.length + 1 := by
    have hle := search_fuel nodeIds (seen ++ [start]).toFinset [start]
    rw [List.length_singleton] at hle ⊢
    omega
  rw [mem_walk, mem_search _ _ hU _ _ _ hfront hfuel]
  simp only [List.mem_toFinset, List.mem_append, List.mem_singleton, reaches_adjacency]
  constructor
  · rintro ⟨a, ha | rfl, hax⟩
    · exact Or.inl (hclosed a x ha hax)
    · exact Or.inr hax
  · rintro (hx | hx)
    · exact ⟨x, Or.inl hx, .refl⟩
    · exact ⟨start, Or.inr rfl, hx⟩

/-- A marked start node is skipped. -/
theorem Started.skip {pre : List String} {state : List String × List (List String)}
    {starts : List String} (h : Started rows pre state starts) {start : String}
    (hseen : start ∈ state.1) : Started rows (pre ++ [start]) state starts where
  starts_sub r hr := List.mem_append_left _ (h.starts_sub r hr)
  starts_nodup := h.starts_nodup
  apart := h.apart
  mem_seen := h.mem_seen
  covered x hx := by
    rcases List.mem_append.mp hx with hx | hx
    · exact h.covered x hx
    · exact List.mem_singleton.mp hx ▸ hseen
  length_eq := h.length_eq

/-- A fresh start node marks its component. -/
theorem Started.found {pre : List String} {state : List String × List (List String)}
    {starts : List String} (h : Started rows pre state starts) {start : String}
    (hseen : start ∉ state.1) {seen comp : List String}
    (hwalk : ∀ x, x ∈ seen ↔ x ∈ state.1 ∨ grid.Conn (branches rows) start x) :
    Started rows (pre ++ [start]) (seen, state.2 ++ [comp]) (starts ++ [start]) := by
  have hfresh : ∀ r ∈ starts, ¬ grid.Conn (branches rows) r start :=
    fun r hr hc => hseen ((h.mem_seen start).mpr ⟨r, hr, hc⟩)
  refine ⟨?_, ?_, ?_, ?_, ?_, ?_⟩
  · intro r hr
    rcases List.mem_append.mp hr with hr | hr
    · exact List.mem_append_left _ (h.starts_sub r hr)
    · exact List.mem_append_right _ hr
  · refine List.nodup_append.mpr ⟨h.starts_nodup, List.nodup_singleton _, ?_⟩
    intro r hr r' hr' heq
    rw [heq, List.mem_singleton.mp hr'] at hr
    exact hfresh start hr .refl
  · intro r hr r' hr' hc
    rcases List.mem_append.mp hr with hr | hr <;> rcases List.mem_append.mp hr' with hr' | hr'
    · exact h.apart r hr r' hr' hc
    · rw [List.mem_singleton.mp hr'] at hc
      exact absurd hc (hfresh r hr)
    · rw [List.mem_singleton.mp hr] at hc
      exact absurd hc.symm (hfresh r' hr')
    · rw [List.mem_singleton.mp hr, List.mem_singleton.mp hr']
  · intro x
    rw [hwalk, h.mem_seen]
    constructor
    · rintro (⟨r, hr, hrx⟩ | hx)
      · exact ⟨r, List.mem_append_left _ hr, hrx⟩
      · exact ⟨start, List.mem_append_right _ (List.mem_singleton.mpr rfl), hx⟩
    · rintro ⟨r, hr, hrx⟩
      rcases List.mem_append.mp hr with hr | hr
      · exact Or.inl ⟨r, hr, hrx⟩
      · exact Or.inr (List.mem_singleton.mp hr ▸ hrx)
  · intro x hx
    rw [hwalk]
    rcases List.mem_append.mp hx with hx | hx
    · exact Or.inl (h.covered x hx)
    · exact Or.inr (List.mem_singleton.mp hx ▸ .refl)
  · rw [List.length_append, List.length_append, h.length_eq]
    rfl

/-- One start node keeps the invariant. -/
theorem Started.step (hends : ∀ e ∈ rows, e.fromNode ∈ nodeIds ∧ e.toNode ∈ nodeIds)
    {pre : List String} {state : List String × List (List String)} {starts : List String}
    (h : Started rows pre state starts) (start : String) :
    ∃ starts', Started rows (pre ++ [start])
      (startFrom (nodeIds.length + 1) (adjacency rows) state start) starts' := by
  by_cases hseen : start ∈ state.1
  · rw [startFrom, if_pos hseen]
    exact ⟨starts, h.skip hseen⟩
  · rw [startFrom, if_neg hseen]
    exact ⟨starts ++ [start], h.found hseen
      (mem_walk_adjacency hends (fun a b ha hab => h.seen_closed ha hab) start)⟩

theorem Started.foldl (hends : ∀ e ∈ rows, e.fromNode ∈ nodeIds ∧ e.toNode ∈ nodeIds)
    {pre : List String} {state : List String × List (List String)} {starts : List String}
    (h : Started rows pre state starts) (ids : List String) :
    ∃ starts', Started rows (pre ++ ids)
      (ids.foldl (startFrom (nodeIds.length + 1) (adjacency rows)) state) starts' := by
  induction ids generalizing pre state starts with
  | nil =>
      rw [List.append_nil]
      exact ⟨starts, h⟩
  | cons id ids ih =>
      obtain ⟨starts', h'⟩ := h.step hends id
      rw [List.append_cons, List.foldl_cons]
      exact ih h'

/-- `_components` finds the components of the graph. -/
theorem length_components (hends : ∀ e ∈ rows, e.fromNode ∈ nodeIds ∧ e.toNode ∈ nodeIds) :
    (components nodeIds (adjacency rows)).length =
      (grid.components (branches rows) nodeIds.toFinset).card := by
  have hstart : Started rows [] ([], []) [] :=
    ⟨fun _ h => h, .nil, fun r hr => absurd hr List.not_mem_nil,
      fun x => iff_of_false List.not_mem_nil fun ⟨r, hr, _⟩ => List.not_mem_nil hr,
      fun _ h => h, rfl⟩
  obtain ⟨starts, h⟩ := hstart.foldl hends (sorted nodeIds)
  rw [List.nil_append] at h
  have hR : starts.toFinset ⊆ nodeIds.toFinset := by
    intro r hr
    rw [List.mem_toFinset] at hr ⊢
    exact mem_sorted.mp (h.starts_sub r hr)
  have hspan : ∀ v ∈ nodeIds.toFinset, ∃ r ∈ starts.toFinset,
      grid.Conn (branches rows) r v := by
    intro v hv
    have hseen := h.covered v (mem_sorted.mpr (List.mem_toFinset.mp hv))
    obtain ⟨r, hr, hrv⟩ := (h.mem_seen v).mp hseen
    exact ⟨r, List.mem_toFinset.mpr hr, hrv⟩
  have hcard := (Multigraph.card_components_eq_roots hR hspan).mpr fun r hr r' hr' =>
    h.apart r (List.mem_toFinset.mp hr) r' (List.mem_toFinset.mp hr')
  rw [hcard, List.toFinset_card_of_nodup h.starts_nodup]
  exact h.length_eq

end Components

/-! ### Counting neighbours -/

/-- The ends of every row, read both ways. -/
def endPairs (rows : List GridEdge) : List (String × String) :=
  rows.map (fun e => (e.fromNode, e.toNode)) ++ rows.map fun e => (e.toNode, e.fromNode)

theorem mem_endPairs {rows : List GridEdge} {a b : String} :
    (a, b) ∈ endPairs rows ↔ b ∈ adjacency rows a := by
  simp only [endPairs, adjacency, List.mem_dedup, List.mem_append, List.mem_map, List.mem_filter,
    decide_eq_true_eq, Prod.mk.injEq, and_assoc]

/-- The neighbour sets hold each pair of adjacent nodes once per direction. -/
theorem degreeSum_eq_card {nodeIds : List String} (hnodup : nodeIds.Nodup)
    {rows : List GridEdge} (hends : ∀ e ∈ rows, e.fromNode ∈ nodeIds ∧ e.toNode ∈ nodeIds) :
    degreeSum nodeIds (adjacency rows) = (endPairs rows).toFinset.card := by
  have hfst : ∀ p ∈ (endPairs rows).toFinset, p.1 ∈ nodeIds.toFinset := by
    intro p hp
    rw [List.mem_toFinset] at hp ⊢
    rcases List.mem_append.mp hp with hp | hp
    · obtain ⟨e, he, rfl⟩ := List.mem_map.mp hp
      exact (hends e he).1
    · obtain ⟨e, he, rfl⟩ := List.mem_map.mp hp
      exact (hends e he).2
  have hfibre : ∀ n, ((endPairs rows).toFinset.filter fun p => p.1 = n).card =
      (adjacency rows n).length := by
    intro n
    have himage : ((endPairs rows).toFinset.filter fun p => p.1 = n) =
        (adjacency rows n).toFinset.image fun b => (n, b) := by
      ext ⟨a, b⟩
      simp only [Finset.mem_filter, List.mem_toFinset, mem_endPairs, Finset.mem_image,
        Prod.mk.injEq]
      constructor
      · rintro ⟨hb, rfl⟩
        exact ⟨b, hb, rfl, rfl⟩
      · rintro ⟨b', hb, rfl, rfl⟩
        exact ⟨hb, rfl⟩
    rw [himage, Finset.card_image_of_injective _ (Prod.mk_right_injective n),
      adjacency, List.toFinset_card_of_nodup (List.nodup_dedup _)]
  rw [Finset.card_eq_sum_card_fiberwise hfst, degreeSum, ← List.sum_toFinset _ hnodup]
  exact Finset.sum_congr rfl fun n _ => (hfibre n).symm

/-- No self-loop, and no two rows between the same ends. -/
structure PlainEdges (rows : List GridEdge) : Prop where
  no_self_loop : ∀ e ∈ rows, e.fromNode ≠ e.toNode
  no_parallel : ∀ e ∈ rows, ∀ f ∈ rows,
    (e.fromNode = f.fromNode ∧ e.toNode = f.toNode) ∨
      (e.fromNode = f.toNode ∧ e.toNode = f.fromNode) → e = f

theorem nodup_endPairs_iff {rows : List GridEdge} (hrows : rows.Nodup) :
    (endPairs rows).Nodup ↔ PlainEdges rows := by
  rw [endPairs, List.nodup_append]
  constructor
  · rintro ⟨hto, -, hdisj⟩
    refine ⟨fun e he heq => ?_, fun e he f hf hends => ?_⟩
    · refine hdisj _ (List.mem_map_of_mem he) _ (List.mem_map_of_mem he) ?_
      rw [heq]
    · rcases hends with ⟨hs, ht⟩ | ⟨hs, ht⟩
      · exact List.inj_on_of_nodup_map hto he hf (by rw [hs, ht])
      · refine absurd ?_ (hdisj _ (List.mem_map_of_mem he) _ (List.mem_map_of_mem hf))
        rw [hs, ht]
  · intro h
    refine ⟨?_, ?_, ?_⟩
    · refine hrows.map_on fun e he f hf heq => ?_
      obtain ⟨hs, ht⟩ := Prod.mk.inj heq
      exact h.no_parallel e he f hf (Or.inl ⟨hs, ht⟩)
    · refine hrows.map_on fun e he f hf heq => ?_
      obtain ⟨ht, hs⟩ := Prod.mk.inj heq
      exact h.no_parallel e he f hf (Or.inl ⟨hs, ht⟩)
    · intro p hp q hq heq
      obtain ⟨e, he, rfl⟩ := List.mem_map.mp hp
      obtain ⟨f, hf, rfl⟩ := List.mem_map.mp hq
      obtain ⟨hs, ht⟩ := Prod.mk.inj heq
      have hef := h.no_parallel e he f hf (Or.inr ⟨hs, ht⟩)
      subst hef
      exact h.no_self_loop e he hs

/-- Neighbour sets count every edge exactly when the edges are plain. -/
theorem degreeSum_half_eq_iff {nodeIds : List String} (hnodup : nodeIds.Nodup)
    {rows : List GridEdge} (hrows : rows.Nodup)
    (hends : ∀ e ∈ rows, e.fromNode ∈ nodeIds ∧ e.toNode ∈ nodeIds) :
    degreeSum nodeIds (adjacency rows) / 2 = rows.length ↔ PlainEdges rows := by
  have hlen : (endPairs rows).length = 2 * rows.length := by
    rw [endPairs, List.length_append, List.length_map, List.length_map]
    omega
  have hle := List.toFinset_card_le (endPairs rows)
  rw [degreeSum_eq_card hnodup hends, ← nodup_endPairs_iff hrows]
  constructor
  · intro h
    have hcard : (endPairs rows).toFinset.card = (endPairs rows).length := by omega
    exact Multiset.toFinset_card_eq_card_iff_nodup.mp hcard
  · intro h
    rw [List.toFinset_card_of_nodup h]
    omega

/-! ### The report -/

section Report

variable (net : Network)

/-- The closed rows. -/
def closedEdges : List GridEdge := net.edges.filter GridEdge.isClosed

theorem branches_closedEdges : branches (closedEdges net) = closed net.edges := by
  ext b
  constructor
  · rintro ⟨e, he, rfl⟩
    obtain ⟨he, hc⟩ := List.mem_filter.mp he
    exact ⟨e, he, hc, rfl⟩
  · rintro ⟨e, he, hc, rfl⟩
    exact ⟨e, List.mem_filter.mpr ⟨he, hc⟩, rfl⟩

theorem closedEdges_ends : ∀ e ∈ closedEdges net,
    e.fromNode ∈ net.nodes.map GridNode.nodeId ∧ e.toNode ∈ net.nodes.map GridNode.nodeId :=
  fun e he => ⟨net.fromNode_mem e (List.mem_of_mem_filter he),
    net.toNode_mem e (List.mem_of_mem_filter he)⟩

theorem nodup_closedEdges : (closedEdges net).Nodup :=
  (List.Nodup.of_map _ net.edgeKey).filter _

/-- The number of components of the closed graph. -/
noncomputable def closedComponents : ℕ :=
  (grid.components (closed net.edges) (net.nodes.map GridNode.nodeId).toFinset).card

variable (extra : Extra)

/-- The report of the stored model. -/
def report : Report := validateTopology net.nodes net.edges extra

theorem operationalLoops_eq : (report net extra).operationalLoops =
    ((degreeSum (net.nodes.map GridNode.nodeId) (adjacency (closedEdges net)) / 2 : ℕ) : ℤ) -
      net.nodes.length + closedComponents net := by
  show loops _ (adjacency (closedEdges net)) = _
  rw [loops, length_components (closedEdges_ends net), branches_closedEdges, List.length_map]
  rfl

/-- The loop count is the cyclomatic number exactly over plain edges. -/
theorem operationalLoops_iff : (report net extra).operationalLoops =
      (closedEdges net).length - net.nodes.length + closedComponents net ↔
    PlainEdges (closedEdges net) := by
  rw [operationalLoops_eq,
    ← degreeSum_half_eq_iff net.nodeKey (nodup_closedEdges net) (closedEdges_ends net)]
  omega

/-- A forest has as many edges as nodes less components. -/
theorem forest_closed_iff : grid.Forest (closed net.edges) ↔
    (closedEdges net).length - net.nodes.length + (closedComponents net : ℤ) = 0 := by
  let B := ((closedEdges net).map GridEdge.branch).toFinset
  have hB : (B : Set Branch) = closed net.edges := by
    rw [← branches_closedEdges]
    ext b
    simp [B, branches]
  have hcard : B.card = (closedEdges net).length := by
    have hnodup : ((closedEdges net).map GridEdge.branch).Nodup := by
      refine List.Nodup.of_map Branch.edgeId ?_
      rw [List.map_map]
      exact net.edgeKey.sublist (List.filter_sublist.map _)
    rw [List.toFinset_card_of_nodup hnodup, List.length_map]
  have hends : ∀ b ∈ B, grid.src b ∈ (net.nodes.map GridNode.nodeId).toFinset ∧
      grid.tgt b ∈ (net.nodes.map GridNode.nodeId).toFinset := by
    intro b hb
    obtain ⟨e, he, rfl⟩ := List.mem_map.mp (List.mem_toFinset.mp hb)
    rw [List.mem_toFinset, List.mem_toFinset]
    exact closedEdges_ends net e he
  have hnodes : (net.nodes.map GridNode.nodeId).toFinset.card = net.nodes.length := by
    rw [List.toFinset_card_of_nodup net.nodeKey, List.length_map]
  have h := Multigraph.forest_iff_card (G := grid) B hends
  rw [hB, hcard, hnodes] at h
  rw [h, closedComponents]
  omega

theorem multiFed_eq_nil_iff : (report net extra).multiFedNodes = [] ↔
    ∀ e ∈ closedEdges net, ∀ f ∈ closedEdges net, e.toNode = f.toNode → e = f := by
  have hmem : (report net extra).multiFedNodes = [] ↔
      ∀ n ∈ net.nodes.map GridNode.nodeId,
        ((closedEdges net).filter fun e => e.toNode = n).length ≤ 1 := by
    rw [List.eq_nil_iff_forall_not_mem]
    show (∀ n, n ∉ multiFed (net.nodes.map GridNode.nodeId) (closedEdges net)) ↔ _
    simp only [multiFed, mem_sorted, List.mem_filter, decide_eq_true_eq, not_and, not_lt]
  rw [hmem]
  constructor
  · intro h e he f hf hto
    by_contra hne
    have hle := h e.toNode (closedEdges_ends net e he).2
    have hsub : [e, f] ⊆ (closedEdges net).filter fun g => g.toNode = e.toNode := by
      intro g hg
      rcases List.mem_cons.mp hg with rfl | hg
      · exact List.mem_filter.mpr ⟨he, decide_eq_true rfl⟩
      · rw [List.mem_singleton.mp hg]
        exact List.mem_filter.mpr ⟨hf, decide_eq_true hto.symm⟩
    have hpair : [e, f].Nodup := by simpa using hne
    have := (hpair.subperm hsub).length_le
    rw [List.length_cons, List.length_singleton] at this
    omega
  · intro h n _
    cases hrows : (closedEdges net).filter fun e => e.toNode = n with
    | nil => exact Nat.zero_le 1
    | cons e rest =>
        cases rest with
        | nil => exact Nat.le_refl 1
        | cons f rest =>
            have hnodup := (nodup_closedEdges net).filter fun e => e.toNode = n
            have hmem : ∀ g ∈ e :: f :: rest, g ∈ closedEdges net ∧ g.toNode = n := by
              intro g hg
              rw [← hrows, List.mem_filter, decide_eq_true_eq] at hg
              exact hg
            rw [hrows, List.nodup_cons] at hnodup
            obtain ⟨he, hen⟩ := hmem e List.mem_cons_self
            obtain ⟨hf, hfn⟩ := hmem f (List.mem_cons_of_mem e List.mem_cons_self)
            have hef := h e he f hf (hen.trans hfn.symm)
            exact absurd (hef ▸ List.mem_cons_self) hnodup.1

theorem radial_iff : (report net extra).radial = true ↔
    (report net extra).operationalLoops = 0 ∧ (report net extra).multiFedNodes = [] := by
  show (decide ((report net extra).operationalLoops = 0) &&
    (report net extra).multiFedNodes.isEmpty) = true ↔ _
  rw [Bool.and_eq_true, decide_eq_true_eq, List.isEmpty_iff]

/-- **When the validation is right.** The model is reported radial exactly when
its closed edges form a forest, and the loop count is the cyclomatic number,
if and only if there is no closed self-loop, no two closed edges join the same
nodes, and over a forest no two closed edges lead into the same node. -/
theorem validate_radial_iff :
    (((report net extra).radial = true ↔ grid.Forest (closed net.edges)) ∧
      (report net extra).operationalLoops =
        (closedEdges net).length - net.nodes.length + closedComponents net) ↔
    PlainEdges (closedEdges net) ∧ (grid.Forest (closed net.edges) →
      ∀ e ∈ closedEdges net, ∀ f ∈ closedEdges net, e.toNode = f.toNode → e = f) := by
  rw [operationalLoops_iff, and_comm]
  refine and_congr_right fun hplain => ?_
  have hloops := (operationalLoops_iff net extra).mpr hplain
  rw [radial_iff, multiFed_eq_nil_iff, hloops, ← forest_closed_iff]
  exact ⟨fun h hforest => (h.mpr hforest).2, fun h => ⟨And.left, fun hf => ⟨hf, h hf⟩⟩⟩

end Report

/-- Two nodes joined by two closed edges stored in opposite directions. -/
def oppositeEdges : Network where
  nodes := [⟨"SUB", .substation⟩, ⟨"BUS", .bus⟩]
  edges := [{ edgeId := "E1", fromNode := "SUB", toNode := "BUS" },
    { edgeId := "E2", fromNode := "BUS", toNode := "SUB" }]
  nodeKey := by decide
  edgeKey := by decide
  fromNode_mem := by decide
  toNode_mem := by decide

/-- The parallel circuit is reported radial and without loops. -/
theorem oppositeEdges_reported_radial :
    (report oppositeEdges ⟨fun _ => none, []⟩).radial = true ∧
      (report oppositeEdges ⟨fun _ => none, []⟩).operationalLoops = 0 ∧
      ¬ grid.Forest (closed oppositeEdges.edges) := by
  decide +kernel

end DiepLab.Topology
