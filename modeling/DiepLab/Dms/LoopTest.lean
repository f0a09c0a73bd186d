import DiepLab.Grid.Energization
import DiepLab.Library.Components

/-!
The loop test of the planners.

Contingency analysis and reconfiguration accept a switch state as radial when
the closed edges inside the energised set are no more than its nodes less the
substations. The count stands for a statement about the graph,
`Network.SingleFed`: those edges form a forest, and each of its trees holds
exactly one substation. `isRadial_iff` is the equivalence; it rests on the
counting of `Library.Components`, with the substations as the roots.
-/

namespace DiepLab

namespace Contingency

/-- The closed rows with both ends in `energized`. -/
def closedInside (edges : List GridEdge) (energized : Finset String) : List GridEdge :=
  edges.filter fun e =>
    e.isClosed && decide (e.fromNode ∈ energized) && decide (e.toNode ∈ energized)

def isRadial (nodes : List GridNode) (edges : List GridEdge) (energized : Finset String) : Bool :=
  decide (((closedInside edges energized).length : ℤ) ≤
    (energized.card : ℤ) - (sources nodes).length)

end Contingency

namespace Reconfiguration

open Contingency (sources)

/-- `closed`, the rows that the feasibility check works on. -/
def closedRows (edges : List GridEdge) : List GridEdge := edges.filter GridEdge.isClosed

/-- `ec > len(energized) - len(sources)`. -/
def hasLoop (nodes : List GridNode) (closed : List GridEdge) (energized : Finset String) : Bool :=
  decide ((energized.card : ℤ) - (sources nodes).length <
    ((closed.filter fun e =>
      decide (e.fromNode ∈ energized) && decide (e.toNode ∈ energized)).length : ℤ))

/-- The node types that a configuration must serve. -/
def mustServe (n : GridNode) : Bool := n.nodeType = .load || n.nodeType = .meter

/-- A configuration is feasible if the network energised from the substations
is a tree and every load and meter node is energised. -/
def radialFeasible (nodes : List GridNode) (edges : List GridEdge) : Bool × Finset String :=
  if sources nodes = [] then (false, ∅)
  else
    let closed := closedRows edges
    let energized := Contingency.energized nodes closed
    if hasLoop nodes closed energized then (false, energized)
    else if nodes.any fun n => mustServe n && decide (n.nodeId ∉ energized) then (false, energized)
    else (true, energized)

end Reconfiguration

open Contingency (closedInside isRadial)

/-- The closed branches with both ends in `energized`. -/
def inside (edges : List GridEdge) (energized : Finset String) : Set Branch :=
  { b | b ∈ closed edges ∧ b.fromNode ∈ energized ∧ b.toNode ∈ energized }

/-- What is energised is a forest of which every tree holds exactly one
substation. -/
structure Network.SingleFed (net : Network) : Prop where
  forest : grid.Forest (inside net.edges (Contingency.energized net.nodes net.edges))
  one_substation : ∀ x ∈ Contingency.energized net.nodes net.edges,
    ∃! s, s ∈ net.substations ∧
      grid.Conn (inside net.edges (Contingency.energized net.nodes net.edges)) s x

/-! ### Counting -/

/-- The branches that are counted. -/
def insideBranches (edges : List GridEdge) (energized : Finset String) : Finset Branch :=
  ((closedInside edges energized).map GridEdge.branch).toFinset

theorem coe_insideBranches (edges : List GridEdge) (energized : Finset String) :
    (insideBranches edges energized : Set Branch) = inside edges energized := by
  ext b
  simp only [insideBranches, List.coe_toFinset, Set.mem_ofPred_eq, List.mem_map, closedInside,
    List.mem_filter, Bool.and_eq_true, decide_eq_true_eq, inside]
  constructor
  · rintro ⟨e, ⟨he, ⟨hc, hs⟩, ht⟩, rfl⟩
    exact ⟨⟨e, he, hc, rfl⟩, hs, ht⟩
  · rintro ⟨⟨e, he, hc, rfl⟩, hs, ht⟩
    exact ⟨e, ⟨he, ⟨hc, hs⟩, ht⟩, rfl⟩

/-- By the primary key no branch is counted twice. -/
theorem card_insideBranches {edges : List GridEdge} (hkey : EdgeKey edges)
    (energized : Finset String) :
    (insideBranches edges energized).card = (closedInside edges energized).length := by
  have hnodup : ((closedInside edges energized).map GridEdge.branch).Nodup := by
    have hids : ((closedInside edges energized).map GridEdge.edgeId).Nodup :=
      hkey.sublist (List.filter_sublist.map _)
    refine List.Nodup.of_map Branch.edgeId ?_
    rwa [List.map_map]
  rw [insideBranches, List.toFinset_card_of_nodup hnodup, List.length_map]

theorem Network.nodup_substations (net : Network) : net.substations.Nodup :=
  net.nodeKey.sublist (List.filter_sublist.map _)

theorem substation_mem_energized (net : Network) {s : String} (hs : s ∈ net.substations) :
    s ∈ Contingency.energized net.nodes net.edges :=
  Contingency.mem_energized.mpr ⟨s, hs, .refl⟩

/-- No closed edge leaves the energised part. -/
theorem energized_ends (net : Network) {b : Branch} (hb : b ∈ closed net.edges) :
    grid.src b ∈ Contingency.energized net.nodes net.edges ↔
      grid.tgt b ∈ Contingency.energized net.nodes net.edges := by
  rw [Contingency.mem_energized, Contingency.mem_energized]
  have hlink : grid.Conn (closed net.edges) (grid.src b) (grid.tgt b) :=
    Multigraph.conn_of_mem hb
  exact ⟨fun ⟨s, hs, h⟩ => ⟨s, hs, h.trans hlink⟩,
    fun ⟨s, hs, h⟩ => ⟨s, hs, h.trans hlink.symm⟩⟩

/-- What is connected to a substation is connected to it inside the energised
part. -/
theorem conn_inside (net : Network) {s x : String} (hs : s ∈ net.substations)
    (h : grid.Conn (closed net.edges) s x) :
    grid.Conn (inside net.edges (Contingency.energized net.nodes net.edges)) s x :=
  (h.within (fun _ hb => energized_ends net hb) (substation_mem_energized net hs)).2

/-- Every energised node hangs on some substation. -/
theorem energized_spanned (net : Network) {x : String}
    (hx : x ∈ Contingency.energized net.nodes net.edges) :
    ∃ s ∈ net.substations.toFinset,
      grid.Conn (inside net.edges (Contingency.energized net.nodes net.edges)) s x := by
  obtain ⟨s, hs, hsx⟩ := Contingency.mem_energized.mp hx
  exact ⟨s, List.mem_toFinset.mpr hs, conn_inside net hs hsx⟩

/-- One substation in every tree, read as: no two substations in one tree. -/
theorem one_substation_iff (net : Network) :
    (∀ x ∈ Contingency.energized net.nodes net.edges, ∃! s, s ∈ net.substations ∧
        grid.Conn (inside net.edges (Contingency.energized net.nodes net.edges)) s x) ↔
      ∀ s ∈ net.substations.toFinset, ∀ s' ∈ net.substations.toFinset,
        grid.Conn (inside net.edges (Contingency.energized net.nodes net.edges)) s s' →
          s = s' := by
  simp only [List.mem_toFinset]
  constructor
  · intro h s hs s' hs' hc
    exact (h s' (substation_mem_energized net hs')).unique ⟨hs, hc⟩ ⟨hs', .refl⟩
  · intro h x hx
    obtain ⟨s, hs, hsx⟩ := energized_spanned net hx
    refine ⟨s, ⟨List.mem_toFinset.mp hs, hsx⟩, ?_⟩
    rintro s' ⟨hs', hsx'⟩
    exact h s' hs' s (List.mem_toFinset.mp hs) (hsx'.trans hsx.symm)

/-- The count compares edges plus substations with nodes. -/
theorem isRadial_iff_singleFed (net : Network) :
    isRadial net.nodes net.edges (Contingency.energized net.nodes net.edges) = true ↔
      net.SingleFed := by
  let energized := Contingency.energized net.nodes net.edges
  have hends : ∀ b ∈ insideBranches net.edges energized,
      grid.src b ∈ energized ∧ grid.tgt b ∈ energized := by
    intro b hb
    have hb' : b ∈ inside net.edges energized := by
      rw [← coe_insideBranches]
      exact hb
    exact hb'.2
  have hroots : net.substations.toFinset ⊆ energized :=
    fun s hs => substation_mem_energized net (List.mem_toFinset.mp hs)
  have hspan : ∀ x ∈ energized, ∃ s ∈ net.substations.toFinset,
      grid.Conn (insideBranches net.edges energized : Set Branch) s x := by
    rw [coe_insideBranches]
    exact fun x hx => energized_spanned net hx
  have hnodes := Multigraph.card_nodes_le (G := grid) _ hends
  have hforest := Multigraph.forest_iff_card (G := grid) _ hends
  have hle := Multigraph.card_components_le_roots hroots hspan
  have heq := Multigraph.card_components_eq_roots hroots hspan
  rw [card_insideBranches net.edgeKey] at hnodes hforest
  rw [coe_insideBranches] at hnodes hforest hle heq
  rw [List.toFinset_card_of_nodup net.nodup_substations] at hle heq
  have hsingle : net.SingleFed ↔
      energized.card = (closedInside net.edges energized).length +
          (grid.components (inside net.edges energized) energized).card ∧
        (grid.components (inside net.edges energized) energized).card =
          net.substations.length := by
    rw [← hforest, heq, ← one_substation_iff]
    exact ⟨fun h => ⟨h.forest, h.one_substation⟩, fun h => ⟨h.1, h.2⟩⟩
  have hcount : isRadial net.nodes net.edges energized = true ↔
      (closedInside net.edges energized).length + net.substations.length ≤ energized.card := by
    rw [isRadial, decide_eq_true_eq]
    show ((closedInside net.edges energized).length : ℤ) ≤
      (energized.card : ℤ) - net.substations.length ↔ _
    omega
  rw [hsingle]
  exact hcount.trans (by omega)

/-! ### The two copies of the test -/

theorem closed_closedRows (edges : List GridEdge) :
    closed (Reconfiguration.closedRows edges) = closed edges := by
  ext b
  constructor
  · rintro ⟨e, he, hc, rfl⟩
    exact ⟨e, List.mem_of_mem_filter he, hc, rfl⟩
  · rintro ⟨e, he, hc, rfl⟩
    exact ⟨e, List.mem_filter.mpr ⟨he, hc⟩, hc, rfl⟩

theorem energized_closedRows (nodes : List GridNode) (edges : List GridEdge) :
    Contingency.energized nodes (Reconfiguration.closedRows edges) =
      Contingency.energized nodes edges := by
  ext x
  rw [Contingency.mem_energized, Contingency.mem_energized, closed_closedRows]

theorem hasLoop_eq_not_isRadial (nodes : List GridNode) (edges : List GridEdge)
    (energized : Finset String) :
    Reconfiguration.hasLoop nodes (Reconfiguration.closedRows edges) energized =
      !isRadial nodes edges energized := by
  have hrows : (Reconfiguration.closedRows edges).filter (fun e =>
      decide (e.fromNode ∈ energized) && decide (e.toNode ∈ energized)) =
      closedInside edges energized := by
    rw [Reconfiguration.closedRows, List.filter_filter, closedInside]
    refine List.filter_congr fun e _ => ?_
    rw [Bool.and_comm, Bool.and_assoc]
  rw [Reconfiguration.hasLoop, hrows, isRadial, ← decide_not]
  exact decide_eq_decide.mpr Int.not_le.symm

/-- Feasibility is single feeding plus service to every load and meter. -/
theorem radialFeasible_iff (net : Network) :
    (Reconfiguration.radialFeasible net.nodes net.edges).1 = true ↔
      net.substations ≠ [] ∧ net.SingleFed ∧
        ∀ n ∈ net.nodes, Reconfiguration.mustServe n = true →
          n.nodeId ∈ Contingency.energized net.nodes net.edges := by
  rw [← isRadial_iff_singleFed, Reconfiguration.radialFeasible]
  simp only [energized_closedRows, hasLoop_eq_not_isRadial]
  by_cases hsources : Contingency.sources net.nodes = []
  · rw [if_pos hsources]
    exact iff_of_false Bool.false_ne_true (fun h => h.1 hsources)
  · rw [if_neg hsources]
    cases hradial : isRadial net.nodes net.edges (Contingency.energized net.nodes net.edges) with
    | false => simp
    | true =>
        have hsub : net.substations ≠ [] := hsources
        simp only [Bool.not_true, Bool.false_eq_true, if_false, true_and, hsub, ne_eq,
          not_false_eq_true]
        split <;> rename_i hany <;> simpa using hany

/-- **The loop tests count correctly.** Both copies accept exactly when the
closed edges inside the energised set form a forest with one substation in
every tree; a closed self-loop or a second edge between the same ends counts
as a loop. -/
theorem isRadial_iff (net : Network) :
    let energized := Contingency.energized net.nodes net.edges
    (isRadial net.nodes net.edges energized = true ↔ net.SingleFed) ∧
    (Reconfiguration.hasLoop net.nodes (Reconfiguration.closedRows net.edges)
        (Contingency.energized net.nodes (Reconfiguration.closedRows net.edges)) = false ↔
      net.SingleFed) ∧
    (∀ b ∈ inside net.edges energized, b.fromNode = b.toNode →
      isRadial net.nodes net.edges energized = false) ∧
    (∀ b ∈ inside net.edges energized, ∀ c ∈ inside net.edges energized, b ≠ c →
      (b.fromNode = c.fromNode ∧ b.toNode = c.toNode) ∨
        (b.fromNode = c.toNode ∧ b.toNode = c.fromNode) →
      isRadial net.nodes net.edges energized = false) := by
  intro energized
  have hmain := isRadial_iff_singleFed net
  refine ⟨hmain, ?_, ?_, ?_⟩
  · rw [energized_closedRows, hasLoop_eq_not_isRadial, Bool.not_eq_false', hmain]
  · intro b hb hloop
    refine Bool.eq_false_iff.mpr fun h => (hmain.mp h).forest b hb ?_
    show grid.Conn _ b.fromNode b.toNode
    rw [hloop]
    exact .refl
  · intro b hb c hc hne hends
    refine Bool.eq_false_iff.mpr fun h => (hmain.mp h).forest b hb ?_
    have hcd : c ∈ inside net.edges energized \ {b} := ⟨hc, fun h => hne h.symm⟩
    have hconn : grid.Conn (inside net.edges energized \ {b}) c.fromNode c.toNode :=
      Multigraph.conn_of_mem hcd
    show grid.Conn _ b.fromNode b.toNode
    rcases hends with ⟨hs, ht⟩ | ⟨hs, ht⟩
    · rw [hs, ht]
      exact hconn
    · rw [hs, ht]
      exact hconn.symm

end DiepLab
