import DiepLab.Grid.Network
import DiepLab.Library.Worklist
import Mathlib.Data.List.Dedup

/-!
Which nodes are energised: the three searches of the source.

`Dms.reach` and `OcSwitch.energized` follow closed edges from `from_node` to
`to_node`; `Contingency.energized` follows them both ways, as a closed switch
conducts. All three are the stack search of `Library.Worklist` over an
adjacency read off the edge rows, and each gets one exact description in
terms of the closed branches; nothing later unfolds the search.
-/

namespace DiepLab

open Worklist

/-- Follow the rows that `carries` selects, in their stored direction. -/
def forward (carries : GridEdge → Bool) (edges : List GridEdge) (n : String) : List String :=
  (edges.filter fun e => carries e && e.fromNode == n).map GridEdge.toNode

/-- The branches of the selected rows. -/
def carried (carries : GridEdge → Bool) (edges : List GridEdge) : Set Branch :=
  { b | ∃ e ∈ edges, carries e = true ∧ e.branch = b }

theorem mem_forward {carries : GridEdge → Bool} {edges : List GridEdge} {a b : String} :
    b ∈ forward carries edges a ↔ grid.Link (carried carries edges) a b := by
  simp only [forward, List.mem_map, List.mem_filter, Bool.and_eq_true, beq_iff_eq]
  constructor
  · rintro ⟨e, ⟨he, hc, rfl⟩, rfl⟩
    exact ⟨e.branch, ⟨e, he, hc, rfl⟩, rfl, rfl⟩
  · rintro ⟨-, ⟨e, he, hc, rfl⟩, rfl, rfl⟩
    exact ⟨e, ⟨he, hc, rfl⟩, rfl⟩

theorem reaches_forward {carries : GridEdge → Bool} {edges : List GridEdge} {a b : String} :
    Reaches (forward carries edges) a b ↔ grid.Reach (carried carries edges) a b := by
  unfold Reaches Multigraph.Reach
  rw [show (fun a b => b ∈ forward carries edges a) = grid.Link (carried carries edges) from
    funext₂ fun _ _ => propext mem_forward]

/-- The fuel that every search below is given: one turn for every entry of
the initial stack and one for every node that can still be pushed. -/
theorem search_fuel (targets : List String) (seen : Finset String) (stack : List String) :
    stack.length + (targets.toFinset \ seen).card ≤ stack.length + targets.length :=
  Nat.add_le_add_left
    ((Finset.card_le_card Finset.sdiff_subset).trans targets.toFinset_card_le) _

theorem mem_search_forward (carries : GridEdge → Bool) (edges : List GridEdge)
    (stack : List String) (x : String) :
    x ∈ search (forward carries edges) (stack.length + edges.length) stack.toFinset stack ↔
      ∃ s ∈ stack, grid.Reach (carried carries edges) s x := by
  have hU : ∀ a, ∀ b ∈ forward carries edges a, b ∈ (edges.map GridEdge.toNode).toFinset := by
    intro a b hb
    rw [List.mem_toFinset]
    obtain ⟨e, he, rfl⟩ := List.mem_map.mp hb
    exact List.mem_map_of_mem (List.mem_of_mem_filter he)
  have hfuel := search_fuel (edges.map GridEdge.toNode) stack.toFinset stack
  rw [List.length_map] at hfuel
  rw [mem_search _ _ hU _ _ _ (.start _ _ _ fun a => List.mem_toFinset.symm) hfuel]
  simp only [List.mem_toFinset, reaches_forward]

/-! ### `_reach` of the DMS router -/

namespace Dms

/-- Nodes reachable from `sources` following closed directed edges. The Python
stack is popped from its end. -/
def reach (edges : List GridEdge) (sources : List String) : Finset String :=
  search (forward GridEdge.isClosed edges) (sources.length + edges.length)
    sources.toFinset sources.reverse

theorem mem_reach {edges : List GridEdge} {sources : List String} {x : String} :
    x ∈ reach edges sources ↔ ∃ s ∈ sources, grid.Reach (closed edges) s x := by
  have h := mem_search_forward GridEdge.isClosed edges sources.reverse x
  rw [List.length_reverse, List.toFinset_reverse] at h
  simp only [List.mem_reverse] at h
  exact h

theorem mem_reach_singleton {edges : List GridEdge} {a x : String} :
    x ∈ reach edges [a] ↔ grid.Reach (closed edges) a x := by
  simp [mem_reach]

end Dms

/-! ### `_energized` of the switch handler -/

namespace OcSwitch

/-- The state an edge is taken to have when one edge is previewed in another
state; an empty `flip_edge` previews nothing. -/
def closedUnder (flip : Option (String × Bool)) (e : GridEdge) : Bool :=
  match flip with
  | none => e.isClosed
  | some (flipEdge, flipState) =>
      if flipEdge ≠ "" ∧ e.edgeId = flipEdge then flipState else e.isClosed

/-- Nodes reachable from the substations over closed directed edges,
optionally overriding one edge's closed state. -/
def energized (edges : List GridEdge) (substations : List String)
    (flip : Option (String × Bool)) : Finset String :=
  search (forward (closedUnder flip) edges) (substations.length + edges.length)
    substations.toFinset substations

theorem mem_energized {edges : List GridEdge} {substations : List String}
    {flip : Option (String × Bool)} {x : String} :
    x ∈ energized edges substations flip ↔
      ∃ s ∈ substations, grid.Reach (carried (closedUnder flip) edges) s x :=
  mem_search_forward ..

theorem carried_closedUnder_none (edges : List GridEdge) :
    carried (closedUnder none) edges = closed edges := rfl

/-- The preview of a switch operation is the state after it. -/
theorem carried_closedUnder_some {edgeId : String} (hid : edgeId ≠ "") (b : Bool)
    (edges : List GridEdge) :
    carried (closedUnder (some (edgeId, b))) edges = closed (setClosed edgeId b edges) := by
  ext x
  constructor
  · rintro ⟨e, he, hc, rfl⟩
    by_cases h : e.edgeId = edgeId
    · refine ⟨{ e with isClosed := b }, mem_setClosed.mpr (Or.inr ⟨e, he, h, rfl⟩), ?_, rfl⟩
      simpa [closedUnder, hid, h] using hc
    · refine ⟨e, mem_setClosed.mpr (Or.inl ⟨he, h⟩), ?_, rfl⟩
      simpa [closedUnder, h] using hc
  · rintro ⟨e, he, hc, rfl⟩
    rcases mem_setClosed.mp he with ⟨he, h⟩ | ⟨f, hf, h, rfl⟩
    · exact ⟨e, he, by simpa [closedUnder, h] using hc, rfl⟩
    · exact ⟨f, hf, by simpa [closedUnder, hid, h] using hc, rfl⟩

/-- The switch handler and the planner agree on what is energised. -/
theorem energized_eq_reach (edges : List GridEdge) (substations : List String) :
    energized edges substations none = Dms.reach edges substations := by
  ext x
  rw [mem_energized, Dms.mem_reach, carried_closedUnder_none]

theorem energized_flip {edgeId : String} (hid : edgeId ≠ "") (b : Bool)
    (edges : List GridEdge) (substations : List String) :
    energized edges substations (some (edgeId, b)) =
      energized (setClosed edgeId b edges) substations none := by
  ext x
  rw [mem_energized, mem_energized, carried_closedUnder_some hid, carried_closedUnder_none]

end OcSwitch

/-! ### `_energized` of the contingency analysis -/

namespace Contingency

/-- Both ends of a closed edge are neighbours of each other. -/
def neighbours (edges : List GridEdge) (n : String) : List String :=
  edges.flatMap fun e =>
    if e.isClosed then
      (if e.fromNode = n then [e.toNode] else []) ++ (if e.toNode = n then [e.fromNode] else [])
    else []

theorem mem_neighbours {edges : List GridEdge} {a b : String} :
    b ∈ neighbours edges a ↔
      grid.Link (closed edges) a b ∨ grid.Link (closed edges) b a := by
  simp only [neighbours, List.mem_flatMap]
  constructor
  · rintro ⟨e, he, hb⟩
    by_cases hc : e.isClosed = true
    · rw [if_pos hc, List.mem_append] at hb
      rcases hb with hb | hb <;> split at hb <;> rename_i hn
      · rw [List.mem_singleton.mp hb]
        exact Or.inl ⟨e.branch, ⟨e, he, hc, rfl⟩, hn, rfl⟩
      · exact absurd hb List.not_mem_nil
      · rw [List.mem_singleton.mp hb]
        exact Or.inr ⟨e.branch, ⟨e, he, hc, rfl⟩, rfl, hn⟩
      · exact absurd hb List.not_mem_nil
    · rw [if_neg hc] at hb
      exact absurd hb List.not_mem_nil
  · rintro (⟨-, ⟨e, he, hc, rfl⟩, rfl, rfl⟩ | ⟨-, ⟨e, he, hc, rfl⟩, rfl, rfl⟩)
    · exact ⟨e, he, by simp [hc]⟩
    · exact ⟨e, he, by simp [hc]⟩

/-- The substations among the rows of `nodes`. -/
def sources (nodes : List GridNode) : List String :=
  (nodes.filter fun n => n.nodeType = .substation).map GridNode.nodeId

/-- Nodes reachable from substations over closed edges (undirected). -/
def energized (nodes : List GridNode) (edges : List GridEdge) : Finset String :=
  search (neighbours edges) ((sources nodes).length + 2 * edges.length)
    (sources nodes).toFinset (sources nodes).reverse

theorem mem_energized {nodes : List GridNode} {edges : List GridEdge} {x : String} :
    x ∈ energized nodes edges ↔ ∃ s ∈ sources nodes, grid.Conn (closed edges) s x := by
  let ends := edges.map GridEdge.toNode ++ edges.map GridEdge.fromNode
  have hU : ∀ a, ∀ b ∈ neighbours edges a, b ∈ ends.toFinset := by
    intro a b hb
    rw [List.mem_toFinset, List.mem_append]
    rcases mem_neighbours.mp hb with ⟨-, ⟨e, he, -, rfl⟩, -, rfl⟩ | ⟨-, ⟨e, he, -, rfl⟩, rfl, -⟩
    · exact Or.inl (List.mem_map_of_mem he)
    · exact Or.inr (List.mem_map_of_mem he)
  have hfuel := search_fuel ends (sources nodes).toFinset (sources nodes).reverse
  have hlen : ends.length = 2 * edges.length := by simp [ends]; omega
  rw [List.length_reverse, hlen] at hfuel
  rw [energized, mem_search _ _ hU _ _ _
    (.start _ _ _ fun a => by rw [List.mem_reverse, List.mem_toFinset])
    (by rwa [List.length_reverse])]
  have hreach (a b : String) :
      Reaches (neighbours edges) a b ↔ grid.Conn (closed edges) a b := by
    unfold Reaches Multigraph.Conn
    rw [show (fun a b => b ∈ neighbours edges a) = _ from
      funext₂ fun _ _ => propext mem_neighbours]
  simp only [List.mem_toFinset, hreach]

end Contingency

end DiepLab
