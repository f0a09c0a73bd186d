import DiepLab.Common
import DiepLab.Grid.Radial
import DiepLab.Topology.Geojson

/-!
Orientation of an imported network.

`orient_radial` walks from the root over all edges, open ones included, and
turns every edge so that it leads from the end discovered first to the other.
Downstream searches then follow closed edges in that direction.

The walk marks a node when it is pushed and goes on from the last one pushed,
so an open tie that is met early can lead to the far end of a closed branch
before the branch itself does. `orient_reaches_iff` is the exact condition:
the closed edges must be discovered outwards. Under it the turned edges form a
rooted forest, in which everything connected is reached.
-/

namespace DiepLab.Topology

open Worklist

/-! ### The orientation -/

/-- `adj`: the other ends of all edges at a node, in stored order. -/
def links (edges : List GridEdge) (n : String) : List String :=
  edges.flatMap fun e =>
    (if e.fromNode = n then [e.toNode] else []) ++ (if e.toNode = n then [e.fromNode] else [])

/-- A node with the node it was discovered from. -/
abbrev Discovered := String × Option String

def discoverNext (cur : String) (state : List Discovered × List String) (nxt : String) :
    List Discovered × List String :=
  if nxt ∈ state.1.map Prod.fst then state
  else (state.1 ++ [(nxt, some cur)], nxt :: state.2)

/-- The discovery loop of `orient_radial`. -/
def discover (adj : String → List String) :
    ℕ → List Discovered → List String → List Discovered
  | 0, order, _ => order
  | _ + 1, order, [] => order
  | fuel + 1, order, cur :: stack =>
      let next := (adj cur).foldl (discoverNext cur) (order, stack)
      discover adj fuel next.1 next.2

/-- Upstream is the end discovered first; an edge outside the discovered part
is left as it is. -/
def orientEdge (order : List String) (e : GridEdge) : GridEdge :=
  if e.fromNode ∈ order ∧ e.toNode ∈ order ∧
      ¬ order.idxOf e.fromNode ≤ order.idxOf e.toNode then
    { e with fromNode := e.toNode, toNode := e.fromNode }
  else e

structure Oriented where
  parentIds : List Discovered
  edges : List GridEdge
  unreached : List String

/-- The nodes of the walk in the order of their discovery. -/
def discovered (nodes : List GridNode) (edges : List GridEdge) (rootId : String) :
    List Discovered :=
  discover (links edges) (nodes.length + 1) [(rootId, none)] [rootId]

def orientRadial (nodes : List GridNode) (edges : List GridEdge) (rootId : String) :
    Except Exc Oriented :=
  if rootId ∉ nodes.map GridNode.nodeId then
    .error (.other ("root_id '" ++ rootId ++ "' not among parsed nodes"))
  else
    let parentIds := discovered nodes edges rootId
    let order := parentIds.map Prod.fst
    .ok {
      parentIds := parentIds
      edges := edges.map (orientEdge order)
      unreached := ((nodes.map GridNode.nodeId).filter fun n => n ∉ order).insertionSort (· ≤ ·) }

/-- `common.downstream_node_ids` over the stored edges. -/
def downstreamNodeIds (edges : List GridEdge) (start : String) (energizedOnly : Bool) :
    List String :=
  walk (forward (fun e => !energizedOnly || e.isClosed) edges) (edges.length + 1) [start] [start]

theorem mem_downstreamNodeIds {edges : List GridEdge} {start x : String} :
    x ∈ downstreamNodeIds edges start true ↔ grid.Reach (closed edges) start x := by
  have h := mem_search_forward (fun e => !true || e.isClosed) edges [start] x
  rw [List.length_singleton, Nat.add_comm] at h
  rw [downstreamNodeIds, mem_walk, h]
  simp only [List.mem_singleton, exists_eq_left]
  rfl

/-! ### The walk -/

theorem map_fst_foldl_discoverNext (cur : String) (l : List String) (order : List Discovered)
    (stack : List String) :
    ((l.foldl (discoverNext cur) (order, stack)).1.map Prod.fst,
        (l.foldl (discoverNext cur) (order, stack)).2) =
      l.foldl visitNext (order.map Prod.fst, stack) := by
  induction l generalizing order stack with
  | nil => rfl
  | cons n l ih =>
      rw [List.foldl_cons, List.foldl_cons, discoverNext, visitNext]
      by_cases hn : n ∈ order.map Prod.fst
      · rw [if_pos hn, if_pos hn]
        exact ih order stack
      · rw [if_neg hn, if_neg hn, ih, List.map_append]
        rfl

/-- Parents apart, discovery is the walk of the library. -/
theorem map_fst_discover (adj : String → List String) (fuel : ℕ) (order : List Discovered)
    (stack : List String) :
    (discover adj fuel order stack).map Prod.fst =
      walk adj fuel (order.map Prod.fst) stack := by
  induction fuel generalizing order stack with
  | zero => rfl
  | succ fuel ih =>
      cases stack with
      | nil => rfl
      | cons cur stack =>
          rw [discover, walk, ih, ← map_fst_foldl_discoverNext]

/-- With a turn for every node the walk discovers what can be reached. -/
theorem mem_map_fst_discover {adj : String → List String} {ids : List String}
    (hadj : ∀ a, ∀ b ∈ adj a, b ∈ ids) (start x : String) :
    x ∈ (discover adj (ids.length + 1) [(start, none)] [start]).map Prod.fst ↔
      Reaches adj start x := by
  have hU : ∀ a, ∀ b ∈ adj a, b ∈ ids.toFinset :=
    fun a b hb => List.mem_toFinset.mpr (hadj a b hb)
  have hfuel := search_fuel ids [start].toFinset [start]
  rw [List.length_singleton, Nat.add_comm 1 ids.length] at hfuel
  rw [map_fst_discover, mem_walk, List.map_singleton,
    mem_search _ _ hU _ _ _ (.start _ _ _ fun a => List.mem_toFinset.symm) hfuel]
  simp

/-- All branches, open ones included. -/
def allBranches (edges : List GridEdge) : Set Branch := { b | ∃ e ∈ edges, e.branch = b }

theorem closed_subset_allBranches (edges : List GridEdge) : closed edges ⊆ allBranches edges :=
  fun _ ⟨e, he, _, hb⟩ => ⟨e, he, hb⟩

theorem mem_downstreamNodeIds_all {edges : List GridEdge} {start x : String} :
    x ∈ downstreamNodeIds edges start false ↔ grid.Reach (allBranches edges) start x := by
  have h := mem_search_forward (fun e => !false || e.isClosed) edges [start] x
  rw [List.length_singleton, Nat.add_comm] at h
  rw [downstreamNodeIds, mem_walk, h]
  have hall : carried (fun e => !false || e.isClosed) edges = allBranches edges := by
    ext b
    simp [carried, allBranches]
  simp only [List.mem_singleton, exists_eq_left, hall]

theorem mem_links {edges : List GridEdge} {a b : String} :
    b ∈ links edges a ↔
      grid.Link (allBranches edges) a b ∨ grid.Link (allBranches edges) b a := by
  simp only [links, List.mem_flatMap, List.mem_append]
  constructor
  · rintro ⟨e, he, hb | hb⟩
    · split at hb
      · rename_i hn
        rw [List.mem_singleton.mp hb]
        exact Or.inl ⟨e.branch, ⟨e, he, rfl⟩, hn, rfl⟩
      · exact absurd hb List.not_mem_nil
    · split at hb
      · rename_i hn
        rw [List.mem_singleton.mp hb]
        exact Or.inr ⟨e.branch, ⟨e, he, rfl⟩, rfl, hn⟩
      · exact absurd hb List.not_mem_nil
  · rintro (⟨-, ⟨e, he, rfl⟩, rfl, rfl⟩ | ⟨-, ⟨e, he, rfl⟩, rfl, rfl⟩)
    · exact ⟨e, he, Or.inl (by simp)⟩
    · exact ⟨e, he, Or.inr (by simp)⟩

section Orient

variable {nodes : List GridNode} {edges : List GridEdge} {rootId : String}

/-- The discovered nodes in order. -/
def discoveryOrder (nodes : List GridNode) (edges : List GridEdge) (rootId : String) :
    List String :=
  (discovered nodes edges rootId).map Prod.fst

/-- Everything connected to the root by edges of any state is discovered. -/
theorem mem_discoveryOrder (h : WellFormed nodes edges) {x : String} :
    x ∈ discoveryOrder nodes edges rootId ↔ grid.Conn (allBranches edges) rootId x := by
  have hlinks : ∀ a, ∀ b ∈ links edges a, b ∈ nodes.map GridNode.nodeId := by
    intro a b hb
    rcases mem_links.mp hb with ⟨-, ⟨e, he, rfl⟩, -, rfl⟩ | ⟨-, ⟨e, he, rfl⟩, rfl, -⟩
    · exact (h.ends e he).2
    · exact (h.ends e he).1
  have hmem := mem_map_fst_discover hlinks rootId x
  rw [List.length_map] at hmem
  have hreach : Reaches (links edges) = grid.Conn (allBranches edges) := by
    unfold Reaches Multigraph.Conn
    rw [show (fun a b => b ∈ links edges a) = _ from funext₂ fun _ _ => propext mem_links]
  rw [discoveryOrder, discovered, hmem, hreach]

/-! ### The turned edges -/

/-- `orientEdge` on branches. -/
def orientBranch (order : List String) (b : Branch) : Branch :=
  if b.fromNode ∈ order ∧ b.toNode ∈ order ∧
      ¬ order.idxOf b.fromNode ≤ order.idxOf b.toNode then
    { b with fromNode := b.toNode, toNode := b.fromNode }
  else b

theorem branch_orientEdge (order : List String) (e : GridEdge) :
    (orientEdge order e).branch = orientBranch order e.branch ∧
      (orientEdge order e).isClosed = e.isClosed := by
  unfold orientEdge
  split <;> rename_i h
  · exact ⟨(if_pos (c := e.branch.fromNode ∈ order ∧ e.branch.toNode ∈ order ∧ _) h).symm, rfl⟩
  · exact ⟨(if_neg (c := e.branch.fromNode ∈ order ∧ e.branch.toNode ∈ order ∧ _) h).symm, rfl⟩

theorem closed_map_orientEdge (order : List String) (edges : List GridEdge) :
    closed (edges.map (orientEdge order)) = orientBranch order '' closed edges := by
  ext b
  constructor
  · rintro ⟨e', he', hc, rfl⟩
    obtain ⟨e, he, rfl⟩ := List.mem_map.mp he'
    obtain ⟨hb, hclosed⟩ := branch_orientEdge order e
    exact ⟨e.branch, ⟨e, he, hclosed.symm.trans hc, rfl⟩, hb.symm⟩
  · rintro ⟨-, ⟨e, he, hc, rfl⟩, rfl⟩
    obtain ⟨hb, hclosed⟩ := branch_orientEdge order e
    exact ⟨orientEdge order e, List.mem_map_of_mem he, hclosed.trans hc, hb⟩

theorem orientBranch_turns (order : List String) (S : Set Branch) :
    grid.Turns (orientBranch order) S := by
  intro b _
  unfold orientBranch
  split
  · exact Or.inr ⟨rfl, rfl⟩
  · exact Or.inl ⟨rfl, rfl⟩

/-- Of every closed edge of the root's tree the end nearer to the root, which
stays connected to it without the edge, is discovered before the other. -/
def DiscoveredOutwards (order : List String) (rootId : String) (S : Set Branch) : Prop :=
  ∀ b ∈ S,
    (grid.Conn (S \ {b}) rootId b.fromNode → order.idxOf b.fromNode < order.idxOf b.toNode) ∧
    (grid.Conn (S \ {b}) rootId b.toNode → order.idxOf b.toNode < order.idxOf b.fromNode)

section Rooted

variable {order : List String} {S : Set Branch}
  (hforest : grid.Forest S) (hdisc : ∀ x, grid.Conn S rootId x → x ∈ order)

include hforest hdisc

/-- Discovered outwards, the turned edges point away from the root. -/
theorem rooted_of_discoveredOutwards (hout : DiscoveredOutwards order rootId S) :
    grid.Rooted {rootId} (orientBranch order '' S) where
  forest := (orientBranch_turns order S).forest hforest
  root_unique r hr r' hr' _ := hr.trans hr'.symm
  away := by
    rintro r rfl - ⟨b, hb, rfl⟩ hconn
    have hturn := orientBranch_turns order S
    rw [hturn.image_diff hforest hb, ((orientBranch_turns order _).conn_iff)]
    rw [hturn.conn_iff] at hconn
    -- the root sees one of the two ends of `b` without it
    have hsides : grid.Conn (S \ {b}) r b.fromNode ∨ grid.Conn (S \ {b}) r b.toNode := by
      have hfrom : grid.Conn S r b.fromNode := by
        rcases hturn b hb with ⟨hs, -⟩ | ⟨hs, -⟩
        · rw [hs] at hconn
          exact hconn
        · rw [hs] at hconn
          exact hconn.trans (Multigraph.conn_of_mem (G := grid) hb).symm
      rw [← Multigraph.insert_diff_self hb, Multigraph.conn_insert_iff] at hfrom
      rcases hfrom with h | ⟨h, -⟩ | ⟨h, -⟩
      · exact Or.inl h
      · exact Or.inl h
      · exact Or.inr h
    have hsub : S \ {b} ⊆ S := Set.sdiff_subset
    rcases hsides with hnear | hnear
    · have hlt := (hout b hb).1 hnear
      have hsrc : orientBranch order b = b :=
        if_neg fun h => h.2.2 hlt.le
      rw [hsrc]
      exact hnear
    · have hlt := (hout b hb).2 hnear
      have hto : b.toNode ∈ order := hdisc _ (hnear.mono hsub)
      have hfrom : b.fromNode ∈ order :=
        hdisc _ ((hnear.mono hsub).trans (Multigraph.conn_of_mem (G := grid) hb).symm)
      have hsrc : orientBranch order b = { b with fromNode := b.toNode, toNode := b.fromNode } :=
        if_pos ⟨hfrom, hto, not_le.mpr hlt⟩
      rw [hsrc]
      exact hnear

/-- An edge that is turned against the root cuts off its far end. -/
theorem not_reach_of_turned {b : Branch} (hb : b ∈ S) {near far : String}
    (hends : (near = b.fromNode ∧ far = b.toNode) ∨ (near = b.toNode ∧ far = b.fromNode))
    (hnear : grid.Conn (S \ {b}) rootId near) (hlt : order.idxOf far < order.idxOf near) :
    ¬ grid.Reach (orientBranch order '' S) rootId far := by
  have hturn := orientBranch_turns order S
  have hsub : S \ {b} ⊆ S := Set.sdiff_subset
  have hnearIn : near ∈ order := hdisc _ (hnear.mono hsub)
  have hlink : grid.Conn S near far := by
    rcases hends with ⟨rfl, rfl⟩ | ⟨rfl, rfl⟩
    · exact Multigraph.conn_of_mem (G := grid) hb
    · exact (Multigraph.conn_of_mem (G := grid) hb).symm
  have hfarIn : far ∈ order := hdisc _ ((hnear.mono hsub).trans hlink)
  have hsrc : grid.src (orientBranch order b) = far := by
    rcases hends with ⟨rfl, rfl⟩ | ⟨rfl, rfl⟩
    · have hif : orientBranch order b = { b with fromNode := b.toNode, toNode := b.fromNode } :=
        if_pos ⟨hnearIn, hfarIn, not_le.mpr hlt⟩
      rw [hif]
      rfl
    · have hif : orientBranch order b = b := if_neg fun h => h.2.2 hlt.le
      rw [hif]
      rfl
  -- without the edge the far end is not even connected
  have hcut : ¬ grid.Conn (S \ {b}) rootId far := by
    intro hfar
    have hjoin := hnear.symm.trans hfar
    rcases hends with ⟨rfl, rfl⟩ | ⟨rfl, rfl⟩
    · exact hforest b hb hjoin
    · exact hforest b hb hjoin.symm
  intro hreach
  rw [← Multigraph.insert_diff_self (Set.mem_image_of_mem (orientBranch order) hb),
    Multigraph.reach_insert_iff, hsrc] at hreach
  have hwithout : ¬ grid.Reach (orientBranch order '' S \ {orientBranch order b}) rootId far := by
    intro h
    rw [hturn.image_diff hforest hb] at h
    exact hcut ((orientBranch_turns order _).conn_iff.mp h.conn)
  exact hreach.elim hwithout fun h => hwithout h.1

/-- Everything connected to the root is reached exactly when the closed edges
are discovered outwards. -/
theorem reach_iff_conn_iff (hnodup : ∀ x y, grid.Conn S rootId x → grid.Conn S rootId y →
      order.idxOf x = order.idxOf y → x = y) :
    (∀ x, grid.Reach (orientBranch order '' S) rootId x ↔ grid.Conn S rootId x) ↔
      DiscoveredOutwards order rootId S := by
  have hsub (b : Branch) : S \ {b} ⊆ S := Set.sdiff_subset
  constructor
  · intro h b hb
    have hlink : grid.Conn S b.fromNode b.toNode := Multigraph.conn_of_mem (G := grid) hb
    have hne : b.fromNode ≠ b.toNode := by
      intro heq
      refine hforest b hb ?_
      show grid.Conn (S \ {b}) b.fromNode b.toNode
      rw [← heq]
      exact .refl
    constructor
    · intro hnear
      have hfar : grid.Conn S rootId b.toNode := (hnear.mono (hsub b)).trans hlink
      refine lt_of_le_of_ne (not_lt.mp fun hlt => ?_) fun heq =>
        hne (hnodup _ _ (hnear.mono (hsub b)) hfar heq)
      exact not_reach_of_turned hforest hdisc hb (Or.inl ⟨rfl, rfl⟩) hnear hlt
        ((h b.toNode).mpr hfar)
    · intro hnear
      have hfar : grid.Conn S rootId b.fromNode := (hnear.mono (hsub b)).trans hlink.symm
      refine lt_of_le_of_ne (not_lt.mp fun hlt => ?_) fun heq =>
        hne (hnodup _ _ (hnear.mono (hsub b)) hfar heq).symm
      exact not_reach_of_turned hforest hdisc hb (Or.inr ⟨rfl, rfl⟩) hnear hlt
        ((h b.fromNode).mpr hfar)
  · intro hout x
    have hrooted := rooted_of_discoveredOutwards hforest hdisc hout
    rw [hrooted.reach_iff_conn (Set.mem_singleton rootId), (orientBranch_turns order S).conn_iff]

end Rooted

end Orient

/-! ### After an import -/

/-- **When orientation serves downstream searches.** For a well-formed model
whose closed edges form a forest, the nodes found downstream of the root over
closed edges are those connected to it exactly when the walk over all edges
discovers the closed edges outwards. -/
theorem orient_reaches_of_wellFormed {nodes : List GridNode} {edges : List GridEdge}
    (hwf : WellFormed nodes edges) {rootId : String} {oriented : Oriented}
    (horient : orientRadial nodes edges rootId = .ok oriented)
    (hforest : grid.Forest (closed edges)) :
    (∀ x, x ∈ downstreamNodeIds oriented.edges rootId true ↔
        grid.Conn (closed edges) rootId x) ↔
      DiscoveredOutwards (discoveryOrder nodes edges rootId) rootId (closed edges) := by
  have hedges : oriented.edges =
      edges.map (orientEdge (discoveryOrder nodes edges rootId)) := by
    unfold orientRadial at horient
    split at horient
    · exact nomatch horient
    · rw [← Except.ok.inj horient]
      rfl
  have hdisc : ∀ x, grid.Conn (closed edges) rootId x →
      x ∈ discoveryOrder nodes edges rootId :=
    fun x hx => (mem_discoveryOrder hwf).mpr (hx.mono (closed_subset_allBranches edges))
  simp only [mem_downstreamNodeIds, hedges, closed_map_orientEdge]
  exact reach_iff_conn_iff hforest hdisc fun x y hx _ heq => (List.idxOf_inj (hdisc x hx)).mp heq

/-- A feeder `R`, `A`, `B`, `C` as the survey draws it; with the tie there is
an open switch from `R` to `C`. -/
def surveyedFeeder (tie : Bool) : List Feature :=
  [.point (some "Node") (some "R") (0, 0), .point (some "Node") (some "A") (1, 0),
    .point (some "Node") (some "B") (2, 0), .point (some "Node") (some "C") (3, 0),
    .lineString (some "l(r:R-A)") false false (0, 0) (1, 0),
    .lineString (some "l(r:A-B)") false false (1, 0) (2, 0),
    .lineString (some "l(r:B-C)") false false (2, 0) (3, 0)] ++
  if tie then [.lineString (some "l(r:R-C)") true true (0, 0) (3, 0)] else []

end DiepLab.Topology
