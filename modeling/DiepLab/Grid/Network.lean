import DiepLab.Library.Multigraph
import Mathlib.Data.List.Nodup
import Mathlib.Data.List.Pairwise
import Mathlib.Data.List.Basic
import Mathlib.Data.String.Basic

/-!
The network model: the `grid_nodes` and `grid_edges` tables.

An edge is stored with a direction, `from_node` to `to_node`, and a live
switch state `is_closed`, the only column that control actions write. Primary
and foreign keys are part of `Network`, so a network with two edges of one id
or with a dangling end cannot be built, and a switch write
(`Network.setSwitch`) keeps them.

Seen from graph theory an edge is its `Branch`, the part that switching does
not touch; a switch state is the set of closed branches, and the two writes
insert and remove one branch (`closed_setClosed_true`,
`closed_setClosed_false`).
-/

namespace DiepLab

-- sets of names are listed in the order of strings
instance isTrans_nameLe : IsTrans String fun a b => a ≤ b := inferInstance

instance antisymm_nameLe : Std.Antisymm fun a b : String => a ≤ b := inferInstance

/-- `grid_nodes.node_type`. -/
inductive NodeType where
  | substation | feeder | transformer | switch | bus | meter | der | load
  deriving DecidableEq, Repr

/-- `grid_edges.edge_type`. -/
inductive EdgeType where
  | line | switch | transformer | tie
  deriving DecidableEq, Repr

structure GridNode where
  nodeId : String
  nodeType : NodeType
  deriving DecidableEq, Repr

/-- The keys of `grid_edges.attrs` that are read: the breaker device behind
the edge, the commands that move it and its role. -/
structure EdgeAttrs where
  deviceId : Option String := none
  cmdOpen : Option String := none
  cmdClose : Option String := none
  role : Option String := none
  deriving DecidableEq, Repr

structure GridEdge where
  edgeId : String
  fromNode : String
  toNode : String
  edgeType : EdgeType := .line
  isSwitchable : Bool := false
  normallyClosed : Bool := true
  isClosed : Bool := true
  attrs : EdgeAttrs := {}
  deriving DecidableEq, Repr

/-- What identifies an edge whatever its switch state. -/
structure Branch where
  edgeId : String
  fromNode : String
  toNode : String
  deriving DecidableEq

def GridEdge.branch (e : GridEdge) : Branch := ⟨e.edgeId, e.fromNode, e.toNode⟩

/-- The grid as a multigraph of branches. -/
def grid : Multigraph String Branch where
  src := Branch.fromNode
  tgt := Branch.toNode

@[simp] theorem grid_src (e : GridEdge) : grid.src e.branch = e.fromNode := rfl

@[simp] theorem grid_tgt (e : GridEdge) : grid.tgt e.branch = e.toNode := rfl

/-- The primary key of `grid_edges`. -/
def EdgeKey (edges : List GridEdge) : Prop := (edges.map GridEdge.edgeId).Nodup

instance (edges : List GridEdge) : Decidable (EdgeKey edges) :=
  inferInstanceAs (Decidable (edges.map GridEdge.edgeId).Nodup)

theorem EdgeKey.eq {edges : List GridEdge} (h : EdgeKey edges) {e f : GridEdge}
    (he : e ∈ edges) (hf : f ∈ edges) (hid : e.edgeId = f.edgeId) : e = f :=
  List.inj_on_of_nodup_map h he hf hid

/-- `UPDATE grid_edges SET is_closed = closed WHERE edge_id = edgeId`, and the
same on the in-memory copies of the planner. -/
def setClosed (edgeId : String) (closed : Bool) (edges : List GridEdge) : List GridEdge :=
  edges.map fun e => if e.edgeId = edgeId then { e with isClosed := closed } else e

/-- The branches that conduct. -/
def closed (edges : List GridEdge) : Set Branch :=
  { b | ∃ e ∈ edges, e.isClosed = true ∧ e.branch = b }

/-! ### Switch writes -/

section SetClosed

variable (edgeId : String) (b : Bool) (edges : List GridEdge)

@[simp] theorem map_edgeId_setClosed :
    (setClosed edgeId b edges).map GridEdge.edgeId = edges.map GridEdge.edgeId := by
  rw [setClosed, List.map_map]
  refine List.map_congr_left fun e _ => ?_
  simp only [Function.comp_apply]
  split <;> rfl

@[simp] theorem map_branch_setClosed :
    (setClosed edgeId b edges).map GridEdge.branch = edges.map GridEdge.branch := by
  rw [setClosed, List.map_map]
  refine List.map_congr_left fun e _ => ?_
  simp only [Function.comp_apply]
  split <;> rfl

variable {edgeId b edges}

theorem EdgeKey.setClosed (h : EdgeKey edges) : EdgeKey (setClosed edgeId b edges) := by
  rw [EdgeKey, map_edgeId_setClosed]
  exact h

theorem mem_setClosed {e : GridEdge} :
    e ∈ setClosed edgeId b edges ↔
      (e ∈ edges ∧ e.edgeId ≠ edgeId) ∨
        ∃ f ∈ edges, f.edgeId = edgeId ∧ e = { f with isClosed := b } := by
  rw [setClosed, List.mem_map]
  constructor
  · rintro ⟨f, hf, rfl⟩
    by_cases hid : f.edgeId = edgeId
    · rw [if_pos hid]
      exact Or.inr ⟨f, hf, hid, rfl⟩
    · rw [if_neg hid]
      exact Or.inl ⟨hf, hid⟩
  · rintro (⟨he, hid⟩ | ⟨f, hf, hid, rfl⟩)
    · exact ⟨e, he, if_neg hid⟩
    · exact ⟨f, hf, if_pos hid⟩

/-- Writing the state an edge already has changes nothing. -/
theorem setClosed_eq_self (h : ∀ e ∈ edges, e.edgeId = edgeId → e.isClosed = b) :
    DiepLab.setClosed edgeId b edges = edges := by
  conv_rhs => rw [← List.map_id edges]
  refine List.map_congr_left fun e he => ?_
  by_cases hid : e.edgeId = edgeId
  · rw [if_pos hid, ← h e he hid]
    rfl
  · rw [if_neg hid]
    rfl

/-- Of two writes to one edge the last one counts. -/
theorem setClosed_setClosed (c : Bool) :
    DiepLab.setClosed edgeId c (DiepLab.setClosed edgeId b edges) =
      DiepLab.setClosed edgeId c edges := by
  rw [DiepLab.setClosed, DiepLab.setClosed, List.map_map]
  refine List.map_congr_left fun e _ => ?_
  by_cases hid : e.edgeId = edgeId <;> simp [hid]

end SetClosed

/-! ### The closed branches -/

theorem mem_closed_branch {edges : List GridEdge} (hkey : EdgeKey edges) {e : GridEdge}
    (he : e ∈ edges) : e.branch ∈ closed edges ↔ e.isClosed = true := by
  constructor
  · rintro ⟨f, hf, hc, hb⟩
    rw [← hkey.eq hf he (congrArg Branch.edgeId hb)]
    exact hc
  · exact fun hc => ⟨e, he, hc, rfl⟩

/-- Closing by id closes every branch of that id. -/
theorem mem_closed_setClosed_true {edgeId : String} {edges : List GridEdge} {b : Branch} :
    b ∈ closed (setClosed edgeId true edges) ↔
      b ∈ closed edges ∨ (b ∈ edges.map GridEdge.branch ∧ b.edgeId = edgeId) := by
  constructor
  · rintro ⟨e, he, hc, rfl⟩
    rcases mem_setClosed.mp he with ⟨he, -⟩ | ⟨f, hf, hid, rfl⟩
    · exact Or.inl ⟨e, he, hc, rfl⟩
    · exact Or.inr ⟨List.mem_map.mpr ⟨f, hf, rfl⟩, hid⟩
  · rintro (⟨e, he, hc, rfl⟩ | ⟨hb, rfl⟩)
    · by_cases hid : e.edgeId = edgeId
      · exact ⟨{ e with isClosed := true }, mem_setClosed.mpr (Or.inr ⟨e, he, hid, rfl⟩),
          rfl, rfl⟩
      · exact ⟨e, mem_setClosed.mpr (Or.inl ⟨he, hid⟩), hc, rfl⟩
    · obtain ⟨e, he, rfl⟩ := List.mem_map.mp hb
      exact ⟨{ e with isClosed := true }, mem_setClosed.mpr (Or.inr ⟨e, he, rfl, rfl⟩), rfl, rfl⟩

theorem EdgeKey.of_branches {edges edges' : List GridEdge} (hkey : EdgeKey edges)
    (h : edges'.map GridEdge.branch = edges.map GridEdge.branch) : EdgeKey edges' := by
  have hids := congrArg (List.map Branch.edgeId) h
  rw [List.map_map, List.map_map] at hids
  exact (congrArg List.Nodup hids).mpr hkey

theorem EdgeKey.branch_eq {edges : List GridEdge} (hkey : EdgeKey edges) {b c : Branch}
    (hb : b ∈ edges.map GridEdge.branch) (hc : c ∈ edges.map GridEdge.branch)
    (hid : b.edgeId = c.edgeId) : b = c := by
  obtain ⟨e, he, rfl⟩ := List.mem_map.mp hb
  obtain ⟨f, hf, rfl⟩ := List.mem_map.mp hc
  rw [hkey.eq he hf hid]

theorem closed_setClosed_true {edges : List GridEdge} (hkey : EdgeKey edges) {t : GridEdge}
    (ht : t.branch ∈ edges.map GridEdge.branch) :
    closed (setClosed t.edgeId true edges) = insert t.branch (closed edges) := by
  ext b
  rw [mem_closed_setClosed_true, Set.mem_insert_iff, or_comm]
  refine or_congr_left ⟨fun h => hkey.branch_eq h.1 ht h.2, ?_⟩
  rintro rfl
  exact ⟨ht, rfl⟩

theorem closed_setClosed_false {edges : List GridEdge} (hkey : EdgeKey edges) {t : GridEdge}
    (ht : t.branch ∈ edges.map GridEdge.branch) :
    closed (setClosed t.edgeId false edges) = closed edges \ {t.branch} := by
  obtain ⟨u, hu, hut⟩ := List.mem_map.mp ht
  have huid : u.edgeId = t.edgeId := congrArg Branch.edgeId hut
  ext b
  constructor
  · rintro ⟨e, he, hc, rfl⟩
    rcases mem_setClosed.mp he with ⟨he, hid⟩ | ⟨f, hf, hid, rfl⟩
    · exact ⟨⟨e, he, hc, rfl⟩, fun hb => hid (congrArg Branch.edgeId hb)⟩
    · exact absurd hc Bool.false_ne_true
  · rintro ⟨⟨e, he, hc, rfl⟩, hne⟩
    refine ⟨e, mem_setClosed.mpr (Or.inl ⟨he, fun hid => hne ?_⟩), hc, rfl⟩
    rw [← hut, ← hkey.eq he hu (hid.trans huid.symm)]
    rfl

/-! ### The tables with their keys -/

structure Network where
  nodes : List GridNode
  edges : List GridEdge
  nodeKey : (nodes.map GridNode.nodeId).Nodup
  edgeKey : EdgeKey edges
  fromNode_mem : ∀ e ∈ edges, e.fromNode ∈ nodes.map GridNode.nodeId
  toNode_mem : ∀ e ∈ edges, e.toNode ∈ nodes.map GridNode.nodeId

namespace Network

/-- The network without nodes. -/
def empty : Network where
  nodes := []
  edges := []
  nodeKey := List.nodup_nil
  edgeKey := List.nodup_nil
  fromNode_mem := by simp
  toNode_mem := by simp

/-- `SELECT node_id FROM grid_nodes WHERE node_type = 'substation'`. -/
def substations (net : Network) : List String :=
  (net.nodes.filter fun n => n.nodeType = .substation).map GridNode.nodeId

/-- A switch write on the stored model. -/
def setSwitch (net : Network) (edgeId : String) (b : Bool) : Network where
  nodes := net.nodes
  edges := setClosed edgeId b net.edges
  nodeKey := net.nodeKey
  edgeKey := net.edgeKey.setClosed
  fromNode_mem e he := by
    rcases mem_setClosed.mp he with ⟨he, -⟩ | ⟨f, hf, -, rfl⟩
    · exact net.fromNode_mem e he
    · exact net.fromNode_mem f hf
  toNode_mem e he := by
    rcases mem_setClosed.mp he with ⟨he, -⟩ | ⟨f, hf, -, rfl⟩
    · exact net.toNode_mem e he
    · exact net.toNode_mem f hf

@[simp] theorem setSwitch_nodes (net : Network) (edgeId : String) (b : Bool) :
    (net.setSwitch edgeId b).nodes = net.nodes := rfl

@[simp] theorem setSwitch_edges (net : Network) (edgeId : String) (b : Bool) :
    (net.setSwitch edgeId b).edges = setClosed edgeId b net.edges := rfl

@[simp] theorem setSwitch_substations (net : Network) (edgeId : String) (b : Bool) :
    (net.setSwitch edgeId b).substations = net.substations := rfl

/-- The switch state of an edge, if there is an edge of that id. -/
def stateOf (net : Network) (edgeId : String) : Option Bool :=
  (net.edges.find? fun e => e.edgeId = edgeId).map GridEdge.isClosed

/-- By the primary key a row is the one its id finds. -/
theorem stateOf_of_mem (net : Network) {e : GridEdge} (he : e ∈ net.edges) :
    net.stateOf e.edgeId = some e.isClosed := by
  rw [stateOf]
  cases hfind : net.edges.find? fun f => f.edgeId = e.edgeId with
  | none =>
      have hnone := List.find?_eq_none.mp hfind e he
      exact absurd (decide_eq_true rfl) hnone
  | some f =>
      have hfound := List.find?_some hfind
      have hid : f.edgeId = e.edgeId := of_decide_eq_true hfound
      rw [net.edgeKey.eq (List.mem_of_find?_eq_some hfind) he hid]
      rfl

theorem stateOf_setSwitch (net : Network) (edgeId : String) (b : Bool) (i : String) :
    (net.setSwitch edgeId b).stateOf i =
      if edgeId = i then (net.stateOf i).map fun _ => b else net.stateOf i := by
  rw [stateOf, stateOf, setSwitch_edges, setClosed]
  generalize net.edges = edges
  induction edges with
  | nil => simp
  | cons e edges ih =>
      have hhead : (if e.edgeId = edgeId then { e with isClosed := b } else e).edgeId =
          e.edgeId := by
        split <;> rfl
      rw [List.map_cons, List.find?_cons, List.find?_cons, hhead]
      by_cases hei : e.edgeId = i
      · by_cases hi : edgeId = i
        · simp [hei, hi]
        · simp [hei, hi, Ne.symm hi]
      · simpa [hei] using ih

/-- Writing back the state that an edge had. -/
theorem stateOf_setSwitch_back {net : Network} {edgeId : String} {b : Bool}
    (h : net.stateOf edgeId = some b) (b' : Bool) (i : String) :
    ((net.setSwitch edgeId b').setSwitch edgeId b).stateOf i = net.stateOf i := by
  rw [stateOf_setSwitch, stateOf_setSwitch]
  split
  · subst i
    rw [h]
    rfl
  · rfl

theorem ext_tables {net net' : Network} (hn : net.nodes = net'.nodes)
    (he : net.edges = net'.edges) : net = net' := by
  cases net
  cases net'
  congr

end Network

end DiepLab
