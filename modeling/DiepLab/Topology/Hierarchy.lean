import DiepLab.Topology.Orientation
import DiepLab.Topology.Records

/-!
The hierarchy that an import is oriented into.

`orient_radial` on the records themselves: it builds the adjacency of all
edges, writes the parent of every node that it discovers and turns the edges
whose two ends are discovered. The numbering is the order in which nodes are
pushed, so it is neither the order of a depth-first nor of a breadth-first
search. What counts is that a node is pushed once, from a node pushed before it
(`Grown`): so parents precede their children, and every edge that joins two
discovered nodes is turned from the earlier to the later one.

`orientRadial_ok` says when the function returns, and `orientRadial_hierarchy`
what it returns for any list of edges without self-loops. `orientRadial_gridNode`
relates it to the function on the rows of the network model.
-/

namespace DiepLab.Topology.Hierarchy

open Worklist

/-! ### The function -/

/-- The other ends of all edges at a node. -/
def adj (edges : List EdgeRecord) (n : String) : List String :=
  edges.flatMap fun e =>
    (if e.fromNode = n then [e.toNode] else []) ++ (if e.toNode = n then [e.fromNode] else [])

/-- The key for which `adj[...]` raises `KeyError`. -/
def unknownEnd (ids : List String) (edges : List EdgeRecord) : Option String :=
  edges.findSome? fun e =>
    if e.fromNode ∉ ids then some e.fromNode
    else if e.toNode ∉ ids then some e.toNode
    else none

/-- `by_id[id]["parent_id"] = parent`. -/
def setParent (id parent : String) : List NodeRecord → List NodeRecord
  | [] => []
  | n :: rest =>
      if id ∈ rest.map NodeRecord.nodeId then n :: setParent id parent rest
      else if n.nodeId = id then { n with parentId := some parent } :: rest
      else n :: rest

/-- What the discovery loop writes; it reads none of it. -/
def writeParents (order : List Discovered) (nodes : List NodeRecord) : List NodeRecord :=
  order.foldl (fun nodes d =>
    match d.2 with
    | some parent => setParent d.1 parent nodes
    | none => nodes) nodes

def swapped (e : EdgeRecord) : EdgeRecord := { e with fromNode := e.toNode, toNode := e.fromNode }

/-- A node's number in `discovery` is its place in the order. -/
def orientEdge (order : List String) (e : EdgeRecord) : EdgeRecord :=
  if e.fromNode ∉ order ∨ e.toNode ∉ order then e
  else if order.idxOf e.fromNode ≤ order.idxOf e.toNode then e
  else swapped e

structure Oriented where
  nodes : List NodeRecord
  edges : List EdgeRecord
  unreached : List String

/-- The nodes of the walk in the order of their discovery. -/
def discovered (nodes : List NodeRecord) (edges : List EdgeRecord) (rootId : String) :
    List Discovered :=
  discover (adj edges) (nodes.length + 1) [(rootId, none)] [rootId]

def orientRadial (nodes : List NodeRecord) (edges : List EdgeRecord) (rootId : String) :
    Except Exc Oriented :=
  let ids := nodes.map NodeRecord.nodeId
  if rootId ∉ ids then
    .error (.other ("root_id '" ++ rootId ++ "' not among parsed nodes"))
  else
    match unknownEnd ids edges with
    | some id => .error (.other ("'" ++ id ++ "'"))
    | none =>
        let discovery := discovered nodes edges rootId
        let order := discovery.map Prod.fst
        .ok {
          nodes := writeParents discovery nodes
          edges := edges.map (orientEdge order)
          unreached := (ids.dedup.filter fun n => n ∉ order).insertionSort (· ≤ ·) }

/-! ### What is known of the ends -/

def EndsKnown (nodes : List NodeRecord) (edges : List EdgeRecord) : Prop :=
  ∀ e ∈ edges, e.fromNode ∈ nodes.map NodeRecord.nodeId ∧ e.toNode ∈ nodes.map NodeRecord.nodeId

theorem unknownEnd_eq_none {nodes : List NodeRecord} {edges : List EdgeRecord} :
    unknownEnd (nodes.map NodeRecord.nodeId) edges = none ↔ EndsKnown nodes edges := by
  rw [unknownEnd, List.findSome?_eq_none_iff]
  refine forall₂_congr fun e _ => ?_
  by_cases hfrom : e.fromNode ∈ nodes.map NodeRecord.nodeId
  · by_cases hto : e.toNode ∈ nodes.map NodeRecord.nodeId <;> simp [hfrom, hto]
  · simp [hfrom]

/-- The edges of the input as a set. -/
def edgeSet (edges : List EdgeRecord) : Set EdgeRecord := { e | e ∈ edges }

theorem mem_adj {edges : List EdgeRecord} {a b : String} :
    b ∈ adj edges a ↔ wires.Link (edgeSet edges) a b ∨ wires.Link (edgeSet edges) b a := by
  simp only [adj, List.mem_flatMap, List.mem_append]
  constructor
  · rintro ⟨e, he, hb | hb⟩
    · split at hb
      · rename_i hn
        exact Or.inl ⟨e, he, hn, (List.mem_singleton.mp hb).symm⟩
      · exact absurd hb List.not_mem_nil
    · split at hb
      · rename_i hn
        exact Or.inr ⟨e, he, (List.mem_singleton.mp hb).symm, hn⟩
      · exact absurd hb List.not_mem_nil
  · rintro (⟨e, he, rfl, rfl⟩ | ⟨e, he, rfl, rfl⟩)
    · exact ⟨e, he, Or.inl (by simp [wires])⟩
    · exact ⟨e, he, Or.inr (by simp [wires])⟩

theorem reaches_adj (edges : List EdgeRecord) :
    Reaches (adj edges) = wires.Conn (edgeSet edges) := by
  unfold Reaches Multigraph.Conn
  rw [show (fun a b => b ∈ adj edges a) = _ from funext₂ fun _ _ => propext mem_adj]

/-! ### How the order grows -/

/-- The root comes first; every other node was pushed once, from a node that
came before it and that it is joined to. -/
inductive Grown (succ : String → List String) (rootId : String) : List Discovered → Prop
  | root : Grown succ rootId [(rootId, none)]
  | push {order : List Discovered} {cur nxt : String} (h : Grown succ rootId order)
      (hcur : cur ∈ order.map Prod.fst) (hsucc : nxt ∈ succ cur)
      (hnew : nxt ∉ order.map Prod.fst) : Grown succ rootId (order ++ [(nxt, some cur)])

section Grown

variable {succ : String → List String} {rootId : String} {order : List Discovered}

theorem Grown.nodup (h : Grown succ rootId order) : (order.map Prod.fst).Nodup := by
  induction h with
  | root => exact List.nodup_singleton rootId
  | push _ _ _ hnew ih =>
      rw [List.map_append, List.map_singleton]
      refine List.nodup_append.mpr ⟨ih, List.nodup_singleton _, ?_⟩
      intro a ha b hb hab
      rw [hab, List.mem_singleton.mp hb] at ha
      exact hnew ha

/-- The loop over the neighbours of a node pushes from that node. -/
theorem Grown.foldl {cur : String} {l : List String} (hl : ∀ n ∈ l, n ∈ succ cur)
    {stack : List String} (h : Grown succ rootId order) (hcur : cur ∈ order.map Prod.fst)
    (hstack : ∀ n ∈ stack, n ∈ order.map Prod.fst) :
    Grown succ rootId (l.foldl (discoverNext cur) (order, stack)).1 ∧
      ∀ n ∈ (l.foldl (discoverNext cur) (order, stack)).2,
        n ∈ (l.foldl (discoverNext cur) (order, stack)).1.map Prod.fst := by
  induction l generalizing order stack with
  | nil => exact ⟨h, hstack⟩
  | cons nxt l ih =>
      rw [List.forall_mem_cons] at hl
      rw [List.foldl_cons, discoverNext]
      by_cases hnew : nxt ∈ order.map Prod.fst
      · rw [if_pos hnew]
        exact ih hl.2 h hcur hstack
      · rw [if_neg hnew]
        refine ih hl.2 (h.push hcur hl.1 hnew) ?_ ?_
        · rw [List.map_append]
          exact List.mem_append_left _ hcur
        · rw [List.map_append]
          intro n hn
          rcases List.mem_cons.mp hn with rfl | hn
          · exact List.mem_append_right _ (List.mem_singleton.mpr rfl)
          · exact List.mem_append_left _ (hstack n hn)

theorem Grown.discover {fuel : ℕ} {stack : List String} (h : Grown succ rootId order)
    (hstack : ∀ n ∈ stack, n ∈ order.map Prod.fst) :
    Grown succ rootId (discover succ fuel order stack) := by
  induction fuel generalizing order stack with
  | zero => exact h
  | succ fuel ih =>
      cases stack with
      | nil => exact h
      | cons cur stack =>
          rw [List.forall_mem_cons] at hstack
          have hnext := h.foldl (fun _ hn => hn) hstack.1 hstack.2
          exact ih hnext.1 hnext.2

/-- The root has the least number. -/
theorem Grown.idxOf_root (h : Grown succ rootId order) :
    (order.map Prod.fst).idxOf rootId = 0 := by
  induction h with
  | root => exact List.idxOf_cons_self
  | @push order cur nxt h hcur _ _ ih =>
      have hmem : rootId ∈ order.map Prod.fst := by
        rw [← List.idxOf_lt_length_iff, ih]
        exact List.length_pos_of_mem hcur
      rw [List.map_append, List.idxOf_append_of_mem hmem, ih]

/-- A node other than the root has a parent, which comes before it. -/
theorem Grown.parent (h : Grown succ rootId order) {x : String} (hx : x ∈ order.map Prod.fst)
    (hroot : x ≠ rootId) :
    ∃ parent, (x, some parent) ∈ order ∧ x ∈ succ parent ∧
      (order.map Prod.fst).idxOf parent < (order.map Prod.fst).idxOf x := by
  induction h with
  | root => exact absurd (List.mem_singleton.mp hx) hroot
  | @push order cur nxt _ hcur hsucc hnew ih =>
      simp only [List.map_append, List.map_singleton] at hx ⊢
      by_cases hold : x ∈ order.map Prod.fst
      · obtain ⟨parent, hmem, hjoined, hlt⟩ := ih hold
        refine ⟨parent, List.mem_append_left _ hmem, hjoined, ?_⟩
        have hparent : parent ∈ order.map Prod.fst :=
          List.idxOf_lt_length_iff.mp (hlt.trans (List.idxOf_lt_length_iff.mpr hold))
        rw [List.idxOf_append_of_mem hparent, List.idxOf_append_of_mem hold]
        exact hlt
      · have heq : x = nxt :=
          List.mem_singleton.mp ((List.mem_append.mp hx).resolve_left hold)
        subst heq
        refine ⟨cur, List.mem_append_right _ (List.mem_singleton.mpr rfl), hsucc, ?_⟩
        rw [List.idxOf_append_of_mem hcur, List.idxOf_append_of_notMem hold]
        have hlt := List.idxOf_lt_length_iff.mpr hcur
        omega

theorem Grown.subset (h : Grown succ rootId order) {ids : List String} (hroot : rootId ∈ ids)
    (hsucc : ∀ a, ∀ b ∈ succ a, b ∈ ids) : ∀ x ∈ order.map Prod.fst, x ∈ ids := by
  induction h with
  | root => exact List.forall_mem_singleton.mpr hroot
  | push _ _ hjoined _ ih =>
      rw [List.map_append, List.forall_mem_append]
      exact ⟨ih, List.forall_mem_singleton.mpr (hsucc _ _ hjoined)⟩

/-- What the discovery writes for a parent has been discovered. -/
theorem Grown.parent_mem (h : Grown succ rootId order) {x parent : String}
    (hx : (x, some parent) ∈ order) : parent ∈ order.map Prod.fst := by
  induction h with
  | root => exact nomatch List.mem_singleton.mp hx
  | push _ hcur _ _ ih =>
      rw [List.map_append]
      refine List.mem_append_left _ ?_
      rcases List.mem_append.mp hx with hx | hx
      · exact ih hx
      · injection List.mem_singleton.mp hx with _ hparent
        injection hparent with hparent
        exact hparent ▸ hcur

end Grown

/-! ### The parents -/

@[simp] theorem map_nodeId_setParent (id parent : String) (nodes : List NodeRecord) :
    (setParent id parent nodes).map NodeRecord.nodeId = nodes.map NodeRecord.nodeId := by
  induction nodes with
  | nil => rfl
  | cons n rest ih =>
      rw [setParent]
      split
      · rw [List.map_cons, List.map_cons, ih]
      · split <;> rfl

theorem byId_setParent (id parent x : String) (nodes : List NodeRecord) :
    byId (setParent id parent nodes) x =
      if x = id then (byId nodes id).map fun n => { n with parentId := some parent }
      else byId nodes x := by
  induction nodes with
  | nil => simp [setParent, byId]
  | cons n rest ih =>
      rw [setParent]
      split
      · rename_i hmem
        rw [byId, ih]
        by_cases hx : x = id
        · cases hrest : byId rest id with
          | none => exact absurd hmem (byId_eq_none.mp hrest)
          | some m => simp [hx, byId, hrest]
        · simp [hx, byId]
      · rename_i hmem
        have hrest : byId rest id = none := byId_eq_none.mpr hmem
        split
        · rename_i hid
          by_cases hx : x = id
          · simp [hx, byId, hrest, hid]
          · have hne : n.nodeId ≠ x := fun h => hx (h.symm.trans hid)
            simp [hx, byId, hne]
        · rename_i hid
          by_cases hx : x = id
          · simp [hx, byId, hrest, hid]
          · simp [hx]

@[simp] theorem map_nodeId_writeParents (order : List Discovered) (nodes : List NodeRecord) :
    (writeParents order nodes).map NodeRecord.nodeId = nodes.map NodeRecord.nodeId := by
  induction order generalizing nodes with
  | nil => rfl
  | cons d rest ih =>
      refine (ih _).trans ?_
      obtain ⟨x, _ | parent⟩ := d
      · rfl
      · exact map_nodeId_setParent x parent nodes

/-- A node that is not discovered keeps what it had. -/
theorem byId_writeParents_of_notMem {order : List Discovered} {x : String}
    (hx : x ∉ order.map Prod.fst) (nodes : List NodeRecord) :
    byId (writeParents order nodes) x = byId nodes x := by
  induction order generalizing nodes with
  | nil => rfl
  | cons d rest ih =>
      rw [List.map_cons, List.mem_cons, not_or] at hx
      refine (ih hx.2 _).trans ?_
      obtain ⟨y, _ | parent⟩ := d
      · rfl
      · exact (byId_setParent y parent x nodes).trans (if_neg hx.1)

/-- Each parent is written once. -/
theorem byId_writeParents {order : List Discovered} (hnodup : (order.map Prod.fst).Nodup)
    {x parent : String} (hmem : (x, some parent) ∈ order) (nodes : List NodeRecord) :
    byId (writeParents order nodes) x =
      (byId nodes x).map fun n => { n with parentId := some parent } := by
  induction order generalizing nodes with
  | nil => exact absurd hmem List.not_mem_nil
  | cons d rest ih =>
      rw [List.map_cons, List.nodup_cons] at hnodup
      rcases List.mem_cons.mp hmem with rfl | hmem
      · refine (byId_writeParents_of_notMem hnodup.1 _).trans ?_
        exact (byId_setParent x parent x nodes).trans (if_pos rfl)
      · refine (ih hnodup.2 hmem _).trans ?_
        have hne : x ≠ d.1 := fun h => hnodup.1 (h ▸ List.mem_map_of_mem hmem)
        obtain ⟨y, _ | other⟩ := d
        · rfl
        · exact congrArg _ ((byId_setParent y other x nodes).trans (if_neg hne))

theorem parentId_setParent {id parent p : String} {nodes : List NodeRecord} {n : NodeRecord}
    (hn : n ∈ setParent id parent nodes) (hp : n.parentId = some p) :
    p = parent ∨ ∃ m ∈ nodes, m.parentId = some p := by
  induction nodes with
  | nil => exact nomatch hn
  | cons first rest ih =>
      rw [setParent] at hn
      split at hn
      · rcases List.mem_cons.mp hn with rfl | hn
        · exact Or.inr ⟨n, List.mem_cons_self, hp⟩
        · refine (ih hn).imp_right ?_
          rintro ⟨m, hm, hp⟩
          exact ⟨m, List.mem_cons_of_mem _ hm, hp⟩
      · split at hn
        · rcases List.mem_cons.mp hn with rfl | hn
          · exact Or.inl (Option.some.inj hp).symm
          · exact Or.inr ⟨n, List.mem_cons_of_mem _ hn, hp⟩
        · exact Or.inr ⟨n, hn, hp⟩

theorem parentId_writeParents {order : List Discovered} {p : String} {nodes : List NodeRecord}
    {n : NodeRecord} (hn : n ∈ writeParents order nodes) (hp : n.parentId = some p) :
    (∃ x, (x, some p) ∈ order) ∨ ∃ m ∈ nodes, m.parentId = some p := by
  induction order generalizing nodes with
  | nil => exact Or.inr ⟨n, hn, hp⟩
  | cons d rest ih =>
      rcases ih hn with ⟨x, hx⟩ | ⟨m, hm, hmp⟩
      · exact Or.inl ⟨x, List.mem_cons_of_mem _ hx⟩
      · obtain ⟨x, _ | parent⟩ := d
        · exact Or.inr ⟨m, hm, hmp⟩
        · refine (parentId_setParent hm hmp).imp_left ?_
          rintro rfl
          exact ⟨x, List.mem_cons_self⟩

/-- The record without its parent. -/
def orphaned (n : NodeRecord) : NodeRecord := { n with parentId := none }

theorem map_orphaned_setParent (id parent : String) (nodes : List NodeRecord) :
    (setParent id parent nodes).map orphaned = nodes.map orphaned := by
  induction nodes with
  | nil => rfl
  | cons n rest ih =>
      rw [setParent]
      split
      · rw [List.map_cons, List.map_cons, ih]
      · split <;> rfl

theorem map_orphaned_writeParents (order : List Discovered) (nodes : List NodeRecord) :
    (writeParents order nodes).map orphaned = nodes.map orphaned := by
  induction order generalizing nodes with
  | nil => rfl
  | cons d rest ih =>
      refine (ih _).trans ?_
      obtain ⟨x, _ | parent⟩ := d
      · rfl
      · exact map_orphaned_setParent x parent nodes

/-! ### The edges -/

theorem orientEdge_eq_or (order : List String) (e : EdgeRecord) :
    orientEdge order e = e ∨ orientEdge order e = swapped e := by
  unfold orientEdge
  split
  · exact Or.inl rfl
  · split
    · exact Or.inl rfl
    · exact Or.inr rfl

/-- Among the discovered nodes an edge leads from the earlier to the later. -/
theorem idxOf_orientEdge {order : List String} {e : EdgeRecord} (hloop : e.fromNode ≠ e.toNode)
    (hfrom : e.fromNode ∈ order) (hto : e.toNode ∈ order) :
    order.idxOf (orientEdge order e).fromNode < order.idxOf (orientEdge order e).toNode := by
  have hne : order.idxOf e.fromNode ≠ order.idxOf e.toNode :=
    fun h => hloop ((List.idxOf_inj hfrom).mp h)
  rw [orientEdge, if_neg (not_or.mpr ⟨not_not.mpr hfrom, not_not.mpr hto⟩)]
  split
  · rename_i hle
    exact lt_of_le_of_ne hle hne
  · rename_i hle
    exact not_le.mp hle

/-- An edge joins the same nodes after as before. -/
theorem joined_orientEdge (order : List String) {e : EdgeRecord} {a b : String} :
    ((orientEdge order e).fromNode = a ∧ (orientEdge order e).toNode = b ∨
        (orientEdge order e).fromNode = b ∧ (orientEdge order e).toNode = a) ↔
      (e.fromNode = a ∧ e.toNode = b ∨ e.fromNode = b ∧ e.toNode = a) := by
  rcases orientEdge_eq_or order e with h | h
  · rw [h]
  · rw [h, swapped]
    exact ⟨fun h => h.symm.imp And.symm And.symm, fun h => h.symm.imp And.symm And.symm⟩

/-! ### What the function does -/

section Hierarchy

variable {nodes : List NodeRecord} {edges : List EdgeRecord} {rootId : String}

/-- The function returns exactly if it knows the root and the ends. -/
theorem orientRadial_ok :
    (∃ oriented, orientRadial nodes edges rootId = .ok oriented) ↔
      rootId ∈ nodes.map NodeRecord.nodeId ∧ EndsKnown nodes edges := by
  rw [← unknownEnd_eq_none, orientRadial]
  by_cases hroot : rootId ∈ nodes.map NodeRecord.nodeId
  · rw [if_neg (not_not.mpr hroot)]
    cases unknownEnd (nodes.map NodeRecord.nodeId) edges with
    | none => exact iff_of_true ⟨_, rfl⟩ ⟨hroot, rfl⟩
    | some id => exact iff_of_false (fun ⟨_, h⟩ => nomatch h) (fun h => nomatch h.2)
  · rw [if_pos hroot]
    exact iff_of_false (fun ⟨_, h⟩ => nomatch h) (fun h => hroot h.1)

theorem eq_of_orientRadial {oriented : Oriented}
    (h : orientRadial nodes edges rootId = .ok oriented) :
    oriented = {
      nodes := writeParents (discovered nodes edges rootId) nodes
      edges := edges.map (orientEdge ((discovered nodes edges rootId).map Prod.fst))
      unreached := ((nodes.map NodeRecord.nodeId).dedup.filter fun n =>
        n ∉ (discovered nodes edges rootId).map Prod.fst).insertionSort (· ≤ ·) } := by
  unfold orientRadial at h
  dsimp only at h
  split at h
  · cases h
  · split at h
    · cases h
    · exact (Except.ok.inj h).symm

theorem grown_discovered : Grown (adj edges) rootId (discovered nodes edges rootId) :=
  Grown.root.discover fun _ hn => hn

theorem mem_of_adj (hends : EndsKnown nodes edges) :
    ∀ a, ∀ b ∈ adj edges a, b ∈ nodes.map NodeRecord.nodeId := by
  intro a b hb
  rcases mem_adj.mp hb with ⟨e, he, -, rfl⟩ | ⟨e, he, rfl, -⟩
  · exact (hends e he).2
  · exact (hends e he).1

/-- Everything joined to the root is discovered. -/
theorem mem_discovered (hends : EndsKnown nodes edges) {x : String} :
    x ∈ (discovered nodes edges rootId).map Prod.fst ↔ wires.Conn (edgeSet edges) rootId x := by
  have hmem := mem_map_fst_discover (mem_of_adj hends) rootId x
  rw [List.length_map] at hmem
  rw [discovered, hmem, reaches_adj]

theorem map_nodeId_oriented {oriented : Oriented}
    (h : orientRadial nodes edges rootId = .ok oriented) :
    oriented.nodes.map NodeRecord.nodeId = nodes.map NodeRecord.nodeId := by
  rw [eq_of_orientRadial h]
  exact map_nodeId_writeParents ..

/-- A parent in an oriented network is one of its nodes, or was there before. -/
theorem parentId_oriented {oriented : Oriented}
    (h : orientRadial nodes edges rootId = .ok oriented) {n : NodeRecord} (hn : n ∈ oriented.nodes)
    {p : String} (hp : n.parentId = some p) :
    p ∈ nodes.map NodeRecord.nodeId ∨ ∃ m ∈ nodes, m.parentId = some p := by
  obtain ⟨hroot, hends⟩ := orientRadial_ok.mp ⟨oriented, h⟩
  rw [eq_of_orientRadial h] at hn
  refine (parentId_writeParents hn hp).imp_left ?_
  rintro ⟨x, hx⟩
  exact grown_discovered.subset hroot (mem_of_adj hends) p (grown_discovered.parent_mem hx)

/-- What an oriented network is, with the nodes joined to the root in the
edges of the input as those reached. -/
structure OrientedFrom (nodes : List NodeRecord) (edges : List EdgeRecord) (rootId : String)
    (oriented : Oriented) : Prop where
  /-- Edges stay in place, and none is lost. -/
  edges_kept : List.Forall₂ (fun e e' => e' = e ∨ e' = swapped e) edges oriented.edges
  unreached_kept : List.Forall₂
    (fun e e' => ¬ wires.Conn (edgeSet edges) rootId e.fromNode ∨
      ¬ wires.Conn (edgeSet edges) rootId e.toNode → e' = e) edges oriented.edges
  /-- Nodes keep everything but their parent. -/
  nodes_kept : oriented.nodes.map orphaned = nodes.map orphaned
  acyclic : ∀ x, wires.Conn (edgeSet edges) rootId x →
    ¬ Relation.TransGen (wires.Link (edgeSet oriented.edges)) x x
  root_only : ∀ x, wires.Conn (edgeSet edges) rootId x →
    ((∃ e ∈ oriented.edges, e.toNode = x) ↔ x ≠ rootId)
  parent : ∀ x, wires.Conn (edgeSet edges) rootId x → x ≠ rootId →
    ∃ n parent, byId oriented.nodes x = some n ∧ n.parentId = some parent ∧
      ∃ e ∈ oriented.edges, e.fromNode = parent ∧ e.toNode = x
  reach : ∀ x, wires.Conn (edgeSet edges) rootId x →
    wires.Reach (edgeSet oriented.edges) rootId x
  unreached_sorted : oriented.unreached.Pairwise (· < ·)
  mem_unreached : ∀ x, x ∈ oriented.unreached ↔
    x ∈ nodes.map NodeRecord.nodeId ∧ ¬ wires.Conn (edgeSet edges) rootId x

/-- An edge that ends at a discovered node joins two of them. -/
theorem both_discovered (hends : EndsKnown nodes edges) {e : EdgeRecord} (he : e ∈ edges)
    (h : e.fromNode ∈ (discovered nodes edges rootId).map Prod.fst ∨
      e.toNode ∈ (discovered nodes edges rootId).map Prod.fst) :
    e.fromNode ∈ (discovered nodes edges rootId).map Prod.fst ∧
      e.toNode ∈ (discovered nodes edges rootId).map Prod.fst := by
  have hlink : wires.Conn (edgeSet edges) e.fromNode e.toNode :=
    Multigraph.conn_of_mem (G := wires) (S := edgeSet edges) he
  simp only [mem_discovered hends] at h ⊢
  rcases h with h | h
  · exact ⟨h, h.trans hlink⟩
  · exact ⟨h.trans hlink.symm, h⟩

/-- A turned edge that ends at a discovered node comes from an earlier one. -/
theorem idxOf_lt_of_mem (hends : EndsKnown nodes edges)
    (hloop : ∀ e ∈ edges, e.fromNode ≠ e.toNode) {order : List String}
    (horder : order = (discovered nodes edges rootId).map Prod.fst) {e' : EdgeRecord}
    (he' : e' ∈ edges.map (orientEdge order)) (h : e'.fromNode ∈ order ∨ e'.toNode ∈ order) :
    order.idxOf e'.fromNode < order.idxOf e'.toNode ∧ e'.toNode ∈ order := by
  obtain ⟨e, he, rfl⟩ := List.mem_map.mp he'
  have hjoined : e.fromNode ∈ order ∨ e.toNode ∈ order := by
    rcases orientEdge_eq_or order e with heq | heq <;> rw [heq] at h
    · exact h
    · exact h.symm
  have hboth : e.fromNode ∈ order ∧ e.toNode ∈ order := by
    rw [horder] at hjoined ⊢
    exact both_discovered hends he hjoined
  refine ⟨idxOf_orientEdge (hloop e he) hboth.1 hboth.2, ?_⟩
  rcases orientEdge_eq_or order e with heq | heq <;> rw [heq]
  · exact hboth.2
  · exact hboth.1

/-- The parent of a discovered node is joined to it by an edge towards it. -/
theorem exists_edge_of_parent (hloop : ∀ e ∈ edges, e.fromNode ≠ e.toNode) {order : List String}
    {x parent : String} (hx : x ∈ order) (hjoined : x ∈ adj edges parent)
    (hlt : order.idxOf parent < order.idxOf x) :
    ∃ e' ∈ edges.map (orientEdge order), e'.fromNode = parent ∧ e'.toNode = x := by
  have hparent : parent ∈ order :=
    List.idxOf_lt_length_iff.mp (hlt.trans (List.idxOf_lt_length_iff.mpr hx))
  obtain ⟨e, he, hends⟩ : ∃ e ∈ edges,
      e.fromNode = parent ∧ e.toNode = x ∨ e.fromNode = x ∧ e.toNode = parent := by
    rcases mem_adj.mp hjoined with ⟨e, he, hfrom, hto⟩ | ⟨e, he, hfrom, hto⟩
    · exact ⟨e, he, Or.inl ⟨hfrom, hto⟩⟩
    · exact ⟨e, he, Or.inr ⟨hfrom, hto⟩⟩
  refine ⟨orientEdge order e, List.mem_map_of_mem he, ?_⟩
  rcases (joined_orientEdge order).mpr hends with h | ⟨hfrom, hto⟩
  · exact h
  · -- the other way round it would lead from the later to the earlier
    have hturned : order.idxOf x < order.idxOf parent := by
      rw [← hfrom, ← hto]
      rcases hends with ⟨hf, ht⟩ | ⟨hf, ht⟩
      · exact idxOf_orientEdge (hloop e he) (hf ▸ hparent) (ht ▸ hx)
      · exact idxOf_orientEdge (hloop e he) (hf ▸ hx) (ht ▸ hparent)
    exact absurd hlt hturned.asymm

end Hierarchy

/-- **Orientation makes a hierarchy.** For any nodes, edges without self-loops
and root the function returns exactly if it knows the root and the ends of the
edges. Then every edge is kept, as it is where the root does not reach; the
edges among the reached nodes have no cycle, the root alone has none that leads
into it, every other reached node has a parent with an edge towards it and is
reached from the root along the edges; and the others are reported. -/
theorem orientRadial_hierarchy (nodes : List NodeRecord) (edges : List EdgeRecord)
    (rootId : String) (hloop : ∀ e ∈ edges, e.fromNode ≠ e.toNode) :
    ((∃ oriented, orientRadial nodes edges rootId = .ok oriented) ↔
      rootId ∈ nodes.map NodeRecord.nodeId ∧ EndsKnown nodes edges) ∧
    ∀ oriented, orientRadial nodes edges rootId = .ok oriented →
      OrientedFrom nodes edges rootId oriented := by
  refine ⟨orientRadial_ok, fun oriented h => ?_⟩
  obtain ⟨-, hends⟩ := orientRadial_ok.mp ⟨oriented, h⟩
  have hgrown : Grown (adj edges) rootId (discovered nodes edges rootId) := grown_discovered
  have hmem : ∀ x, x ∈ (discovered nodes edges rootId).map Prod.fst ↔
      wires.Conn (edgeSet edges) rootId x := fun x => mem_discovered hends
  have hroot := hgrown.idxOf_root
  have hout := eq_of_orientRadial h
  subst hout
  generalize horder : (discovered nodes edges rootId).map Prod.fst = order at *
  -- every reached node but the root, with its parent
  have hparent : ∀ x ∈ order, x ≠ rootId → ∃ parent,
      (x, some parent) ∈ discovered nodes edges rootId ∧ order.idxOf parent < order.idxOf x ∧
        ∃ e' ∈ edges.map (orientEdge order), e'.fromNode = parent ∧ e'.toNode = x := by
    intro x hx hne
    obtain ⟨parent, hwritten, hjoined, hlt⟩ := hgrown.parent (horder ▸ hx) hne
    rw [horder] at hlt
    exact ⟨parent, hwritten, hlt, exists_edge_of_parent hloop hx hjoined hlt⟩
  have hstep : ∀ a b, a ∈ order → wires.Link (edgeSet (edges.map (orientEdge order))) a b →
      order.idxOf a < order.idxOf b ∧ b ∈ order := by
    rintro - - ha ⟨e', he', rfl, rfl⟩
    exact idxOf_lt_of_mem hends hloop horder.symm he' (Or.inl ha)
  constructor
  case edges_kept =>
    rw [List.forall₂_map_right_iff, List.forall₂_same]
    exact fun e _ => orientEdge_eq_or order e
  case unreached_kept =>
    rw [List.forall₂_map_right_iff, List.forall₂_same]
    intro e _ hapart
    rw [← hmem, ← hmem] at hapart
    exact if_pos hapart
  case nodes_kept => exact map_orphaned_writeParents _ nodes
  case acyclic =>
    intro x hx hcycle
    rw [← hmem] at hx
    have hrank : ∀ y, Relation.TransGen (wires.Link (edgeSet (edges.map (orientEdge order)))) x y →
        order.idxOf x < order.idxOf y ∧ y ∈ order := by
      intro y hy
      induction hy with
      | single hlink => exact hstep _ _ hx hlink
      | tail _ hlink ih =>
          obtain ⟨hlt, hin⟩ := hstep _ _ ih.2 hlink
          exact ⟨ih.1.trans hlt, hin⟩
    exact lt_irrefl _ (hrank x hcycle).1
  case root_only =>
    intro x hx
    rw [← hmem] at hx
    constructor
    · rintro ⟨e', he', rfl⟩ heq
      have hlt := (idxOf_lt_of_mem hends hloop horder.symm he' (Or.inr hx)).1
      rw [heq, hroot] at hlt
      exact Nat.not_lt_zero _ hlt
    · intro hne
      obtain ⟨parent, -, -, e', he', -, hto⟩ := hparent x hx hne
      exact ⟨e', he', hto⟩
  case parent =>
    intro x hx hne
    rw [← hmem] at hx
    obtain ⟨parent, hwritten, -, hedge⟩ := hparent x hx hne
    have hnode : x ∈ nodes.map NodeRecord.nodeId := by
      obtain ⟨hrootIn, -⟩ := orientRadial_ok.mp ⟨_, h⟩
      rw [hmem] at hx
      rcases Relation.ReflTransGen.cases_tail hx with heq | ⟨y, -, hlink | hlink⟩
      · exact absurd heq hne
      · obtain ⟨e, he, -, rfl⟩ := hlink
        exact (hends e he).2
      · obtain ⟨e, he, rfl, -⟩ := hlink
        exact (hends e he).1
    cases hn : byId nodes x with
    | none => exact absurd hnode (byId_eq_none.mp hn)
    | some n =>
        refine ⟨{ n with parentId := some parent }, parent, ?_, rfl, hedge⟩
        rw [byId_writeParents hgrown.nodup hwritten, hn]
        rfl
  case reach =>
    intro x hx
    rw [← hmem] at hx
    induction hrank : order.idxOf x using Nat.strong_induction_on generalizing x with
    | _ rank ih =>
        by_cases hne : x = rootId
        · rw [hne]
          exact .refl
        · obtain ⟨parent, -, hlt, e', he', hfrom, hto⟩ := hparent x hx hne
          have hparentIn : parent ∈ order :=
            List.idxOf_lt_length_iff.mp (hlt.trans (List.idxOf_lt_length_iff.mpr hx))
          exact (ih _ (hrank ▸ hlt) parent hparentIn rfl).tail ⟨e', he', hfrom, hto⟩
  case unreached_sorted =>
    have hnodup := ((List.nodup_dedup (nodes.map NodeRecord.nodeId)).filter
      fun n => n ∉ order)
    have hsorted := List.pairwise_insertionSort (· ≤ ·)
      ((nodes.map NodeRecord.nodeId).dedup.filter fun n => n ∉ order)
    refine (hsorted.and ((List.perm_insertionSort _ _).nodup_iff.mpr hnodup)).imp ?_
    exact fun hab => lt_of_le_of_ne hab.1 hab.2
  case mem_unreached =>
    intro x
    rw [List.mem_insertionSort, List.mem_filter, List.mem_dedup, ← hmem, decide_eq_true_iff]

/-- A feeder with a tie, drawn in any direction, and two buses apart from it. -/
def ring : List NodeRecord × List EdgeRecord :=
  ([{ nodeId := "R" }, { nodeId := "A" }, { nodeId := "B" }, { nodeId := "Y" }, { nodeId := "X" }],
    [{ edgeId := "r-a", fromNode := "A", toNode := "R" },
      { edgeId := "a-b", fromNode := "B", toNode := "A" },
      { edgeId := "tie", fromNode := "R", toNode := "B" },
      { edgeId := "x-y", fromNode := "Y", toNode := "X" }])

example : (discovered ring.1 ring.2 "R") = [("R", none), ("A", some "R"), ("B", some "R")] := by
  decide +kernel

theorem ring_hierarchy :
    ((∃ oriented, orientRadial ring.1 ring.2 "R" = .ok oriented) ↔
      "R" ∈ ring.1.map NodeRecord.nodeId ∧ EndsKnown ring.1 ring.2) ∧
    ∀ oriented, orientRadial ring.1 ring.2 "R" = .ok oriented →
      OrientedFrom ring.1 ring.2 "R" oriented :=
  orientRadial_hierarchy ring.1 ring.2 "R" (by decide)

/-! ### The rows of the network model -/

theorem links_gridEdge (text : PyValue → String) (edges : List EdgeRecord) :
    links (edges.map (EdgeRecord.gridEdge text)) = adj edges := by
  funext n
  rw [links, adj, List.flatMap_map]
  rfl

theorem gridEdge_orientEdge (text : PyValue → String) (order : List String) (e : EdgeRecord) :
    (orientEdge order e).gridEdge text = Topology.orientEdge order (e.gridEdge text) := by
  unfold orientEdge Topology.orientEdge
  by_cases hfrom : e.fromNode ∈ order
  · by_cases hto : e.toNode ∈ order
    · by_cases hle : order.idxOf e.fromNode ≤ order.idxOf e.toNode
      · simp [EdgeRecord.gridEdge, hfrom, hto, hle]
      · simp [EdgeRecord.gridEdge, swapped, hfrom, hto, hle]
    · simp [EdgeRecord.gridEdge, hto]
  · simp [EdgeRecord.gridEdge, hfrom]

/-- The records become the rows that the function on the rows makes. -/
theorem orientRadial_gridNode (text : PyValue → String) {nodes : List NodeRecord}
    {edges : List EdgeRecord} {rootId : String} (hkey : (nodes.map NodeRecord.nodeId).Nodup)
    {oriented : Oriented} (h : orientRadial nodes edges rootId = .ok oriented) :
    Topology.orientRadial (nodes.map NodeRecord.gridNode)
        (edges.map (EdgeRecord.gridEdge text)) rootId =
      .ok {
        parentIds := discovered nodes edges rootId
        edges := oriented.edges.map (EdgeRecord.gridEdge text)
        unreached := oriented.unreached } := by
  obtain ⟨hroot, -⟩ := orientRadial_ok.mp ⟨oriented, h⟩
  have hids : (nodes.map NodeRecord.gridNode).map GridNode.nodeId =
      nodes.map NodeRecord.nodeId := List.map_map
  have hdisc : Topology.discovered (nodes.map NodeRecord.gridNode)
      (edges.map (EdgeRecord.gridEdge text)) rootId = discovered nodes edges rootId := by
    rw [Topology.discovered, links_gridEdge, List.length_map, discovered]
  rw [eq_of_orientRadial h, Topology.orientRadial, hids, if_neg (not_not.mpr hroot), hdisc,
    hkey.dedup]
  simp [gridEdge_orientEdge]

end DiepLab.Topology.Hierarchy
