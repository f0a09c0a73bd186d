import DiepLab.Common
import DiepLab.Dms.LoopTest
import DiepLab.Grid.Radial
import DiepLab.Library.Loops
import DiepLab.Library.SpanningTree

/-!
The radial tree of the state estimator.

`build_radial` walks the closed edges from the first substation and derives
three maps from the walk: the edge over which a node was found, the edges on
the way to a node and, for every edge of the tree, the nodes behind it. Power
flow, fault location and outage inference read the network through them.

The walk is the search of `Library.SpanningTree`. `Represents` says what the
tree holds in terms of the discoveries of the walk, and is all that later
modules use (`buildRadial_represents`).

The tree covers what is connected to the first substation. The contingency
analysis and the feasibility check of the reconfiguration start from every
substation, so they agree with it exactly when the first substation is
connected to all others (`energizedSets_agree_iff`).
-/

namespace DiepLab.StateEstimation

open Worklist SpanningTree

/-- The result of code with loops: none when a loop has not ended within the
turns allowed. -/
abbrev Looping := ExceptT Exc Option

theorem lift_some_bind {α β : Type} (a : α) (f : α → Looping β) :
    ((liftM (some a) : Looping α) >>= f) = f a := rfl

theorem lift_ok_bind {α β : Type} (a : α) (f : α → Looping β) :
    ((liftM (Except.ok a : Except Exc α) : Looping α) >>= f) = f a := rfl

theorem pure_inj {α : Type} {a b : α} : (pure a : Looping α) = pure b ↔ a = b := by
  constructor
  · intro h
    injection h with h
    injection h
  · rintro rfl
    rfl

/-- What the result of a computation satisfies can be found by running it. -/
instance decidableExistsPure {α : Type} (x : Looping α) (P : α → Prop) [DecidablePred P] :
    Decidable (∃ a, x = pure a ∧ P a) :=
  match h : x.run with
  | none => isFalse fun ⟨_, ha, _⟩ => nomatch h.symm.trans ha
  | some (.error _) => isFalse fun ⟨_, ha, _⟩ => nomatch h.symm.trans ha
  | some (.ok a) =>
      decidable_of_iff (P a) ⟨fun hp => ⟨a, h, hp⟩, fun ⟨b, hb, hp⟩ => by
        have hab : (pure a : Looping α) = pure b := h.symm.trans hb
        rwa [pure_inj.mp hab]⟩

theorem bind_eq_pure {α β : Type} {x : Looping α} {f : α → Looping β} {b : β} :
    (x >>= f) = pure b ↔ ∃ a, x = pure a ∧ f a = pure b := by
  constructor
  · intro h
    rcases x with _ | _ | a
    · exact nomatch h
    · exact nomatch h
    · exact ⟨a, rfl, h⟩
  · rintro ⟨a, rfl, h⟩
    exact h

theorem lift_some_eq_pure {α : Type} {o : Option α} {a : α} :
    (liftM o : Looping α) = pure a ↔ o = some a := by
  rcases o with _ | b
  · exact iff_of_false (fun h => nomatch h) (fun h => nomatch h)
  · rw [Option.some_inj]
    exact pure_inj

theorem lift_ok_eq_pure {α : Type} {e : Except Exc α} {a : α} :
    (liftM e : Looping α) = pure a ↔ e = .ok a := by
  constructor
  · intro h
    injection h
  · rintro rfl
    rfl

theorem mem_of_mapM {α β : Type} {f : α → Looping β} {l : List α} {out : List β}
    (h : l.mapM f = pure out) {b : β} (hb : b ∈ out) : ∃ a ∈ l, f a = pure b := by
  induction l generalizing out with
  | nil =>
      rw [List.mapM_nil, pure_inj] at h
      exact absurd (h ▸ hb) List.not_mem_nil
  | cons a l ih =>
      rw [List.mapM_cons, bind_eq_pure] at h
      obtain ⟨c, hc, h⟩ := h
      obtain ⟨rest, hrest, h⟩ := bind_eq_pure.mp h
      rw [← pure_inj.mp h] at hb
      rcases List.mem_cons.mp hb with rfl | hb
      · exact ⟨a, List.mem_cons_self, hc⟩
      · obtain ⟨a', ha', hfa⟩ := ih hrest hb
        exact ⟨a', List.mem_cons_of_mem a ha', hfa⟩

theorem forall₂_of_mapM {α β : Type} {f : α → Looping β} {l : List α} {out : List β}
    (h : l.mapM f = pure out) : List.Forall₂ (fun a b => f a = pure b) l out := by
  induction l generalizing out with
  | nil =>
      rw [List.mapM_nil, pure_inj] at h
      exact h ▸ .nil
  | cons a l ih =>
      rw [List.mapM_cons, bind_eq_pure] at h
      obtain ⟨b, hb, h⟩ := h
      obtain ⟨rest, hrest, h⟩ := bind_eq_pure.mp h
      rw [← pure_inj.mp h]
      exact .cons hb (ih hrest)

/-- All loops of the code end. -/
def Ends {α : Type} (x : Looping α) : Prop := ∃ answer : Except Exc α, x.run = some answer

theorem ends_pure {α : Type} (a : α) : Ends (pure a) := ⟨.ok a, rfl⟩

theorem ends_throw {α : Type} (exc : Exc) : Ends (throw exc : Looping α) := ⟨.error exc, rfl⟩

theorem ends_lift {α : Type} (e : Except Exc α) : Ends (liftM e : Looping α) := ⟨e, rfl⟩

theorem ends_lift_some {α : Type} {o : Option α} (h : ∃ a, o = some a) :
    Ends (liftM o : Looping α) := by
  obtain ⟨a, rfl⟩ := h
  exact ends_pure a

theorem Ends.bind {α β : Type} {x : Looping α} {f : α → Looping β} (hx : Ends x)
    (hf : ∀ a, x = pure a → Ends (f a)) : Ends (x >>= f) := by
  obtain ⟨answer, hanswer⟩ := hx
  cases answer with
  | error exc =>
      obtain rfl : x = throw exc := hanswer
      exact ends_throw exc
  | ok a =>
      obtain rfl : x = pure a := hanswer
      exact hf a rfl

theorem ends_mapM {α β : Type} {f : α → Looping β} {l : List α} (h : ∀ a ∈ l, Ends (f a)) :
    Ends (l.mapM f) := by
  induction l with
  | nil =>
      rw [List.mapM_nil]
      exact ends_pure []
  | cons a l ih =>
      rw [List.forall_mem_cons] at h
      rw [List.mapM_cons]
      exact h.1.bind fun b _ => (ih h.2).bind fun rest _ => ends_pure (b :: rest)

/-- Undirected adjacency over the closed edges, every entry with its row. -/
def adjacency (edges : List GridEdge) (n : String) : List (String × GridEdge) :=
  edges.flatMap fun e =>
    if e.isClosed then
      (if e.fromNode = n then [(e.toNode, e)] else []) ++
        (if e.toNode = n then [(e.fromNode, e)] else [])
    else []

/-- What `build_radial` returns, the impedances apart. -/
structure RadialTree where
  root : String
  byId : Dict GridNode
  energized : Finset String
  order : List String
  parentEdge : Dict GridEdge
  pathEdges : Dict (List GridEdge)
  subtree : Dict (Finset String)

/-- `d[key]`. -/
def lookup {ν : Type} (d : Dict ν) (key : String) : Except Exc ν :=
  match d.get? key with
  | some v => .ok v
  | none => .error (.other key)

/-- The first end of a closed edge that is no node. -/
def danglingEnd (nodes : List GridNode) (edges : List GridEdge) : Option String :=
  (edges.filter GridEdge.isClosed).findSome? fun e =>
    [e.fromNode, e.toNode].find? fun n => n ∉ nodes.map GridNode.nodeId

/-- `path_edges[n] = path_edges[parent_node[n]] + [parent_edge[n]]`. -/
def extendPath (root : String) (parentNode : Dict String) (parentEdge : Dict GridEdge)
    (pathEdges : Dict (List GridEdge)) (n : String) : Except Exc (Dict (List GridEdge)) :=
  if n = root then pure pathEdges
  else do
    let parent ← lookup parentNode n
    let before ← lookup pathEdges parent
    let e ← lookup parentEdge n
    pure (pathEdges.set n (before ++ [e]))

/-- `children[c]`, in the order of the walk. -/
def children (root : String) (parentNode : Dict String) (order : List String) (c : String) :
    List String :=
  order.filter fun n => n ≠ root && parentNode.get? n = some c

/-- `subtree[e["edge_id"]] = descendants(n)`. -/
def addSubtree (fuel : ℕ) (root : String) (kids : String → List String)
    (parentEdge : Dict GridEdge) (subtree : Dict (Finset String)) (n : String) :
    Looping (Dict (Finset String)) :=
  if n = root then pure subtree
  else do
    let e ← lookup parentEdge n
    let below ← collect kids fuel ∅ [n]
    pure (subtree.set e.edgeId below)

/-- Build the energized radial tree from closed edges. A node is found once,
so the two parent dictionaries are the list of discoveries. -/
def buildRadial (fuel : ℕ) (nodes : List GridNode) (edges : List GridEdge) :
    Looping RadialTree :=
  match Contingency.sources nodes with
  | [] => throw (.other "no substation/source node")
  | root :: _ =>
      match danglingEnd nodes edges with
      | some n => throw (.other n)
      | none => do
          let walk ← traverse (adjacency edges) fuel (start root)
          let parentEdge := walk.found.map fun f => (f.node, f.edge)
          let parentNode := walk.found.map fun f => (f.node, f.parent)
          let pathEdges ← (walk.order.foldlM (extendPath root parentNode parentEdge)
            [(root, [])] : Except Exc _)
          let subtree ← walk.order.foldlM
            (addSubtree fuel root (children root parentNode walk.order) parentEdge) []
          pure {
            root := root
            byId := Dict.update [] (nodes.map fun n => (n.nodeId, n))
            energized := walk.seen
            order := walk.order
            parentEdge := parentEdge
            pathEdges := pathEdges
            subtree := subtree }

/-! ### The walk -/

/-- `e` has the ends `a` and `b`. -/
def Joins (e : GridEdge) (a b : String) : Prop :=
  (e.fromNode = a ∧ e.toNode = b) ∨ (e.toNode = a ∧ e.fromNode = b)

theorem mem_adjacency {edges : List GridEdge} {a b : String} {e : GridEdge} :
    (b, e) ∈ adjacency edges a ↔ e ∈ edges ∧ e.isClosed = true ∧ Joins e a b := by
  simp only [adjacency, List.mem_flatMap, Joins]
  constructor
  · rintro ⟨f, hf, hmem⟩
    by_cases hc : f.isClosed = true
    · rw [if_pos hc, List.mem_append] at hmem
      rcases hmem with hmem | hmem <;> split at hmem <;> rename_i hend
      · injection List.mem_singleton.mp hmem with hb heq
        subst heq
        exact ⟨hf, hc, Or.inl ⟨hend, hb.symm⟩⟩
      · exact absurd hmem List.not_mem_nil
      · injection List.mem_singleton.mp hmem with hb heq
        subst heq
        exact ⟨hf, hc, Or.inr ⟨hend, hb.symm⟩⟩
      · exact absurd hmem List.not_mem_nil
    · rw [if_neg hc] at hmem
      exact absurd hmem List.not_mem_nil
  · rintro ⟨he, hc, ⟨rfl, rfl⟩ | ⟨rfl, rfl⟩⟩
    · exact ⟨e, he, by simp [hc]⟩
    · exact ⟨e, he, by simp [hc]⟩

theorem mem_succ_adjacency {edges : List GridEdge} {a b : String} :
    b ∈ succ (adjacency edges) a ↔
      grid.Link (closed edges) a b ∨ grid.Link (closed edges) b a := by
  rw [succ, List.mem_map]
  constructor
  · rintro ⟨⟨c, e⟩, hmem, rfl⟩
    obtain ⟨he, hc, ⟨rfl, rfl⟩ | ⟨rfl, rfl⟩⟩ := mem_adjacency.mp hmem
    · exact Or.inl ⟨e.branch, ⟨e, he, hc, rfl⟩, rfl, rfl⟩
    · exact Or.inr ⟨e.branch, ⟨e, he, hc, rfl⟩, rfl, rfl⟩
  · rintro (⟨-, ⟨e, he, hc, rfl⟩, rfl, rfl⟩ | ⟨-, ⟨e, he, hc, rfl⟩, rfl, rfl⟩)
    · exact ⟨(e.toNode, e), mem_adjacency.mpr ⟨he, hc, Or.inl ⟨rfl, rfl⟩⟩, rfl⟩
    · exact ⟨(e.fromNode, e), mem_adjacency.mpr ⟨he, hc, Or.inr ⟨rfl, rfl⟩⟩, rfl⟩

theorem reaches_adjacency {edges : List GridEdge} {a b : String} :
    Reaches (succ (adjacency edges)) a b ↔ grid.Conn (closed edges) a b := by
  unfold Reaches Multigraph.Conn
  rw [show (fun a b => b ∈ succ (adjacency edges) a) = _ from
    funext₂ fun _ _ => propext mem_succ_adjacency]

/-- No end dangles in a network. -/
theorem danglingEnd_eq_none (net : Network) : danglingEnd net.nodes net.edges = none := by
  rw [danglingEnd, List.findSome?_eq_none_iff]
  intro e he
  have he := List.mem_of_mem_filter he
  rw [List.find?_eq_none]
  intro n hn
  rw [decide_eq_true_eq, not_not]
  rcases List.mem_cons.mp hn with rfl | hn
  · exact net.fromNode_mem e he
  · rw [List.mem_singleton.mp hn]
    exact net.toNode_mem e he

/-- The edges of a network over which the walk found two nodes are two. -/
theorem found_eq_of_edgeId (net : Network) {root : String} {order : List String}
    {found : List (Found String GridEdge)} (h : Tree (adjacency net.edges) root order found)
    {f g : Found String GridEdge} (hf : f ∈ found) (hg : g ∈ found)
    (hid : f.edge.edgeId = g.edge.edgeId) : f = g := by
  obtain ⟨hfe, -, hfends⟩ := mem_adjacency.mp (h.linked f hf)
  obtain ⟨hge, -, hgends⟩ := mem_adjacency.mp (h.linked g hg)
  have hedge : f.edge = g.edge := net.edgeKey.eq hfe hge hid
  rw [hedge] at hfends
  have hsame : f.node = g.node ∨ (f.parent = g.node ∧ f.node = g.parent) := by
    rcases hfends with ⟨hf1, hf2⟩ | ⟨hf1, hf2⟩ <;> rcases hgends with ⟨hg1, hg2⟩ | ⟨hg1, hg2⟩
    · exact Or.inl (hf2.symm.trans hg2)
    · exact Or.inr ⟨hf1.symm.trans hg2, hf2.symm.trans hg1⟩
    · exact Or.inr ⟨hf1.symm.trans hg2, hf2.symm.trans hg1⟩
    · exact Or.inl (hf2.symm.trans hg2)
  rcases hsame with hnode | ⟨hp, hn⟩
  · exact h.found_eq hf hg hnode
  · -- each would be the parent of the other
    have hlt := h.ordered f hf
    have hlt' := h.ordered g hg
    rw [hp, hn] at hlt
    omega

/-! ### The derived maps -/

theorem lookup_eq {ν : Type} {d : Dict ν} {key : String} {v : ν} (h : d.get? key = some v) :
    lookup d key = .ok v := by
  rw [lookup, h]

theorem lookup_found {ν : Type} {found : List (Found String GridEdge)}
    (hnodup : (found.map Found.node).Nodup) (value : Found String GridEdge → ν)
    {f : Found String GridEdge} (hf : f ∈ found) :
    lookup (found.map fun f => (f.node, value f)) f.node = .ok (value f) := by
  refine lookup_eq (Dict.get?_of_mem ?_ (List.mem_map_of_mem hf))
  rw [List.map_map]
  exact hnodup

section Derived

variable {adj : String → List (String × GridEdge)} {root : String} {order : List String}
  {found : List (Found String GridEdge)} (h : Tree adj root order found)
include h

/-- The paths are right: the loop goes through the nodes in the order of the search, so
a parent has its path already. -/
theorem foldlM_extendPath :
    ∃ all : Dict (List GridEdge), order.foldlM (extendPath root
        (found.map fun f => (f.node, f.parent)) (found.map fun f => (f.node, f.edge)))
          [(root, [])] = .ok all ∧
      ∀ n path, n = root ∨ n ∈ order → PathTo root found n path →
        all.get? n = some (path.map Found.edge) := by
  have hfresh := (List.nodup_cons.mp h.fresh).2
  refine Loops.foldlM_prefix (P := fun left paths => ∀ n path, n = root ∨ n ∈ left →
    PathTo root found n path → Dict.get? paths n = some (path.map Found.edge)) ?_ ?_
  · intro n path hn hp
    rw [hn.resolve_right List.not_mem_nil] at hp ⊢
    rw [h.path_eq hp .root]
    exact if_pos rfl
  · intro left n right paths hsplit hpaths
    have hn : n ∈ order := hsplit ▸ List.mem_append_right left List.mem_cons_self
    by_cases hroot : n = root
    · refine ⟨paths, if_pos hroot, fun m path hm hp => hpaths m path ?_ hp⟩
      rcases hm with hm | hm
      · exact Or.inl hm
      · rcases List.mem_append.mp hm with hm | hm
        · exact Or.inr hm
        · exact Or.inl ((List.mem_singleton.mp hm).trans hroot)
    · obtain ⟨f, hf, rfl⟩ := h.exists_found hn hroot
      have hparent : f.parent ∈ left := h.parent_mem_left hf hsplit
      obtain ⟨before, hbefore⟩ := h.exists_path (h.parent_mem hf)
      refine ⟨Dict.set paths f.node (before.map Found.edge ++ [f.edge]), ?_, fun m path hm hp => ?_⟩
      · rw [extendPath, if_neg hroot]
        simp only [lookup_found hfresh Found.parent hf, lookup_found hfresh Found.edge hf,
          lookup_eq (hpaths f.parent before (Or.inr hparent) hbefore), bind, Except.bind]
      · rw [Dict.get?_set]
        by_cases hmf : f.node = m
        · subst hmf
          rw [if_pos rfl, h.path_eq hp (.step hf hbefore), List.map_append, List.map_singleton]
        · rw [if_neg hmf]
          refine hpaths m path (hm.imp_right fun hm => ?_) hp
          exact (List.mem_append.mp hm).resolve_right fun hm =>
            hmf (List.mem_singleton.mp hm).symm

theorem mem_children {c x : String} :
    x ∈ children root (found.map fun f => (f.node, f.parent)) order c ↔ Child found c x := by
  have hfresh := (List.nodup_cons.mp h.fresh).2
  have hkeys : ((found.map fun f => (f.node, f.parent)).map Prod.fst).Nodup := by
    rw [List.map_map]
    exact hfresh
  simp only [children, List.mem_filter, Bool.and_eq_true, decide_eq_true_eq]
  constructor
  · rintro ⟨-, -, hparent⟩
    obtain ⟨f, hf, heq⟩ := List.mem_map.mp (Dict.mem_of_get? hparent)
    injection heq with hnode hp
    exact ⟨f, hf, hp, hnode⟩
  · rintro ⟨f, hf, rfl, rfl⟩
    exact ⟨h.node_mem hf, h.node_ne_root hf, Dict.get?_of_mem hkeys (List.mem_map_of_mem hf)⟩

theorem children_forestlike :
    Forestlike (children root (found.map fun f => (f.node, f.parent)) order)
      (order.idxOf ·) where
  nodup c := h.nodup.filter _
  parent_eq a b x ha hb := by
    obtain ⟨f, hf, rfl, rfl⟩ := (mem_children h).mp ha
    obtain ⟨g, hg, rfl, hnode⟩ := (mem_children h).mp hb
    rw [h.found_eq hg hf hnode]
  rank_lt a x hx := by
    obtain ⟨f, hf, rfl, rfl⟩ := (mem_children h).mp hx
    exact h.ordered f hf

theorem reaches_children {a b : String} :
    Reaches (children root (found.map fun f => (f.node, f.parent)) order) a b ↔
      Descends found a b := by
  unfold Reaches Descends
  rw [show (fun a b => b ∈ children root _ order a) = Child found from
    funext₂ fun _ _ => propext (mem_children h)]

/-- `descendants(n)` ends and is right. -/
theorem collect_children {n : String} (hn : n ∈ order) {fuel : ℕ} (hfuel : order.length ≤ fuel) :
    ∃ below, collect (children root (found.map fun f => (f.node, f.parent)) order) fuel ∅ [n] =
        some below ∧ ∀ k, k ∈ below ↔ Descends found n k := by
  have hU : ∀ x, Reaches (children root (found.map fun f => (f.node, f.parent)) order) n x →
      x ∈ order.toFinset := fun x hx =>
    List.mem_toFinset.mpr (h.mem_of_descends ((reaches_children h).mp hx) hn)
  obtain ⟨below, hbelow, hmem⟩ := collect_start (children_forestlike h) order.toFinset hU fuel
    (order.toFinset_card_le.trans hfuel)
  exact ⟨below, hbelow, fun k => (hmem k).trans (reaches_children h)⟩

/-- A loop over the order that enters something for the edge over which a node was found
has it for every edge in the end: no two nodes were found over edges of one id. -/
theorem foldlM_edges {m : Type → Type} [Monad m] [LawfulMonad m] {ν : Type}
    {enter : Dict ν → String → m (Dict ν)} {Q : Found String GridEdge → ν → Prop}
    (hids : ∀ f ∈ found, ∀ g ∈ found, f.edge.edgeId = g.edge.edgeId → f = g)
    (hroot : ∀ d, enter d root = pure d)
    (henter : ∀ f ∈ found, ∀ d, ∃ v, enter d f.node = pure (d.set f.edge.edgeId v) ∧ Q f v) :
    ∃ all : Dict ν, order.foldlM enter [] = pure all ∧
      ∀ f ∈ found, ∃ v, all.get? f.edge.edgeId = some v ∧ Q f v := by
  obtain ⟨all, hrun, hall⟩ : ∃ all : Dict ν, order.foldlM enter [] = pure all ∧
      ∀ f ∈ found, f.node ∈ order → ∃ v, all.get? f.edge.edgeId = some v ∧ Q f v := by
    refine Loops.foldlM_prefix (P := fun left (d : Dict ν) => ∀ f ∈ found, f.node ∈ left →
      ∃ v, d.get? f.edge.edgeId = some v ∧ Q f v) (fun f _ hf => absurd hf List.not_mem_nil) ?_
    intro left n right d hsplit hd
    have hn : n ∈ order := hsplit ▸ List.mem_append_right left List.mem_cons_self
    by_cases hn' : n = root
    · refine ⟨d, hn' ▸ hroot d, fun g hg hmem => hd g hg ?_⟩
      refine (List.mem_append.mp hmem).resolve_right fun hmem => ?_
      exact h.node_ne_root hg ((List.mem_singleton.mp hmem).trans hn')
    · obtain ⟨f, hf, rfl⟩ := h.exists_found hn hn'
      obtain ⟨v, hv, hQ⟩ := henter f hf d
      refine ⟨d.set f.edge.edgeId v, hv, fun g hg hmem => ?_⟩
      rw [Dict.get?_set]
      by_cases hfg : f = g
      · subst hfg
        exact ⟨v, if_pos rfl, hQ⟩
      · rw [if_neg fun hid => hfg (hids f hf g hg hid)]
        refine hd g hg ((List.mem_append.mp hmem).resolve_right fun hmem => ?_)
        exact hfg (h.found_eq hf hg (List.mem_singleton.mp hmem).symm)
  exact ⟨all, hrun, fun f hf => hall f hf (h.node_mem hf)⟩

/-- The subtree of an edge is that of the node which it has led to. -/
theorem foldlM_addSubtree {fuel : ℕ} (hfuel : order.length ≤ fuel)
    (hids : ∀ f ∈ found, ∀ g ∈ found, f.edge.edgeId = g.edge.edgeId → f = g) :
    ∃ all : Dict (Finset String), order.foldlM (addSubtree fuel root
        (children root (found.map fun f => (f.node, f.parent)) order)
        (found.map fun f => (f.node, f.edge))) [] = pure all ∧
      ∀ f ∈ found, ∃ below, all.get? f.edge.edgeId = some below ∧
        ∀ k, k ∈ below ↔ Descends found f.node k := by
  have hfresh := (List.nodup_cons.mp h.fresh).2
  refine foldlM_edges h hids (fun d => if_pos rfl) fun f hf d => ?_
  obtain ⟨below, hbelow, hmem⟩ := collect_children h (h.node_mem hf) hfuel
  refine ⟨below, ?_, hmem⟩
  rw [addSubtree, if_neg (h.node_ne_root hf), lookup_found hfresh Found.edge hf, hbelow]
  rfl

end Derived

/-! ### What the tree says -/

/-- The tree in terms of the discoveries of the walk. -/
structure Represents (net : Network) (t : RadialTree) (found : List (Found String GridEdge)) :
    Prop where
  sources : ∃ others, net.substations = t.root :: others
  tree : Tree (adjacency net.edges) t.root t.order found
  energized : ∀ x, x ∈ t.energized ↔ x ∈ t.order
  parentEdge : t.parentEdge = found.map fun f => (f.node, f.edge)
  pathEdges : ∀ n path, n = t.root ∨ n ∈ t.order → PathTo t.root found n path →
    t.pathEdges.get? n = some (path.map Found.edge)
  subtree : ∀ f ∈ found, ∃ below, t.subtree.get? f.edge.edgeId = some below ∧
    ∀ k, k ∈ below ↔ Descends found f.node k

/-- The walk finds nodes of the network. -/
theorem mem_nodes_of_order (net : Network) {root : String} {order : List String}
    {found : List (Found String GridEdge)} (h : Tree (adjacency net.edges) root order found)
    (hroot : root ∈ net.nodes.map GridNode.nodeId) {x : String} (hx : x ∈ order) :
    x ∈ net.nodes.map GridNode.nodeId := by
  rcases (h.mem_iff x).mp hx with rfl | hx
  · exact hroot
  · obtain ⟨f, hf, rfl⟩ := List.mem_map.mp hx
    obtain ⟨he, -, ⟨-, hn⟩ | ⟨-, hn⟩⟩ := mem_adjacency.mp (h.linked f hf)
    · exact hn ▸ net.toNode_mem f.edge he
    · exact hn ▸ net.fromNode_mem f.edge he

/-- No node is walked through twice. -/
theorem length_order_le (net : Network) {root : String} {order : List String}
    {found : List (Found String GridEdge)} (h : Tree (adjacency net.edges) root order found)
    (hroot : root ∈ net.nodes.map GridNode.nodeId) : order.length ≤ net.nodes.length := by
  have hsub : order.toFinset ⊆ (net.nodes.map GridNode.nodeId).toFinset := by
    intro x hx
    rw [List.mem_toFinset] at hx ⊢
    exact mem_nodes_of_order net h hroot hx
  have hcard := (Finset.card_le_card hsub).trans (List.toFinset_card_le _)
  rwa [List.toFinset_card_of_nodup h.nodup, List.length_map] at hcard

theorem substation_mem_nodes (net : Network) {s : String} (hs : s ∈ net.substations) :
    s ∈ net.nodes.map GridNode.nodeId := by
  obtain ⟨n, hn, rfl⟩ := List.mem_map.mp hs
  exact List.mem_map_of_mem (List.mem_of_mem_filter hn)

/-- **`build_radial` ends and represents the walk.** A turn of fuel for every
node is enough for all its loops. -/
theorem buildRadial_represents (net : Network) (hsource : net.substations ≠ []) {fuel : ℕ}
    (hfuel : net.nodes.length ≤ fuel) :
    ∃ t found, buildRadial fuel net.nodes net.edges = pure t ∧ Represents net t found := by
  obtain ⟨root, others, hroot⟩ := List.exists_cons_of_ne_nil hsource
  have hrootId : root ∈ net.nodes.map GridNode.nodeId :=
    substation_mem_nodes net (hroot ▸ List.mem_cons_self)
  let ids := (net.nodes.map GridNode.nodeId).toFinset
  have hids : ids.card ≤ net.nodes.length :=
    (List.toFinset_card_le _).trans (net.nodes.length_map GridNode.nodeId).le
  have hU : ∀ a, ∀ b ∈ succ (adjacency net.edges) a, b ∈ ids := by
    intro a b hb
    rw [List.mem_toFinset]
    rcases mem_succ_adjacency.mp hb with ⟨-, ⟨e, he, -, rfl⟩, -, rfl⟩ | ⟨-, ⟨e, he, -, rfl⟩, rfl, -⟩
    · exact net.toNode_mem e he
    · exact net.fromNode_mem e he
  have hstart : (start root : State String GridEdge).stack.length +
      (ids \ (start root : State String GridEdge).seen).card ≤ fuel := by
    have hcard : (ids.erase root).card + 1 = ids.card :=
      Finset.card_erase_add_one (List.mem_toFinset.mpr hrootId)
    rw [start, List.length_singleton, Finset.sdiff_singleton_eq_erase]
    omega
  obtain ⟨walk, hwalk, htree, hseen⟩ := traverse_tree ids hU fuel (Grown.start _ root)
    (.start _ _ _ fun a => by rw [start, List.mem_singleton, Finset.mem_singleton]) hstart
  have horder : walk.order.length ≤ fuel := (length_order_le net htree hrootId).trans hfuel
  obtain ⟨paths, hpaths, hpath⟩ := foldlM_extendPath htree
  obtain ⟨subtree, hfold, hsub⟩ := foldlM_addSubtree htree horder
    fun f hf g hg => found_eq_of_edgeId net htree hf hg
  let t : RadialTree := {
    root := root
    byId := Dict.update [] (net.nodes.map fun n => (n.nodeId, n))
    energized := walk.seen
    order := walk.order
    parentEdge := walk.found.map fun f => (f.node, f.edge)
    pathEdges := paths
    subtree := subtree }
  refine ⟨t, walk.found, ?_, ⟨⟨others, hroot⟩, htree, hseen, rfl, hpath, hsub⟩⟩
  have hsources : Contingency.sources net.nodes = root :: others := hroot
  simp only [buildRadial, hsources, danglingEnd_eq_none, hwalk, lift_some_bind, hpaths,
    lift_ok_bind, hfold, pure_bind, t]

theorem buildRadial_ends (net : Network) {fuel : ℕ} (hfuel : net.nodes.length ≤ fuel) :
    Ends (buildRadial fuel net.nodes net.edges) := by
  by_cases hsource : net.substations = []
  · have hsources : Contingency.sources net.nodes = [] := hsource
    rw [buildRadial, hsources]
    exact ends_throw _
  · obtain ⟨t, found, hbuild, -⟩ := buildRadial_represents net hsource hfuel
    rw [hbuild]
    exact ends_pure t

/-- A tree that is returned represents the walk. -/
theorem represents_of_buildRadial (net : Network) {fuel : ℕ} (hfuel : net.nodes.length ≤ fuel)
    {t : RadialTree} (hbuild : buildRadial fuel net.nodes net.edges = pure t) :
    ∃ found, Represents net t found := by
  have hsource : net.substations ≠ [] := by
    intro hnone
    have hsources : Contingency.sources net.nodes = [] := hnone
    rw [buildRadial, hsources] at hbuild
    exact nomatch hbuild
  obtain ⟨t', found, hbuild', hrep⟩ := buildRadial_represents net hsource hfuel
  obtain rfl := pure_inj.mp (hbuild'.symm.trans hbuild)
  exact ⟨found, hrep⟩

/-- `by_id` is the one of the node list. -/
theorem byId_of_buildRadial {fuel : ℕ} {nodes : List GridNode} {edges : List GridEdge}
    {t : RadialTree} (hbuild : buildRadial fuel nodes edges = pure t) :
    t.byId = Dict.update [] (nodes.map fun n => (n.nodeId, n)) := by
  unfold buildRadial at hbuild
  split at hbuild
  · exact nomatch hbuild
  · split at hbuild
    · exact nomatch hbuild
    · obtain ⟨walk, -, hbuild⟩ := bind_eq_pure.mp hbuild
      obtain ⟨paths, -, hbuild⟩ := bind_eq_pure.mp hbuild
      obtain ⟨subtree, -, hbuild⟩ := bind_eq_pure.mp hbuild
      rw [← pure_inj.mp hbuild]

namespace Represents

variable {net : Network} {t : RadialTree} {found : List (Found String GridEdge)}
  (h : Represents net t found)
include h

theorem mem_nodes {x : String} (hx : x ∈ t.order) : x ∈ net.nodes.map GridNode.nodeId := by
  obtain ⟨others, hothers⟩ := h.sources
  exact mem_nodes_of_order net h.tree
    (substation_mem_nodes net (hothers ▸ List.mem_cons_self)) hx

theorem root_mem : t.root ∈ net.substations := by
  obtain ⟨others, hothers⟩ := h.sources
  exact hothers ▸ List.mem_cons_self

theorem mem_order {x : String} : x ∈ t.order ↔ grid.Conn (closed net.edges) t.root x :=
  h.tree.mem_iff_reaches.trans reaches_adjacency

theorem mem_energized {x : String} :
    x ∈ t.energized ↔ grid.Conn (closed net.edges) t.root x :=
  (h.energized x).trans h.mem_order

theorem parentEdge_get? {f : Found String GridEdge} (hf : f ∈ found) :
    t.parentEdge.get? f.node = some f.edge := by
  rw [h.parentEdge]
  refine Dict.get?_of_mem ?_ (List.mem_map_of_mem hf)
  rw [List.map_map]
  exact (List.nodup_cons.mp h.tree.fresh).2

theorem exists_of_parentEdge {n : String} {e : GridEdge} (hedge : t.parentEdge.get? n = some e) :
    ∃ f ∈ found, f.node = n ∧ f.edge = e := by
  have hmem := Dict.mem_of_get? hedge
  rw [h.parentEdge] at hmem
  obtain ⟨f, hf, heq⟩ := List.mem_map.mp hmem
  injection heq with hnode hedge
  exact ⟨f, hf, hnode, hedge⟩

/-- The edge over which `f` was found is on the way to what it leads to. -/
theorem edge_mem_path_iff {f : Found String GridEdge} (hf : f ∈ found) {k : String}
    {path : List (Found String GridEdge)} (hp : PathTo t.root found k path) :
    f.edge ∈ path.map Found.edge ↔ Descends found f.node k := by
  rw [← h.tree.mem_path_iff hf hp]
  constructor
  · intro hmem
    obtain ⟨g, hg, heq⟩ := List.mem_map.mp hmem
    have hgf : g = f :=
      found_eq_of_edgeId net h.tree (Tree.of_mem_path hp hg) hf (congrArg GridEdge.edgeId heq)
    exact hgf ▸ hg
  · exact fun hmem => List.mem_map_of_mem hmem

end Represents

/-! ### The representation invariant -/

/-- `path` leads from `a` to `b` over closed rows, through the nodes `via` in
front of `b`. -/
inductive ClosedWay (edges : List GridEdge) (a : String) :
    List String → List GridEdge → String → Prop
  | here : ClosedWay edges a [] [] a
  | step {via : List String} {path : List GridEdge} {b c : String} {e : GridEdge}
      (h : ClosedWay edges a via path b) (he : e ∈ edges) (hc : e.isClosed = true)
      (hends : Joins e b c) : ClosedWay edges a (via ++ [b]) (path ++ [e]) c

theorem closedWay_of_path {edges : List GridEdge} {root n : String} {order : List String}
    {found : List (Found String GridEdge)} (h : Tree (adjacency edges) root order found)
    {path : List (Found String GridEdge)} (hp : PathTo root found n path) :
    ClosedWay edges root (path.map Found.parent) (path.map Found.edge) n := by
  induction hp with
  | root => exact .here
  | @step f path hf _ ih =>
      obtain ⟨he, hc, hends⟩ := mem_adjacency.mp (h.linked f hf)
      rw [List.map_append, List.map_append]
      exact .step ih he hc hends

/-- What holds of the tree of a network. -/
structure RadialTree.Spans (net : Network) (t : RadialTree) : Prop where
  root_source : ∃ others, net.substations = t.root :: others
  order_nodup : t.order.Nodup
  mem_order : ∀ x, x ∈ t.order ↔ grid.Conn (closed net.edges) t.root x
  /-- A node comes after the one at the other end of its parent edge. -/
  parent_first : ∀ n ∈ t.order, n ≠ t.root → ∃ e p, t.parentEdge.get? n = some e ∧
    Joins e p n ∧ p ∈ t.order ∧ t.order.idxOf p < t.order.idxOf n
  /-- The path of a node visits no node twice. -/
  path : ∀ n ∈ t.order, ∃ via path, t.pathEdges.get? n = some path ∧
    ClosedWay net.edges t.root via path n ∧ (via ++ [n]).Nodup
  /-- Subtrees and paths are dual. -/
  subtree_iff : ∀ n ∈ t.order, n ≠ t.root → ∃ e below, t.parentEdge.get? n = some e ∧
    t.subtree.get? e.edgeId = some below ∧
    ∀ k ∈ t.order, ∃ path, t.pathEdges.get? k = some path ∧ (k ∈ below ↔ e ∈ path)

theorem Represents.spans {net : Network} {t : RadialTree}
    {found : List (Found String GridEdge)} (h : Represents net t found) : t.Spans net where
  root_source := h.sources
  order_nodup := h.tree.nodup
  mem_order _ := h.mem_order
  parent_first n hn hroot := by
    obtain ⟨f, hf, rfl⟩ := h.tree.exists_found hn hroot
    exact ⟨f.edge, f.parent, h.parentEdge_get? hf, (mem_adjacency.mp (h.tree.linked f hf)).2.2,
      h.tree.parent_mem hf, h.tree.ordered f hf⟩
  path n hn := by
    obtain ⟨path, hp⟩ := h.tree.exists_path hn
    exact ⟨_, _, h.pathEdges n path (Or.inr hn) hp, closedWay_of_path h.tree hp,
      h.tree.nodup_path hp⟩
  subtree_iff n hn hroot := by
    obtain ⟨f, hf, rfl⟩ := h.tree.exists_found hn hroot
    obtain ⟨below, hget, hbelow⟩ := h.subtree f hf
    refine ⟨f.edge, below, h.parentEdge_get? hf, hget, fun k hk => ?_⟩
    obtain ⟨path, hp⟩ := h.tree.exists_path hk
    refine ⟨_, h.pathEdges k path (Or.inr hk) hp, ?_⟩
    rw [hbelow, h.edge_mem_path_iff hf hp]

/-- **The radial tree.** For every network with a substation, loops and
parallel edges included, `build_radial` ends with a spanning tree of what is
connected to the first substation, in which subtrees and paths are dual. -/
theorem buildRadial_spans (net : Network) (hsource : net.substations ≠ []) {fuel : ℕ}
    (hfuel : net.nodes.length ≤ fuel) :
    ∃ t : RadialTree, buildRadial fuel net.nodes net.edges = pure t ∧ t.Spans net := by
  obtain ⟨t, found, hbuild, hrep⟩ := buildRadial_represents net hsource hfuel
  exact ⟨t, hbuild, hrep.spans⟩

/-- A feeder with a loop and a doubled line. -/
def loopedFeeder : Network where
  nodes := [⟨"S", .substation⟩, ⟨"A", .bus⟩, ⟨"B", .bus⟩]
  edges := [{ edgeId := "E1", fromNode := "S", toNode := "A" },
    { edgeId := "E2", fromNode := "B", toNode := "A" },
    { edgeId := "E3", fromNode := "A", toNode := "B" },
    { edgeId := "E4", fromNode := "S", toNode := "B" }]
  nodeKey := by decide
  edgeKey := by decide
  fromNode_mem := by decide
  toNode_mem := by decide

theorem loopedFeeder_spans :
    ∃ t : RadialTree, buildRadial 3 loopedFeeder.nodes loopedFeeder.edges = pure t ∧
      t.Spans loopedFeeder :=
  buildRadial_spans loopedFeeder (by decide) (by decide)

/-! ### The other energised sets -/

theorem radialFeasible_snd (net : Network) :
    (Reconfiguration.radialFeasible net.nodes net.edges).2 =
      Contingency.energized net.nodes net.edges := by
  simp only [Reconfiguration.radialFeasible, energized_closedRows]
  split
  · rename_i hnone
    ext x
    rw [Contingency.mem_energized, hnone]
    simp
  · split
    · rfl
    · split <;> rfl

/-- The tree misses nothing that some substation supplies exactly when its root
is connected to every substation. -/
theorem Represents.energized_eq_iff {net : Network} {t : RadialTree}
    {found : List (Found String GridEdge)} (h : Represents net t found) :
    t.energized = Contingency.energized net.nodes net.edges ↔
      ∀ s ∈ net.substations, grid.Conn (closed net.edges) t.root s := by
  constructor
  · intro heq s hs
    rw [← h.mem_energized, heq, Contingency.mem_energized]
    exact ⟨s, hs, .refl⟩
  · intro hconn
    ext x
    rw [h.mem_energized, Contingency.mem_energized]
    exact ⟨fun hx => ⟨t.root, h.root_mem, hx⟩, fun ⟨s, hs, hsx⟩ => (hconn s hs).trans hsx⟩

/-- **When the energised sets agree.** `build_radial` calls energised what the
contingency analysis and the feasibility check do exactly when there is a
substation and the first one is connected to all others. -/
theorem energizedSets_agree_iff (net : Network) {fuel : ℕ} (hfuel : net.nodes.length ≤ fuel) :
    (∃ t : RadialTree, buildRadial fuel net.nodes net.edges = pure t ∧
        t.energized = Contingency.energized net.nodes net.edges ∧
        t.energized = (Reconfiguration.radialFeasible net.nodes net.edges).2) ↔
      ∃ root others, net.substations = root :: others ∧
        ∀ s ∈ others, grid.Conn (closed net.edges) root s := by
  rw [radialFeasible_snd]
  constructor
  · rintro ⟨t, hbuild, heq, -⟩
    obtain ⟨found, hrep⟩ := represents_of_buildRadial net hfuel hbuild
    obtain ⟨others, hothers⟩ := hrep.sources
    refine ⟨t.root, others, hothers, fun s hs => ?_⟩
    exact hrep.energized_eq_iff.mp heq s (hothers ▸ List.mem_cons_of_mem _ hs)
  · rintro ⟨root, others, hothers, hconn⟩
    obtain ⟨t, found, hbuild, hrep⟩ := buildRadial_represents net (by simp [hothers]) hfuel
    obtain ⟨others', hothers'⟩ := hrep.sources
    rw [hothers] at hothers'
    injection hothers' with hroot _
    have heq : t.energized = Contingency.energized net.nodes net.edges := by
      rw [hrep.energized_eq_iff, hothers, ← hroot]
      intro s hs
      rcases List.mem_cons.mp hs with rfl | hs
      · exact .refl
      · exact hconn s hs
    exact ⟨t, hbuild, heq, heq⟩

/-- Two feeders, each with its own substation. -/
def twoFeeders : Network where
  nodes := [⟨"S1", .substation⟩, ⟨"A", .meter⟩, ⟨"S2", .substation⟩, ⟨"B", .meter⟩]
  edges := [{ edgeId := "E1", fromNode := "S1", toNode := "A" },
    { edgeId := "E2", fromNode := "S2", toNode := "B" }]
  nodeKey := by decide
  edgeKey := by decide
  fromNode_mem := by decide
  toNode_mem := by decide

/-- The two feeders joined into one network. -/
def joinedFeeders : Network where
  nodes := twoFeeders.nodes
  edges := twoFeeders.edges ++ [{ edgeId := "E3", fromNode := "A", toNode := "B" }]
  nodeKey := twoFeeders.nodeKey
  edgeKey := by decide
  fromNode_mem := by decide
  toNode_mem := by decide

theorem joinedFeeders_agree :
    (∃ t : RadialTree, buildRadial 4 joinedFeeders.nodes joinedFeeders.edges = pure t ∧
        t.energized = Contingency.energized joinedFeeders.nodes joinedFeeders.edges ∧
        t.energized = (Reconfiguration.radialFeasible joinedFeeders.nodes joinedFeeders.edges).2) ↔
      ∃ root others, joinedFeeders.substations = root :: others ∧
        ∀ s ∈ others, grid.Conn (closed joinedFeeders.edges) root s :=
  energizedSets_agree_iff joinedFeeders (by decide)

/-- The second feeder is supplied, and `build_radial` does not call it
energised. -/
theorem twoFeeders_disagree :
    ∃ t : RadialTree, buildRadial 4 twoFeeders.nodes twoFeeders.edges = pure t ∧
      "B" ∉ t.energized ∧ "B" ∈ Contingency.energized twoFeeders.nodes twoFeeders.edges ∧
      "B" ∈ (Reconfiguration.radialFeasible twoFeeders.nodes twoFeeders.edges).2 := by
  obtain ⟨t, found, hbuild, hrep⟩ := buildRadial_represents twoFeeders (by decide) le_rfl
  obtain ⟨others, hothers⟩ := hrep.sources
  have hroot : t.root = "S1" := (List.cons_eq_cons.mp hothers).1.symm
  refine ⟨t, hbuild, ?_, by decide +kernel, by decide +kernel⟩
  rw [hrep.mem_energized, hroot]
  decide +kernel

end DiepLab.StateEstimation
