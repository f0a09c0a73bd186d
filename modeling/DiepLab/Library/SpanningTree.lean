import DiepLab.Library.Worklist

/-!
Spanning trees by stack-driven search.

The search of `Library.Worklist` with its record of discoveries: every node
other than the root is found once, from a parent and over an edge, and `order`
is the order in which nodes are taken off the stack. `Grown` is the loop
invariant, `Tree` what is left when the stack is empty (`traverse_tree`).

Over a `Tree` the discoveries can be read in two directions. `PathTo` collects
those on the way from the root to a node; `Child` leads from a parent to what
was found from it. A discovery lies on the way to `k` exactly when `k` descends
from the node that it found (`mem_path_iff`).
-/

namespace SpanningTree

open Worklist

variable {α β : Type}

/-- A node with the parent and the edge that it was found over. -/
structure Found (α β : Type) where
  node : α
  parent : α
  edge : β
  deriving DecidableEq

/-- The state of the search loop; the head of `stack` is its top. -/
structure State (α β : Type) where
  seen : Finset α
  found : List (Found α β)
  order : List α
  stack : List α

def start (root : α) : State α β where
  seen := {root}
  found := []
  order := []
  stack := [root]

section Search

variable [DecidableEq α]

/-- One neighbour of the node in hand: mark, record and push it, unless it is
already marked. -/
def discover (cur : α) (s : State α β) (nbr : α × β) : State α β :=
  if nbr.1 ∈ s.seen then s
  else { s with
    seen := insert nbr.1 s.seen
    found := s.found ++ [⟨nbr.1, cur, nbr.2⟩]
    stack := nbr.1 :: s.stack }

/-- A node is taken off the stack. -/
def State.pop (s : State α β) (cur : α) (stack : List α) : State α β :=
  { s with order := s.order ++ [cur], stack := stack }

/-- The search loop; `none` when the stack is not empty after `fuel` turns. -/
def traverse (adj : α → List (α × β)) : ℕ → State α β → Option (State α β)
  | fuel, s =>
      match fuel, s.stack with
      | _, [] => some s
      | 0, _ :: _ => none
      | fuel + 1, cur :: stack =>
          traverse adj fuel ((adj cur).foldl (discover cur) (s.pop cur stack))

/-- The neighbours without the edges. -/
def succ (adj : α → List (α × β)) (a : α) : List α := (adj a).map Prod.fst

/-- Discoveries apart, a turn is one of `Worklist.search`. -/
theorem foldl_discover_visit (cur : α) (l : List (α × β)) (s : State α β) :
    ((l.foldl (discover cur) s).seen, (l.foldl (discover cur) s).stack) =
      (l.map Prod.fst).foldl visit (s.seen, s.stack) := by
  induction l generalizing s with
  | nil => rfl
  | cons p l ih =>
      rw [List.foldl_cons, List.map_cons, List.foldl_cons, ih]
      by_cases hp : p.1 ∈ s.seen
      · rw [discover, if_pos hp, visit, if_pos hp]
      · rw [discover, if_neg hp, visit, if_neg hp]

/-- The loop invariant, also in the middle of a turn. -/
structure Grown (adj : α → List (α × β)) (root : α) (s : State α β) : Prop where
  nodup : (s.order ++ s.stack).Nodup
  seen_iff : ∀ x, x ∈ s.seen ↔ x ∈ s.order ∨ x ∈ s.stack
  found_iff : ∀ x, x ∈ s.seen ↔ x = root ∨ x ∈ s.found.map Found.node
  /-- Every node is found once, and the root never. -/
  fresh : (root :: s.found.map Found.node).Nodup
  linked : ∀ f ∈ s.found, (f.node, f.edge) ∈ adj f.parent
  /-- A parent is taken off the stack first. -/
  ordered : ∀ f ∈ s.found, s.order.idxOf f.parent < s.order.idxOf f.node

theorem Grown.start (adj : α → List (α × β)) (root : α) :
    Grown adj root (start root) where
  nodup := List.nodup_singleton root
  seen_iff x := by simp [SpanningTree.start]
  found_iff x := by simp [SpanningTree.start]
  fresh := List.nodup_singleton root
  linked f hf := absurd hf List.not_mem_nil
  ordered f hf := absurd hf List.not_mem_nil

theorem idxOf_append_lt {l r : List α} {a b : α} (h : l.idxOf a < l.idxOf b) :
    (l ++ r).idxOf a < (l ++ r).idxOf b := by
  have ha : a ∈ l := List.idxOf_lt_length_iff.mp (h.trans_le List.idxOf_le_length)
  rw [List.idxOf_append, List.idxOf_append, if_pos ha]
  split
  · exact h
  · exact (List.idxOf_lt_length_iff.mpr ha).trans_le (Nat.le_add_left _ _)

variable {adj : α → List (α × β)} {root : α} {s : State α β}

theorem Grown.pop {cur : α} {stack : List α} (h : Grown adj root s)
    (hs : s.stack = cur :: stack) : Grown adj root (s.pop cur stack) where
  nodup := by
    have hnodup := h.nodup
    rwa [hs, List.append_cons] at hnodup
  seen_iff x := by
    rw [State.pop, h.seen_iff, hs, List.mem_cons, List.mem_append, List.mem_singleton, or_assoc]
  found_iff := h.found_iff
  fresh := h.fresh
  linked := h.linked
  ordered f hf := idxOf_append_lt (h.ordered f hf)

theorem Grown.discover {cur : α} (h : Grown adj root s) (hcur : cur ∈ s.order)
    {p : α × β} (hp : p ∈ adj cur) : Grown adj root (discover cur s p) := by
  rw [SpanningTree.discover]
  split
  · exact h
  · rename_i hnew
    have hnot := hnew
    rw [h.seen_iff, not_or] at hnot
    have hfresh := hnew
    rw [h.found_iff, not_or] at hfresh
    exact {
      nodup := by
        have hperm : (s.order ++ p.1 :: s.stack).Perm (p.1 :: (s.order ++ s.stack)) :=
          List.perm_middle
        rw [hperm.nodup_iff, List.nodup_cons, List.mem_append, not_or]
        exact ⟨hnot, h.nodup⟩
      seen_iff := fun x => by
        rw [Finset.mem_insert, h.seen_iff, List.mem_cons, or_left_comm]
      found_iff := fun x => by
        rw [Finset.mem_insert, h.found_iff, List.map_append, List.mem_append, List.map_singleton,
          List.mem_singleton, or_comm, or_assoc]
      fresh := by
        rw [List.map_append, List.map_singleton, ← List.cons_append,
          (List.perm_append_singleton _ _).nodup_iff, List.nodup_cons]
        exact ⟨fun hmem => (List.mem_cons.mp hmem).elim hfresh.1 hfresh.2, h.fresh⟩
      linked := fun f hf => by
        rcases List.mem_append.mp hf with hf | hf
        · exact h.linked f hf
        · rw [List.mem_singleton.mp hf]
          exact hp
      ordered := fun f hf => by
        rcases List.mem_append.mp hf with hf | hf
        · exact h.ordered f hf
        · rw [List.mem_singleton.mp hf, List.idxOf_eq_length hnot.1]
          exact List.idxOf_lt_length_iff.mpr hcur }

theorem discover_order (cur : α) (s : State α β) (p : α × β) :
    (discover cur s p).order = s.order := by
  rw [discover]
  split <;> rfl

theorem Grown.foldl {cur : α} (l : List (α × β)) (h : Grown adj root s) (hcur : cur ∈ s.order)
    (hl : ∀ p ∈ l, p ∈ adj cur) : Grown adj root (l.foldl (SpanningTree.discover cur) s) := by
  induction l generalizing s with
  | nil => exact h
  | cons p l ih =>
      rw [List.forall_mem_cons] at hl
      refine ih (h.discover hcur hl.1) ?_ hl.2
      rw [discover_order]
      exact hcur

/-- What the finished search leaves. -/
structure Tree (adj : α → List (α × β)) (root : α) (order : List α)
    (found : List (Found α β)) : Prop where
  nodup : order.Nodup
  mem_iff : ∀ x, x ∈ order ↔ x = root ∨ x ∈ found.map Found.node
  fresh : (root :: found.map Found.node).Nodup
  linked : ∀ f ∈ found, (f.node, f.edge) ∈ adj f.parent
  ordered : ∀ f ∈ found, order.idxOf f.parent < order.idxOf f.node
  closed : ∀ a ∈ order, ∀ b ∈ succ adj a, b ∈ order

theorem Grown.tree (h : Grown adj root s) (hs : s.stack = [])
    (hfront : Frontier (succ adj) s.seen s.stack) : Tree adj root s.order s.found where
  nodup := by
    have hnodup := h.nodup
    rwa [hs, List.append_nil] at hnodup
  mem_iff x := by
    rw [← h.found_iff, h.seen_iff, hs, or_iff_left List.not_mem_nil]
  fresh := h.fresh
  linked := h.linked
  ordered := h.ordered
  closed a ha b hb := by
    have hseen : ∀ x, x ∈ s.seen ↔ x ∈ s.order := fun x => by
      rw [h.seen_iff, hs, or_iff_left List.not_mem_nil]
    rw [← hseen] at ha ⊢
    exact hfront.expanded a ha (hs ▸ List.not_mem_nil) b hb

theorem traverse_nil (fuel : ℕ) (hs : s.stack = []) : traverse adj fuel s = some s := by
  unfold traverse
  rw [hs]

theorem traverse_cons (fuel : ℕ) {cur : α} {stack : List α} (hs : s.stack = cur :: stack) :
    traverse adj (fuel + 1) s =
      traverse adj fuel ((adj cur).foldl (discover cur) (s.pop cur stack)) := by
  conv_lhs => unfold traverse
  rw [hs]

/-- **The search ends with a tree.** One turn of fuel for every stack entry
and every unmarked node is enough. -/
theorem traverse_tree (U : Finset α) (hU : ∀ a, ∀ b ∈ succ adj a, b ∈ U) (fuel : ℕ)
    (hgrown : Grown adj root s) (hfront : Frontier (succ adj) s.seen s.stack)
    (hfuel : s.stack.length + (U \ s.seen).card ≤ fuel) :
    ∃ t, traverse adj fuel s = some t ∧ Tree adj root t.order t.found ∧
      ∀ x, x ∈ t.seen ↔ x ∈ t.order := by
  have finished (s : State α β) (hgrown : Grown adj root s)
      (hfront : Frontier (succ adj) s.seen s.stack) (hs : s.stack = []) :
      Tree adj root s.order s.found ∧ ∀ x, x ∈ s.seen ↔ x ∈ s.order := by
    refine ⟨hgrown.tree hs hfront, fun x => ?_⟩
    rw [hgrown.seen_iff, hs, or_iff_left List.not_mem_nil]
  induction fuel generalizing s with
  | zero =>
      have hs : s.stack = [] := List.eq_nil_of_length_eq_zero (by omega)
      exact ⟨s, traverse_nil 0 hs, finished s hgrown hfront hs⟩
  | succ fuel ih =>
      cases hs : s.stack with
      | nil => exact ⟨s, traverse_nil _ hs, finished s hgrown hfront hs⟩
      | cons cur stack =>
          have hvisit := foldl_discover_visit cur (adj cur) (s.pop cur stack)
          generalize hnext : (adj cur).foldl (discover cur) (s.pop cur stack) = next at hvisit
          have hseen : next.seen = ((succ adj cur).foldl visit (s.seen, stack)).1 :=
            congrArg Prod.fst hvisit
          have hstack : next.stack = ((succ adj cur).foldl visit (s.seen, stack)).2 :=
            congrArg Prod.snd hvisit
          have hpot := foldl_visit_potential U (succ adj cur) (hU cur) s.seen stack
          rw [hs] at hfront hfuel
          rw [List.length_cons] at hfuel
          have hcur : cur ∈ (s.pop cur stack).order :=
            List.mem_append_right _ (List.mem_singleton_self cur)
          have hgrown' := (hgrown.pop hs).foldl (adj cur) hcur fun p hp => hp
          rw [hnext] at hgrown'
          rw [traverse_cons fuel hs, hnext]
          refine ih hgrown' ?_ ?_
          · rw [hseen, hstack]
            exact hfront.step
          · rw [hseen, hstack]
            omega

/-! ### Ways and descents -/

/-- The discoveries on the way from the root to a node. -/
inductive PathTo (root : α) (found : List (Found α β)) : α → List (Found α β) → Prop
  | root : PathTo root found root []
  | step {f : Found α β} {path : List (Found α β)} (hf : f ∈ found)
      (h : PathTo root found f.parent path) : PathTo root found f.node (path ++ [f])

/-- `b` was found from `a`. -/
def Child (found : List (Found α β)) (a b : α) : Prop := ∃ f ∈ found, f.parent = a ∧ f.node = b

def Descends (found : List (Found α β)) : α → α → Prop := Relation.ReflTransGen (Child found)

namespace Tree

variable {order : List α} {found : List (Found α β)} (h : Tree adj root order found)
include h

theorem node_mem {f : Found α β} (hf : f ∈ found) : f.node ∈ order :=
  (h.mem_iff f.node).mpr (Or.inr (List.mem_map_of_mem hf))

theorem parent_mem {f : Found α β} (hf : f ∈ found) : f.parent ∈ order :=
  List.idxOf_lt_length_iff.mp ((h.ordered f hf).trans_le List.idxOf_le_length)

theorem parent_ne_node {f : Found α β} (hf : f ∈ found) : f.parent ≠ f.node := fun heq => by
  have hlt := h.ordered f hf
  rw [heq] at hlt
  exact lt_irrefl _ hlt

/-- The parent stands in front of the node. -/
theorem parent_mem_left {f : Found α β} (hf : f ∈ found) {left right : List α}
    (hsplit : order = left ++ f.node :: right) : f.parent ∈ left := by
  have hlt := h.ordered f hf
  have hnodup := h.nodup
  rw [hsplit, List.nodup_append] at hnodup
  have hnot : f.node ∉ left := fun hmem =>
    hnodup.2.2 f.node hmem f.node List.mem_cons_self rfl
  by_contra hp
  rw [hsplit, List.idxOf_append, List.idxOf_append, if_neg hp, if_neg hnot,
    List.idxOf_cons_self] at hlt
  omega

theorem root_mem : root ∈ order := (h.mem_iff root).mpr (Or.inl rfl)

theorem node_ne_root {f : Found α β} (hf : f ∈ found) : f.node ≠ root := by
  intro heq
  have hfresh := (List.nodup_cons.mp h.fresh).1
  exact hfresh (heq ▸ List.mem_map_of_mem hf)

theorem found_eq {f g : Found α β} (hf : f ∈ found) (hg : g ∈ found) (heq : f.node = g.node) :
    f = g :=
  List.inj_on_of_nodup_map (List.nodup_cons.mp h.fresh).2 hf hg heq

theorem exists_found {x : α} (hx : x ∈ order) (hne : x ≠ root) : ∃ f ∈ found, f.node = x :=
  List.mem_map.mp (((h.mem_iff x).mp hx).resolve_left hne)

/-- Every node has a way to it. The induction is on its place in the order. -/
theorem exists_path {x : α} (hx : x ∈ order) : ∃ path, PathTo root found x path := by
  induction hn : order.idxOf x using Nat.strong_induction_on generalizing x with
  | _ n ih =>
      by_cases hroot : x = root
      · exact ⟨[], hroot ▸ .root⟩
      · obtain ⟨f, hf, rfl⟩ := h.exists_found hx hroot
        obtain ⟨path, hpath⟩ := ih _ (hn ▸ h.ordered f hf) (h.parent_mem hf) rfl
        exact ⟨path ++ [f], .step hf hpath⟩

theorem path_eq {x : α} {path path' : List (Found α β)} (hp : PathTo root found x path)
    (hp' : PathTo root found x path') : path = path' := by
  induction hp generalizing path' with
  | root =>
      generalize hx : root = x at hp'
      cases hp' with
      | root => rfl
      | step hf _ => exact absurd hx.symm (h.node_ne_root hf)
  | @step f path hf _ ih =>
      generalize hx : f.node = x at hp'
      cases hp' with
      | root => exact absurd hx (h.node_ne_root hf)
      | @step g path' hg hp' =>
          obtain rfl := h.found_eq hf hg hx
          rw [ih hp']

omit [DecidableEq α] h in
theorem of_mem_path {x : α} {path : List (Found α β)} (hp : PathTo root found x path)
    {f : Found α β} (hf : f ∈ path) : f ∈ found := by
  induction hp with
  | root => exact absurd hf List.not_mem_nil
  | step hg _ ih =>
      rcases List.mem_append.mp hf with hf | hf
      · exact ih hf
      · rw [List.mem_singleton.mp hf]
        exact hg

/-- **Ways and descents.** A discovery lies on the way to `k` exactly when `k`
descends from the node found. -/
theorem mem_path_iff {f : Found α β} (hf : f ∈ found) {k : α} {path : List (Found α β)}
    (hp : PathTo root found k path) : f ∈ path ↔ Descends found f.node k := by
  constructor
  · intro hmem
    induction hp with
    | root => exact absurd hmem List.not_mem_nil
    | @step g path hg _ ih =>
        rcases List.mem_append.mp hmem with hmem | hmem
        · exact (ih hmem).tail ⟨g, hg, rfl, rfl⟩
        · rw [List.mem_singleton.mp hmem]
          exact .refl
  · intro hdesc
    induction hdesc generalizing path with
    | refl =>
        obtain ⟨before, hbefore⟩ := h.exists_path (h.parent_mem hf)
        rw [h.path_eq hp (.step hf hbefore)]
        exact List.mem_append_right _ (List.mem_singleton_self f)
    | tail _ hchild ih =>
        obtain ⟨g, hg, rfl, rfl⟩ := hchild
        obtain ⟨before, hbefore⟩ := h.exists_path (h.parent_mem hg)
        rw [h.path_eq hp (.step hg hbefore)]
        exact List.mem_append_left _ (ih hbefore)

/-- The nodes on a way come one after the other in the order. -/
theorem idxOf_lt_of_mem_path {x : α} {path : List (Found α β)} (hp : PathTo root found x path)
    {y : α} (hy : y ∈ path.map Found.parent) : order.idxOf y < order.idxOf x := by
  induction hp with
  | root => exact absurd hy List.not_mem_nil
  | @step f path hf _ ih =>
      rw [List.map_append, List.mem_append, List.map_singleton, List.mem_singleton] at hy
      rcases hy with hy | rfl
      · exact (ih hy).trans (h.ordered f hf)
      · exact h.ordered f hf

theorem nodup_path {x : α} {path : List (Found α β)} (hp : PathTo root found x path) :
    (path.map Found.parent ++ [x]).Nodup := by
  induction hp with
  | root => exact List.nodup_singleton root
  | @step f path hf hp ih =>
      rw [(List.perm_append_singleton _ _).nodup_iff, List.nodup_cons, List.map_append,
        List.map_singleton]
      refine ⟨fun hmem => ?_, ih⟩
      refine lt_irrefl _ (h.idxOf_lt_of_mem_path (.step hf hp) ?_)
      rw [List.map_append]
      exact hmem

theorem idxOf_le_of_descends {a b : α} (hd : Descends found a b) :
    order.idxOf a ≤ order.idxOf b := by
  induction hd with
  | refl => exact le_rfl
  | tail _ hchild ih =>
      obtain ⟨f, hf, rfl, rfl⟩ := hchild
      exact ih.trans (h.ordered f hf).le

theorem mem_of_descends {a b : α} (hd : Descends found a b) (ha : a ∈ order) : b ∈ order := by
  induction hd with
  | refl => exact ha
  | tail _ hchild _ =>
      obtain ⟨f, hf, -, rfl⟩ := hchild
      exact h.node_mem hf

/-- The nodes of the tree are those that the root reaches. -/
theorem mem_iff_reaches {x : α} : x ∈ order ↔ Reaches (succ adj) root x := by
  constructor
  · intro hx
    obtain ⟨path, hp⟩ := h.exists_path hx
    induction hp with
    | root => exact .refl
    | @step f _ hf _ ih =>
        refine (ih (h.parent_mem hf)).tail ?_
        exact List.mem_map_of_mem (f := Prod.fst) (h.linked f hf)
  · intro hx
    induction hx with
    | refl => exact h.root_mem
    | tail _ hstep ih => exact h.closed _ ih _ hstep

end Tree

/-! ### Collecting what descends -/

/-- Pop and push the children, without marks; `none` when the stack is not
empty after `fuel` turns. -/
def collect (children : α → List α) : ℕ → Finset α → List α → Option (Finset α)
  | _, out, [] => some out
  | 0, _, _ :: _ => none
  | fuel + 1, out, c :: stack =>
      collect children fuel (insert c out) ((children c).reverse ++ stack)

/-- Children of a forest: no node is a child twice, and none of itself. -/
structure Forestlike (children : α → List α) (rank : α → ℕ) : Prop where
  nodup : ∀ a, (children a).Nodup
  parent_eq : ∀ a b x, x ∈ children a → x ∈ children b → a = b
  rank_lt : ∀ a, ∀ x ∈ children a, rank a < rank x

/-- The invariant of `collect`. -/
structure Collecting (children : α → List α) (first : α) (out : Finset α) (stack : List α) :
    Prop where
  nodup : stack.Nodup
  disjoint : ∀ x ∈ stack, x ∉ out
  descends : ∀ x, x ∈ out ∨ x ∈ stack → Reaches children first x
  expanded : ∀ x ∈ out, ∀ y ∈ children x, y ∈ out ∨ y ∈ stack
  parent_out : ∀ x, x ∈ out ∨ x ∈ stack → x = first ∨ ∃ p ∈ out, x ∈ children p

section Collect

variable {children : α → List α} {rank : α → ℕ} (hforest : Forestlike children rank)
include hforest

omit [DecidableEq α] in
theorem Forestlike.rank_le {a b : α} (h : Reaches children a b) : rank a ≤ rank b := by
  induction h with
  | refl => exact le_rfl
  | tail _ hstep ih => exact ih.trans (hforest.rank_lt _ _ hstep).le

omit [DecidableEq α] in
/-- What a popped node has for children was not met before. -/
theorem Collecting.new {first c : α} {out : Finset α} {stack : List α}
    (h : Collecting children first out (c :: stack)) {y : α} (hy : y ∈ children c) :
    ¬ (y ∈ out ∨ y ∈ c :: stack) := by
  intro hmet
  have hc : c ∈ c :: stack := List.mem_cons_self
  rcases h.parent_out y hmet with rfl | ⟨p, hp, hyp⟩
  · -- the node that all descend from would descend from its own child
    have hle := hforest.rank_le (h.descends c (Or.inr hc))
    exact absurd (hforest.rank_lt c _ hy) (not_lt.mpr hle)
  · rw [hforest.parent_eq p c y hyp hy] at hp
    exact h.disjoint c hc hp

theorem Collecting.step {first c : α} {out : Finset α} {stack : List α}
    (h : Collecting children first out (c :: stack)) :
    Collecting children first (insert c out) ((children c).reverse ++ stack) := by
  have hnew : ∀ y ∈ children c, ¬ (y ∈ out ∨ y ∈ c :: stack) := fun y hy => h.new hforest hy
  obtain ⟨hcs, hstack⟩ := List.nodup_cons.mp h.nodup
  have hmem : ∀ x, x ∈ insert c out ∨ x ∈ (children c).reverse ++ stack ↔
      (x ∈ out ∨ x ∈ c :: stack) ∨ x ∈ children c := fun x => by
    rw [Finset.mem_insert, List.mem_append, List.mem_reverse, List.mem_cons]
    tauto
  exact {
    nodup := by
      refine List.nodup_append.mpr ⟨List.nodup_reverse.mpr (hforest.nodup c), hstack, ?_⟩
      rintro a ha b hb rfl
      exact hnew a (List.mem_reverse.mp ha) (Or.inr (List.mem_cons_of_mem c hb))
    disjoint := fun x hx hout => by
      rcases List.mem_append.mp hx with hchild | hold
      · have hx' := hnew x (List.mem_reverse.mp hchild)
        rcases Finset.mem_insert.mp hout with rfl | hout
        · exact hx' (Or.inr List.mem_cons_self)
        · exact hx' (Or.inl hout)
      · rcases Finset.mem_insert.mp hout with rfl | hout
        · exact hcs hold
        · exact h.disjoint x (List.mem_cons_of_mem c hold) hout
    descends := fun x hx => by
      rcases (hmem x).mp hx with hx | hx
      · exact h.descends x hx
      · exact (h.descends c (Or.inr List.mem_cons_self)).tail hx
    expanded := fun x hx y hy => by
      rw [hmem]
      rcases Finset.mem_insert.mp hx with rfl | hx
      · exact Or.inr hy
      · exact Or.inl (h.expanded x hx y hy)
    parent_out := fun x hx => by
      rcases (hmem x).mp hx with hx | hx
      · refine (h.parent_out x hx).imp id ?_
        rintro ⟨p, hp, hxp⟩
        exact ⟨p, Finset.mem_insert_of_mem hp, hxp⟩
      · exact Or.inr ⟨c, Finset.mem_insert_self c out, hx⟩ }

/-- **The descendants are collected.** Fuel for every node that can still be
taken off the stack is enough. -/
theorem collect_eq (U : Finset α) {first : α} (hU : ∀ x, Reaches children first x → x ∈ U)
    (fuel : ℕ) (out : Finset α) (stack : List α) (h : Collecting children first out stack)
    (hfirst : first ∈ out ∨ first ∈ stack) (hfuel : (U \ out).card ≤ fuel) :
    ∃ all, collect children fuel out stack = some all ∧
      ∀ x, x ∈ all ↔ Reaches children first x := by
  have finished (out : Finset α) (h : Collecting children first out [])
      (hfirst : first ∈ out ∨ first ∈ ([] : List α)) :
      ∀ x, x ∈ out ↔ Reaches children first x := by
    intro x
    refine ⟨fun hx => h.descends x (Or.inl hx), fun hx => ?_⟩
    refine hx.mem_of_closed (fun a ha b hb => ?_) (hfirst.resolve_right List.not_mem_nil)
    exact (h.expanded a ha b hb).resolve_right List.not_mem_nil
  induction fuel generalizing out stack with
  | zero =>
      cases stack with
      | nil => exact ⟨out, rfl, finished out h hfirst⟩
      | cons c stack =>
          -- the universe is used up, and `c` would be a new node of it
          have hc : c ∈ U \ out := Finset.mem_sdiff.mpr
            ⟨hU c (h.descends c (Or.inr List.mem_cons_self)), h.disjoint c List.mem_cons_self⟩
          have hpos := Finset.card_pos.mpr ⟨c, hc⟩
          omega
  | succ fuel ih =>
      cases stack with
      | nil => exact ⟨out, rfl, finished out h hfirst⟩
      | cons c stack =>
          have hc : c ∈ U \ out := Finset.mem_sdiff.mpr
            ⟨hU c (h.descends c (Or.inr List.mem_cons_self)), h.disjoint c List.mem_cons_self⟩
          have hcard : (U \ insert c out).card + 1 = (U \ out).card := by
            rw [Finset.sdiff_insert]
            exact Finset.card_erase_add_one hc
          refine ih (insert c out) _ (h.step hforest) ?_ (by omega)
          rw [Finset.mem_insert, List.mem_append]
          rcases hfirst with hfirst | hfirst
          · exact Or.inl (Or.inr hfirst)
          · exact (List.mem_cons.mp hfirst).imp Or.inl Or.inr

theorem collect_start (U : Finset α) {first : α} (hU : ∀ x, Reaches children first x → x ∈ U)
    (fuel : ℕ) (hfuel : U.card ≤ fuel) :
    ∃ all, collect children fuel ∅ [first] = some all ∧
      ∀ x, x ∈ all ↔ Reaches children first x := by
  have hstart : Collecting children first ∅ [first] := {
    nodup := List.nodup_singleton first
    disjoint := fun x _ => Finset.notMem_empty x
    descends := fun x hx => by
      rw [List.mem_singleton.mp (hx.resolve_left (Finset.notMem_empty x))]
      exact .refl
    expanded := fun x hx => absurd hx (Finset.notMem_empty x)
    parent_out := fun x hx =>
      Or.inl (List.mem_singleton.mp (hx.resolve_left (Finset.notMem_empty x))) }
  refine collect_eq hforest U hU fuel ∅ [first] hstart (Or.inr (List.mem_singleton_self first)) ?_
  rwa [Finset.sdiff_empty]

end Collect

end Search

end SpanningTree
