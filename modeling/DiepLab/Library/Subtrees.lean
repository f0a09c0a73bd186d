import DiepLab.Library.Ancestors
import Mathlib.Algebra.BigOperators.Group.Finset.Basic
import Mathlib.Algebra.BigOperators.Group.List.Basic

/-!
Sums over the subtrees of a spanning tree.

The nodes behind a node are the node and, apart from one another, those behind its children
(`behind_eq`), so a sum over them is the node's share and the sums of the children
(`sum_behind`). What the children have and a node gets from them holds of all nodes
(`children_induction`).
-/

namespace SpanningTree

variable {α β : Type} [DecidableEq α]

open Classical in
/-- The nodes that descend from `n`, itself included. -/
noncomputable def behind (order : List α) (found : List (Found α β)) (n : α) : Finset α :=
  order.toFinset.filter fun k => Descends found n k

/-- The discoveries that were made from `n`. -/
def foundFrom (found : List (Found α β)) (n : α) : List (Found α β) :=
  found.filter fun f => f.parent = n

theorem mem_foundFrom {found : List (Found α β)} {n : α} {f : Found α β} :
    f ∈ foundFrom found n ↔ f ∈ found ∧ f.parent = n := by
  rw [foundFrom, List.mem_filter, decide_eq_true_eq]

namespace Tree

variable {adj : α → List (α × β)} {root : α} {order : List α} {found : List (Found α β)}
  (h : Tree adj root order found)
include h

theorem mem_behind {n k : α} (hn : n ∈ order) : k ∈ behind order found n ↔ Descends found n k := by
  classical
  rw [behind, Finset.mem_filter, List.mem_toFinset]
  exact ⟨And.right, fun hd => ⟨h.mem_of_descends hd hn, hd⟩⟩

/-- A set with the members of `behind` is it. -/
theorem eq_behind {n : α} (hn : n ∈ order) {below : Finset α}
    (hbelow : ∀ k, k ∈ below ↔ Descends found n k) : below = behind order found n :=
  Finset.ext fun k => (hbelow k).trans (h.mem_behind hn).symm

theorem behind_root : behind order found root = order.toFinset := by
  ext k
  rw [h.mem_behind h.root_mem, List.mem_toFinset]
  exact ⟨fun hd => h.mem_of_descends hd h.root_mem, h.root_descends⟩

/-- A child does not have its parent behind it. -/
theorem not_descends_parent {f : Found α β} (hf : f ∈ found) : ¬ Descends found f.node f.parent :=
  fun hd => h.parent_ne_node hf
    (h.descends_antisymm (.single ⟨f, hf, rfl, rfl⟩) hd)

/-- Nothing is behind two children of one node. -/
theorem child_eq {f g : Found α β} (hf : f ∈ found) (hg : g ∈ found) (hp : f.parent = g.parent)
    {k : α} (hfk : Descends found f.node k) (hgk : Descends found g.node k) : f = g := by
  have hbelow {f g : Found α β} (hf : f ∈ found) (hg : g ∈ found) (hp : f.parent = g.parent)
      (hd : Descends found f.node g.node) : f = g := by
    rcases (h.eq_or_descends_parent hg).mp hd with heq | hd
    · exact h.found_eq hf hg heq
    · exact absurd (hp ▸ hd) (h.not_descends_parent hf)
  rcases h.descends_total hfk hgk with hd | hd
  · exact hbelow hf hg hp hd
  · exact (hbelow hg hf hp.symm hd).symm

omit h in
/-- What is behind a node is the node, or behind one of its children. -/
theorem descends_iff {n k : α} :
    Descends found n k ↔ k = n ∨ ∃ f ∈ foundFrom found n, Descends found f.node k := by
  constructor
  · intro hd
    rcases hd.cases_head with heq | ⟨c, ⟨f, hf, hp, rfl⟩, hd⟩
    · exact Or.inl heq.symm
    · exact Or.inr ⟨f, mem_foundFrom.mpr ⟨hf, hp⟩, hd⟩
  · rintro (rfl | ⟨f, hf, hd⟩)
    · exact .refl
    · obtain ⟨hf, hp⟩ := mem_foundFrom.mp hf
      exact .head ⟨f, hf, hp, rfl⟩ hd

theorem sum_behind {M : Type} [AddCommMonoid M] (g : α → M) {n : α} (hn : n ∈ order) :
    ∑ k ∈ behind order found n, g k =
      g n + ((foundFrom found n).map fun f => ∑ k ∈ behind order found f.node, g k).sum := by
  have hnodup : ((foundFrom found n).map Found.node).Nodup :=
    ((List.nodup_cons.mp h.fresh).2).sublist (List.filter_sublist.map Found.node)
  have hchild {c : α} (hc : c ∈ ((foundFrom found n).map Found.node).toFinset) :
      ∃ f ∈ found, f.parent = n ∧ f.node = c := by
    obtain ⟨f, hf, rfl⟩ := List.mem_map.mp (List.mem_toFinset.mp hc)
    obtain ⟨hf, hp⟩ := mem_foundFrom.mp hf
    exact ⟨f, hf, hp, rfl⟩
  have hsplit : behind order found n = insert n
      (((foundFrom found n).map Found.node).toFinset.biUnion (behind order found)) := by
    ext k
    rw [h.mem_behind hn, descends_iff, Finset.mem_insert, Finset.mem_biUnion]
    refine or_congr Iff.rfl ⟨?_, ?_⟩
    · rintro ⟨f, hf, hd⟩
      exact ⟨f.node, List.mem_toFinset.mpr (List.mem_map_of_mem hf),
        (h.mem_behind (h.node_mem (mem_foundFrom.mp hf).1)).mpr hd⟩
    · rintro ⟨c, hc, hk⟩
      obtain ⟨f, hf, hp, rfl⟩ := hchild hc
      exact ⟨f, mem_foundFrom.mpr ⟨hf, hp⟩, (h.mem_behind (h.node_mem hf)).mp hk⟩
  have hfirst : n ∉ ((foundFrom found n).map Found.node).toFinset.biUnion
      (behind order found) := by
    intro hmem
    obtain ⟨c, hc, hk⟩ := Finset.mem_biUnion.mp hmem
    obtain ⟨f, hf, rfl, rfl⟩ := hchild hc
    exact h.not_descends_parent hf ((h.mem_behind (h.node_mem hf)).mp hk)
  have hapart : Set.PairwiseDisjoint
      (((foundFrom found n).map Found.node).toFinset : Set α) (behind order found) := by
    intro a ha b hb hab
    obtain ⟨f, hf, hfp, rfl⟩ := hchild ha
    obtain ⟨g, hg, hgp, rfl⟩ := hchild hb
    refine Finset.disjoint_left.mpr fun k hfk hgk => hab ?_
    rw [h.child_eq hf hg (hfp.trans hgp.symm) ((h.mem_behind (h.node_mem hf)).mp hfk)
      ((h.mem_behind (h.node_mem hg)).mp hgk)]
  rw [hsplit, Finset.sum_insert hfirst, Finset.sum_biUnion hapart, List.sum_toFinset _ hnodup,
    List.map_map]
  rfl

/-- What a node gets from its children holds of all nodes. -/
theorem children_induction {P : α → Prop}
    (step : ∀ n ∈ order, (∀ f ∈ found, f.parent = n → P f.node) → P n) : ∀ n ∈ order, P n := by
  have hrank (d : ℕ) : ∀ n ∈ order, order.length - order.idxOf n ≤ d → P n := by
    induction d with
    | zero =>
        intro n hn hle
        have := List.idxOf_lt_length_iff.mpr hn
        omega
    | succ d ih =>
        intro n hn hle
        refine step n hn fun f hf hp => ih f.node (h.node_mem hf) ?_
        have := h.ordered f hf
        rw [hp] at this
        omega
  exact fun n hn => hrank _ n hn le_rfl

end Tree

end SpanningTree
