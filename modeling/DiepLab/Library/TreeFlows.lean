import DiepLab.Library.Subtrees
import Mathlib.Algebra.BigOperators.Ring.Finset
import Mathlib.Analysis.Normed.Group.Basic
import Mathlib.Tactic.Abel

/-!
Flows over the branches of a spanning tree.

Where the flow over every branch is what its node draws and what flows on from there, no power is
lost but over the branches: the differences of any potential along the branches, weighed with the
flows, sum to what the root gives less what the nodes draw (`tellegen`). A potential that a branch
either carries on, less its fall, or starts anew is nowhere larger than the falls on the way
(`norm_le_along`).
-/

namespace SpanningTree

theorem norm_le_along {α β E : Type} [SeminormedAddCommGroup E] {root : α}
    {found : List (Found α β)} {u : α → E} {fall : Found α β → E} (hroot : u root = 0)
    (hstep : ∀ f ∈ found, u f.node = u f.parent - fall f ∨ u f.node = 0) {n : α}
    {path : List (Found α β)} (hp : PathTo root found n path) :
    ‖u n‖ ≤ (path.map fun f => ‖fall f‖).sum := by
  induction hp with
  | root => rw [hroot, norm_zero, List.map_nil, List.sum_nil]
  | @step f path hf _ ih =>
      rw [List.map_append, List.sum_append, List.map_singleton, List.sum_singleton]
      rcases hstep f hf with hfall | hzero
      · rw [hfall]
        exact (norm_sub_le _ _).trans (add_le_add ih le_rfl)
      · rw [hzero, norm_zero]
        exact add_nonneg ((norm_nonneg _).trans ih) (norm_nonneg _)

namespace Tree

variable {α β : Type} [DecidableEq α] {adj : α → List (α × β)} {root : α} {order : List α}
  {found : List (Found α β)} (h : Tree adj root order found)
include h

/-- A sum over the branches goes through the nodes that they leave. -/
theorem sum_map_eq_sum_foundFrom {M : Type} [AddCommMonoid M] (g : Found α β → M) :
    (found.map g).sum = ∑ n ∈ order.toFinset, ((foundFrom found n).map g).sum := by
  have hparts (l : List (Found α β)) (hl : ∀ f ∈ l, f.parent ∈ order.toFinset) :
      (l.map g).sum = ∑ n ∈ order.toFinset, ((foundFrom l n).map g).sum := by
    induction l with
    | nil => simp [foundFrom]
    | cons f l ih =>
        rw [List.forall_mem_cons] at hl
        have hcons (n : α) : ((foundFrom (f :: l) n).map g).sum =
            (if f.parent = n then g f else 0) + ((foundFrom l n).map g).sum := by
          by_cases hn : f.parent = n <;> simp [foundFrom, hn]
        simp only [hcons, Finset.sum_add_distrib, Finset.sum_ite_eq, if_pos hl.1]
        rw [List.map_cons, List.sum_cons, ih hl.2]
  exact hparts found fun f hf => List.mem_toFinset.mpr (h.parent_mem hf)

/-- Every node but the root is the end of one branch. -/
theorem sum_map_node {M : Type} [AddCommMonoid M] (g : α → M) :
    (found.map fun f => g f.node).sum = ∑ n ∈ order.toFinset.erase root, g n := by
  obtain ⟨hroot, hnodup⟩ := List.nodup_cons.mp h.fresh
  have hends : order.toFinset.erase root = (found.map Found.node).toFinset := by
    ext n
    rw [Finset.mem_erase, List.mem_toFinset, List.mem_toFinset, h.mem_iff]
    constructor
    · rintro ⟨hne, hn⟩
      exact hn.resolve_left hne
    · intro hn
      exact ⟨fun heq => hroot (heq ▸ hn), Or.inr hn⟩
  rw [hends, List.sum_toFinset _ hnodup, List.map_map]
  rfl

variable {K : Type} [CommRing K]

theorem tellegen (u : α → K) {j : Found α β → K} {draw : α → K}
    (hbalance : ∀ f ∈ found, j f = draw f.node + ((foundFrom found f.node).map j).sum) :
    (found.map fun f => (u f.parent - u f.node) * j f).sum =
      u root * ((foundFrom found root).map j).sum -
        ∑ n ∈ order.toFinset.erase root, u n * draw n := by
  have hparents : (found.map fun f => u f.parent * j f).sum =
      ∑ n ∈ order.toFinset, u n * ((foundFrom found n).map j).sum := by
    rw [h.sum_map_eq_sum_foundFrom]
    refine Finset.sum_congr rfl fun n _ => ?_
    rw [← List.sum_map_mul_left]
    refine congrArg List.sum (List.map_congr_left fun f hf => ?_)
    rw [(mem_foundFrom.mp hf).2]
  have hnodes : (found.map fun f => u f.node * j f).sum =
      ∑ n ∈ order.toFinset.erase root, u n * (draw n + ((foundFrom found n).map j).sum) := by
    rw [← h.sum_map_node]
    refine congrArg List.sum (List.map_congr_left fun f hf => ?_)
    rw [← hbalance f hf]
  have hsplit : (found.map fun f => (u f.parent - u f.node) * j f).sum =
      (found.map fun f => u f.parent * j f).sum - (found.map fun f => u f.node * j f).sum := by
    rw [eq_sub_iff_add_eq, ← List.sum_map_add]
    exact congrArg List.sum (List.map_congr_left fun f _ => by rw [sub_mul, sub_add_cancel])
  rw [hsplit, hparents, hnodes,
    ← Finset.add_sum_erase _ _ (List.mem_toFinset.mpr h.root_mem)]
  simp only [mul_add, Finset.sum_add_distrib]
  abel

end Tree

end SpanningTree
