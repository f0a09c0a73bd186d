import Mathlib.Data.Finset.Card
import Mathlib.Data.Finset.SDiff
import Mathlib.Data.Finset.Union
import Mathlib.Data.Finset.Dedup
import Mathlib.Logic.Relation

/-!
Stack-driven graph search.

The loop pops a node, marks its unseen successors and pushes them, until
the stack is empty. `search` is that loop with an explicit amount of fuel.
The invariant is `Frontier`: everything on the stack is already marked, and
a marked node that is no longer on the stack has all its successors marked.
One turn of the loop keeps the invariant, keeps what is reachable from the
marked nodes, and pays for the popped entry out of "stack entries left plus
nodes not yet marked"; hence `mem_search`: with that much fuel the result is
exactly the set of nodes reachable from the initially marked ones.

`walk` is the same loop with the marks kept in the order in which they are
made; its result lists the nodes of `search` (`toFinset_walk`).
-/

namespace Worklist

variable {α : Type} [DecidableEq α]

/-- Mark one node and push it, unless it is already marked. -/
def visit (state : Finset α × List α) (n : α) : Finset α × List α :=
  if n ∈ state.1 then state else (insert n state.1, n :: state.2)

/-- Pop, mark and push the unseen successors, repeat. The head of the list is
the top of the stack. -/
def search (succ : α → List α) : ℕ → Finset α → List α → Finset α
  | 0, seen, _ => seen
  | _ + 1, seen, [] => seen
  | fuel + 1, seen, c :: stack =>
      let next := (succ c).foldl visit (seen, stack)
      search succ fuel next.1 next.2

/-- `b` is reachable from `a` through successors. -/
def Reaches (succ : α → List α) : α → α → Prop :=
  Relation.ReflTransGen fun a b => b ∈ succ a

@[simp] theorem foldl_visit_fst (l : List α) (seen : Finset α) (stack : List α) :
    (l.foldl visit (seen, stack)).1 = seen ∪ l.toFinset := by
  induction l generalizing seen stack with
  | nil => simp
  | cons n l ih =>
      by_cases hn : n ∈ seen
      · simp [visit, hn, ih]
      · simp [visit, hn, ih, Finset.insert_union]

theorem mem_foldl_visit_snd (l : List α) (seen : Finset α) (stack : List α) (x : α) :
    x ∈ (l.foldl visit (seen, stack)).2 ↔ x ∈ stack ∨ (x ∈ l ∧ x ∉ seen) := by
  induction l generalizing seen stack with
  | nil => simp
  | cons n l ih =>
      by_cases hn : n ∈ seen
      · simp only [List.foldl_cons, visit, hn, if_true, ih, List.mem_cons]
        constructor
        · rintro (h | ⟨h, hs⟩)
          · exact Or.inl h
          · exact Or.inr ⟨Or.inr h, hs⟩
        · rintro (h | ⟨rfl | h, hs⟩)
          · exact Or.inl h
          · exact absurd hn hs
          · exact Or.inr ⟨h, hs⟩
      · simp only [List.foldl_cons, visit, hn, if_false, ih, List.mem_cons,
          Finset.mem_insert, not_or]
        constructor
        · rintro ((rfl | h) | ⟨h, -, hs⟩)
          · exact Or.inr ⟨Or.inl rfl, hn⟩
          · exact Or.inl h
          · exact Or.inr ⟨Or.inr h, hs⟩
        · rintro (h | ⟨rfl | h, hs⟩)
          · exact Or.inl (Or.inr h)
          · exact Or.inl (Or.inl rfl)
          · by_cases hx : x = n
            · exact Or.inl (Or.inl hx)
            · exact Or.inr ⟨h, hx, hs⟩

/-- Every push is paid for by a node of the universe that becomes marked. -/
theorem foldl_visit_potential (U : Finset α) (l : List α) (hl : ∀ x ∈ l, x ∈ U)
    (seen : Finset α) (stack : List α) :
    (l.foldl visit (seen, stack)).2.length + (U \ (l.foldl visit (seen, stack)).1).card =
      stack.length + (U \ seen).card := by
  induction l generalizing seen stack with
  | nil => rfl
  | cons n l ih =>
      have hl' : ∀ x ∈ l, x ∈ U := fun x hx => hl x (List.mem_cons_of_mem n hx)
      by_cases hn : n ∈ seen
      · simpa only [List.foldl_cons, visit, hn, if_true] using ih hl' seen stack
      · have hmem : n ∈ U \ seen :=
          Finset.mem_sdiff.mpr ⟨hl n List.mem_cons_self, hn⟩
        have hcard : (U \ insert n seen).card + 1 = (U \ seen).card := by
          rw [Finset.sdiff_insert]
          exact Finset.card_erase_add_one hmem
        have := ih hl' (insert n seen) (n :: stack)
        simp only [List.foldl_cons, visit, hn, if_false]
        rw [this, List.length_cons]
        omega

/-- The loop invariant. -/
structure Frontier (succ : α → List α) (seen : Finset α) (stack : List α) : Prop where
  /-- What waits on the stack is marked. -/
  stack_seen : ∀ a ∈ stack, a ∈ seen
  /-- What is marked and no longer waits has been expanded. -/
  expanded : ∀ a ∈ seen, a ∉ stack → ∀ b ∈ succ a, b ∈ seen

omit [DecidableEq α] in
/-- Before the first turn everything marked is on the stack. -/
theorem Frontier.start (succ : α → List α) (seen : Finset α) (stack : List α)
    (h : ∀ a, a ∈ stack ↔ a ∈ seen) : Frontier succ seen stack where
  stack_seen a ha := (h a).mp ha
  expanded a ha hns := absurd ((h a).mpr ha) hns

theorem Frontier.step {succ : α → List α} {seen : Finset α} {c : α} {stack : List α}
    (h : Frontier succ seen (c :: stack)) :
    Frontier succ ((succ c).foldl visit (seen, stack)).1
      ((succ c).foldl visit (seen, stack)).2 where
  stack_seen a ha := by
    rw [foldl_visit_fst, Finset.mem_union, List.mem_toFinset]
    rcases (mem_foldl_visit_snd ..).mp ha with ha | ⟨ha, -⟩
    · exact Or.inl (h.stack_seen a (List.mem_cons_of_mem c ha))
    · exact Or.inr ha
  expanded a ha hns b hb := by
    rw [mem_foldl_visit_snd, not_or] at hns
    rw [foldl_visit_fst, Finset.mem_union, List.mem_toFinset] at ha ⊢
    by_cases hseen : a ∈ seen
    · by_cases hac : a = c
      · exact Or.inr (hac ▸ hb)
      · refine Or.inl (h.expanded a hseen ?_ b hb)
        exact fun hmem => (List.mem_cons.mp hmem).elim hac hns.1
    · rcases ha with ha | ha
      · exact absurd ha hseen
      · exact absurd ⟨ha, hseen⟩ hns.2

omit [DecidableEq α] in
/-- A set closed under successors contains what is reachable from it. -/
theorem Reaches.mem_of_closed {succ : α → List α} {seen : Finset α}
    (hclosed : ∀ a ∈ seen, ∀ b ∈ succ a, b ∈ seen) {a x : α} (ha : a ∈ seen)
    (h : Reaches succ a x) : x ∈ seen := by
  induction h with
  | refl => exact ha
  | tail _ hbc ih => exact hclosed _ ih _ hbc

/-- **The search is exact.** With fuel for every stack entry and every
unmarked node of a universe that contains all successors, the result is the
set of nodes reachable from the initially marked ones. -/
theorem mem_search (succ : α → List α) (U : Finset α) (hU : ∀ a, ∀ b ∈ succ a, b ∈ U)
    (fuel : ℕ) (seen : Finset α) (stack : List α) (hinv : Frontier succ seen stack)
    (hfuel : stack.length + (U \ seen).card ≤ fuel) (x : α) :
    x ∈ search succ fuel seen stack ↔ ∃ a ∈ seen, Reaches succ a x := by
  have finished (s : Finset α) (hs : Frontier succ s []) :
      x ∈ s ↔ ∃ a ∈ s, Reaches succ a x := by
    constructor
    · exact fun hx => ⟨x, hx, .refl⟩
    · rintro ⟨a, ha, hax⟩
      exact hax.mem_of_closed (fun a ha => hs.expanded a ha List.not_mem_nil) ha
  induction fuel generalizing seen stack with
  | zero =>
      have hnil : stack = [] := List.eq_nil_of_length_eq_zero (by omega)
      subst hnil
      exact finished seen hinv
  | succ fuel ih =>
      cases stack with
      | nil => exact finished seen hinv
      | cons c stack =>
          have hpot := foldl_visit_potential U (succ c) (hU c) seen stack
          rw [List.length_cons] at hfuel
          rw [search]
          refine (ih _ _ hinv.step (by omega)).trans ?_
          simp only [foldl_visit_fst, Finset.mem_union, List.mem_toFinset]
          constructor
          · rintro ⟨a, ha | ha, hax⟩
            · exact ⟨a, ha, hax⟩
            · exact ⟨c, hinv.stack_seen c List.mem_cons_self, .head ha hax⟩
          · rintro ⟨a, ha, hax⟩
            exact ⟨a, Or.inl ha, hax⟩

/-! ### The order of the marks -/

/-- Mark one node behind the others and push it, unless it is already marked. -/
def visitNext (state : List α × List α) (n : α) : List α × List α :=
  if n ∈ state.1 then state else (state.1 ++ [n], n :: state.2)

/-- The search with the marks in order. -/
def walk (succ : α → List α) : ℕ → List α → List α → List α
  | 0, order, _ => order
  | _ + 1, order, [] => order
  | fuel + 1, order, c :: stack =>
      let next := (succ c).foldl visitNext (order, stack)
      walk succ fuel next.1 next.2

theorem foldl_visitNext (l order stack : List α) :
    ((l.foldl visitNext (order, stack)).1.toFinset, (l.foldl visitNext (order, stack)).2) =
      l.foldl visit (order.toFinset, stack) := by
  induction l generalizing order stack with
  | nil => rfl
  | cons n l ih =>
      rw [List.foldl_cons, List.foldl_cons]
      by_cases hn : n ∈ order
      · have hn' : n ∈ order.toFinset := List.mem_toFinset.mpr hn
        rw [visitNext, visit, if_pos hn, if_pos hn']
        exact ih order stack
      · have hn' : n ∉ order.toFinset := fun h => hn (List.mem_toFinset.mp h)
        rw [visitNext, visit, if_neg hn, if_neg hn', ih (order ++ [n]) (n :: stack)]
        refine congrArg (fun s => l.foldl visit (s, n :: stack)) ?_
        ext x
        simp

theorem toFinset_walk (succ : α → List α) (fuel : ℕ) (order stack : List α) :
    (walk succ fuel order stack).toFinset = search succ fuel order.toFinset stack := by
  induction fuel generalizing order stack with
  | zero => rfl
  | succ fuel ih =>
      cases stack with
      | nil => rfl
      | cons c stack =>
          rw [walk, search, ih, ← foldl_visitNext]

theorem mem_walk {succ : α → List α} {fuel : ℕ} {order stack : List α} {x : α} :
    x ∈ walk succ fuel order stack ↔ x ∈ search succ fuel order.toFinset stack := by
  rw [← toFinset_walk, List.mem_toFinset]

end Worklist
