import Mathlib.Algebra.Order.BigOperators.Ring.Finset
import Mathlib.Algebra.Order.Field.Basic
import Mathlib.Data.Matrix.Mul
import Mathlib.Tactic.FieldSimp
import Mathlib.Tactic.Linarith
import Mathlib.Tactic.Ring

/-!
Gauss-Jordan elimination.

An augmented matrix is a square matrix with columns of right-hand sides. A turn
of the elimination swaps a row to the place of its column and clears the column
in all other rows; `Stage` is what holds when the first columns have been
cleared. At the last stage the solution can be read off (`Stage.solves_iff`).

How small a pivot can get is decided by the matrix: where every vector comes out
of it at least `μ` times as long, in squares, the entries among which the pivot
is chosen have `μ` as their sum of squares at least (`Stage.bound_le`).
-/

namespace Elimination

open Matrix

variable {K : Type} {n : ℕ} {ι : Type}

/-- A square matrix with columns of right-hand sides. -/
abbrev Augmented (K : Type) (n : ℕ) (ι : Type) := Fin n → (Fin n ⊕ ι) → K

def augment (a : Fin n → Fin n → K) (b : Fin n → ι → K) : Augmented K n ι :=
  fun r => Sum.elim (a r) (b r)

/-- A row of the square matrix. -/
def lhs (M : Augmented K n ι) (r : Fin n) : Fin n → K := fun c => M r (.inl c)

/-- The rows `i` and `j` change places. -/
def swapRows (i j : Fin n) (M : Augmented K n ι) : Augmented K n ι := fun r => M (Equiv.swap i j r)

/-- A loop over the rows that changes every row but one by what it has in it. -/
theorem foldl_rows {ρ : Type} (col : Fin n) (change : ρ → ρ → ρ) (m : Fin n → ρ) :
    (List.finRange n).foldl
        (fun m r => if r = col then m else Function.update m r (change (m r) (m col))) m =
      fun r => if r = col then m col else change (m r) (m col) := by
  have hpart (rows : List (Fin n)) (hnodup : rows.Nodup) (m : Fin n → ρ) (r : Fin n) :
      rows.foldl
          (fun m r => if r = col then m else Function.update m r (change (m r) (m col))) m r =
        if r ≠ col ∧ r ∈ rows then change (m r) (m col) else m r := by
    induction rows generalizing m with
    | nil => simp
    | cons first rows ih =>
        obtain ⟨hfirst, hrows⟩ := List.nodup_cons.mp hnodup
        rw [List.foldl_cons, ih hrows]
        by_cases hcol : first = col
        · subst hcol
          by_cases hr : r = first
          · simp [hr]
          · simp [hr]
        · by_cases hr : r = first
          · subst hr
            simp [hcol, hfirst]
          · simp [hcol, hr, Function.update_of_ne (Ne.symm hcol)]
  funext r
  rw [hpart _ (List.nodup_finRange n)]
  by_cases hr : r = col
  · simp [hr]
  · simp [hr]

section Field

variable [Field K]

/-- The row `col` times `s`; the column `col` is cleared in the other rows. -/
def clearColumn (s : K) (col : Fin n) (M : Augmented K n ι) : Augmented K n ι := fun r =>
  if r = col then s • M col else M r - (M r (.inl col) / M col (.inl col)) • M col

/-- The columns of `X` solve the system with the right-hand sides. -/
def Solves (M : Augmented K n ι) (X : Fin n → ι → K) : Prop :=
  ∀ r i, lhs M r ⬝ᵥ (fun c => X c i) = M r (.inr i)

/-- The first `k` columns of `M₀` have been cleared. -/
structure Stage (M₀ M : Augmented K n ι) (k : ℕ) : Prop where
  solves : ∀ X, Solves M X ↔ Solves M₀ X
  cleared : ∀ c : Fin n, c.val < k → ∀ r, r ≠ c → M r (.inl c) = 0
  pivot : ∀ c : Fin n, c.val < k → M c (.inl c) ≠ 0
  /-- Where the first rows vanish, a vector is as long as ever. -/
  norm : ∀ x, (∀ r : Fin n, r.val < k → lhs M r ⬝ᵥ x = 0) →
    ∑ r, (lhs M r ⬝ᵥ x) ^ 2 = ∑ r, (lhs M₀ r ⬝ᵥ x) ^ 2

theorem Stage.start (M : Augmented K n ι) : Stage M M 0 where
  solves _ := Iff.rfl
  cleared _ h := absurd h (Nat.not_lt_zero _)
  pivot _ h := absurd h (Nat.not_lt_zero _)
  norm _ _ := rfl

variable {M₀ M : Augmented K n ι} {k : ℕ}

/-- Rows below are exchanged. -/
theorem Stage.swap (h : Stage M₀ M k) {i j : Fin n} (hi : k ≤ i.val) (hj : k ≤ j.val) :
    Stage M₀ (swapRows i j M) k := by
  have hfix (c : Fin n) (hc : c.val < k) : Equiv.swap i j c = c :=
    Equiv.swap_apply_of_ne_of_ne (by rintro rfl; omega) (by rintro rfl; omega)
  refine ⟨fun X => ?_, fun c hc r hr => ?_, fun c hc => ?_, fun x hx => ?_⟩
  · rw [← h.solves X]
    exact (Equiv.swap i j).forall_congr_right (q := fun r =>
      ∀ i, lhs M r ⬝ᵥ (fun c => X c i) = M r (.inr i))
  · refine h.cleared c hc _ fun heq => hr ?_
    rw [← hfix c hc] at heq
    exact (Equiv.swap i j).injective heq
  · have hrow : swapRows i j M c = M c := congrArg M (hfix c hc)
    rw [hrow]
    exact h.pivot c hc
  · rw [← h.norm x fun r hr => ?_]
    · exact Equiv.sum_comp (Equiv.swap i j) fun r => (lhs M r ⬝ᵥ x) ^ 2
    · have hrow : swapRows i j M r = M r := congrArg M (hfix r hr)
      have := hx r hr
      unfold lhs at this ⊢
      rwa [hrow] at this

theorem lhs_clearColumn (s : K) (col r : Fin n) (x : Fin n → K) :
    lhs (clearColumn s col M) r ⬝ᵥ x =
      if r = col then s * (lhs M col ⬝ᵥ x)
      else lhs M r ⬝ᵥ x - M r (.inl col) / M col (.inl col) * (lhs M col ⬝ᵥ x) := by
  by_cases hr : r = col
  · have hrow : lhs (clearColumn s col M) r = s • lhs M col := by
      funext c
      simp [lhs, clearColumn, hr]
    rw [hrow, smul_dotProduct, if_pos hr, smul_eq_mul]
  · have hrow : lhs (clearColumn s col M) r =
        lhs M r - (M r (.inl col) / M col (.inl col)) • lhs M col := by
      funext c
      simp [lhs, clearColumn, hr]
    rw [hrow, sub_dotProduct, smul_dotProduct, if_neg hr, smul_eq_mul]

/-- One more column is cleared. -/
theorem Stage.clear (h : Stage M₀ M k) {col : Fin n} (hcol : col.val = k)
    (hpivot : M col (.inl col) ≠ 0) {s : K} (hs : s ≠ 0) :
    Stage M₀ (clearColumn s col M) (k + 1) := by
  refine ⟨fun X => ?_, fun c hc r hr => ?_, fun c hc => ?_, fun x hx => ?_⟩
  · rw [← h.solves X]
    have hright (r : Fin n) (i : ι) : clearColumn s col M r (.inr i) =
        if r = col then s * M col (.inr i)
        else M r (.inr i) - M r (.inl col) / M col (.inl col) * M col (.inr i) := by
      unfold clearColumn
      split <;> rfl
    constructor
    · intro hsol
      have hrow (i : ι) : lhs M col ⬝ᵥ (fun c => X c i) = M col (.inr i) := by
        have := hsol col i
        rw [lhs_clearColumn, hright, if_pos rfl, if_pos rfl] at this
        exact mul_left_cancel₀ hs this
      intro r i
      by_cases hr : r = col
      · rw [hr]
        exact hrow i
      · have := hsol r i
        rw [lhs_clearColumn, hright, if_neg hr, if_neg hr, hrow] at this
        exact sub_left_injective this
    · intro hsol r i
      rw [lhs_clearColumn, hright, hsol col i, hsol r i]
  · unfold clearColumn
    by_cases hc' : c = col
    · subst hc'
      rw [if_neg hr]
      simp [hpivot]
    · have hbefore : c.val < k := by
        have : c.val ≠ col.val := fun heq => hc' (Fin.ext heq)
        omega
      have hzero := h.cleared c hbefore col (Ne.symm hc')
      split
      · simp [hzero]
      · simp [hzero, h.cleared c hbefore r hr]
  · unfold clearColumn
    by_cases hc' : c = col
    · subst hc'
      rw [if_pos rfl]
      exact mul_ne_zero hs hpivot
    · have hbefore : c.val < k := by
        have : c.val ≠ col.val := fun heq => hc' (Fin.ext heq)
        omega
      rw [if_neg hc']
      simpa [h.cleared c hbefore col (Ne.symm hc')] using h.pivot c hbefore
  · -- the row `col` vanishes, so the turn has changed no value
    have hvanish : lhs M col ⬝ᵥ x = 0 := by
      have := hx col (by omega)
      rw [lhs_clearColumn, if_pos rfl] at this
      exact (mul_eq_zero.mp this).resolve_left hs
    have hsame (r : Fin n) : lhs (clearColumn s col M) r ⬝ᵥ x = lhs M r ⬝ᵥ x := by
      rw [lhs_clearColumn, hvanish, mul_zero, mul_zero, sub_zero]
      split
      · rename_i hr
        rw [hr, hvanish]
      · rfl
    rw [← h.norm x fun r hr => (hsame r).symm.trans (hx r (by omega))]
    exact Finset.sum_congr rfl fun r _ => by rw [hsame]

/-- At the last stage every unknown stands alone. -/
theorem Stage.solves_iff (h : Stage M₀ M n) (X : Fin n → ι → K) :
    Solves M₀ X ↔ X = fun c i => M c (.inr i) / M c (.inl c) := by
  have hrow (r : Fin n) (i : ι) :
      lhs M r ⬝ᵥ (fun c => X c i) = M r (.inl r) * X r i := by
    refine Fintype.sum_eq_single r fun c hc => ?_
    rw [lhs, h.cleared c c.isLt r (Ne.symm hc), zero_mul]
  rw [← h.solves X]
  constructor
  · intro hsol
    funext c i
    have := hsol c i
    rw [hrow] at this
    rw [← this, mul_div_cancel_left₀ _ (h.pivot c c.isLt)]
  · rintro rfl r i
    rw [hrow, mul_div_cancel₀ _ (h.pivot r r.isLt)]

/-- The vector on which the first `k` rows vanish and which is one at `col`. -/
def probe (M : Augmented K n ι) (k : ℕ) (col : Fin n) : Fin n → K := fun c =>
  if c.val < k then -(M c (.inl col) / M c (.inl c)) else if c = col then 1 else 0

theorem lhs_probe (h : Stage M₀ M k) {col : Fin n} (hcol : col.val = k) (r : Fin n) :
    lhs M r ⬝ᵥ probe M k col = if r.val < k then 0 else M r (.inl col) := by
  have hone : probe M k col col = 1 := by
    rw [probe, if_neg (by omega), if_pos rfl]
  have hrest (c : Fin n) (hc : c ≠ col) (hr : c.val < k → r ≠ c) :
      lhs M r c * probe M k col c = 0 := by
    by_cases hk : c.val < k
    · rw [lhs, h.cleared c hk r (hr hk), zero_mul]
    · rw [probe, if_neg hk, if_neg hc, mul_zero]
  by_cases hr : r.val < k
  · have hne : r ≠ col := by
      rintro rfl
      omega
    rw [if_pos hr, dotProduct,
      Fintype.sum_eq_add r col hne fun c hc => hrest c hc.2 fun _ => Ne.symm hc.1, hone, probe,
      if_pos hr, lhs, mul_neg, mul_div_cancel₀ _ (h.pivot r hr), mul_one, lhs, neg_add_cancel]
  · rw [if_neg hr, dotProduct, Fintype.sum_eq_single col fun c hc => hrest c hc ?_, hone, mul_one,
      lhs]
    rintro hk rfl
    exact hr hk

end Field

section Ordered

variable [Field K] [LinearOrder K] [IsStrictOrderedRing K] {M₀ M : Augmented K n ι} {k : ℕ}

/-- Every vector comes out at least `μ` times as long, in squares. -/
def BoundedBelow (μ : K) (a : Fin n → Fin n → K) : Prop :=
  ∀ x : Fin n → K, μ * ∑ c, x c ^ 2 ≤ ∑ r, (a r ⬝ᵥ x) ^ 2

/-- If none of the entries from the row `k` on is larger than `p`, the matrix shrinks
some vector to `n * p ^ 2`, in squares. -/
theorem Stage.bound_le (h : Stage M₀ M k) {col : Fin n} (hcol : col.val = k) {μ p : K}
    (hμ : 0 ≤ μ) (hbound : BoundedBelow μ (lhs M₀))
    (hp : ∀ r : Fin n, k ≤ r.val → |M r (.inl col)| ≤ p) : μ ≤ n * p ^ 2 := by
  have hone : probe M k col col = 1 := by
    rw [probe, if_neg (by omega), if_pos rfl]
  have hlong : (1 : K) ≤ ∑ c, probe M k col c ^ 2 := by
    have := Finset.single_le_sum (fun c _ => sq_nonneg (probe M k col c)) (Finset.mem_univ col)
    rwa [hone, one_pow] at this
  have hnorm := h.norm (probe M k col) fun r hr => by rw [lhs_probe h hcol, if_pos hr]
  calc μ = μ * 1 := (mul_one μ).symm
    _ ≤ μ * ∑ c, probe M k col c ^ 2 := mul_le_mul_of_nonneg_left hlong hμ
    _ ≤ ∑ r, (lhs M₀ r ⬝ᵥ probe M k col) ^ 2 := hbound _
    _ = ∑ r, (lhs M r ⬝ᵥ probe M k col) ^ 2 := hnorm.symm
    _ ≤ ∑ _r : Fin n, p ^ 2 := by
        refine Finset.sum_le_sum fun r _ => ?_
        rw [lhs_probe h hcol]
        split
        · rw [zero_pow two_ne_zero]
          exact sq_nonneg p
        · rename_i hr
          exact sq_le_sq' (neg_le_of_abs_le (hp r (not_lt.mp hr)))
            (le_of_abs_le (hp r (not_lt.mp hr)))
    _ = n * p ^ 2 := by
        rw [Finset.sum_const, Finset.card_univ, Fintype.card_fin, nsmul_eq_mul]

end Ordered

end Elimination
