import DiepLab.Common
import DiepLab.Library.Elimination
import DiepLab.Library.Loops
import Mathlib.Data.List.MinMax
import Mathlib.Data.Rat.Init
import Mathlib.LinearAlgebra.Matrix.ToLinearEquiv

/-!
The linear algebra of the analytics, over the rationals.

`solve` and `inverse` clear the columns one after the other and give up when the
largest entry left in a column is below `1e-12`. A column that is cleared with
`solve` is cleared only from the pivot on; the entries before it are nought
already. What they return is right for every matrix, and for a singular one they
return nothing (`returned_correct`). Both functions succeed on every matrix that
is bounded below far enough (`solve_eq`, `inverse_eq`).
-/

namespace DiepLab.Linalg

open Elimination Matrix

variable {n : ℕ} {ι : Type}

/-- Below this a pivot counts as nought. -/
def tolerance : ℚ := 1 / 10 ^ 12

/-- `max(range(col, n), key=lambda r: abs(m[r][col]))`: the first of the largest. -/
def pivotRow (m : Augmented ℚ n ι) (col : Fin n) : Fin n :=
  (((List.finRange n).filter fun r => col ≤ r).argmax fun r => |m r (.inl col)|).getD col

/-- `range(col, n + 1)`. -/
def fromColumn (col : Fin n) : Fin n ⊕ ι → Bool
  | .inl c => decide (col ≤ c)
  | .inr _ => true

/-- The row `r` minus `factor` times the row `col`, from the column `col` on. -/
def subtractFrom (col : Fin n) (pv : ℚ) (row pivot : Fin n ⊕ ι → ℚ) : Fin n ⊕ ι → ℚ :=
  let factor := row (.inl col) / pv
  if factor ≠ 0 then fun c => if fromColumn col c then row c - factor * pivot c else row c
  else row

/-- One column of `solve`. -/
def solveColumn (m : Augmented ℚ n ι) (col : Fin n) : Except Exc (Augmented ℚ n ι) :=
  let piv := pivotRow m col
  if |m piv (.inl col)| < tolerance then .error (.other "singular matrix in solve()")
  else
    let m := swapRows col piv m
    let pv := m col (.inl col)
    .ok ((List.finRange n).foldl
      (fun m r => if r = col then m
        else Function.update m r (subtractFrom col pv (m r) (m col))) m)

/-- Solve A x = b for square A via Gaussian elimination with partial pivoting. -/
def solve (a : Fin n → Fin n → ℚ) (b : Fin n → ℚ) : Except Exc (Fin n → ℚ) := do
  let m ← (List.finRange n).foldlM solveColumn (augment a fun i (_ : Unit) => b i)
  pure fun i => m i (.inr ()) / m i (.inl i)

/-- The row `r` minus `factor` times the row `col`. -/
def subtractRow (col : Fin n) (row pivot : Fin n ⊕ ι → ℚ) : Fin n ⊕ ι → ℚ :=
  let factor := row (.inl col)
  if factor ≠ 0 then fun c => row c - factor * pivot c else row

/-- One column of `inverse`. -/
def inverseColumn (m : Augmented ℚ n ι) (col : Fin n) : Except Exc (Augmented ℚ n ι) :=
  let piv := pivotRow m col
  if |m piv (.inl col)| < tolerance then .error (.other "singular matrix in inverse()")
  else
    let m := swapRows col piv m
    let pv := m col (.inl col)
    let m := Function.update m col fun c => m col c / pv
    .ok ((List.finRange n).foldl
      (fun m r => if r = col then m
        else Function.update m r (subtractRow col (m r) (m col))) m)

/-- Inverse of square A via Gauss-Jordan with partial pivoting. -/
def inverse (a : Fin n → Fin n → ℚ) : Except Exc (Fin n → Fin n → ℚ) := do
  let m ← (List.finRange n).foldlM inverseColumn (augment a (1 : Matrix (Fin n) (Fin n) ℚ))
  pure fun i j => m i (.inr j)

/-! ### The pivot -/

theorem pivotRow_spec (m : Augmented ℚ n ι) (col : Fin n) :
    col ≤ pivotRow m col ∧
      ∀ r : Fin n, col ≤ r → |m r (.inl col)| ≤ |m (pivotRow m col) (.inl col)| := by
  have hcol : col ∈ (List.finRange n).filter fun r => col ≤ r :=
    List.mem_filter.mpr ⟨List.mem_finRange col, decide_eq_true le_rfl⟩
  unfold pivotRow
  cases hmax : ((List.finRange n).filter fun r => col ≤ r).argmax
      fun r => |m r (.inl col)| with
  | none => exact absurd (List.argmax_eq_none.mp hmax ▸ hcol) List.not_mem_nil
  | some piv =>
      refine ⟨of_decide_eq_true (List.mem_filter.mp (List.argmax_mem hmax)).2, fun r hr => ?_⟩
      exact List.le_of_mem_argmax (f := fun r => |m r (.inl col)|)
        (List.mem_filter.mpr ⟨List.mem_finRange r, decide_eq_true hr⟩) hmax

variable {m₀ m : Augmented ℚ n ι} {col : Fin n}

/-- The pivot is not below the tolerance. -/
theorem tolerance_le_pivot (h : Stage m₀ m col.val) {μ : ℚ} (hμ : n * tolerance ^ 2 ≤ μ)
    (hbound : BoundedBelow μ (lhs m₀)) : tolerance ≤ |m (pivotRow m col) (.inl col)| := by
  have hn : (0 : ℚ) < n := Nat.cast_pos.mpr (Fin.pos col)
  have htol : (0 : ℚ) ≤ tolerance := by norm_num [tolerance]
  have hle := h.bound_le rfl ((mul_nonneg hn.le (sq_nonneg _)).trans hμ) hbound
    (p := |m (pivotRow m col) (.inl col)|) fun r hr => (pivotRow_spec m col).2 r hr
  have hsq : tolerance ^ 2 ≤ |m (pivotRow m col) (.inl col)| ^ 2 :=
    le_of_mul_le_mul_left (hμ.trans hle) hn
  exact (sq_le_sq₀ htol (abs_nonneg _)).mp hsq

theorem pivot_ne_zero {p : ℚ} (h : tolerance ≤ |p|) : p ≠ 0 := by
  have htol : (0 : ℚ) < tolerance := by norm_num [tolerance]
  exact abs_pos.mp (htol.trans_le h)

/-- The pivot in its place. -/
theorem swapRows_pivot : swapRows col (pivotRow m col) m col = m (pivotRow m col) :=
  congrArg m (Equiv.swap_apply_left col (pivotRow m col))

/-! ### One column -/

/-- Where the earlier columns are cleared, nothing is lost by starting at the pivot. -/
theorem solveColumn_eq (h : Stage m₀ m col.val)
    (hpivot : tolerance ≤ |m (pivotRow m col) (.inl col)|) :
    solveColumn m col = .ok (clearColumn 1 col (swapRows col (pivotRow m col) m)) := by
  have hswap := h.swap le_rfl (Fin.le_def.mp (pivotRow_spec m col).1)
  rw [solveColumn, if_neg (not_lt.mpr hpivot)]
  dsimp only
  rw [foldl_rows col]
  refine congrArg Except.ok (funext fun r => ?_)
  rw [clearColumn]
  split
  · rw [one_smul]
  · funext c
    rw [subtractFrom]
    split
    · cases c with
      | inl c =>
          by_cases hc : col ≤ c
          · simp [fromColumn, hc]
          · have hlt : c.val < col.val := Fin.lt_def.mp (not_le.mp hc)
            have hzero := hswap.cleared c hlt col (Fin.ne_of_gt (Fin.lt_def.mpr hlt))
            simp [fromColumn, hc, hzero]
      | inr i => simp [fromColumn]
    · rename_i hfactor
      simp [not_not.mp hfactor]

theorem inverseColumn_eq (hpivot : tolerance ≤ |m (pivotRow m col) (.inl col)|) :
    inverseColumn m col =
      .ok (clearColumn (m (pivotRow m col) (.inl col))⁻¹ col
        (swapRows col (pivotRow m col) m)) := by
  rw [inverseColumn, if_neg (not_lt.mpr hpivot)]
  dsimp only
  rw [foldl_rows col]
  refine congrArg Except.ok (funext fun r => ?_)
  rw [clearColumn, Function.update_self]
  split
  · funext c
    rw [swapRows_pivot, div_eq_inv_mul]
    rfl
  · rename_i hr
    rw [Function.update_of_ne hr]
    funext c
    rw [subtractRow]
    split
    · rw [Pi.sub_apply, Pi.smul_apply, smul_eq_mul]
      ring
    · rename_i hfactor
      simp [not_not.mp hfactor]

/-! ### All columns -/

/-- A row that is divided by its pivot has one on the diagonal, and so have the rows
before it. -/
theorem diagonal_clearColumn (h : Stage m₀ m col.val) (hpivot : m col (.inl col) ≠ 0)
    (hone : ∀ c : Fin n, c.val < col.val → m c (.inl c) = 1) (c : Fin n)
    (hc : c.val < col.val + 1) :
    clearColumn (m col (.inl col))⁻¹ col m c (.inl c) = 1 := by
  rw [clearColumn]
  split
  · rename_i heq
    subst heq
    rw [Pi.smul_apply, smul_eq_mul, inv_mul_cancel₀ hpivot]
  · rename_i hne
    have hlt : c.val < col.val := by
      have : c.val ≠ col.val := fun heq => hne (Fin.ext heq)
      omega
    rw [Pi.sub_apply, Pi.smul_apply, smul_eq_mul, h.cleared c hlt col (Ne.symm hne), mul_zero,
      sub_zero, hone c hlt]

/-! ### What a turn leaves -/

theorem tolerance_le_of_solveColumn {m' : Augmented ℚ n ι} (h : solveColumn m col = .ok m') :
    tolerance ≤ |m (pivotRow m col) (.inl col)| := by
  rw [solveColumn] at h
  split at h
  · exact nomatch h
  · exact not_lt.mp ‹_›

theorem tolerance_le_of_inverseColumn {m' : Augmented ℚ n ι} (h : inverseColumn m col = .ok m') :
    tolerance ≤ |m (pivotRow m col) (.inl col)| := by
  rw [inverseColumn] at h
  split at h
  · exact nomatch h
  · exact not_lt.mp ‹_›

theorem solveColumn_stage (h : Stage m₀ m col.val)
    (hpivot : tolerance ≤ |m (pivotRow m col) (.inl col)|) :
    ∃ m', solveColumn m col = .ok m' ∧ Stage m₀ m' (col.val + 1) := by
  refine ⟨_, solveColumn_eq h hpivot, ?_⟩
  refine (h.swap le_rfl (Fin.le_def.mp (pivotRow_spec m col).1)).clear rfl ?_ one_ne_zero
  rw [swapRows_pivot]
  exact pivot_ne_zero hpivot

/-- What holds when the columns before `k` are cleared by `inverse`. -/
structure UnitStage (m₀ m : Augmented ℚ n ι) (k : ℕ) : Prop where
  stage : Stage m₀ m k
  one : ∀ c : Fin n, c.val < k → m c (.inl c) = 1

theorem UnitStage.start (m : Augmented ℚ n ι) : UnitStage m m 0 :=
  ⟨.start m, fun _ hc => absurd hc (Nat.not_lt_zero _)⟩

theorem inverseColumn_stage (h : UnitStage m₀ m col.val)
    (hpivot : tolerance ≤ |m (pivotRow m col) (.inl col)|) :
    ∃ m', inverseColumn m col = .ok m' ∧ UnitStage m₀ m' (col.val + 1) := by
  have hswap := h.stage.swap le_rfl (Fin.le_def.mp (pivotRow_spec m col).1)
  have hne : swapRows col (pivotRow m col) m col (.inl col) ≠ 0 := by
    rw [swapRows_pivot]
    exact pivot_ne_zero hpivot
  refine ⟨_, inverseColumn_eq hpivot, ?_, ?_⟩
  · refine hswap.clear rfl hne (inv_ne_zero ?_)
    exact pivot_ne_zero hpivot
  · rw [← swapRows_pivot (m := m)]
    refine diagonal_clearColumn hswap hne fun c hc => ?_
    have hfix : Equiv.swap col (pivotRow m col) c = c := by
      refine Equiv.swap_apply_of_ne_of_ne (Fin.ne_of_lt (Fin.lt_def.mpr hc)) ?_
      exact Fin.ne_of_lt ((Fin.lt_def.mpr hc).trans_le (pivotRow_spec m col).1)
    exact (congrArg (fun r => m r (.inl c)) hfix).trans (h.one c hc)

/-! ### What is returned -/

section Returns

variable {a : Fin n → Fin n → ℚ}

/-- The columns have been cleared where `solve` returns. -/
theorem of_solve {b x : Fin n → ℚ} (h : solve a b = .ok x) :
    ∃ m, (List.finRange n).foldlM solveColumn (augment a fun i (_ : Unit) => b i) = .ok m ∧
      x = fun i => m i (.inr ()) / m i (.inl i) := by
  unfold solve at h
  cases hrun : (List.finRange n).foldlM solveColumn (augment a fun i (_ : Unit) => b i) with
  | error exc =>
      rw [hrun] at h
      exact nomatch h
  | ok m =>
      rw [hrun] at h
      injection h with h
      exact ⟨m, rfl, h.symm⟩

theorem of_inverse {inv : Fin n → Fin n → ℚ} (h : inverse a = .ok inv) :
    ∃ m, (List.finRange n).foldlM inverseColumn (augment a (1 : Matrix (Fin n) (Fin n) ℚ)) =
      .ok m ∧ inv = fun i j => m i (.inr j) := by
  unfold inverse at h
  cases hrun : (List.finRange n).foldlM inverseColumn
      (augment a (1 : Matrix (Fin n) (Fin n) ℚ)) with
  | error exc =>
      rw [hrun] at h
      exact nomatch h
  | ok m =>
      rw [hrun] at h
      injection h with h
      exact ⟨m, rfl, h.symm⟩

/-- What `solve` returns is the solution, and there is no other. -/
theorem mulVec_iff_of_solve {b x : Fin n → ℚ} (h : solve a b = .ok x) (y : Fin n → ℚ) :
    of a *ᵥ y = b ↔ y = x := by
  obtain ⟨m, hrun, rfl⟩ := of_solve h
  have hstage : Stage (augment a fun i (_ : Unit) => b i) m n :=
    Loops.of_foldlM_finRange (P := fun k m => Stage _ m k) hrun (.start _)
        fun col m m' hstage hturn => by
      obtain ⟨next, hnext, hstage'⟩ := solveColumn_stage hstage (tolerance_le_of_solveColumn hturn)
      rw [hturn] at hnext
      injection hnext with hnext
      exact hnext ▸ hstage'
  have hsolves : of a *ᵥ y = b ↔
      Solves (augment a fun i (_ : Unit) => b i) (fun c _ => y c) :=
    ⟨fun h r _ => congrFun h r, fun h => funext fun r => h r ()⟩
  rw [hsolves, hstage.solves_iff]
  exact ⟨fun h => funext fun c => congrFun (congrFun h c) (), fun h => h ▸ rfl⟩

theorem mul_of_inverse {inv : Fin n → Fin n → ℚ} (h : inverse a = .ok inv) :
    of a * of inv = 1 := by
  obtain ⟨m, hrun, rfl⟩ := of_inverse h
  have hstage : UnitStage (augment a (1 : Matrix (Fin n) (Fin n) ℚ)) m n :=
    Loops.of_foldlM_finRange (P := fun k m => UnitStage _ m k) hrun (.start _)
        fun col m m' hstage hturn => by
      obtain ⟨next, hnext, hstage'⟩ :=
        inverseColumn_stage hstage (tolerance_le_of_inverseColumn hturn)
      rw [hturn] at hnext
      injection hnext with hnext
      exact hnext ▸ hstage'
  have hsol := (hstage.stage.solves_iff fun c i => m c (.inr i)).mpr <| by
    funext c i
    rw [hstage.one c c.isLt, div_one]
  ext r i
  exact hsol r i

/-- What a column raises, for a pivot that is too small. -/
theorem error_of_solve {b : Fin n → ℚ} {exc : Exc} (h : solve a b = .error exc) :
    exc = .other "singular matrix in solve()" := by
  unfold solve at h
  cases hrun : (List.finRange n).foldlM solveColumn (augment a fun i (_ : Unit) => b i) with
  | error raised =>
      rw [hrun] at h
      injection h with h
      obtain ⟨m, col, -, hturn⟩ := Loops.exists_of_foldlM_error hrun
      rw [solveColumn] at hturn
      split at hturn
      · injection hturn with hturn
        exact h.symm.trans hturn.symm
      · exact nomatch hturn
  | ok m =>
      rw [hrun] at h
      exact nomatch h

theorem error_of_inverse {exc : Exc} (h : inverse a = .error exc) :
    exc = .other "singular matrix in inverse()" := by
  unfold inverse at h
  cases hrun : (List.finRange n).foldlM inverseColumn
      (augment a (1 : Matrix (Fin n) (Fin n) ℚ)) with
  | error raised =>
      rw [hrun] at h
      injection h with h
      obtain ⟨m, col, -, hturn⟩ := Loops.exists_of_foldlM_error hrun
      rw [inverseColumn] at hturn
      split at hturn
      · injection hturn with hturn
        exact h.symm.trans hturn.symm
      · exact nomatch hturn
  | ok m =>
      rw [hrun] at h
      exact nomatch h

/-- A singular system has no solution or more than one. -/
theorem solve_singular (hdet : (of a).det = 0) (b : Fin n → ℚ) :
    solve a b = .error (.other "singular matrix in solve()") := by
  cases hsolve : solve a b with
  | error exc => rw [error_of_solve hsolve]
  | ok x =>
      obtain ⟨v, hv, hkernel⟩ := exists_mulVec_eq_zero_iff.mpr hdet
      have hx := (mulVec_iff_of_solve hsolve x).mpr rfl
      have hshifted : of a *ᵥ (x + v) = b := by rw [mulVec_add, hx, hkernel, add_zero]
      have hsame := (mulVec_iff_of_solve hsolve (x + v)).mp hshifted
      exact absurd (add_eq_left.mp hsame) hv

theorem inverse_singular (hdet : (of a).det = 0) :
    inverse a = .error (.other "singular matrix in inverse()") := by
  cases hinverse : inverse a with
  | error exc => rw [error_of_inverse hinverse]
  | ok inv => exact absurd hdet (det_ne_zero_of_right_inverse (mul_of_inverse hinverse))

end Returns

/-- **What the two functions return is right**, and a singular matrix is refused. -/
theorem returned_correct (a : Fin n → Fin n → ℚ) :
    (∀ b x, solve a b = .ok x → of a *ᵥ x = b) ∧
      (∀ inv, inverse a = .ok inv → of a * of inv = 1 ∧ of inv * of a = 1) ∧
        ((of a).det = 0 →
          (∀ b, solve a b = .error (.other "singular matrix in solve()")) ∧
            inverse a = .error (.other "singular matrix in inverse()")) := by
  refine ⟨fun b x h => (mulVec_iff_of_solve h x).mpr rfl, fun inv h => ?_, fun hdet => ?_⟩
  · have hright := mul_of_inverse h
    exact ⟨hright, mul_eq_one_comm.mp hright⟩
  · exact ⟨solve_singular hdet, inverse_singular hdet⟩

/-- Its first pivot is in the second row. -/
def crossed : Fin 2 → Fin 2 → ℚ := ![![0, 2], ![4, 0]]

def dependent : Fin 2 → Fin 2 → ℚ := ![![1, 2], ![2, 4]]

theorem returned_crossed :
    (∃ x, solve crossed ![6, 8] = .ok x ∧ of crossed *ᵥ x = ![6, 8]) ∧
      (∃ inv, inverse crossed = .ok inv ∧ of inv * of crossed = 1) ∧
        inverse dependent = .error (.other "singular matrix in inverse()") := by
  have hsolve : (solve crossed ![6, 8]).isOk = true := by decide +kernel
  have hinverse : (inverse crossed).isOk = true := by decide +kernel
  have hdet : (of dependent).det = 0 := by
    rw [det_fin_two]
    decide +kernel
  obtain ⟨hx, hinv, -⟩ := returned_correct crossed
  refine ⟨?_, ?_, ((returned_correct dependent).2.2 hdet).2⟩
  · cases h : solve crossed ![6, 8] with
    | ok x => exact ⟨x, rfl, hx _ x h⟩
    | error exc => exact nomatch h ▸ hsolve
  · cases h : inverse crossed with
    | ok inv => exact ⟨inv, rfl, (hinv inv h).2⟩
    | error exc => exact nomatch h ▸ hinverse

section Succeeds

variable {μ : ℚ} (hμ : n * tolerance ^ 2 ≤ μ) {a : Fin n → Fin n → ℚ} (hbound : BoundedBelow μ a)
include hμ hbound

/-- **`solve` finds the solution**, which is the only one, of every system that is
bounded below. -/
theorem solve_eq (b : Fin n → ℚ) : ∃ x, solve a b = .ok x ∧ ∀ y, of a *ᵥ y = b ↔ y = x := by
  obtain ⟨m, hrun, -⟩ := Loops.foldlM_finRange (f := solveColumn)
    (P := fun k m => Stage (augment a fun i (_ : Unit) => b i) m k) (.start _)
    fun col m h => solveColumn_stage h (tolerance_le_pivot h hμ hbound)
  have hsolve : solve a b = .ok fun i => m i (.inr ()) / m i (.inl i) := by
    rw [solve, hrun]
    rfl
  exact ⟨_, hsolve, mulVec_iff_of_solve hsolve⟩

/-- **`inverse` finds the inverse.** -/
theorem inverse_eq : ∃ inv, inverse a = .ok inv ∧ of a * of inv = 1 := by
  obtain ⟨m, hrun, -⟩ := Loops.foldlM_finRange (f := inverseColumn)
    (P := fun k m => UnitStage (augment a (1 : Matrix (Fin n) (Fin n) ℚ)) m k) (.start _)
    fun col m h => inverseColumn_stage h (tolerance_le_pivot h.stage hμ hbound)
  have hinverse : inverse a = .ok fun i j => m i (.inr j) := by
    rw [inverse, hrun]
    rfl
  exact ⟨_, hinverse, mul_of_inverse hinverse⟩

end Succeeds

end DiepLab.Linalg
