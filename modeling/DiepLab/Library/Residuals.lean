import DiepLab.Library.LeastSquares
import Mathlib.LinearAlgebra.Matrix.NonsingularInverse

/-!
The residuals of a weighted least squares fit.

With the inverse of the normal matrix at hand, the residuals of the solution are linear in
what was measured, and the matrix is their covariance (`residual_eq`). It annihilates whatever
the model explains (`residualCov_explained`), and it reproduces itself when it is weighted and
squared (`residualCov_idempotent`). All that is said here of variances comes from the latter:
they are sums of weighted squares, so they are not negative, and the Cauchy-Schwarz inequality
holds for them (`residualCov_sq_le`, `residual_sq_le`).
-/

namespace LeastSquares

open Matrix

variable {K : Type} [Field K] {m n : ℕ}

section Covariance

variable (H : Matrix (Fin m) (Fin n) K) (w : Fin m → K) (ginv : Matrix (Fin n) (Fin n) K)

/-- The covariance of the fitted values. -/
def fittedCov : Matrix (Fin m) (Fin m) K := H * ginv * Hᵀ

/-- The covariance of the residuals: of the measured values less of the fitted ones. -/
def residualCov : Matrix (Fin m) (Fin m) K := diagonal w⁻¹ - fittedCov H ginv

variable {H w ginv}

theorem diagonal_inv_mul (hw : ∀ k, w k ≠ 0) : diagonal w⁻¹ * diagonal w = 1 := by
  rw [diagonal_mul_diagonal, ← diagonal_one]
  refine congrArg diagonal (funext fun k => ?_)
  rw [Pi.inv_apply, inv_mul_cancel₀ (hw k)]

theorem diagonal_mul_inv (hw : ∀ k, w k ≠ 0) : diagonal w * diagonal w⁻¹ = 1 := by
  rw [← diagonal_inv_mul hw, diagonal_mul_diagonal, diagonal_mul_diagonal]
  exact congrArg diagonal (mul_comm w w⁻¹)

theorem normalMatrix_transpose : (normalMatrix H w)ᵀ = normalMatrix H w := by
  rw [normalMatrix, transpose_mul, transpose_mul, transpose_transpose, diagonal_transpose,
    Matrix.mul_assoc]

section Inverse

variable (hinv : normalMatrix H w * ginv = 1)
include hinv

theorem inverse_transpose : ginvᵀ = ginv := by
  rw [← inv_eq_right_inv hinv, transpose_nonsing_inv, normalMatrix_transpose]

theorem inverse_mul : ginv * normalMatrix H w = 1 := by
  rw [← inv_eq_right_inv hinv]
  exact nonsing_inv_mul _ (isUnit_det_of_right_inverse hinv)

theorem fittedCov_transpose : (fittedCov H ginv)ᵀ = fittedCov H ginv := by
  rw [fittedCov, transpose_mul, transpose_mul, transpose_transpose, inverse_transpose hinv,
    Matrix.mul_assoc]

theorem fittedCov_idempotent :
    fittedCov H ginv * diagonal w * fittedCov H ginv = fittedCov H ginv := by
  calc fittedCov H ginv * diagonal w * fittedCov H ginv =
        H * (ginv * normalMatrix H w) * (ginv * Hᵀ) := by
        simp only [fittedCov, normalMatrix, Matrix.mul_assoc]
    _ = fittedCov H ginv := by
        rw [inverse_mul hinv, Matrix.mul_one, ← Matrix.mul_assoc]
        rfl

theorem residualCov_transpose : (residualCov H w ginv)ᵀ = residualCov H w ginv := by
  rw [residualCov, transpose_sub, diagonal_transpose, fittedCov_transpose hinv]

/-- What the model explains leaves no residual. -/
theorem residualCov_explained (hw : ∀ k, w k ≠ 0) (x : Fin n → K) :
    residualCov H w ginv *ᵥ (diagonal w *ᵥ (H *ᵥ x)) = 0 := by
  have hfitted : fittedCov H ginv * diagonal w * H = H * (ginv * normalMatrix H w) := by
    simp only [fittedCov, normalMatrix, Matrix.mul_assoc]
  rw [mulVec_mulVec, mulVec_mulVec, residualCov, Matrix.sub_mul, Matrix.sub_mul,
    diagonal_inv_mul hw, Matrix.one_mul, hfitted, inverse_mul hinv, Matrix.mul_one, sub_self,
    zero_mulVec]

theorem residualCov_idempotent (hw : ∀ k, w k ≠ 0) :
    residualCov H w ginv * diagonal w * residualCov H w ginv = residualCov H w ginv := by
  have hfitted := fittedCov_idempotent hinv
  calc residualCov H w ginv * diagonal w * residualCov H w ginv =
        (1 - fittedCov H ginv * diagonal w) * (diagonal w⁻¹ - fittedCov H ginv) := by
        rw [residualCov, Matrix.sub_mul, diagonal_inv_mul hw]
    _ = diagonal w⁻¹ - fittedCov H ginv - (fittedCov H ginv * (diagonal w * diagonal w⁻¹) -
          fittedCov H ginv * diagonal w * fittedCov H ginv) := by
        rw [Matrix.sub_mul, Matrix.one_mul, Matrix.mul_sub, Matrix.mul_assoc]
    _ = residualCov H w ginv := by
        rw [diagonal_mul_inv hw, Matrix.mul_one, hfitted, sub_self, sub_zero]
        rfl

/-- The residuals of the solution are linear in what was measured. -/
theorem residual_eq (hw : ∀ k, w k ≠ 0) {x : Fin n → K} {z : Fin m → K}
    (hx : normalMatrix H w *ᵥ x = normalRhs H w z) :
    z - H *ᵥ x = residualCov H w ginv *ᵥ (diagonal w *ᵥ z) := by
  have hsolution : x = ginv *ᵥ normalRhs H w z := by
    rw [← hx, mulVec_mulVec, inverse_mul hinv, one_mulVec]
  have hz : diagonal w⁻¹ *ᵥ (diagonal w *ᵥ z) = z := by
    rw [mulVec_mulVec, diagonal_inv_mul hw, one_mulVec]
  rw [residualCov, sub_mulVec, hz, hsolution, normalRhs, fittedCov]
  simp only [mulVec_mulVec, Matrix.mul_assoc]

/-- An entry is the weighted product of two rows. -/
theorem residualCov_apply (hw : ∀ k, w k ≠ 0) (i j : Fin m) :
    residualCov H w ginv i j =
      ∑ k, w k * (residualCov H w ginv i k * residualCov H w ginv j k) := by
  conv_lhs => rw [← residualCov_idempotent hinv hw, mul_apply]
  refine Finset.sum_congr rfl fun k _ => ?_
  have hswap : residualCov H w ginv k j = residualCov H w ginv j k :=
    congrFun (congrFun (residualCov_transpose hinv) j) k
  rw [mul_diagonal, hswap]
  ring

theorem fittedCov_apply (i j : Fin m) :
    fittedCov H ginv i j = ∑ k, w k * (fittedCov H ginv i k * fittedCov H ginv j k) := by
  conv_lhs => rw [← fittedCov_idempotent hinv, mul_apply]
  refine Finset.sum_congr rfl fun k _ => ?_
  have hswap : fittedCov H ginv k j = fittedCov H ginv j k :=
    congrFun (congrFun (fittedCov_transpose hinv) j) k
  rw [mul_diagonal, hswap]
  ring

theorem residualCov_diag (hw : ∀ k, w k ≠ 0) (i : Fin m) :
    residualCov H w ginv i i = ∑ k, w k * residualCov H w ginv i k ^ 2 := by
  rw [residualCov_apply hinv hw]
  exact Finset.sum_congr rfl fun k _ => by rw [sq]

theorem fittedCov_diag (i : Fin m) :
    fittedCov H ginv i i = ∑ k, w k * fittedCov H ginv i k ^ 2 := by
  rw [fittedCov_apply hinv]
  exact Finset.sum_congr rfl fun k _ => by rw [sq]

end Inverse

end Covariance

section Ordered

variable [LinearOrder K] [IsStrictOrderedRing K] {H : Matrix (Fin m) (Fin n) K} {w : Fin m → K}
  {ginv : Matrix (Fin n) (Fin n) K}

/-- The Cauchy-Schwarz inequality with weights. -/
theorem weighted_sum_sq_le (hw : ∀ k, 0 ≤ w k) (a b : Fin m → K) :
    (∑ k, w k * (a k * b k)) ^ 2 ≤ (∑ k, w k * a k ^ 2) * ∑ k, w k * b k ^ 2 := by
  refine Finset.sum_sq_le_sum_mul_sum_of_sq_le_mul Finset.univ
    (fun k _ => mul_nonneg (hw k) (sq_nonneg _)) (fun k _ => mul_nonneg (hw k) (sq_nonneg _))
    fun k _ => le_of_eq ?_
  ring

section Inverse

variable (hinv : normalMatrix H w * ginv = 1) (hw : ∀ k, 0 < w k)
include hinv hw

theorem residualCov_nonneg (i : Fin m) : 0 ≤ residualCov H w ginv i i := by
  rw [residualCov_diag hinv fun k => (hw k).ne']
  exact Finset.sum_nonneg fun k _ => mul_nonneg (hw k).le (sq_nonneg _)

theorem residualCov_sq_le (i j : Fin m) : residualCov H w ginv i j ^ 2 ≤
    residualCov H w ginv i i * residualCov H w ginv j j := by
  have hne (k : Fin m) : w k ≠ 0 := (hw k).ne'
  rw [residualCov_diag hinv hne i, residualCov_diag hinv hne j, residualCov_apply hinv hne i j]
  exact weighted_sum_sq_le (fun k => (hw k).le) _ _

/-- A residual is at most its deviation times the root of the objective. -/
theorem residual_sq_le {x : Fin n → K} {z : Fin m → K}
    (hx : normalMatrix H w *ᵥ x = normalRhs H w z) (i : Fin m) :
    (z - H *ᵥ x) i ^ 2 ≤ residualCov H w ginv i i * weightedSquares H w z x := by
  have hne (k : Fin m) : w k ≠ 0 := (hw k).ne'
  have hresidual := residual_eq hinv hne hx
  -- the residuals are their own residuals
  have hagain : z - H *ᵥ x = residualCov H w ginv *ᵥ (diagonal w *ᵥ (z - H *ᵥ x)) := by
    rw [mulVec_sub, mulVec_sub, residualCov_explained hinv hne, sub_zero]
    exact hresidual
  have hentry : (z - H *ᵥ x) i =
      ∑ k, w k * (residualCov H w ginv i k * (z - H *ᵥ x) k) := by
    conv_lhs => rw [hagain]
    rw [mulVec, dotProduct]
    refine Finset.sum_congr rfl fun k _ => ?_
    rw [mulVec_diagonal]
    ring
  rw [hentry, residualCov_diag hinv hne i]
  exact weighted_sum_sq_le (fun k => (hw k).le) _ _

/-- If one measured value is off and the model explains the others, no residual is further from
nought than that of this value, each in units of its own deviation. -/
theorem residual_le_of_single {x x₀ : Fin n → K} {z : Fin m → K} {i : Fin m} {b : K}
    (hx : normalMatrix H w *ᵥ x = normalRhs H w z) (hz : z = H *ᵥ x₀ + Pi.single i b) :
    (z - H *ᵥ x) i = residualCov H w ginv i i * (w i * b) ∧
      ∀ j, (z - H *ᵥ x) j ^ 2 ≤ residualCov H w ginv j j *
        (residualCov H w ginv i i * (w i * b) ^ 2) := by
  have hne (k : Fin m) : w k ≠ 0 := (hw k).ne'
  have hentry (j : Fin m) : (z - H *ᵥ x) j = residualCov H w ginv j i * (w i * b) := by
    have hweighed : diagonal w *ᵥ Pi.single i b = Pi.single i (w i * b) := by
      funext k
      rw [mulVec_diagonal]
      by_cases hk : k = i
      · subst hk
        rw [Pi.single_eq_same, Pi.single_eq_same]
      · rw [Pi.single_eq_of_ne hk, Pi.single_eq_of_ne hk, mul_zero]
    rw [residual_eq hinv hne hx, hz, mulVec_add, mulVec_add, residualCov_explained hinv hne,
      zero_add, hweighed, mulVec_single]
    rfl
  refine ⟨hentry i, fun j => ?_⟩
  rw [hentry j, mul_pow, ← mul_assoc]
  exact mul_le_mul_of_nonneg_right (residualCov_sq_le hinv hw j i) (sq_nonneg _)

/-- Two rows that measure the same: what is fitted is no more uncertain than their mean. -/
theorem fittedCov_le_of_twin {i j : Fin m} (hij : i ≠ j) (hrow : H i = H j) :
    fittedCov H ginv i i * (w i + w j) ≤ 1 := by
  have hsame (k : Fin m) : fittedCov H ginv k i = fittedCov H ginv k j := by
    rw [fittedCov, mul_apply, mul_apply]
    refine Finset.sum_congr rfl fun c _ => ?_
    rw [transpose_apply, transpose_apply, hrow]
  have hdiag := fittedCov_diag hinv i
  have hnonneg : 0 ≤ fittedCov H ginv i i := by
    rw [hdiag]
    exact Finset.sum_nonneg fun k _ => mul_nonneg (hw k).le (sq_nonneg _)
  have htwo : fittedCov H ginv i i ^ 2 * (w i + w j) ≤ fittedCov H ginv i i := by
    calc fittedCov H ginv i i ^ 2 * (w i + w j) =
          ∑ k ∈ {i, j}, w k * fittedCov H ginv i k ^ 2 := by
          rw [Finset.sum_pair hij, ← hsame i]
          ring
      _ ≤ ∑ k, w k * fittedCov H ginv i k ^ 2 :=
          Finset.sum_le_univ_sum_of_nonneg fun k => mul_nonneg (hw k).le (sq_nonneg _)
      _ = fittedCov H ginv i i := hdiag.symm
  rcases hnonneg.eq_or_lt with hzero | hpos
  · rw [← hzero, zero_mul]
    exact zero_le_one
  · refine le_of_mul_le_mul_left ?_ hpos
    rw [mul_one, ← mul_assoc, ← sq]
    exact htwo

end Inverse

/-! ### More measurements -/

theorem form_nonneg (hinv : normalMatrix H w * ginv = 1) (hw : ∀ k, 0 ≤ w k) (v : Fin n → K) :
    0 ≤ v ⬝ᵥ (ginv *ᵥ v) := by
  have hsolved : normalMatrix H w *ᵥ (ginv *ᵥ v) = v := by
    rw [mulVec_mulVec, hinv, one_mulVec]
  calc (0 : K) ≤ ∑ k, w k * (H *ᵥ (ginv *ᵥ v)) k ^ 2 :=
        Finset.sum_nonneg fun k _ => mul_nonneg (hw k) (sq_nonneg _)
    _ = v ⬝ᵥ (ginv *ᵥ v) := by
        rw [← dotProduct_normalMatrix, hsolved, dotProduct_comm]

/-- A larger form has the smaller inverse: what is measured in addition makes no linear function
of the state more uncertain. -/
theorem inverse_form_le {m' : ℕ} {H' : Matrix (Fin m') (Fin n) K} {w' : Fin m' → K}
    {ginv' : Matrix (Fin n) (Fin n) K} (hinv : normalMatrix H w * ginv = 1)
    (hinv' : normalMatrix H' w' * ginv' = 1) (hw : ∀ k, 0 ≤ w k)
    (hform : ∀ v : Fin n → K,
      ∑ k, w k * (H *ᵥ v) k ^ 2 ≤ ∑ k, w' k * (H' *ᵥ v) k ^ 2) (v : Fin n → K) :
    v ⬝ᵥ (ginv' *ᵥ v) ≤ v ⬝ᵥ (ginv *ᵥ v) := by
  set x := ginv *ᵥ v with hx
  set y := ginv' *ᵥ v with hy
  have hsolved : normalMatrix H w *ᵥ x = v := by
    rw [hx, mulVec_mulVec, hinv, one_mulVec]
  have hsolved' : normalMatrix H' w' *ᵥ y = v := by
    rw [hy, mulVec_mulVec, hinv', one_mulVec]
  have hself : ∑ k, w' k * (H' *ᵥ y) k ^ 2 = v ⬝ᵥ y := by
    rw [← dotProduct_normalMatrix, hsolved', dotProduct_comm]
  have hdifference : ∑ k, w k * (H *ᵥ (x - y)) k ^ 2 =
      v ⬝ᵥ x - 2 * (v ⬝ᵥ y) + ∑ k, w k * (H *ᵥ y) k ^ 2 := by
    have hcross : x ⬝ᵥ (normalMatrix H w *ᵥ y) = v ⬝ᵥ y := by
      rw [dotProduct_mulVec, ← mulVec_transpose, normalMatrix_transpose, hsolved]
    rw [← dotProduct_normalMatrix, ← dotProduct_normalMatrix, mulVec_sub, hsolved,
      sub_dotProduct, dotProduct_sub, dotProduct_sub, hcross, dotProduct_comm x v,
      dotProduct_comm y v]
    ring
  have hnonneg : 0 ≤ ∑ k, w k * (H *ᵥ (x - y)) k ^ 2 :=
    Finset.sum_nonneg fun k _ => mul_nonneg (hw k) (sq_nonneg _)
  have hle := hform y
  rw [hself] at hle
  rw [hdifference] at hnonneg
  linarith

end Ordered

end LeastSquares
