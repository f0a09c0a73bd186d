import DiepLab.Library.Elimination

/-!
Weighted least squares.

The normal matrix is the quadratic form of the weighted squares (`dotProduct_normalMatrix`).
A solution of the normal equations splits the objective (`weightedSquares_split`), so it is
the only minimiser if the form is positive (`weightedSquares_lt`). A lower bound of the form
bounds the normal matrix below, as the elimination asks (`boundedBelow_normalMatrix`).
-/

namespace LeastSquares

open Matrix

variable {K : Type} [Field K] {m n : ℕ}

section Normal

variable (H : Matrix (Fin m) (Fin n) K) (w z : Fin m → K)

/-- The weighted sum of the squared residuals. -/
def weightedSquares (x : Fin n → K) : K := ∑ k, w k * (z k - (H *ᵥ x) k) ^ 2

def normalMatrix : Matrix (Fin n) (Fin n) K := Hᵀ * diagonal w * H

def normalRhs : Fin n → K := (Hᵀ * diagonal w) *ᵥ z

/-- What the transposed and weighted rows do to a vector of residuals. -/
theorem dotProduct_weighted (v : Fin n → K) (r : Fin m → K) :
    v ⬝ᵥ ((Hᵀ * diagonal w) *ᵥ r) = ∑ k, w k * (r k * (H *ᵥ v) k) := by
  have hweigh : diagonal w *ᵥ r = fun k => w k * r k := by
    funext k
    exact mulVec_diagonal w r k
  rw [← mulVec_mulVec, hweigh, mulVec_transpose, dotProduct_comm, ← dotProduct_mulVec, dotProduct]
  exact Finset.sum_congr rfl fun k _ => mul_assoc _ _ _

theorem dotProduct_normalMatrix (v : Fin n → K) :
    v ⬝ᵥ (normalMatrix H w *ᵥ v) = ∑ k, w k * (H *ᵥ v) k ^ 2 := by
  rw [normalMatrix, ← mulVec_mulVec, dotProduct_weighted]
  exact Finset.sum_congr rfl fun k _ => by rw [sq]

/-- What is left of the objective at another vector. -/
theorem weightedSquares_split {x : Fin n → K}
    (hx : normalMatrix H w *ᵥ x = normalRhs H w z) (y : Fin n → K) :
    weightedSquares H w z y =
      weightedSquares H w z x + ∑ k, w k * (H *ᵥ (y - x)) k ^ 2 := by
  have hresidual : (Hᵀ * diagonal w) *ᵥ (z - H *ᵥ x) = 0 := by
    rw [mulVec_sub, mulVec_mulVec, ← normalMatrix, hx, normalRhs, sub_self]
  have hcross : ∑ k, w k * ((z - H *ᵥ x) k * (H *ᵥ (y - x)) k) = 0 := by
    rw [← dotProduct_weighted, hresidual, dotProduct_zero]
  have hterm (k : Fin m) : w k * (z k - (H *ᵥ y) k) ^ 2 =
      w k * (z k - (H *ᵥ x) k) ^ 2 + w k * (H *ᵥ (y - x)) k ^ 2 -
        2 * (w k * ((z - H *ᵥ x) k * (H *ᵥ (y - x)) k)) := by
    rw [mulVec_sub, Pi.sub_apply, Pi.sub_apply]
    ring
  simp only [weightedSquares, hterm, Finset.sum_sub_distrib, Finset.sum_add_distrib]
  rw [← Finset.mul_sum, hcross, mul_zero, sub_zero]

end Normal

section Positive

variable [LinearOrder K] [IsStrictOrderedRing K] {H : Matrix (Fin m) (Fin n) K} {w z : Fin m → K}
  {μ : K}

/-- Every column is anchored by a row of its own, so the form is bounded below by the
weights of these rows. -/
theorem form_of_anchored (hw : ∀ k, 0 ≤ w k) (hanchor : ∀ c, ∃ k, H k = Pi.single c 1 ∧ μ ≤ w k)
    (v : Fin n → K) : μ * ∑ c, v c ^ 2 ≤ ∑ k, w k * (H *ᵥ v) k ^ 2 := by
  choose anchor hrow hweight using hanchor
  have hinj : Function.Injective anchor := by
    intro c d heq
    have hsingle : (Pi.single c 1 : Fin n → K) = Pi.single d 1 := by
      rw [← hrow c, ← hrow d, heq]
    by_contra hne
    have := congrFun hsingle c
    rw [Pi.single_eq_same, Pi.single_eq_of_ne hne] at this
    exact one_ne_zero this
  have hvalue (c : Fin n) : (H *ᵥ v) (anchor c) = v c := by
    rw [mulVec, hrow c]
    exact (single_dotProduct v 1 c).trans (one_mul _)
  calc μ * ∑ c, v c ^ 2 = ∑ c, μ * v c ^ 2 := Finset.mul_sum ..
    _ ≤ ∑ c, w (anchor c) * (H *ᵥ v) (anchor c) ^ 2 := by
        refine Finset.sum_le_sum fun c _ => ?_
        rw [hvalue]
        exact mul_le_mul_of_nonneg_right (hweight c) (sq_nonneg _)
    _ = ∑ k ∈ Finset.univ.map ⟨anchor, hinj⟩, w k * (H *ᵥ v) k ^ 2 :=
        (Finset.sum_map Finset.univ ⟨anchor, hinj⟩ fun k => w k * (H *ᵥ v) k ^ 2).symm
    _ ≤ ∑ k, w k * (H *ᵥ v) k ^ 2 :=
        Finset.sum_le_univ_sum_of_nonneg fun k => mul_nonneg (hw k) (sq_nonneg _)

/-- A positive form has one minimiser, the solution of the normal equations. -/
theorem weightedSquares_lt (hμ : 0 < μ)
    (hform : ∀ v : Fin n → K, μ * ∑ c, v c ^ 2 ≤ ∑ k, w k * (H *ᵥ v) k ^ 2) {x : Fin n → K}
    (hx : normalMatrix H w *ᵥ x = normalRhs H w z) {y : Fin n → K} (hy : y ≠ x) :
    weightedSquares H w z x < weightedSquares H w z y := by
  obtain ⟨c, hc⟩ := Function.ne_iff.mp (sub_ne_zero.mpr hy)
  have hpos : 0 < ∑ c, (y - x) c ^ 2 :=
    Finset.sum_pos' (fun c _ => sq_nonneg _) ⟨c, Finset.mem_univ c, sq_pos_of_ne_zero hc⟩
  rw [weightedSquares_split H w z hx y]
  exact lt_add_of_pos_right _ ((mul_pos hμ hpos).trans_le (hform (y - x)))

/-- The form bounds the matrix: by the Cauchy-Schwarz inequality the square of the form is
at most the product of the squared lengths. -/
theorem boundedBelow_normalMatrix (hμ : 0 ≤ μ)
    (hform : ∀ v : Fin n → K, μ * ∑ c, v c ^ 2 ≤ ∑ k, w k * (H *ᵥ v) k ^ 2) :
    Elimination.BoundedBelow (μ ^ 2) (normalMatrix H w) := by
  intro v
  set len := ∑ c, v c ^ 2 with hlen
  change μ ^ 2 * len ≤ ∑ c, (normalMatrix H w *ᵥ v) c ^ 2
  rcases (Finset.sum_nonneg fun c _ => sq_nonneg (v c)).eq_or_lt with hzero | hpos
  · rw [hlen, ← hzero, mul_zero]
    exact Finset.sum_nonneg fun c _ => sq_nonneg _
  · have hquadratic : μ * len ≤ ∑ c, v c * (normalMatrix H w *ᵥ v) c := by
      refine (hform v).trans_eq ?_
      rw [← dotProduct_normalMatrix]
      rfl
    have hsquare : (μ * len) ^ 2 ≤ len * ∑ c, (normalMatrix H w *ᵥ v) c ^ 2 :=
      calc (μ * len) ^ 2 ≤ (∑ c, v c * (normalMatrix H w *ᵥ v) c) ^ 2 :=
            pow_le_pow_left₀ (mul_nonneg hμ hpos.le) hquadratic 2
        _ ≤ _ := Finset.sum_mul_sq_le_sq_mul_sq ..
    refine le_of_mul_le_mul_left ?_ hpos
    calc len * (μ ^ 2 * len) = (μ * len) ^ 2 := by ring
      _ ≤ _ := hsquare

end Positive

end LeastSquares
