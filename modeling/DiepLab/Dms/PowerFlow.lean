import DiepLab.Common
import DiepLab.Grid.Network
import Mathlib.Data.Rat.Floor
import Mathlib.Tactic.Linarith
import Mathlib.Tactic.Positivity
import Mathlib.Tactic.Ring

/-!
What the planners take from the power flow.

The sweep itself works on complex floating-point numbers and is a parameter of
the model, a `Solver`: any function of the nodes, the edges in some switch
state and the loads. The planners read four things of its answer, and of the
loss that it is rounded to three decimals.
-/

namespace DiepLab

/-! ### Rounding -/

/-- Python's `round(x)`: to the nearest integer, ties to the even one. -/
def roundHalfEven (x : ℚ) : ℤ :=
  if x - ⌊x⌋ < 1 / 2 then ⌊x⌋
  else if 1 / 2 < x - ⌊x⌋ then ⌊x⌋ + 1
  else if Even ⌊x⌋ then ⌊x⌋ else ⌊x⌋ + 1

/-- `round(x, digits)`. -/
def roundTo (digits : ℕ) (x : ℚ) : ℚ := roundHalfEven (x * 10 ^ digits) / 10 ^ digits

theorem roundHalfEven_eq_zero_iff {x : ℚ} (hx : 0 ≤ x) : roundHalfEven x = 0 ↔ x ≤ 1 / 2 := by
  have hfloor : (0 : ℤ) ≤ ⌊x⌋ := Int.floor_nonneg.mpr hx
  have hle : (⌊x⌋ : ℚ) ≤ x := Int.floor_le x
  have hlt : x < ⌊x⌋ + 1 := Int.lt_floor_add_one x
  rcases hfloor.eq_or_lt with h | h
  · have hcast : (⌊x⌋ : ℚ) = 0 := by rw [← h]; rfl
    unfold roundHalfEven
    rw [← h, Int.cast_zero, sub_zero]
    split_ifs with h1 h2 h3
    · exact iff_of_true rfl h1.le
    · exact iff_of_false (by decide) (not_le.mpr h2)
    · exact iff_of_true rfl (not_lt.mp h2)
    · exact absurd (by decide) h3
  · have hone : (1 : ℚ) ≤ ⌊x⌋ := by exact_mod_cast h
    have hround : 0 < roundHalfEven x := by
      unfold roundHalfEven
      split_ifs <;> omega
    exact iff_of_false hround.ne' (by linarith)

/-- A number that rounds to nothing at two decimals is at most half of the
last digit. -/
theorem roundTo_two_eq_zero_iff {x : ℚ} (hx : 0 ≤ x) : roundTo 2 x = 0 ↔ x ≤ 1 / 200 := by
  have hpos : (0 : ℚ) ≤ x * 10 ^ 2 := by positivity
  rw [roundTo, div_eq_zero_iff, or_iff_left (by norm_num), Int.cast_eq_zero,
    roundHalfEven_eq_zero_iff hpos]
  constructor <;> intro h <;> linarith

/-! ### Loads -/

/-- A complex load: consumption positive, generation negative. -/
structure Power where
  kw : ℚ
  kvar : ℚ
  deriving DecidableEq

/-- `loads[node_id][phase]`. -/
abbrev Loads := Dict (Dict Power)

/-! ### The solver -/

/-- What `solve` reports, as far as the planners read it. -/
structure PowerFlow where
  converged : Bool
  totalLossKw : ℚ
  violationCount : ℕ
  /-- `loading_pct` of every branch; an unrated branch has none. -/
  loadingPct : List (Option ℚ)
  /-- `round(total_loss_kw, 3)`. -/
  loss_rounded : ∃ k : ℤ, totalLossKw = k / 1000

abbrev Solver := List GridNode → List GridEdge → Loads → PowerFlow

/-- No loss is rounded. -/
theorem noLoss_rounded : ∃ k : ℤ, (0 : ℚ) = k / 1000 := ⟨0, by norm_num⟩

end DiepLab
