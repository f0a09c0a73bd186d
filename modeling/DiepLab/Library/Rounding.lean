import DiepLab.Library.Interchange

/-!
Order and error of rounding.

Rounding keeps the order of two numbers, to integers (`Double.roundEven_mono`) and to the
numbers of a format (`BinaryFormat.round_mono`): two numbers whose last places differ have
a power of two between them, which is a number of the format. The error is at most half a
unit in the last place (`BinaryFormat.abs_round_sub_le`).
-/

namespace Double

theorem roundEven_mono {a b : ℚ} (h : a ≤ b) : roundEven a ≤ roundEven b := by
  have hfloor : ⌊a⌋ ≤ ⌊b⌋ := Int.floor_mono h
  rcases hfloor.lt_or_eq with hlt | heq
  · -- between the two there is an integer
    have ha : a ≤ (⌊a⌋ + 1 : ℤ) := by
      push_cast
      exact (Int.lt_floor_add_one a).le
    calc roundEven a ≤ ⌊a⌋ + 1 := roundEven_le ha
      _ ≤ ⌊b⌋ := hlt
      _ ≤ roundEven b := le_roundEven (Int.floor_le b)
  · unfold roundEven
    rw [heq]
    split
    · split <;> omega
    · rename_i hup
      rw [not_or, not_lt, not_and] at hup
      rw [if_neg]
      rintro (hlt | ⟨htie, heven⟩)
      · linarith [hup.1]
      · exact hup.2 (le_antisymm (by linarith) hup.1) heven

theorem abs_roundEven_sub_le (q : ℚ) : |(roundEven q : ℚ) - q| ≤ 1 / 2 := by
  have hle := Int.floor_le q
  have hlt := Int.lt_floor_add_one q
  unfold roundEven
  split
  · rename_i h
    have h : 2 * (q - ⌊q⌋) ≤ 1 := h.elim le_of_lt fun h => h.1.le
    rw [abs_le]
    constructor <;> linarith
  · rename_i h
    rw [not_or, not_lt] at h
    push_cast
    rw [abs_le]
    constructor <;> linarith [h.1]

/-- A number within a half of an integer rounds to it. -/
theorem roundEven_eq_of_abs_sub_lt {q : ℚ} {n : ℤ} (h : |q - n| < 1 / 2) : roundEven q = n := by
  have hsplit : ((roundEven q - n : ℤ) : ℚ) = (roundEven q - q) + (q - n) := by
    push_cast
    ring
  have hlt : |((roundEven q - n : ℤ) : ℚ)| < 1 := by
    rw [hsplit]
    linarith [abs_add_le ((roundEven q : ℚ) - q) (q - n), abs_roundEven_sub_le q]
  have hzero : roundEven q - n = 0 := Int.abs_lt_one_iff.mp (by exact_mod_cast hlt)
  omega

end Double

namespace BinaryFormat

variable {F : BinaryFormat}

/-- The last place of the numbers up to one. -/
theorem lastPlace_le_of_abs_le_one (hF : 0 < F.bias) {q : ℚ} (h : |q| ≤ 1) :
    F.lastPlace q ≤ -F.fractionBits := by
  refine max_le ?_ (by unfold least; omega)
  rcases eq_or_ne q 0 with rfl | hq
  · rw [abs_zero, Int.log_zero_right]
    omega
  · have hlt : |q| < 2 ^ (1 : ℤ) := h.trans_lt (by norm_num)
    have := (Int.lt_zpow_iff_log_lt one_lt_two (abs_pos.mpr hq)).mp hlt
    omega

theorem abs_round_sub_le (q : ℚ) : |F.round q - q| ≤ 2 ^ F.lastPlace q / 2 := by
  have hplace : (0 : ℚ) < 2 ^ F.lastPlace q := by positivity
  have hsub : F.round q - q =
      (Double.roundEven (q / 2 ^ F.lastPlace q) - q / 2 ^ F.lastPlace q) *
        2 ^ F.lastPlace q := by
    rw [sub_mul, div_mul_cancel₀ q hplace.ne', round]
  rw [hsub, abs_mul, abs_of_pos hplace]
  calc _ ≤ 1 / 2 * 2 ^ F.lastPlace q :=
        mul_le_mul_of_nonneg_right (Double.abs_roundEven_sub_le _) hplace.le
    _ = 2 ^ F.lastPlace q / 2 := by ring

/-- A multiple of the last place bounds what is rounded below it. -/
theorem round_le_zpow {q : ℚ} {k : ℤ} (hk : F.lastPlace q ≤ k) (h : q ≤ 2 ^ k) :
    F.round q ≤ 2 ^ k := by
  obtain ⟨steps, rfl⟩ := Int.exists_add_of_le hk
  have hplace : (0 : ℚ) < 2 ^ F.lastPlace q := by positivity
  rw [zpow_add₀ two_ne_zero, zpow_natCast, mul_comm] at h ⊢
  refine mul_le_mul_of_nonneg_right ?_ hplace.le
  exact_mod_cast Double.roundEven_le (n := 2 ^ steps) (by
    push_cast
    rwa [div_le_iff₀ hplace])

theorem zpow_le_round {q : ℚ} {k : ℤ} (hk : F.lastPlace q ≤ k) (h : 2 ^ k ≤ q) :
    2 ^ k ≤ F.round q := by
  obtain ⟨steps, rfl⟩ := Int.exists_add_of_le hk
  have hplace : (0 : ℚ) < 2 ^ F.lastPlace q := by positivity
  rw [zpow_add₀ two_ne_zero, zpow_natCast, mul_comm] at h ⊢
  refine mul_le_mul_of_nonneg_right ?_ hplace.le
  exact_mod_cast Double.le_roundEven (n := 2 ^ steps) (by
    push_cast
    rwa [le_div_iff₀ hplace])

theorem round_mono_of_lastPlace_eq {a b : ℚ} (hplace : F.lastPlace a = F.lastPlace b)
    (h : a ≤ b) : F.round a ≤ F.round b := by
  rw [round, round, hplace]
  refine mul_le_mul_of_nonneg_right (Int.cast_le.mpr (Double.roundEven_mono ?_)) (by positivity)
  exact div_le_div_of_nonneg_right h (by positivity)

theorem round_mono_of_pos {a b : ℚ} (ha : 0 < a) (h : a ≤ b) : F.round a ≤ F.round b := by
  have hb : 0 < b := ha.trans_le h
  have hlog : Int.log 2 a ≤ Int.log 2 b := Int.log_mono_right ha h
  rcases eq_or_ne (F.lastPlace a) (F.lastPlace b) with hplace | hplace
  · exact round_mono_of_lastPlace_eq hplace h
  · -- the power of two at which the numbers of `b` begin lies between them
    unfold lastPlace at hplace
    rw [abs_of_pos ha, abs_of_pos hb] at hplace
    have hlt : Int.log 2 a + 1 ≤ Int.log 2 b := by omega
    have hpower : (2 : ℚ) ^ (Int.log 2 a + 1) ≤ 2 ^ Int.log 2 b :=
      zpow_le_zpow_right₀ one_le_two hlt
    calc F.round a ≤ 2 ^ Int.log 2 b := by
          refine round_le_zpow ?_ ((Int.lt_zpow_succ_log_self one_lt_two a).le.trans hpower)
          rw [lastPlace, abs_of_pos ha]
          omega
      _ ≤ F.round b := by
          refine zpow_le_round ?_ (Int.zpow_log_le_self one_lt_two hb)
          rw [lastPlace, abs_of_pos hb]
          omega

theorem round_neg (q : ℚ) : F.round (-q) = -F.round q := by
  have hplace : F.lastPlace (-q) = F.lastPlace q := by rw [lastPlace, lastPlace, abs_neg]
  rw [round, round, hplace, neg_div, Double.roundEven_neg]
  push_cast
  ring

theorem round_mono {a b : ℚ} (h : a ≤ b) : F.round a ≤ F.round b := by
  rcases lt_trichotomy a 0 with ha | rfl | ha
  · rcases lt_or_ge b 0 with hb | hb
    · have hneg := round_mono_of_pos (F := F) (neg_pos.mpr hb) (neg_le_neg h)
      rwa [round_neg, round_neg, neg_le_neg_iff] at hneg
    · exact (round_nonpos ha).trans (round_nonneg hb)
  · rcases h.eq_or_lt with rfl | hb
    · exact le_rfl
    · have hzero : F.round 0 = 0 := by
        rw [round, zero_div]
        exact mul_eq_zero_of_left (Int.cast_eq_zero.mpr (Double.roundEven_intCast 0)) _
      exact hzero.trans_le (round_nonneg h)
  · exact round_mono_of_pos ha h

end BinaryFormat

namespace Double

/-- The nearest doubles are in the order of the numbers. -/
theorem le_ofRat {a b : ℚ} (h : a ≤ b) : le (ofRat a) (ofRat b) = true := by
  simp only [← BinaryFormat.convert_binary64, BinaryFormat.convert]
  split <;> split <;> rename_i ha hb
  · exact decide_eq_true (BinaryFormat.round_mono h)
  · -- what is out of range above the first is so at the upper end
    have hpos : ¬ b < 0 := by
      rw [abs_lt] at ha
      rw [not_lt, le_abs] at hb
      rintro hneg
      rcases hb with hb | hb <;> linarith
    simp [le, hpos]
  · have hneg : a < 0 := by
      rw [abs_lt] at hb
      rw [not_lt, le_abs] at ha
      rcases ha with ha | ha <;> linarith
    simp [le, hneg]
  · rcases lt_or_ge a 0 with hneg | hpos
    · simp [le, hneg]
    · simp [le, not_lt.mpr (hpos.trans h)]

end Double
