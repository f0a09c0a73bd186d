import DiepLab.Library.Double
import Mathlib.Algebra.Order.Field.Power
import Mathlib.Tactic.Linarith
import Mathlib.Tactic.Positivity
import Mathlib.Tactic.FieldSimp
import Mathlib.Tactic.Ring

/-!
Binary interchange formats.

A format has a bias and a number of fraction bits; the codes of its exponents
are the numbers up to `2 * bias + 1`, the last of which stands for infinities and
for what is no number. The pattern of a finite magnitude is one number: the
exponent and the rounded significand are added, so that a significand that is
rounded up to the next power of two carries into the exponent.
-/

structure BinaryFormat where
  bias : ℕ
  fractionBits : ℕ

def binary32 : BinaryFormat := ⟨127, 23⟩

def binary64 : BinaryFormat := ⟨1023, 52⟩

namespace BinaryFormat

variable (F : BinaryFormat)

/-- The exponent of the last place of the smallest numbers. -/
def least : ℤ := 1 - F.bias - F.fractionBits

/-- The exponent of the last place of a number. -/
def lastPlace (q : ℚ) : ℤ := max (Int.log 2 |q| - F.fractionBits) F.least

/-- Half a unit in the last place above the largest finite number. -/
def limit : ℚ := 2 ^ (F.bias + 1) - 2 ^ ((F.bias : ℤ) - F.fractionBits - 1)

/-- The nearest number of the format, ties to even. -/
def round (q : ℚ) : ℚ := Double.roundEven (q / 2 ^ F.lastPlace q) * 2 ^ F.lastPlace q

/-- The nearest number, or the infinity from the limit on. -/
def convert : Double → Double
  | .finite q => if |q| < F.limit then .finite (F.round q) else .inf (q < 0)
  | x => x

/-- The pattern of the magnitude of a finite number. -/
def magnitude (q : ℚ) : ℕ :=
  if q = 0 then 0
  else (F.lastPlace q - F.least).toNat * 2 ^ F.fractionBits +
    (Double.roundEven (|q| / 2 ^ F.lastPlace q)).toNat

/-- The weight of the sign. -/
def signWeight : ℕ := 2 * (F.bias + 1) * 2 ^ F.fractionBits

/-- The pattern of a number, or none where it overflows. -/
def encode : Double → Option ℕ
  | .finite q =>
      if |q| < F.limit then some ((if q < 0 then F.signWeight else 0) + F.magnitude q) else none
  | .inf negative =>
      some ((if negative then F.signWeight else 0) + (2 * F.bias + 1) * 2 ^ F.fractionBits)
  | .nan => some ((2 * F.bias + 1) * 2 ^ F.fractionBits + 2 ^ (F.fractionBits - 1))

/-- The value of the pattern of a finite magnitude. -/
def value (n : ℕ) : ℚ :=
  if n / 2 ^ F.fractionBits = 0 then n * 2 ^ F.least
  else ((2 ^ F.fractionBits + n % 2 ^ F.fractionBits : ℕ) : ℚ) *
    2 ^ ((n / 2 ^ F.fractionBits - 1 : ℕ) + F.least)

def decode (n : ℕ) : Double :=
  let magnitude := n % F.signWeight
  let negative : Bool := n / F.signWeight % 2 = 1
  if magnitude / 2 ^ F.fractionBits = 2 * F.bias + 1 then
    if magnitude % 2 ^ F.fractionBits = 0 then .inf negative else .nan
  else .finite (if negative then -F.value magnitude else F.value magnitude)

end BinaryFormat

/-! ### Rounding to an integer -/

namespace Double

theorem le_roundEven {n : ℤ} {q : ℚ} (h : (n : ℚ) ≤ q) : n ≤ roundEven q := by
  have hfloor : n ≤ ⌊q⌋ := Int.le_floor.mpr h
  unfold roundEven
  split <;> omega

theorem roundEven_le {n : ℤ} {q : ℚ} (h : q ≤ n) : roundEven q ≤ n := by
  unfold roundEven
  split
  · exact Int.cast_le.mp ((Int.floor_le q).trans h)
  · rename_i hround
    rw [not_or, not_lt] at hround
    have hlt : (⌊q⌋ : ℚ) < n := by linarith [hround.1]
    exact Int.cast_lt.mp hlt

/-- Below the middle nothing is rounded up. -/
theorem roundEven_lt {n : ℤ} {q : ℚ} (h : q < n - 1 / 2) : roundEven q < n := by
  have hfloor : ⌊q⌋ < n := Int.floor_lt.mpr (by linarith)
  unfold roundEven
  split
  · exact hfloor
  · rename_i hround
    rw [not_or, not_lt] at hround
    have hlt : ((⌊q⌋ + 1 : ℤ) : ℚ) < n := by
      push_cast
      linarith [hround.1]
    exact Int.cast_lt.mp hlt

@[simp] theorem roundEven_intCast (n : ℤ) : roundEven n = n :=
  le_antisymm (roundEven_le le_rfl) (le_roundEven le_rfl)

theorem roundEven_neg (q : ℚ) : roundEven (-q) = -roundEven q := by
  by_cases hint : (⌊q⌋ : ℚ) = q
  · rw [← hint, ← Int.cast_neg, roundEven_intCast, roundEven_intCast]
  · have hlt : (⌊q⌋ : ℚ) < q := lt_of_le_of_ne (Int.floor_le q) hint
    have hfloor : ⌊-q⌋ = -⌊q⌋ - 1 := by
      rw [Int.floor_eq_iff]
      push_cast
      have := Int.lt_floor_add_one q
      constructor <;> linarith
    have hcast : ((-⌊q⌋ - 1 : ℤ) : ℚ) = -⌊q⌋ - 1 := by push_cast; rfl
    unfold roundEven
    rw [hfloor, hcast]
    -- the fractions of the two numbers add up to one
    rcases lt_trichotomy (2 * (q - ⌊q⌋)) 1 with h | h | h
    · rw [if_neg (by rw [not_or, not_lt]; exact ⟨by linarith, fun hh => by linarith [hh.1]⟩),
        if_pos (Or.inl h)]
      omega
    · have hhalf : 2 * (-q - (-(⌊q⌋ : ℚ) - 1)) = 1 := by linarith
      rcases Int.emod_two_eq_zero_or_one ⌊q⌋ with heven | hodd
      · rw [if_neg (by rw [not_or, not_lt]; exact ⟨hhalf.ge, fun hh => by omega⟩),
          if_pos (Or.inr ⟨h, heven⟩)]
        omega
      · rw [if_pos (Or.inr ⟨hhalf, by omega⟩),
          if_neg (by rw [not_or, not_lt]; exact ⟨h.ge, fun hh => by omega⟩)]
        omega
    · rw [if_pos (Or.inl (by linarith)),
        if_neg (by rw [not_or, not_lt]; exact ⟨h.le, fun hh => by linarith [hh.1]⟩)]
      omega

theorem lastPlace_neg (q : ℚ) : lastPlace (-q) = lastPlace q := by
  rw [lastPlace, abs_neg, lastPlace]

theorem ofRat_neg (q : ℚ) : ofRat (-q) = (ofRat q).neg := by
  rw [ofRat, ofRat, abs_neg, lastPlace_neg]
  split
  · rw [neg_div, roundEven_neg, neg]
    push_cast
    rw [neg_mul]
  · rename_i hlimit
    have hne : q ≠ 0 := by
      rintro rfl
      exact hlimit (by decide +kernel)
    rw [neg, ← decide_not]
    refine congrArg inf (decide_eq_decide.mpr ?_)
    rw [neg_neg_iff_pos, not_lt, lt_iff_le_and_ne]
    exact and_iff_left hne.symm

theorem abs_roundEven (q : ℚ) : |roundEven q| = roundEven |q| := by
  rcases le_total 0 q with h | h
  · have hround : 0 ≤ roundEven q := le_roundEven (by rwa [Int.cast_zero])
    rw [abs_of_nonneg h, abs_of_nonneg hround]
  · have hround : roundEven q ≤ 0 := roundEven_le (by rwa [Int.cast_zero])
    rw [abs_of_nonpos h, abs_of_nonpos hround, roundEven_neg]

end Double

namespace BinaryFormat

variable {F : BinaryFormat}

/-- The value of a pattern with the exponent code `step + 1`. -/
theorem value_normal {step fraction : ℕ} (h : fraction < 2 ^ F.fractionBits) :
    F.value ((step + 1) * 2 ^ F.fractionBits + fraction) =
      ((2 ^ F.fractionBits + fraction : ℕ) : ℚ) * 2 ^ (step + F.least) := by
  have hpos : 0 < 2 ^ F.fractionBits := Nat.two_pow_pos _
  have hcode : ((step + 1) * 2 ^ F.fractionBits + fraction) / 2 ^ F.fractionBits = step + 1 := by
    rw [Nat.add_comm, Nat.add_mul_div_right _ _ hpos, Nat.div_eq_of_lt h, Nat.zero_add]
  have hfraction :
      ((step + 1) * 2 ^ F.fractionBits + fraction) % 2 ^ F.fractionBits = fraction := by
    rw [Nat.add_comm, Nat.add_mul_mod_self_right, Nat.mod_eq_of_lt h]
  rw [value, hcode, hfraction, if_neg (Nat.succ_ne_zero step), Nat.add_sub_cancel]

/-- The value of a pattern that is an exponent and a significand: the numbers
below the first exponent have no leading bit. -/
theorem value_add {step significand : ℕ} (hle : significand ≤ 2 * 2 ^ F.fractionBits)
    (hlead : step = 0 ∨ 2 ^ F.fractionBits ≤ significand) :
    F.value (step * 2 ^ F.fractionBits + significand) = significand * 2 ^ (step + F.least) := by
  have hpos : 0 < 2 ^ F.fractionBits := Nat.two_pow_pos _
  rcases Nat.lt_or_ge significand (2 ^ F.fractionBits) with hlt | hge
  · obtain rfl : step = 0 := hlead.resolve_right (by omega)
    have hcode : (0 * 2 ^ F.fractionBits + significand) / 2 ^ F.fractionBits = 0 := by
      rw [Nat.zero_mul, Nat.zero_add, Nat.div_eq_of_lt hlt]
    rw [value, if_pos hcode]
    simp
  · obtain ⟨fraction, rfl⟩ := Nat.exists_eq_add_of_le hge
    have hsum : step * 2 ^ F.fractionBits + (2 ^ F.fractionBits + fraction) =
        (step + 1) * 2 ^ F.fractionBits + fraction := by ring
    rw [hsum]
    rcases Nat.lt_or_ge fraction (2 ^ F.fractionBits) with hlt | hcarry
    · exact value_normal hlt
    · -- the significand has been rounded up to the next power of two
      obtain rfl : fraction = 2 ^ F.fractionBits := by omega
      have hnext : (step + 1) * 2 ^ F.fractionBits + 2 ^ F.fractionBits =
          ((step + 1) + 1) * 2 ^ F.fractionBits + 0 := by ring
      rw [hnext, value_normal hpos]
      push_cast
      rw [add_right_comm, zpow_add_one₀ two_ne_zero]
      ring

theorem least_le_lastPlace (q : ℚ) : F.least ≤ F.lastPlace q := le_max_right _ _

theorem two_zpow_lastPlace (q : ℚ) :
    (2 : ℚ) ^ ((F.lastPlace q - F.least).toNat + F.least) = 2 ^ F.lastPlace q := by
  rw [Int.toNat_of_nonneg (by have := least_le_lastPlace (F := F) q; omega), sub_add_cancel]

/-- The significand before rounding. -/
theorem significand_lt (q : ℚ) : |q| / 2 ^ F.lastPlace q < 2 * 2 ^ F.fractionBits := by
  have hlog : |q| < 2 ^ (Int.log 2 |q| + 1) := Int.lt_zpow_succ_log_self one_lt_two |q|
  have hle : Int.log 2 |q| + 1 ≤ F.lastPlace q + (F.fractionBits + 1 : ℕ) := by
    have : Int.log 2 |q| - F.fractionBits ≤ F.lastPlace q := le_max_left _ _
    omega
  rw [div_lt_iff₀ (by positivity)]
  calc |q| < 2 ^ (Int.log 2 |q| + 1) := hlog
    _ ≤ 2 ^ (F.lastPlace q + (F.fractionBits + 1 : ℕ)) := zpow_le_zpow_right₀ one_le_two hle
    _ = 2 * 2 ^ F.fractionBits * 2 ^ F.lastPlace q := by
      rw [zpow_add₀ two_ne_zero, zpow_natCast, pow_succ]
      ring

/-- Above the first exponent the significand has a leading bit. -/
theorem le_significand {q : ℚ} (hq : q ≠ 0) (h : F.least < F.lastPlace q) :
    (2 : ℚ) ^ F.fractionBits ≤ |q| / 2 ^ F.lastPlace q := by
  have hplace : F.lastPlace q = Int.log 2 |q| - F.fractionBits := by
    unfold lastPlace at h ⊢
    omega
  have hlog : (2 : ℚ) ^ Int.log 2 |q| ≤ |q| :=
    Int.zpow_log_le_self one_lt_two (abs_pos.mpr hq)
  rw [le_div_iff₀ (by positivity), hplace, ← zpow_natCast, ← zpow_add₀ two_ne_zero]
  simpa using hlog

/-- The rounded significand as a number. -/
def significand (F : BinaryFormat) (q : ℚ) : ℕ :=
  (Double.roundEven (|q| / 2 ^ F.lastPlace q)).toNat

theorem cast_significand (q : ℚ) :
    (F.significand q : ℤ) = Double.roundEven (|q| / 2 ^ F.lastPlace q) :=
  Int.toNat_of_nonneg (Double.le_roundEven (by rw [Int.cast_zero]; positivity))

theorem significand_le (q : ℚ) : F.significand q ≤ 2 * 2 ^ F.fractionBits := by
  have h : (F.significand q : ℤ) ≤ (2 * 2 ^ F.fractionBits : ℕ) := by
    rw [cast_significand]
    refine Double.roundEven_le ?_
    push_cast
    exact (significand_lt q).le
  omega

theorem step_eq_zero_or {q : ℚ} (hq : q ≠ 0) :
    (F.lastPlace q - F.least).toNat = 0 ∨ 2 ^ F.fractionBits ≤ F.significand q := by
  rcases (least_le_lastPlace (F := F) q).eq_or_lt with h | h
  · exact Or.inl (by omega)
  · have hle : ((2 ^ F.fractionBits : ℕ) : ℤ) ≤ F.significand q := by
      rw [cast_significand]
      refine Double.le_roundEven ?_
      push_cast
      exact le_significand hq h
    exact Or.inr (by omega)

/-- The pattern of a magnitude has the value of the rounded number. -/
theorem value_magnitude (q : ℚ) : F.value (F.magnitude q) = |F.round q| := by
  by_cases hq : q = 0
  · subst hq
    have hzero : Double.roundEven 0 = 0 := Double.roundEven_intCast 0
    simp [magnitude, value, round, hzero]
  · have hplace : (0 : ℚ) < 2 ^ F.lastPlace q := by positivity
    have habs : |F.round q| = F.significand q * 2 ^ F.lastPlace q := by
      have hcast : ((F.significand q : ℕ) : ℚ) = ((F.significand q : ℤ) : ℚ) := rfl
      rw [hcast, cast_significand, round, abs_mul, abs_of_pos hplace, ← Int.cast_abs,
        Double.abs_roundEven, abs_div, abs_of_pos hplace]
    rw [magnitude, if_neg hq]
    change F.value (_ + F.significand q) = _
    rw [value_add (significand_le q) (step_eq_zero_or hq), two_zpow_lastPlace, habs]

theorem round_nonpos {q : ℚ} (h : q < 0) : F.round q ≤ 0 := by
  have hround : Double.roundEven (q / 2 ^ F.lastPlace q) ≤ 0 :=
    Double.roundEven_le (by
      rw [Int.cast_zero]
      exact div_nonpos_of_nonpos_of_nonneg h.le (by positivity))
  exact mul_nonpos_of_nonpos_of_nonneg (Int.cast_nonpos.mpr hround) (by positivity)

theorem round_nonneg {q : ℚ} (h : 0 ≤ q) : 0 ≤ F.round q := by
  have hround : 0 ≤ Double.roundEven (q / 2 ^ F.lastPlace q) :=
    Double.le_roundEven (by
      rw [Int.cast_zero]
      exact div_nonneg h (by positivity))
  exact mul_nonneg (Int.cast_nonneg hround) (by positivity)

/-- Below the limit the exponent has a code. -/
theorem lastPlace_le {q : ℚ} (hF : 0 < F.bias) (h : |q| < F.limit) :
    F.lastPlace q ≤ F.bias - F.fractionBits := by
  refine max_le ?_ (by unfold least; omega)
  rcases eq_or_ne q 0 with rfl | hq
  · rw [abs_zero, Int.log_zero_right]
    omega
  · have hlt : |q| < 2 ^ ((F.bias + 1 : ℕ) : ℤ) := by
      refine h.trans ?_
      rw [limit, zpow_natCast]
      exact sub_lt_self _ (by positivity)
    have := (Int.lt_zpow_iff_log_lt one_lt_two (abs_pos.mpr hq)).mp hlt
    omega

/-- At the last exponent the significand is not rounded up to the next power. -/
theorem significand_lt_of_last {q : ℚ} (hplace : F.lastPlace q = F.bias - F.fractionBits)
    (h : |q| < F.limit) : F.significand q < 2 * 2 ^ F.fractionBits := by
  have hlt : (F.significand q : ℤ) < (2 * 2 ^ F.fractionBits : ℕ) := by
    rw [cast_significand]
    refine Double.roundEven_lt ?_
    rw [hplace, div_lt_iff₀ (by positivity)]
    refine h.trans_eq ?_
    have hbias : (2 : ℚ) ^ ((F.bias : ℤ) - F.fractionBits) * 2 ^ F.fractionBits = 2 ^ F.bias := by
      rw [← zpow_natCast, ← zpow_natCast, ← zpow_add₀ two_ne_zero, sub_add_cancel]
    rw [limit, pow_succ, ← hbias, zpow_sub_one₀ two_ne_zero]
    push_cast
    ring
  omega

/-- Rounding does not reach the code of the infinities. -/
theorem magnitude_lt {q : ℚ} (hF : 0 < F.bias) (h : |q| < F.limit) :
    F.magnitude q < (2 * F.bias + 1) * 2 ^ F.fractionBits := by
  have hpos : 0 < 2 ^ F.fractionBits := Nat.two_pow_pos _
  unfold magnitude
  split
  · positivity
  · change _ + F.significand q < _
    have hstep : (F.lastPlace q - F.least).toNat ≤ 2 * F.bias - 1 := by
      have := lastPlace_le hF h
      unfold least
      omega
    rcases hstep.lt_or_eq with hlt | heq
    · have hle := Nat.mul_le_mul_right (2 ^ F.fractionBits)
        (show (F.lastPlace q - F.least).toNat ≤ 2 * F.bias - 2 by omega)
      have hsig := significand_le (F := F) q
      calc _ ≤ (2 * F.bias - 2) * 2 ^ F.fractionBits + 2 * 2 ^ F.fractionBits :=
            Nat.add_le_add hle hsig
        _ = 2 * F.bias * 2 ^ F.fractionBits := by
            rw [← Nat.add_mul]
            congr 1
            omega
        _ < _ := Nat.mul_lt_mul_of_pos_right (Nat.lt_succ_self _) hpos
    · have hplace : F.lastPlace q = F.bias - F.fractionBits := by
        have := lastPlace_le hF h
        unfold least at heq
        omega
      have hsig := significand_lt_of_last hplace h
      calc _ < (2 * F.bias - 1) * 2 ^ F.fractionBits + 2 * 2 ^ F.fractionBits := by
            rw [heq]
            exact Nat.add_lt_add_left hsig _
        _ = _ := by
            rw [← Nat.add_mul]
            congr 1
            omega

theorem magnitude_lt_signWeight {q : ℚ} (hF : 0 < F.bias) (h : |q| < F.limit) :
    F.magnitude q < F.signWeight :=
  (magnitude_lt hF h).trans_le (Nat.mul_le_mul_right _ (by omega))

/-- The sign is apart from the magnitude. -/
theorem decode_sign {m : ℕ} (h : m < F.signWeight) (negative : Bool) :
    F.decode ((if negative then F.signWeight else 0) + m) =
      if m / 2 ^ F.fractionBits = 2 * F.bias + 1 then
        if m % 2 ^ F.fractionBits = 0 then .inf negative else .nan
      else .finite (if negative then -F.value m else F.value m) := by
  have hpos : 0 < F.signWeight := by unfold signWeight; positivity
  cases negative
  · simp [decode, Nat.mod_eq_of_lt h, Nat.div_eq_of_lt h]
  · simp [decode, Nat.mod_eq_of_lt h, Nat.div_eq_of_lt h, Nat.add_div_left _ hpos]

theorem decode_special {fraction : ℕ} (h : fraction < 2 ^ F.fractionBits) (negative : Bool) :
    F.decode ((if negative then F.signWeight else 0) +
        ((2 * F.bias + 1) * 2 ^ F.fractionBits + fraction)) =
      if fraction = 0 then .inf negative else .nan := by
  have hpos : 0 < 2 ^ F.fractionBits := Nat.two_pow_pos _
  have hlt : (2 * F.bias + 1) * 2 ^ F.fractionBits + fraction < F.signWeight := by
    have hsum : F.signWeight = (2 * F.bias + 1) * 2 ^ F.fractionBits + 2 ^ F.fractionBits := by
      unfold signWeight
      ring
    omega
  have hcode :
      ((2 * F.bias + 1) * 2 ^ F.fractionBits + fraction) / 2 ^ F.fractionBits = 2 * F.bias + 1 := by
    rw [Nat.add_comm, Nat.add_mul_div_right _ _ hpos, Nat.div_eq_of_lt h, Nat.zero_add]
  have hfraction :
      ((2 * F.bias + 1) * 2 ^ F.fractionBits + fraction) % 2 ^ F.fractionBits = fraction := by
    rw [Nat.add_comm, Nat.add_mul_mod_self_right, Nat.mod_eq_of_lt h]
  rw [decode_sign hlt, hcode, hfraction, if_pos rfl]

/-- What is read back is the nearest number of the format. -/
theorem decode_encode (hF : 0 < F.bias) (hp : 0 < F.fractionBits) {x : Double} {n : ℕ}
    (h : F.encode x = some n) : F.decode n = F.convert x := by
  cases x with
  | finite q =>
      rw [encode] at h
      split at h
      · rename_i hlt
        injection h with h
        have hcode : F.magnitude q / 2 ^ F.fractionBits ≠ 2 * F.bias + 1 :=
          (Nat.div_lt_of_lt_mul (Nat.mul_comm _ _ ▸ magnitude_lt hF hlt)).ne
        have hsign := decode_sign (magnitude_lt_signWeight hF hlt) (decide (q < 0))
        rw [if_neg hcode, value_magnitude] at hsign
        rw [← h, convert, if_pos hlt]
        by_cases hq : q < 0
        · simpa [hq, abs_of_nonpos (round_nonpos hq)] using hsign
        · simpa [hq, abs_of_nonneg (round_nonneg (not_lt.mp hq))] using hsign
      · exact nomatch h
  | inf negative =>
      injection h with h
      rw [← h]
      exact decode_special (Nat.two_pow_pos _) negative
  | nan =>
      injection h with h
      have hfraction : 2 ^ (F.fractionBits - 1) < 2 ^ F.fractionBits :=
        Nat.pow_lt_pow_right one_lt_two (by omega)
      have hspecial := decode_special hfraction false
      rw [if_neg (Nat.two_pow_pos _).ne', if_neg Bool.false_ne_true, Nat.zero_add] at hspecial
      rw [← h, hspecial]
      rfl

/-- A pattern has one bit more than a magnitude. -/
theorem encode_lt (hF : 0 < F.bias) (hp : 0 < F.fractionBits) {x : Double} {n : ℕ}
    (h : F.encode x = some n) : n < 2 * F.signWeight := by
  have hsum : F.signWeight = (2 * F.bias + 1) * 2 ^ F.fractionBits + 2 ^ F.fractionBits := by
    unfold signWeight
    ring
  have hpos : 0 < 2 ^ F.fractionBits := Nat.two_pow_pos _
  cases x with
  | finite q =>
      rw [encode] at h
      split at h
      · rename_i hlt
        injection h with h
        have := magnitude_lt_signWeight hF hlt
        split at h <;> omega
      · exact nomatch h
  | inf negative =>
      injection h with h
      split at h <;> omega
  | nan =>
      injection h with h
      have hfraction : 2 ^ (F.fractionBits - 1) < 2 ^ F.fractionBits :=
        Nat.pow_lt_pow_right one_lt_two (by omega)
      omega

/-- A double is rounded to a number of `binary64`. -/
theorem convert_binary64 (q : ℚ) : binary64.convert (.finite q) = Double.ofRat q := by
  have hplace : binary64.lastPlace q = Double.lastPlace q := rfl
  have hlimit : binary64.limit = Double.limit := by norm_num [limit, binary64, Double.limit]
  rw [convert, Double.ofRat, round, hplace, hlimit]

end BinaryFormat

example : binary32.encode (.finite (1 / 10)) = some 0x3DCCCCCD := by decide +kernel

example : binary64.encode (.finite (-230)) = some 0xC06CC00000000000 := by decide +kernel
