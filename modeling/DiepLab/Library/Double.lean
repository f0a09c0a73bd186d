import Mathlib.Algebra.Order.Floor.Ring
import Mathlib.Data.Int.Log
import Mathlib.Data.Rat.Floor

/-!
Binary floating point, as far as programs see it.

A double is a rational number, an infinity or no number; the two zeros are one.
An operation on finite doubles is the exact one, rounded to the nearest double,
ties to even. From `limit` on the nearest double is infinite.
-/

inductive Double where
  | finite (q : ℚ)
  | inf (negative : Bool)
  | nan
  deriving DecidableEq, Repr

namespace Double

/-- Half a unit in the last place above the largest finite double. -/
def limit : ℚ := 2 ^ 1024 - 2 ^ 970

/-- The exponent of the last place of a number. -/
def lastPlace (q : ℚ) : ℤ := max (Int.log 2 |q| - 52) (-1074)

/-- The nearest integer, ties to even. -/
def roundEven (q : ℚ) : ℤ :=
  if 2 * (q - ⌊q⌋) < 1 ∨ 2 * (q - ⌊q⌋) = 1 ∧ ⌊q⌋ % 2 = 0 then ⌊q⌋ else ⌊q⌋ + 1

/-- The nearest double. -/
def ofRat (q : ℚ) : Double :=
  -- below the limit rounding does not reach the next power of two above the range
  if |q| < limit then .finite (roundEven (q / 2 ^ lastPlace q) * 2 ^ lastPlace q)
  else .inf (q < 0)

/-- `float(n)`, or none where it raises `OverflowError`. -/
def ofInt? (n : ℤ) : Option Double := if |(n : ℚ)| < limit then some (ofRat n) else none

/-- `math.isfinite`. -/
def isFinite : Double → Bool
  | .finite _ => true
  | _ => false

def neg : Double → Double
  | .finite q => .finite (-q)
  | .inf negative => .inf (! negative)
  | .nan => .nan

def sub : Double → Double → Double
  | .finite a, .finite b => ofRat (a - b)
  | .inf s, .inf t => if s = t then .nan else .inf s
  | .inf s, .finite _ => .inf s
  | .finite _, .inf t => .inf (! t)
  | _, _ => .nan

def add (x y : Double) : Double := x.sub y.neg

def mul : Double → Double → Double
  | .finite a, .finite b => ofRat (a * b)
  | .inf s, .inf t => .inf (s != t)
  | .inf s, .finite b => if b = 0 then .nan else .inf (s != decide (b < 0))
  | .finite a, .inf t => if a = 0 then .nan else .inf (decide (a < 0) != t)
  | _, _ => .nan

/-- The quotient by a finite double that is not zero. -/
def divBy (x : Double) (b : ℚ) : Double :=
  match x with
  | .finite a => ofRat (a / b)
  | .inf s => .inf (s != decide (b < 0))
  | .nan => .nan

/-- `a <= b`; nothing compares with what is no number. -/
def le : Double → Double → Bool
  | .finite a, .finite b => a ≤ b
  | .inf s, .inf t => s || ! t
  | .inf s, .finite _ => s
  | .finite _, .inf t => ! t
  | _, _ => false

/-- `a < b`. -/
def lt (a b : Double) : Bool := le a b && ! le b a

def abs : Double → Double
  | .finite a => .finite |a|
  | .inf _ => .inf false
  | .nan => .nan

/-- `max(a, b)`: the second only if it is greater. -/
def max (a b : Double) : Double := if le b a || ! le a b then a else b

@[simp] theorem isFinite_finite (q : ℚ) : (finite q).isFinite = true := rfl

theorem ofRat_of_lt {q : ℚ} (h : |q| < limit) : (ofRat q).isFinite = true := by
  rw [ofRat, if_pos h, isFinite_finite]

/-- An integer that becomes a double becomes a finite one. -/
theorem isFinite_of_ofInt? {n : ℤ} {x : Double} (h : ofInt? n = some x) :
    x.isFinite = true := by
  unfold ofInt? at h
  split at h
  · injection h with h
    exact h ▸ ofRat_of_lt ‹_›
  · exact nomatch h

theorem ofInt?_eq_none {n : ℤ} : ofInt? n = none ↔ limit ≤ |(n : ℚ)| := by
  unfold ofInt?
  split
  · rename_i h
    exact iff_of_false nofun (not_le.mpr h)
  · rename_i h
    exact iff_of_true rfl (not_lt.mp h)

theorem isFinite_neg (x : Double) : x.neg.isFinite = x.isFinite := by
  cases x <;> rfl

theorem isFinite_max {a b : Double} (ha : a.isFinite = true) (hb : b.isFinite = true) :
    (max a b).isFinite = true := by
  unfold max
  split <;> assumption

theorem lt_of_lt_of_le {x y z : Double} (hxy : lt x y = true) (hyz : le y z = true) :
    lt x z = true := by
  simp only [lt, Bool.and_eq_true, Bool.not_eq_true'] at hxy ⊢
  cases x <;> cases y <;> cases z <;> simp_all [le]
  grind

example : ofRat (1 / 10) = .finite (3602879701896397 / 36028797018963968) := by decide +kernel

example : ofInt? (2 ^ 53 + 1) = some (.finite (2 ^ 53)) := by decide +kernel

end Double
