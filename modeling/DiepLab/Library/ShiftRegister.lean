import Mathlib.Data.BitVec
import Mathlib.Logic.Function.Iterate

/-!
Cyclic redundancy checks.

The register is shifted towards its low end, and the bit that leaves it is fed
back along a polynomial. If the polynomial has the top bit, a shift loses
nothing, so that the register after a message tells apart any two messages that
differ in one stretch no longer than the register.
-/

namespace ShiftRegister

variable {w : ℕ} (poly : BitVec w)

def shift (c : BitVec w) : BitVec w := if c.getLsbD 0 then (c >>> 1) ^^^ poly else c >>> 1

/-- The register after a byte. -/
def absorb (c : BitVec w) (b : UInt8) : BitVec w :=
  (shift poly)^[8] (c ^^^ b.toBitVec.setWidth w)

def run (c : BitVec w) (data : List UInt8) : BitVec w := data.foldl (absorb poly) c

/-- The bytes as one number, the first of them lowest. -/
def word (w : ℕ) : List UInt8 → BitVec w
  | [] => 0
  | b :: bs => b.toBitVec.setWidth w ^^^ (word w bs <<< 8)

variable {poly}

@[simp] theorem run_nil (c : BitVec w) : run poly c [] = c := rfl

@[simp] theorem run_cons (c : BitVec w) (b : UInt8) (bs : List UInt8) :
    run poly c (b :: bs) = run poly (absorb poly c b) bs := rfl

theorem run_append (c : BitVec w) (xs ys : List UInt8) :
    run poly c (xs ++ ys) = run poly (run poly c xs) ys := List.foldl_append

/-! ### Shifts -/

theorem shift_xor (a b : BitVec w) : shift poly (a ^^^ b) = shift poly a ^^^ shift poly b := by
  unfold shift
  rw [BitVec.getLsbD_xor, BitVec.ushiftRight_xor_distrib]
  cases a.getLsbD 0 <;> cases b.getLsbD 0
  · rfl
  · exact BitVec.xor_assoc _ _ _
  · change a >>> 1 ^^^ b >>> 1 ^^^ poly = a >>> 1 ^^^ poly ^^^ b >>> 1
    rw [BitVec.xor_assoc, BitVec.xor_assoc, BitVec.xor_comm poly]
  · change a >>> 1 ^^^ b >>> 1 = a >>> 1 ^^^ poly ^^^ (b >>> 1 ^^^ poly)
    rw [BitVec.xor_comm (b >>> 1) poly, BitVec.xor_assoc, ← BitVec.xor_assoc poly,
      BitVec.xor_self, BitVec.zero_xor]

theorem iterate_shift_xor (k : ℕ) (a b : BitVec w) :
    (shift poly)^[k] (a ^^^ b) = (shift poly)^[k] a ^^^ (shift poly)^[k] b := by
  induction k generalizing a b with
  | zero => rfl
  | succ k ih => rw [Function.iterate_succ_apply, shift_xor, ih]; rfl

/-- The bit that was fed back is the top bit afterwards. -/
theorem msb_shift (hpoly : poly.msb = true) (c : BitVec w) :
    (shift poly c).msb = c.getLsbD 0 := by
  have hright : (c >>> 1).msb = false := by simp [BitVec.msb_ushiftRight]
  unfold shift
  split
  · rename_i h
    rw [BitVec.msb_xor, hright, hpoly, h]
    rfl
  · rename_i h
    rw [hright, Bool.eq_false_of_not_eq_true h]

theorem shift_injective (hpoly : poly.msb = true) : Function.Injective (shift poly) := by
  intro a b h
  have hlow : a.getLsbD 0 = b.getLsbD 0 := by
    rw [← msb_shift hpoly, ← msb_shift hpoly, h]
  have hhigh : a >>> 1 = b >>> 1 := by
    unfold shift at h
    rw [hlow] at h
    split at h
    · simpa using h
    · exact h
  refine BitVec.eq_of_getLsbD_eq fun i _ => ?_
  cases i with
  | zero => exact hlow
  | succ i =>
      have hi := congrArg (·.getLsbD i) hhigh
      simp only [BitVec.getLsbD_ushiftRight] at hi
      rwa [Nat.add_comm 1 i] at hi

/-- Where the low bits are clear nothing is fed back. -/
theorem iterate_shift_shiftLeft {k : ℕ} {c : BitVec w}
    (hc : ∀ i, w ≤ i + k → c.getLsbD i = false) : (shift poly)^[k] (c <<< k) = c := by
  induction k with
  | zero => simp
  | succ k ih =>
      have hone : shift poly (c <<< (k + 1)) = c <<< k := by
        have hbit : (c <<< (k + 1)).getLsbD 0 = false := by simp
        rw [shift, hbit, if_neg Bool.false_ne_true]
        refine BitVec.eq_of_getLsbD_eq fun i hi => ?_
        simp only [BitVec.getLsbD_ushiftRight, BitVec.getLsbD_shiftLeft]
        by_cases htop : 1 + i < w
        · by_cases hik : i < k
          · simp [hik, show 1 + i < k + 1 by omega]
          · simp [hi, htop, hik, show ¬1 + i < k + 1 by omega,
              show 1 + i - (k + 1) = i - k by omega]
        · have hzero := hc (i - k) (by omega)
          simp [htop, hzero]
      rw [Function.iterate_succ_apply, hone]
      exact ih fun i hi => hc i (by omega)

/-! ### Words -/

theorem getLsbD_word {bs : List UInt8} {i : ℕ} (hi : 8 * bs.length ≤ i) :
    (word w bs).getLsbD i = false := by
  induction bs generalizing i with
  | nil => simp [word]
  | cons b bs ih =>
      rw [List.length_cons] at hi
      have hrest := ih (i := i - 8) (by omega)
      have hbyte : b.toBitVec.getLsbD i = false := BitVec.getLsbD_of_ge _ _ (by omega)
      simp [word, hrest, hbyte]

theorem word_injective {bs bs' : List UInt8} (hlen : bs.length = bs'.length)
    (hw : 8 * bs.length ≤ w) (h : word w bs = word w bs') : bs = bs' := by
  induction bs generalizing bs' with
  | nil => exact (List.length_eq_zero_iff.mp hlen.symm).symm
  | cons b bs ih =>
      cases bs' with
      | nil => exact nomatch hlen
      | cons b' bs' =>
          rw [List.length_cons] at hw
          rw [List.length_cons, List.length_cons, Nat.succ_inj] at hlen
          have hbits (i : ℕ) := congrArg (·.getLsbD i) h
          simp only [word, BitVec.getLsbD_xor, BitVec.getLsbD_setWidth,
            BitVec.getLsbD_shiftLeft] at hbits
          have hhead : b = b' := by
            refine UInt8.eq_of_toBitVec_eq (BitVec.eq_of_getLsbD_eq fun i hi => ?_)
            have := hbits i
            simpa [hi, show i < w by omega] using this
          have htail : word w bs = word w bs' := by
            refine BitVec.eq_of_getLsbD_eq fun i hi => ?_
            by_cases hi' : 8 * bs.length ≤ i
            · rw [getLsbD_word hi', getLsbD_word (hlen ▸ hi')]
            · have := hbits (i + 8)
              simpa [hhead, show i + 8 < w by omega, show ¬i + 8 < 8 by omega] using this
          rw [hhead, ih hlen (by omega) htail]

/-- As long as the register is not full, a message is one word. -/
theorem run_eq {bs : List UInt8} (hw : 8 * bs.length ≤ w) (c : BitVec w) :
    run poly c bs = (shift poly)^[8 * bs.length] (c ^^^ word w bs) := by
  induction bs generalizing c with
  | nil => simp [word]
  | cons b bs ih =>
      rw [List.length_cons] at hw
      have hword : (shift poly)^[8] (word w bs <<< 8) = word w bs :=
        iterate_shift_shiftLeft fun i hi => getLsbD_word (by omega)
      calc run poly c (b :: bs)
          = (shift poly)^[8 * bs.length] (absorb poly c b ^^^ word w bs) := by
            rw [run_cons, ih (by omega)]
        _ = (shift poly)^[8 * bs.length]
              ((shift poly)^[8] (c ^^^ b.toBitVec.setWidth w ^^^ (word w bs <<< 8))) := by
            rw [iterate_shift_xor 8, hword, absorb]
        _ = (shift poly)^[8 * (b :: bs).length] (c ^^^ word w (b :: bs)) := by
            rw [← Function.iterate_add_apply, word, BitVec.xor_assoc, List.length_cons,
              Nat.mul_succ]

/-! ### What the register tells -/

theorem run_injective (hpoly : poly.msb = true) (bs : List UInt8) :
    Function.Injective (run poly · bs) := by
  induction bs with
  | nil => exact Function.injective_id
  | cons b bs ih =>
      intro a c h
      have habsorb := (shift_injective hpoly).iterate 8 (ih h)
      exact (BitVec.xor_left_inj _).mp habsorb

/-- A stretch that is no longer than the register is told from any other. -/
theorem eq_of_run_eq (hpoly : poly.msb = true) {c : BitVec w}
    {pre stretch stretch' post : List UInt8}
    (hlen : stretch.length = stretch'.length) (hw : 8 * stretch.length ≤ w)
    (h : run poly c (pre ++ (stretch ++ post)) = run poly c (pre ++ (stretch' ++ post))) :
    stretch = stretch' := by
  simp only [run_append] at h
  have hstretch := run_injective hpoly post h
  have hw' : 8 * stretch'.length ≤ w := hlen ▸ hw
  change run poly (run poly c pre) stretch = run poly (run poly c pre) stretch' at hstretch
  rw [run_eq hw, run_eq hw', hlen] at hstretch
  exact word_injective hlen hw
    ((BitVec.xor_right_inj _).mp ((shift_injective hpoly).iterate _ hstretch))

/-- Bytes that fill the register are the check of a message if they take it to a
state that is the same for all messages. -/
theorem run_append_eq_iff (hpoly : poly.msb = true) {tail : List UInt8}
    (hw : 8 * tail.length = w) (c out : BitVec w) (message : List UInt8) :
    run poly c (message ++ tail) = (shift poly)^[w] out ↔
      run poly c message ^^^ out = word w tail := by
  rw [run_append, run_eq hw.le, hw, ((shift_injective hpoly).iterate w).eq_iff]
  constructor
  · rintro rfl
    rw [← BitVec.xor_assoc, BitVec.xor_self, BitVec.zero_xor]
  · intro h
    rw [← h, ← BitVec.xor_assoc, BitVec.xor_self, BitVec.zero_xor]

end ShiftRegister
