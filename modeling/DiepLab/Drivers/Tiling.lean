import DiepLab.Drivers.RegisterBlock
import DiepLab.Library.Loops
import Mathlib.Tactic.Linarith

/-!
Points that tile the addresses of a block.

With a base between the first address and the end of the range every address has
a place in the block, and no two have the same; the places of the addresses below
the base are those of the registers one block length further on.
-/

namespace DiepLab.Drivers

open Sunspec

/-- The points stand one after the other from the first address to the second. -/
def Tiles : ℕ → List Point → ℕ → Prop
  | lo, [], hi => lo = hi
  | lo, p :: points, hi => p.address = lo ∧ Tiles (lo + p.type.size) points hi

instance decidableTiles : (lo : ℕ) → (points : List Point) → (hi : ℕ) →
    Decidable (Tiles lo points hi)
  | lo, [], hi => inferInstanceAs (Decidable (lo = hi))
  | lo, p :: points, hi =>
      have := decidableTiles (lo + p.type.size) points hi
      inferInstanceAs (Decidable (p.address = lo ∧ _))

section Tiles

variable {lo hi : ℕ} {points : List Point}

theorem Tiles.le (h : Tiles lo points hi) : lo ≤ hi := by
  induction points generalizing lo with
  | nil => exact h.le
  | cons p points ih => exact (Nat.le_add_right _ _).trans (ih h.2)

theorem Tiles.bounds (h : Tiles lo points hi) {p : Point} (hp : p ∈ points) :
    lo ≤ p.address ∧ p.address + p.type.size ≤ hi := by
  induction points generalizing lo with
  | nil => exact absurd hp List.not_mem_nil
  | cons q points ih =>
      obtain ⟨rfl, hrest⟩ := h
      rcases List.mem_cons.mp hp with rfl | hp
      · exact ⟨le_rfl, hrest.le⟩
      · exact (ih hrest hp).imp_left (Nat.le_add_right _ _).trans

/-- Two points have no address in common. -/
theorem Tiles.apart (h : Tiles lo points hi) {p q : Point} (hp : p ∈ points) (hq : q ∈ points)
    (hne : p ≠ q) :
    p.address + p.type.size ≤ q.address ∨ q.address + q.type.size ≤ p.address := by
  induction points generalizing lo with
  | nil => exact absurd hp List.not_mem_nil
  | cons r points ih =>
      obtain ⟨rfl, hrest⟩ := h
      rcases List.mem_cons.mp hp with rfl | hp' <;> rcases List.mem_cons.mp hq with rfl | hq'
      · exact absurd rfl hne
      · exact Or.inl (hrest.bounds hq').1
      · exact Or.inr (hrest.bounds hp').1
      · exact ih hrest hp' hq'

/-- Every address belongs to a point. -/
theorem Tiles.cover (h : Tiles lo points hi) {a : ℕ} (hlo : lo ≤ a) (hhi : a < hi) :
    ∃ p ∈ points, p.address ≤ a ∧ a < p.address + p.type.size := by
  induction points generalizing lo with
  | nil =>
      have : lo = hi := h
      omega
  | cons p points ih =>
      obtain ⟨rfl, hrest⟩ := h
      by_cases ha : a < p.address + p.type.size
      · exact ⟨p, List.mem_cons_self, hlo, ha⟩
      · obtain ⟨q, hq, hqa⟩ := ih hrest (Nat.not_lt.mp ha)
        exact ⟨q, List.mem_cons_of_mem p hq, hqa⟩

end Tiles

/-! ### Places -/

section Places

variable {regs block : List UInt16}

/-- The indices that a list has. -/
theorem pyIndex_isSome {length : ℕ} {off : ℤ} :
    (pyIndex length off).isSome ↔ -length ≤ off ∧ off < length := by
  unfold pyIndex
  split
  · exact iff_of_true rfl (by omega)
  · split
    · exact iff_of_true rfl (by omega)
    · exact iff_of_false nofun (by omega)

theorem pyIndex_lt {length i : ℕ} {off : ℤ} (h : pyIndex length off = some i) : i < length := by
  unfold pyIndex at h
  split at h
  · injection h with h
    omega
  · split at h
    · injection h with h
      omega
    · exact nomatch h

/-- Indices less than a length apart have places of their own. -/
theorem pyIndex_inj {length i : ℕ} {off off' : ℤ} (h : pyIndex length off = some i)
    (h' : pyIndex length off' = some i) (hlt : |off - off'| < length) : off = off' := by
  unfold pyIndex at h h'
  rw [abs_lt] at hlt
  split at h <;> split at h' <;> (try split at h) <;> (try split at h') <;>
    simp only [Option.some.injEq, reduceCtorEq] at h h' <;> omega

theorem getItem_of_index {off : ℤ} {i : ℕ} {v : UInt16} (h : pyIndex regs.length off = some i)
    (hv : regs[i]? = some v) : getItem regs off = .ok v := by
  rw [getItem, h, Option.bind_some, hv]

/-- After a register has been set it is the one register that has changed. -/
theorem getItem_setItem {off : ℤ} {v : UInt16} {block' : List UInt16}
    (h : setItem block off v = .ok block') :
    block'.length = block.length ∧ getItem block' off = .ok v ∧
      ∀ off', off' ≠ off → |off' - off| < block.length →
        getItem block' off' = getItem block off' := by
  unfold setItem at h
  split at h
  · rename_i i hi
    injection h with h
    subst h
    refine ⟨List.length_set, ?_, fun off' hne hlt => ?_⟩
    · exact getItem_of_index (by rw [List.length_set, hi])
        (List.getElem?_set_self (pyIndex_lt hi))
    · rw [getItem, getItem, List.length_set]
      cases hoff : pyIndex block.length off' with
      | none => rfl
      | some j =>
          have hij : i ≠ j := fun heq => hne (pyIndex_inj hoff (heq ▸ hi) hlt)
          rw [Option.bind_some, Option.bind_some, List.getElem?_set_ne hij]
  · exact nomatch h

theorem isOk_setItem {off : ℤ} {v : UInt16} :
    (∃ block', setItem block off v = .ok block') ↔ -block.length ≤ off ∧ off < block.length := by
  rw [← pyIndex_isSome, setItem]
  cases pyIndex block.length off with
  | none => exact iff_of_false nofun nofun
  | some i => exact iff_of_true ⟨_, rfl⟩ rfl

/-- Registers in a row, over less than the length of the block. -/
theorem getItem_setItems {off : ℤ} {values : List UInt16} (hlength : values.length ≤ block.length)
    (hlo : -block.length ≤ off) (hhi : off + values.length ≤ block.length) :
    ∃ block', setItems block off values = .ok block' ∧ block'.length = block.length ∧
      (∀ (j : ℕ) v, values[j]? = some v → getItem block' (off + j) = .ok v) ∧
      ∀ off', off' < off ∨ off + values.length ≤ off' →
        (∀ j < values.length, |off' - (off + j)| < block.length) →
          getItem block' off' = getItem block off' := by
  induction values generalizing block off with
  | nil => exact ⟨block, rfl, rfl, nofun, fun _ _ _ => rfl⟩
  | cons v values ih =>
      rw [List.length_cons] at hlength hhi
      push_cast at hhi
      obtain ⟨block₁, hset⟩ := (isOk_setItem (v := v)).mpr ⟨hlo, by omega⟩
      obtain ⟨hlen₁, hself, hother⟩ := getItem_setItem hset
      have hlength₁ : values.length ≤ block₁.length := by omega
      have hlo₁ : -(block₁.length : ℤ) ≤ off + 1 := by omega
      obtain ⟨block₂, hrest, hlen₂, hvalues, hkept⟩ := ih hlength₁ hlo₁ (by omega)
      refine ⟨block₂, ?_, hlen₂.trans hlen₁, fun j w hw => ?_, fun off' hoff hnear => ?_⟩
      · rw [setItems, hset]
        exact hrest
      · cases j with
        | zero =>
            injection hw with hw
            subst hw
            rw [Nat.cast_zero, add_zero, hkept off (Or.inl (by omega)), hself]
            intro j hj
            rw [abs_lt]
            omega
        | succ j =>
            have hoff : off + ((j + 1 : ℕ) : ℤ) = off + 1 + j := by
              push_cast
              ring
            rw [hoff]
            exact hvalues j w hw
      · rw [List.length_cons] at hoff hnear
        push_cast at hoff
        rw [hkept off' (by omega), hother off' (by omega)]
        · have h₀ := hnear 0 (Nat.succ_pos _)
          rwa [Nat.cast_zero, add_zero] at h₀
        · intro j hj
          have hj' := hnear (j + 1) (Nat.succ_lt_succ hj)
          rw [hlen₁]
          have hoff : off + ((j + 1 : ℕ) : ℤ) = off + 1 + j := by
            push_cast
            ring
          rwa [hoff] at hj'

end Places

/-! ### Points -/

section Points

variable {regs regs' : List UInt16} {off : ℤ}

theorem regsToF32_isOk (hi lo : UInt16) : ∃ x, regsToF32 hi lo = .ok x := by
  have hlength : (packWords [hi, lo]).reverse.length = 4 := by
    rw [List.length_reverse, length_packWords]
    rfl
  rw [regsToF32, unpackFloat, unpackLE_of_length hlength]
  exact ⟨_, rfl⟩

/-- A packed float comes back as the nearest number of `binary32`. -/
theorem f32ToRegs_eq {x : Double} {packed : List UInt8} (h : packFloat x = .ok packed) :
    ∃ hi lo, f32ToRegs x = .ok [hi, lo] ∧ regsToF32 hi lo = .ok (binary32.convert x) := by
  have hlength : packed.reverse.length = 2 * 2 := by
    rw [List.length_reverse, length_packFloat h]
  obtain ⟨htwo, hpacked⟩ := packWords_words hlength
  obtain ⟨hi, lo, hwords⟩ := List.length_eq_two.mp htwo
  refine ⟨hi, lo, ?_, ?_⟩
  · rw [f32ToRegs, h]
    change unpackWords 2 packed.reverse = _
    rw [unpackWords, if_pos hlength, hwords]
  · rw [regsToF32, ← hwords, hpacked, List.reverse_reverse]
    exact unpackFloat_of_packFloat h

/-- A value in range has its registers, which are decoded to it wherever they stand. -/
theorem encodePoint_of_inRange {v : Number} {t : PointType} (h : InRange v t) :
    ∃ values, encodePoint v t = .ok values ∧ values.length = t.size ∧
      ∀ regs off, (∀ (j : ℕ) w, values[j]? = some w → getItem regs (off + j) = .ok w) →
        decodePoint regs off t = .ok (carried v t) := by
  cases t with
  | f32 =>
      obtain ⟨x, packed, hx, hpacked⟩ := h
      obtain ⟨hi, lo, hregs, hback⟩ := f32ToRegs_eq hpacked
      refine ⟨[hi, lo], ?_, rfl, fun regs off hitems => ?_⟩
      · rw [encodePoint, hx]
        exact hregs
      · have hhi := hitems 0 hi rfl
        have hlo := hitems 1 lo rfl
        rw [Nat.cast_zero, add_zero] at hhi
        rw [Nat.cast_one] at hlo
        rw [decodePoint, hhi, ok_bind, hlo, ok_bind, hback, ok_bind, carried, hx]
        rfl
  | u16 =>
      obtain ⟨n, hn, rfl⟩ := h
      refine ⟨[mask n], rfl, rfl, fun regs off hitems => ?_⟩
      have hmask : (mask n).toNat = n := by
        have hmod : ((n : ℤ) % 65536).toNat = n := by omega
        rw [mask, hmod, UInt16.toNat_ofNat', Nat.mod_eq_of_lt hn]
      have hitem := hitems 0 _ rfl
      rw [Nat.cast_zero, add_zero] at hitem
      rw [decodePoint, hitem, ok_bind, hmask]
      rfl

theorem decodePoint_congr {off' : ℤ} {t : PointType}
    (h : ∀ j : ℕ, j < t.size → getItem regs (off + j) = getItem regs' (off' + j)) :
    decodePoint regs off t = decodePoint regs' off' t := by
  cases t with
  | f32 =>
      have h₀ := h 0 (by decide)
      have h₁ := h 1 (by decide)
      rw [Nat.cast_zero, add_zero, add_zero] at h₀
      rw [Nat.cast_one] at h₁
      rw [decodePoint, decodePoint, h₀, h₁]
  | u16 =>
      have h₀ := h 0 (by decide)
      rw [Nat.cast_zero, add_zero, add_zero] at h₀
      rw [decodePoint, decodePoint, h₀]

theorem decodePoint_isOk {t : PointType}
    (h : ∀ j : ℕ, j < t.size → ∃ w, getItem regs (off + j) = .ok w) :
    ∃ v, decodePoint regs off t = .ok v := by
  obtain ⟨hi, hhi⟩ := h 0 (by cases t <;> decide)
  rw [Nat.cast_zero, add_zero] at hhi
  cases t with
  | f32 =>
      obtain ⟨lo, hlo⟩ := h 1 (by decide)
      rw [Nat.cast_one] at hlo
      obtain ⟨x, hx⟩ := regsToF32_isOk hi lo
      rw [decodePoint, hhi, ok_bind, hlo, ok_bind, hx]
      exact ⟨_, rfl⟩
  | u16 =>
      rw [decodePoint, hhi]
      exact ⟨_, rfl⟩

theorem decodeRegisters_eq {m : RegisterMap} {base : ℤ} {value : Point → Number}
    (h : ∀ p ∈ m.points, decodePoint regs (p.address - base) p.type = .ok (value p)) :
    m.decodeRegisters regs base = .ok (m.points.map fun p => (p.name, value p)) := by
  refine Loops.mapM_of_forall fun p hp => ?_
  rw [h p hp]
  rfl

end Points

/-! ### Building -/

section Building

variable {base : ℤ} {values : Dict Number} {lo hi : ℕ}

/-- The loop of `build_registers`, over the points from an address on. -/
theorem build_loop {points : List Point} {a : ℕ} {block : List UInt16} (h : Tiles a points hi)
    (hlo : lo ≤ a) (hlength : hi = lo + block.length) (hbase : lo ≤ base ∧ base ≤ hi)
    (hrange : ∀ p ∈ points, InRange (RegisterMap.valueOf values p) p.type) :
    ∃ block', points.foldlM (fun block p => do
        let regs ← encodePoint (RegisterMap.valueOf values p) p.type
        setItems block (p.address - base) regs) block = .ok block' ∧
      (∀ p ∈ points, decodePoint block' (p.address - base) p.type =
        .ok (carried (RegisterMap.valueOf values p) p.type)) ∧
      ∀ b : ℕ, lo ≤ b → b < a → getItem block' (b - base) = getItem block (b - base) := by
  induction points generalizing a block with
  | nil => exact ⟨block, rfl, nofun, fun _ _ _ => rfl⟩
  | cons p points ih =>
      obtain ⟨rfl, hrest⟩ := h
      have hle := hrest.le
      obtain ⟨regs, hregs, hsize, hdecode⟩ := encodePoint_of_inRange (hrange p List.mem_cons_self)
      have hfits : regs.length ≤ block.length := by omega
      have hfrom : -(block.length : ℤ) ≤ p.address - base := by omega
      obtain ⟨block₁, hset, hlen₁, hitems, hkept⟩ := getItem_setItems hfits hfrom (by omega)
      have hsame : hi = lo + block₁.length := by omega
      obtain ⟨block₂, hfold, hpoints, hbefore⟩ := ih hrest (by omega) hsame
        fun q hq => hrange q (List.mem_cons_of_mem p hq)
      refine ⟨block₂, ?_, fun q hq => ?_, fun b hb hba => ?_⟩
      · rw [List.foldlM_cons, hregs, ok_bind, hset]
        exact hfold
      · rcases List.mem_cons.mp hq with rfl | hq
        · refine hdecode _ _ fun j w hw => ?_
          have hj := (List.getElem?_eq_some_iff.mp hw).1
          have hkeep := hbefore (q.address + j) (by omega) (by omega)
          have hoff : ((q.address + j : ℕ) : ℤ) - base = q.address - base + j := by
            push_cast
            ring
          rw [hoff] at hkeep
          rw [hkeep, hitems j w hw]
        · exact hpoints q hq
      · rw [hbefore b hb (by omega), hkept _ (Or.inl (by omega))]
        intro j hj
        rw [abs_lt]
        omega

theorem roundTrip_of_bounds {m : RegisterMap} (h : Tiles lo m.points (lo + m.blockLength))
    (hbase : lo ≤ base ∧ base ≤ lo + m.blockLength)
    (hrange : ∀ p ∈ m.points, InRange (RegisterMap.valueOf values p) p.type) :
    ∃ block, m.buildRegisters values base = .ok (base, block) ∧
      m.decodeRegisters block base =
        .ok (m.points.map fun p => (p.name, carried (RegisterMap.valueOf values p) p.type)) := by
  have hlength : lo + m.blockLength = lo + (List.replicate m.blockLength (0 : UInt16)).length := by
    rw [List.length_replicate]
  obtain ⟨block, hfold, hpoints, -⟩ :=
    build_loop h le_rfl hlength (by exact_mod_cast hbase) hrange
  refine ⟨block, ?_, decodeRegisters_eq hpoints⟩
  rw [RegisterMap.buildRegisters, hfold]
  rfl

end Building

end DiepLab.Drivers
