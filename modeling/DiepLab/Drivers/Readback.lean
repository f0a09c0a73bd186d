import DiepLab.Drivers.Tiling

/-!
Controls that are read back.

A block that is read from a base on shows the registers from the base to its
end, and at the places of the addresses below the base those of addresses
further on, to which no control is written. So a control is read back if its
address is not below the base, and with it no other point changes
(`consistent_iff`).
-/

namespace DiepLab.Drivers

open Sunspec

/-- A map whose points tile the addresses of its block. -/
structure TiledMap extends RegisterMap where
  start : ℕ
  tiles : Tiles start points (start + blockLength) := by decide
  names : (points.map Point.name).Nodup := by decide
  reach : start + 2 * blockLength ≤ 65536 := by decide

/-! ### What a block shows -/

section Shown

variable {registers : Registers} {base length a : ℕ}

/-- The block that is read from a base on. -/
def blockAt (registers : Registers) (base length : ℕ) : List UInt16 :=
  (List.range length).map fun i => registers.get (base + i)

/-- The register at the place of an address. -/
def source (base length a : ℕ) : ℕ := if base ≤ a then a else a + length

theorem getItem_blockAt (hlo : base ≤ a + length) (hhi : a < base + length) :
    getItem (blockAt registers base length) (a - base) =
      .ok (registers.get (source base length a)) := by
  have hlength : (blockAt registers base length).length = length := by
    rw [blockAt, List.length_map, List.length_range]
  have hitem {i : ℕ} (hi : i < length) :
      (blockAt registers base length)[i]? = some (registers.get (base + i)) := by
    rw [blockAt, List.getElem?_map, List.getElem?_range hi]
    rfl
  unfold source
  split
  · have hindex : pyIndex (blockAt registers base length).length ((a : ℤ) - base) =
        some (a - base) := by
      rw [pyIndex, if_pos (by omega)]
      congr 1
      omega
    rw [getItem_of_index hindex (hitem (by omega))]
    congr 2
    omega
  · have hindex : pyIndex (blockAt registers base length).length ((a : ℤ) - base) =
        some (a + length - base) := by
      rw [pyIndex, if_neg (by omega), if_pos (by omega), hlength]
      congr 1
      omega
    rw [getItem_of_index hindex (hitem (by omega))]
    congr 2
    omega

/-- What the decoder makes of a point in the block. -/
def shown (registers : Registers) (base length : ℕ) (p : Point) : Except PyExc Number :=
  decodePoint (blockAt registers base length) (p.address - base) p.type

end Shown

namespace TiledMap

variable {t : TiledMap} {registers : Registers} {base : ℕ} {p q : Point}

theorem point_eq (hp : p ∈ t.points) (hq : q ∈ t.points) (h : p.name = q.name) : p = q :=
  List.inj_on_of_nodup_map t.names hp hq h

/-- A dictionary of the points has each under its name. -/
theorem get?_map_name {points : List Point} (hnames : (points.map Point.name).Nodup)
    (value : Point → Number) (hq : q ∈ points) :
    Dict.get? (points.map fun p => (p.name, value p)) q.name = some (value q) := by
  induction points with
  | nil => exact absurd hq List.not_mem_nil
  | cons p points ih =>
      rw [List.map_cons, List.nodup_cons] at hnames
      rw [List.map_cons, Dict.get?_cons]
      rcases List.mem_cons.mp hq with rfl | hq
      · exact if_pos rfl
      · have hne : p.name ≠ q.name := fun h => hnames.1 (h ▸ List.mem_map_of_mem hq)
        rw [if_neg hne, ih hnames.2 hq]

section Base

variable (hbase : t.start ≤ base ∧ base ≤ t.start + t.blockLength)
include hbase

theorem getItem_point (hp : p ∈ t.points) {j : ℕ} (hj : j < p.type.size) :
    getItem (blockAt registers base t.blockLength) (p.address - base + j) =
      .ok (registers.get (source base t.blockLength (p.address + j))) := by
  have hbounds := t.tiles.bounds hp
  have hoff : (p.address : ℤ) - base + j = (p.address + j : ℕ) - base := by
    push_cast
    ring
  rw [hoff, getItem_blockAt (by omega) (by omega)]

theorem exists_shown (registers : Registers) :
    ∃ value : Point → Number, ∀ p ∈ t.points,
      shown registers base t.blockLength p = .ok (value p) := by
  have hshown (p : Point) : ∃ v, p ∈ t.points → shown registers base t.blockLength p = .ok v := by
    by_cases hp : p ∈ t.points
    · obtain ⟨v, hv⟩ := decodePoint_isOk fun j hj => ⟨_, getItem_point hbase hp hj⟩
      exact ⟨v, fun _ => hv⟩
    · exact ⟨.int 0, fun h => absurd h hp⟩
  exact Classical.skolem.mp hshown

/-- A value that is set from the address of a point on is shown there, and the other
points are as they were. -/
theorem shown_setFrom (hq : q ∈ t.points) (haddress : base ≤ q.address) {v : Number}
    {values : List UInt16} (hsize : values.length = q.type.size)
    (hdecode : ∀ regs off, (∀ (j : ℕ) w, values[j]? = some w → getItem regs (off + j) = .ok w) →
      decodePoint regs off q.type = .ok (carried v q.type)) (hp : p ∈ t.points) :
    shown (registers.setFrom q.address values) base t.blockLength p =
      if p = q then .ok (carried v p.type) else shown registers base t.blockLength p := by
  split
  · subst p
    refine hdecode _ _ fun j w hw => ?_
    have hj := (List.getElem?_eq_some_iff.mp hw).1
    rw [getItem_point hbase hq (by omega), source, if_pos (by omega), Registers.get,
      Registers.setFrom_apply, if_pos (Nat.le_add_right ..), Nat.add_sub_cancel_left, hw]
    rfl
  · rename_i hne
    refine decodePoint_congr fun j hj => ?_
    rw [getItem_point hbase hp hj, getItem_point hbase hp hj]
    congr 1
    -- neither an address of another point nor one beyond the block is written
    have hp' := t.tiles.bounds hp
    have hq' := t.tiles.bounds hq
    have hapart := t.tiles.apart hp hq hne
    have houtside : source base t.blockLength (p.address + j) < q.address ∨
        q.address + values.length ≤ source base t.blockLength (p.address + j) := by
      unfold source
      split <;> omega
    rw [Registers.get, Registers.get, Registers.setFrom_apply]
    split
    · rw [List.getElem?_eq_none (by omega), Option.none_or]
    · rfl

/-- What is set below the base is not shown. -/
theorem shown_setFrom_of_le (hq : q ∈ t.points) {values : List UInt16}
    (hbelow : q.address + values.length ≤ base) (hp : p ∈ t.points) :
    shown (registers.setFrom q.address values) base t.blockLength p =
      shown registers base t.blockLength p := by
  refine decodePoint_congr fun j hj => ?_
  rw [getItem_point hbase hp hj, getItem_point hbase hp hj]
  congr 1
  have hq' := t.tiles.bounds hq
  have hsource : base ≤ source base t.blockLength (p.address + j) := by
    have hp' := t.tiles.bounds hp
    unfold source
    split <;> omega
  rw [Registers.get, Registers.get, Registers.setFrom_apply, if_pos (by omega),
    List.getElem?_eq_none (by omega), Option.none_or]

/-! ### Calls of the driver -/

theorem readPoints_eq (net : Arrivals) {s : Session} (hidle : s.Idle registers)
    {value : Point → Number}
    (hvalue : ∀ p ∈ t.points, shown registers base t.blockLength p = .ok (value p)) :
    ∃ s', t.readPoints net base s = .ok (t.points.map fun p => (p.name, value p), s') ∧
      s'.Idle registers := by
  have hreach := t.reach
  obtain ⟨s', hread, hidle'⟩ := (registers_read net hidle) base t.blockLength (by omega)
  refine ⟨s', ?_, hidle'⟩
  rw [RegisterMap.readPoints, RegisterMap.readBlock, if_neg (by omega), Int.toNat_natCast, hread,
    ok_bind]
  change (t.decodeRegisters (blockAt registers base t.blockLength) base >>= _) = _
  rw [decodeRegisters_eq hvalue]
  rfl

theorem writeControls_eq (net : Arrivals) {controls : List (Point × Number)}
    (hcontrols : ∀ control ∈ controls, control.1 ∈ t.points ∧ base ≤ control.1.address ∧
      InRange control.2 control.1.type)
    (hnodup : (controls.map fun control => control.1.name).Nodup) {s : Session}
    (hidle : s.Idle registers) :
    ∃ s' registers', writeControls net controls s = .ok s' ∧ s'.Idle registers' ∧
      ∀ p ∈ t.points, shown registers' base t.blockLength p =
        match written controls p with
        | some v => .ok (carried v p.type)
        | none => shown registers base t.blockLength p := by
  induction controls generalizing s registers with
  | nil => exact ⟨s, registers, rfl, hidle, fun _ _ => rfl⟩
  | cons control controls ih =>
      obtain ⟨q, v⟩ := control
      rw [List.map_cons, List.nodup_cons] at hnodup
      have hrest := fun control hmem => hcontrols control (List.mem_cons_of_mem (q, v) hmem)
      obtain ⟨hq, haddress, hrange⟩ : q ∈ t.points ∧ base ≤ q.address ∧ InRange v q.type :=
        hcontrols (q, v) List.mem_cons_self
      obtain ⟨values, hvalues, hsize, hdecode⟩ := encodePoint_of_inRange hrange
      have hbounds := t.tiles.bounds hq
      have hreach := t.reach
      obtain ⟨s₁, hwrite, hidle₁⟩ := registers_write net hidle q.address
        (values.map fun reg => (reg.toNat : ℤ)) (by rw [List.length_map]; omega)
      have hmask : (values.map fun reg => (reg.toNat : ℤ)).map mask = values := by
        rw [List.map_map]
        exact (List.map_congr_left fun reg _ => mask_toNat reg).trans (List.map_id _)
      rw [hmask] at hidle₁
      obtain ⟨s₂, registers₂, hcalls, hidle₂, hshown⟩ := ih hrest hnodup.2 hidle₁
      refine ⟨s₂, registers₂, ?_, hidle₂, fun p hp => ?_⟩
      · rw [writeControls, hvalues, ok_bind, hwrite]
        exact hcalls
      · have hhead : written ((q, v) :: controls) p =
            if q.name = p.name then some v else written controls p := rfl
        rw [hshown p hp, hhead, shown_setFrom hbase hq haddress hsize hdecode hp]
        by_cases hpq : p = q
        · have hnone : written controls q = none := by
            refine Dict.get?_eq_none ?_
            rw [List.map_map]
            exact hnodup.1
          rw [if_pos hpq, hpq, hnone, if_pos rfl]
        · have hname : q.name ≠ p.name := fun h => hpq (t.point_eq hq hp h).symm
          rw [if_neg hpq, if_neg hname]

end Base

/-! ### The bases -/

theorem inRange_zero (type : PointType) : InRange (.int 0) type := by
  cases type with
  | f32 =>
      have hzero : binary32.encode (.finite 0) = some 0 := by decide +kernel
      refine ⟨.finite 0, Bytes.leBytes 4 0, by decide +kernel, ?_⟩
      rw [packFloat, hzero]
  | u16 => exact ⟨0, by decide, rfl⟩

/-- Registers that have been set had places in the block. -/
theorem bounds_of_setItems {block block' : List UInt16} {off : ℤ} {values : List UInt16}
    (h : setItems block off values = .ok block') :
    block'.length = block.length ∧
      ∀ j : ℕ, j < values.length → -block.length ≤ off + j ∧ off + j < block.length := by
  induction values generalizing block off with
  | nil =>
      injection h with h
      exact ⟨congrArg List.length h.symm, fun j hj => absurd hj (Nat.not_lt_zero j)⟩
  | cons v values ih =>
      obtain ⟨block₁, hset, hrest⟩ := bind_eq_ok.mp h
      obtain ⟨hlen, hbounds⟩ := ih hrest
      have hlen₁ := (getItem_setItem hset).1
      have hfirst := isOk_setItem.mp ⟨block₁, hset⟩
      refine ⟨hlen.trans hlen₁, fun j hj => ?_⟩
      cases j with
      | zero =>
          rw [Nat.cast_zero, add_zero]
          exact hfirst
      | succ j =>
          have hj' := hbounds j (Nat.lt_of_succ_lt_succ hj)
          rw [hlen₁] at hj'
          push_cast
          omega

/-- Where a block is built every register of the points has a place in it. -/
theorem bounds_of_build {values : Dict Number} {points : List Point} {base : ℤ}
    (hrange : ∀ p ∈ points, InRange (RegisterMap.valueOf values p) p.type)
    {block block' : List UInt16}
    (h : points.foldlM (fun block p => do
      let regs ← encodePoint (RegisterMap.valueOf values p) p.type
      setItems block (p.address - base) regs) block = .ok block') :
    ∀ p ∈ points, ∀ j : ℕ, j < p.type.size →
      -block.length ≤ (p.address : ℤ) - base + j ∧ (p.address : ℤ) - base + j < block.length := by
  induction points generalizing block with
  | nil => exact nofun
  | cons p points ih =>
      obtain ⟨hp, hrest⟩ := List.forall_mem_cons.mp hrange
      obtain ⟨regs, hregs, hsize, -⟩ := encodePoint_of_inRange hp
      rw [List.foldlM_cons, hregs, ok_bind] at h
      obtain ⟨block₁, hset, hfold⟩ := bind_eq_ok.mp h
      obtain ⟨hlen, hbounds⟩ := bounds_of_setItems hset
      refine List.forall_mem_cons.mpr ⟨fun j hj => hbounds j (hsize ▸ hj), fun q hq j hj => ?_⟩
      rw [← hlen]
      exact ih hrest hfold q hq j hj

end TiledMap

section Consistent

variable {t : TiledMap} {Controls : List (Point × Number) → Prop} {first : Point} {base : ℤ}

/-- The controls that a driver may write: points of the map from `first` on, each at
most once, with values in range; `first` can be set to one. -/
structure ControlsFrom (t : TiledMap) (Controls : List (Point × Number) → Prop) (first : Point) :
    Prop where
  mem : first ∈ t.points
  word : first.type = .u16
  one : Controls [(first, .int 1)]
  points : ∀ controls, Controls controls → ∀ control ∈ controls, control.1 ∈ t.points ∧
    first.address ≤ control.1.address ∧ InRange control.2 control.1.type
  names : ∀ controls, Controls controls → (controls.map fun control => control.1.name).Nodup

theorem bounds_of_roundTrip (hpos : 0 < t.blockLength)
    (h : Consistent t.toRegisterMap Controls base) :
    t.start ≤ base ∧ base ≤ t.start + t.blockLength := by
  have hrange : ∀ p ∈ t.points, InRange (RegisterMap.valueOf [] p) p.type :=
    fun p _ => TiledMap.inRange_zero p.type
  obtain ⟨block, hbuild, -⟩ := h.roundTrip [] hrange
  obtain ⟨block', hfold, -⟩ := bind_eq_ok.mp hbuild
  have hbounds := TiledMap.bounds_of_build hrange hfold
  rw [List.length_replicate] at hbounds
  obtain ⟨p, hp, hple, hlt⟩ := t.tiles.cover le_rfl (by omega)
  obtain ⟨q, hq, hqle, hqlt⟩ := t.tiles.cover (a := t.start + t.blockLength - 1) (by omega)
    (by omega)
  have hfirst := hbounds p hp (t.start - p.address) (by omega)
  have hlast := hbounds q hq (t.start + t.blockLength - 1 - q.address) (by omega)
  omega

/-- **The bases of a driver.** Blocks and controls are consistent exactly for the
bases from the first address of the map to that of the first control. -/
theorem consistent_iff (hcontrols : ControlsFrom t Controls first) :
    Consistent t.toRegisterMap Controls base ↔ t.start ≤ base ∧ base ≤ first.address := by
  have hfirst := t.tiles.bounds hcontrols.mem
  rw [hcontrols.word] at hfirst
  change t.start ≤ first.address ∧ first.address + 1 ≤ t.start + t.blockLength at hfirst
  constructor
  · intro h
    have hbounds := bounds_of_roundTrip (by omega) h
    refine ⟨hbounds.1, Int.not_lt.mp fun hlt => ?_⟩
    lift base to ℕ using (by omega)
    have hbase : t.start ≤ base ∧ base ≤ t.start + t.blockLength := by omega
    -- a one is written to a block of zeros, below the base
    obtain ⟨before, s₁, s₂, after, s₃, hbefore, hcalls, hafter, hpoints⟩ :=
      h.control bytewise _ _ (idle_connected (fun _ => none) 1) _ hcontrols.one
    obtain ⟨value, hvalue⟩ := TiledMap.exists_shown hbase fun _ => none
    obtain ⟨s₁', hread, hidle₁⟩ :=
      TiledMap.readPoints_eq hbase bytewise (idle_connected (fun _ => none) 1) hvalue
    obtain ⟨rfl, rfl⟩ := Prod.mk.inj (Except.ok.inj (hbefore.symm.trans hread))
    obtain ⟨s₂', hwrite, hidle₂⟩ := registers_write bytewise hidle₁ first.address [1]
      (by have := t.reach; simp only [List.length_singleton]; omega)
    have hone : writeControls bytewise [(first, .int 1)] s₁ = .ok s₂' := by
      rw [writeControls, hcontrols.word]
      change (writeRegisters bytewise first.address [1] s₁ >>= _) = _
      rw [hwrite]
      rfl
    obtain rfl := Except.ok.inj (hcalls.symm.trans hone)
    have hkept (p : Point) (hp : p ∈ t.points) :
        shown (Registers.setFrom (fun _ => none) first.address ([1].map mask)) base
          t.blockLength p = shown (fun _ => none) base t.blockLength p :=
      TiledMap.shown_setFrom_of_le hbase hcontrols.mem (by simp; omega) hp
    obtain ⟨s₃', hread', -⟩ := TiledMap.readPoints_eq hbase bytewise hidle₂
      fun p hp => (hkept p hp).trans (hvalue p hp)
    obtain ⟨rfl, rfl⟩ := Prod.mk.inj (Except.ok.inj (hafter.symm.trans hread'))
    have hback := hpoints first hcontrols.mem
    rw [TiledMap.get?_map_name t.names value hcontrols.mem] at hback
    have hzero : value first = .int 0 := by
      have hsize : 0 < first.type.size := by
        rw [hcontrols.word]
        decide
      have hitem : getItem (blockAt (fun _ => none) base t.blockLength)
          (first.address - base + (0 : ℕ)) = .ok 0 :=
        TiledMap.getItem_point hbase hcontrols.mem hsize
      have hshown := hvalue first hcontrols.mem
      rw [Nat.cast_zero, add_zero] at hitem
      rw [shown, hcontrols.word, decodePoint, hitem, ok_bind] at hshown
      exact (Except.ok.inj hshown).symm
    have hwritten : written [(first, .int 1)] first = some (.int 1) := if_pos rfl
    rw [hwritten, hzero, hcontrols.word] at hback
    exact absurd hback (by decide)
  · rintro ⟨hlo, hhi⟩
    lift base to ℕ using (by omega)
    have hbase : t.start ≤ base ∧ base ≤ t.start + t.blockLength := by omega
    refine ⟨fun values hrange => ?_, fun net s registers hidle controls hwrites => ?_⟩
    · exact roundTrip_of_bounds t.tiles (by exact_mod_cast hbase) hrange
    · obtain ⟨value, hvalue⟩ := TiledMap.exists_shown hbase registers
      obtain ⟨s₁, hbefore, hidle₁⟩ := TiledMap.readPoints_eq hbase net hidle hvalue
      obtain ⟨s₂, registers₂, hcalls, hidle₂, hshown⟩ := TiledMap.writeControls_eq hbase net
        (fun control hcontrol => by
          obtain ⟨hmem, haddress, hrange⟩ := hcontrols.points controls hwrites control hcontrol
          exact ⟨hmem, by omega, hrange⟩)
        (hcontrols.names controls hwrites) hidle₁
      obtain ⟨value₂, hvalue₂⟩ := TiledMap.exists_shown hbase registers₂
      obtain ⟨s₃, hafter, -⟩ := TiledMap.readPoints_eq hbase net hidle₂ hvalue₂
      refine ⟨_, s₁, s₂, _, s₃, hbefore, hcalls, hafter, fun p hp => ?_⟩
      have hp₂ := (hvalue₂ p hp).symm.trans (hshown p hp)
      rw [TiledMap.get?_map_name t.names value₂ hp, TiledMap.get?_map_name t.names value hp]
      cases hw : written controls p with
      | none =>
          rw [hw] at hp₂
          dsimp only at hp₂
          rw [hvalue p hp] at hp₂
          injection hp₂ with hp₂
          rw [hp₂]
      | some v =>
          rw [hw] at hp₂
          injection hp₂ with hp₂
          rw [hp₂]

end Consistent

end DiepLab.Drivers
