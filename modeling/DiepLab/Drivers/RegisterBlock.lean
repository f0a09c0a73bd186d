import DiepLab.Microgrid.Asdu
import DiepLab.Sunspec.RoundTrip

/-!
Blocks of registers.

A map names points at addresses, and a block is what is read from a base on. A
point stands in it at its address less the base, where Python counts a negative
index from the end. So if the points tile a range of addresses that is as long
as the block, writing and reading a block agree for every base from the first
address to the end of the range; but what a point beyond the end of the block
wraps around to is not the register at its address.
-/

namespace DiepLab.Drivers

open Sunspec

inductive PointType where
  /-- Two registers, the high word first. -/
  | f32
  | u16
  deriving DecidableEq, Repr

def PointType.size : PointType → ℕ
  | .f32 => 2
  | .u16 => 1

structure Point where
  name : String
  address : ℕ
  type : PointType
  deriving DecidableEq, Repr

/-- `REGISTER_MAP` and `BLOCK_LENGTH`. -/
structure RegisterMap where
  points : List Point
  blockLength : ℕ
  deriving Repr

/-! ### Lists, indexed as in Python -/

/-- The place that an index stands for. -/
def pyIndex (length : ℕ) (off : ℤ) : Option ℕ :=
  if 0 ≤ off ∧ off < length then some off.toNat
  else if -length ≤ off ∧ off < 0 then some (off + length).toNat
  else none

/-- `regs[off]`. -/
def getItem (regs : List UInt16) (off : ℤ) : Except PyExc UInt16 :=
  match (pyIndex regs.length off).bind fun i => regs[i]? with
  | some v => .ok v
  | none => .error .indexError

/-- `block[off] = v`. -/
def setItem (block : List UInt16) (off : ℤ) (v : UInt16) : Except PyExc (List UInt16) :=
  match pyIndex block.length off with
  | some i => .ok (block.set i v)
  | none => .error .indexError

/-- `block[off], block[off + 1] = ...`. -/
def setItems (block : List UInt16) (off : ℤ) : List UInt16 → Except PyExc (List UInt16)
  | [] => .ok block
  | v :: values => do
      let block ← setItem block off v
      setItems block (off + 1) values

/-! ### Points -/

/-- `_f32_to_regs`, of a float. -/
def f32ToRegs (x : Double) : Except PyExc (List UInt16) := do
  let packed ← packFloat x
  unpackWords 2 packed.reverse

/-- `_regs_to_f32`. -/
def regsToF32 (hi lo : UInt16) : Except PyExc Double := unpackFloat (packWords [hi, lo]).reverse

/-- `int(v)`. -/
def pyInt : Number → Except PyExc ℤ
  | .int n => .ok n
  | .float (.finite q) => .ok (q.num.tdiv q.den)
  | .float (.inf _) => .error (.overflowError "cannot convert float infinity to integer")
  | .float .nan => .error (.valueError "cannot convert float NaN to integer")

/-- The registers of a value: `_f32_to_regs(value)`, or `int(value) & 0xFFFF`. -/
def encodePoint (v : Number) : PointType → Except PyExc (List UInt16)
  | .f32 =>
      match v.toDouble? with
      | some x => f32ToRegs x
      | none => .error (.overflowError "int too large to convert to float")
  | .u16 => do
      let n ← pyInt v
      pure [mask n]

def decodePoint (regs : List UInt16) (off : ℤ) : PointType → Except PyExc Number
  | .f32 => do
      let hi ← getItem regs off
      let lo ← getItem regs (off + 1)
      let x ← regsToF32 hi lo
      pure (.float (Microgrid.roundDigits 4 x))
  | .u16 => do
      let v ← getItem regs off
      pure (.int v.toNat)

namespace RegisterMap

variable (m : RegisterMap)

def decodeRegisters (regs : List UInt16) (base : ℤ) : Except PyExc (Dict Number) :=
  m.points.mapM fun p => do
    let v ← decodePoint regs (p.address - base) p.type
    pure (p.name, v)

/-- `values.get(name, 0)`. -/
def valueOf (values : Dict Number) (p : Point) : Number := (values.get? p.name).getD (.int 0)

def buildRegisters (values : Dict Number) (base : ℤ) : Except PyExc (ℤ × List UInt16) := do
  let block ← m.points.foldlM (fun block p => do
    let regs ← encodePoint (valueOf values p) p.type
    setItems block (p.address - base) regs) (List.replicate m.blockLength 0)
  pure (base, block)

/-! ### A driver of the map -/

/-- `self.client.read_holding(self.base, models.BLOCK_LENGTH)`; a negative address
cannot be packed. -/
def readBlock (net : Arrivals) (base : ℤ) (s : Session) : Except PyExc (List UInt16 × Session) :=
  if base < 0 then .error (.structError "'H' format requires 0 <= number <= 65535")
  else readHolding net base.toNat m.blockLength s

/-- What `read_telemetry` makes its telemetry of. -/
def readPoints (net : Arrivals) (base : ℤ) (s : Session) :
    Except PyExc (Dict Number × Session) := do
  let (regs, s) ← m.readBlock net base s
  let points ← m.decodeRegisters regs base
  pure (points, s)

end RegisterMap

/-- Controls one after the other, each written to the address in the map. -/
def writeControls (net : Arrivals) : List (Point × Number) → Session → Except PyExc Session
  | [], s => .ok s
  | (p, v) :: controls, s => do
      let regs ← encodePoint v p.type
      let s ← writeRegisters net p.address (regs.map fun reg => (reg.toNat : ℤ)) s
      writeControls net controls s

/-! ### What is to hold -/

/-- The values that a point can have: a float that `struct` packs, a number of 16 bits. -/
def InRange (v : Number) : PointType → Prop
  | .f32 => ∃ x packed, v.toDouble? = some x ∧ packFloat x = .ok packed
  | .u16 => ∃ n : ℕ, n < 65536 ∧ v = .int n

/-- A value up to `binary32` and rounding. -/
def carried (v : Number) : PointType → Number
  | .f32 =>
      match v.toDouble? with
      | some x => .float (Microgrid.roundDigits 4 (binary32.convert x))
      | none => v
  | .u16 => v

/-- The value that the controls give to a point. -/
def written (controls : List (Point × Number)) (p : Point) : Option Number :=
  Dict.get? (controls.map fun control => (control.1.name, control.2)) p.name

/-- With this base a block that has been built is decoded to the values, and after
controls the driver reads them back, and every other point as before. -/
structure Consistent (m : RegisterMap) (Controls : List (Point × Number) → Prop) (base : ℤ) :
    Prop where
  roundTrip : ∀ values : Dict Number,
    (∀ p ∈ m.points, InRange (RegisterMap.valueOf values p) p.type) →
      ∃ block, m.buildRegisters values base = .ok (base, block) ∧
        m.decodeRegisters block base =
          .ok (m.points.map fun p => (p.name, carried (RegisterMap.valueOf values p) p.type))
  control : ∀ net s registers, s.Idle registers → ∀ controls, Controls controls →
    ∃ before s₁ s₂ after s₃, m.readPoints net base s = .ok (before, s₁) ∧
      writeControls net controls s₁ = .ok s₂ ∧ m.readPoints net base s₂ = .ok (after, s₃) ∧
        ∀ p ∈ m.points, after.get? p.name =
          match written controls p with
          | some v => some (carried v p.type)
          | none => before.get? p.name

end DiepLab.Drivers
