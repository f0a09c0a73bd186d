import DiepLab.Library.Bytes
import DiepLab.Library.Interchange
import DiepLab.PyValue

/-!
Bytes and numbers, as the drivers convert them.

`bytes([...])` raises unless every item is a byte, and `struct` raises where a
buffer has another length than its format. A float is packed as the pattern of
its binary format.
-/

namespace DiepLab

/-- What the drivers raise. -/
inductive PyExc where
  | valueError (text : String)
  | typeError (text : String)
  | ioError (text : String)
  | indexError
  | structError (text : String)
  | overflowError (text : String)
  deriving DecidableEq, Repr

/-- An item of `bytes([...])`. -/
def byte (n : ℕ) : Except PyExc UInt8 :=
  if n < 256 then .ok (UInt8.ofNat n) else .error (.valueError "bytes must be in range(0, 256)")

/-- `f"{n:#04x}"`. -/
def hex (n : UInt8) : String :=
  "0x" ++ String.ofList [(n.toNat / 16).digitChar, (n.toNat % 16).digitChar]

/-- `struct.unpack` of an unsigned number in network order. -/
def unpackBE (size : ℕ) (bs : List UInt8) : Except PyExc ℕ :=
  if bs.length = size then .ok (Bytes.beNat bs)
  else .error (.structError s!"unpack requires a buffer of {size} bytes")

def unpackLE (size : ℕ) (bs : List UInt8) : Except PyExc ℕ := unpackBE size bs.reverse

/-- `struct.pack(">d", x)`. -/
def packDouble (x : Double) : Except PyExc (List UInt8) :=
  match binary64.encode x with
  | some n => .ok (Bytes.beBytes 8 n)
  | none => .error (.overflowError "int too large to convert to float")

/-- `struct.unpack(">d", bs)[0]`. -/
def unpackDouble (bs : List UInt8) : Except PyExc Double := do
  let n ← unpackBE 8 bs
  pure (binary64.decode n)

/-- `struct.pack("<f", x)`. -/
def packFloat (x : Double) : Except PyExc (List UInt8) :=
  match binary32.encode x with
  | some n => .ok (Bytes.leBytes 4 n)
  | none => .error (.overflowError "float too large to pack with f format")

/-- `struct.unpack("<f", bs)[0]`. -/
def unpackFloat (bs : List UInt8) : Except PyExc Double := do
  let n ← unpackLE 4 bs
  pure (binary32.decode n)

def notANumber (typeName : String) : PyExc :=
  .typeError s!"float() argument must be a string or a real number, not '{typeName}'"

/-- `float(v)`; what it makes of a text is `readFloat`. -/
def toFloat (readFloat : String → Option Double) : PyValue → Except PyExc Double
  | .none => .error (notANumber "NoneType")
  | .bool b => .ok (.finite (if b then 1 else 0))
  | .num x =>
      match x.toDouble? with
      | some x => .ok x
      | none => .error (.overflowError "int too large to convert to float")
  | .str s =>
      match readFloat s with
      | some x => .ok x
      | none => .error (.valueError s!"could not convert string to float: '{s}'")
  | .list _ => .error (notANumber "list")
  | .dict _ => .error (notANumber "dict")

theorem byte_of_lt {n : ℕ} (h : n < 256) : byte n = .ok (UInt8.ofNat n) := if_pos h

theorem byte_eq_ok {n : ℕ} {b : UInt8} (h : byte n = .ok b) : n < 256 ∧ b = UInt8.ofNat n := by
  unfold byte at h
  split at h
  · injection h with h
    exact ⟨‹_›, h.symm⟩
  · exact nomatch h

theorem unpackBE_of_length {size : ℕ} {bs : List UInt8} (h : bs.length = size) :
    unpackBE size bs = .ok (Bytes.beNat bs) := if_pos h

theorem length_of_unpackBE {size n : ℕ} {bs : List UInt8} (h : unpackBE size bs = .ok n) :
    bs.length = size := by
  unfold unpackBE at h
  split at h
  · assumption
  · exact nomatch h

theorem unpackLE_of_length {size : ℕ} {bs : List UInt8} (h : bs.length = size) :
    unpackLE size bs = .ok (Bytes.leNat bs) := by
  rw [unpackLE, unpackBE_of_length (by rwa [List.length_reverse]), Bytes.beNat,
    List.reverse_reverse]

/-- What is packed as a double is read back as the nearest one. -/
theorem unpackDouble_of_packDouble {x : Double} {bs : List UInt8} (h : packDouble x = .ok bs) :
    unpackDouble bs = .ok (binary64.convert x) := by
  unfold packDouble at h
  split at h
  · rename_i n hn
    injection h with h
    have hlt : n < 256 ^ 8 := binary64.encode_lt (by decide) (by decide) hn
    rw [← h, unpackDouble, unpackBE_of_length (Bytes.length_beBytes 8 n),
      Bytes.beNat_beBytes_of_lt hlt, ← binary64.decode_encode (by decide) (by decide) hn]
    rfl
  · exact nomatch h

/-- What is packed as a float is read back as the nearest number of `binary32`. -/
theorem unpackFloat_of_packFloat {x : Double} {bs : List UInt8} (h : packFloat x = .ok bs) :
    unpackFloat bs = .ok (binary32.convert x) := by
  unfold packFloat at h
  split at h
  · rename_i n hn
    injection h with h
    have hlt : n < 256 ^ 4 := binary32.encode_lt (by decide) (by decide) hn
    rw [← h, unpackFloat, unpackLE_of_length (Bytes.length_leBytes 4 n),
      Bytes.leNat_leBytes_of_lt hlt, ← binary32.decode_encode (by decide) (by decide) hn]
    rfl
  · exact nomatch h

theorem length_packFloat {x : Double} {bs : List UInt8} (h : packFloat x = .ok bs) :
    bs.length = 4 := by
  unfold packFloat at h
  split at h
  · injection h with h
    rw [← h, Bytes.length_leBytes]
  · exact nomatch h

theorem length_packDouble {x : Double} {bs : List UInt8} (h : packDouble x = .ok bs) :
    bs.length = 8 := by
  unfold packDouble at h
  split at h
  · injection h with h
    rw [← h, Bytes.length_beBytes]
  · exact nomatch h

end DiepLab
