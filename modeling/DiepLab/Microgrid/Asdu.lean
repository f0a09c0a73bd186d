import DiepLab.Drivers.Struct

/-!
The ASDUs of IEC 60870-5-104.

A header is followed by objects, each an address and an element whose size goes
by the type. Writer and reader are written independently: what an element
carries is what the reader makes of it, for a short float the nearest number of
`binary32` rounded to four decimals.
-/

namespace DiepLab.Microgrid

/-- Single-point information. -/
def mSpNa1 : UInt8 := 1

/-- Measured value, short floating point. -/
def mMeNc1 : UInt8 := 13

/-- Single command. -/
def cScNa1 : UInt8 := 45

/-- Set-point command, short float. -/
def cSeNc1 : UInt8 := 50

/-- General interrogation. -/
def cIcNa1 : UInt8 := 100

def supportedTypes : List UInt8 := [mSpNa1, mMeNc1, cScNa1, cSeNc1, cIcNa1]

/-! ### Elements -/

def shortFloat (value : Number) : Except PyExc (List UInt8) :=
  match value.toDouble? with
  | none => .error (.overflowError "int too large to convert to float")
  | some x => do
      let packed ← packFloat x
      -- the quality or the qualifier
      pure (packed ++ [0x00])

/-- The low bits of an integer, as one byte. -/
def lowBits (mask : ℤ) : Number → Except PyExc (List UInt8)
  | .int n => .ok [UInt8.ofNat (n % mask).toNat]
  | .float _ => .error (.typeError "unsupported operand type(s) for &: 'float' and 'int'")

def meNc : Number → Except PyExc (List UInt8) := shortFloat

def seNc : Number → Except PyExc (List UInt8) := shortFloat

def spNa : Number → Except PyExc (List UInt8) := lowBits 2

def scNa : Number → Except PyExc (List UInt8) := lowBits 2

def qoi : Number → Except PyExc (List UInt8) := lowBits 256

/-- `round(x, digits)`. -/
def roundDigits (digits : ℕ) : Double → Double
  | .finite q => Double.ofRat (Double.roundEven (q * 10 ^ digits) / 10 ^ digits)
  | x => x

/-- `b[off]`, and what follows it. -/
def readByte : List UInt8 → Except PyExc (UInt8 × List UInt8)
  | [] => .error .indexError
  | b :: rest => .ok (b, rest)

/-- An element of the type, and what follows it. -/
def decodeElement (typeId : UInt8) (b : List UInt8) : Except PyExc (Number × List UInt8) :=
  if typeId = mMeNc1 ∨ typeId = cSeNc1 then do
    let value ← unpackFloat (b.take 4)
    pure (.float (roundDigits 4 value), b.drop 5)
  else if typeId = mSpNa1 ∨ typeId = cScNa1 then do
    let (state, rest) ← readByte b
    pure (.int (state &&& 0x01).toNat, rest)
  else if typeId = cIcNa1 then do
    let (value, rest) ← readByte b
    pure (.int value.toNat, rest)
  else .error (.valueError s!"unsupported type id {typeId.toNat}")

/-! ### ASDUs -/

def ioaBytes (ioa : ℕ) : List UInt8 := Bytes.leBytes 3 ioa

def readIoa : List UInt8 → Except PyExc (ℕ × List UInt8)
  | low :: middle :: high :: rest => .ok (Bytes.leNat [low, middle, high], rest)
  | _ => .error .indexError

def encodeAsdu (typeId : UInt8) (cot commonAddr : ℕ) (objects : List (ℕ × List UInt8)) :
    List UInt8 :=
  typeId :: UInt8.ofNat (objects.length % 128) ::
    (Bytes.leBytes 2 cot ++ Bytes.leBytes 2 commonAddr ++
      objects.flatMap fun object => ioaBytes object.1 ++ object.2)

structure Asdu where
  typeId : UInt8
  cot : ℕ
  commonAddr : ℕ
  objects : List (ℕ × Number)
  deriving DecidableEq, Repr

/-- So many objects. With `sq` only the first of them carries its address. -/
def decodeObjects (typeId : UInt8) (sq : Bool) :
    ℕ → Option ℕ → List UInt8 → Except PyExc (List (ℕ × Number))
  | 0, _, _ => .ok []
  | n + 1, next, b => do
      let (ioa, b) ← match next with
        | some ioa => pure (ioa, b)
        | none => readIoa b
      let (value, b) ← decodeElement typeId b
      let objects ← decodeObjects typeId sq n (if sq then some (ioa + 1) else none) b
      pure ((ioa, value) :: objects)

def decodeAsdu : List UInt8 → Except PyExc Asdu
  | typeId :: vsq :: rest => do
      let cot ← unpackLE 2 (rest.take 2)
      let commonAddr ← unpackLE 2 ((rest.drop 2).take 2)
      let objects ← decodeObjects typeId (vsq &&& 0x80 ≠ 0) (vsq &&& 0x7F).toNat none (rest.drop 4)
      -- the high byte of the cause is the originator
      pure ⟨typeId, cot % 256, commonAddr, objects⟩
  | _ => .error .indexError

/-! ### What an element carries -/

/-- The encoder of the type. -/
def encodeElement (typeId : UInt8) : Number → Except PyExc (List UInt8) :=
  if typeId = mMeNc1 then meNc
  else if typeId = cSeNc1 then seNc
  else if typeId = mSpNa1 then spNa
  else if typeId = cScNa1 then scNa
  else qoi

def lowBits? (mask : ℤ) : Number → Option Number
  | .int n => some (.int (n % mask))
  | .float _ => none

/-- The value of an element that was encoded of a number. -/
def carried (typeId : UInt8) (value : Number) : Option Number :=
  if typeId = mMeNc1 ∨ typeId = cSeNc1 then
    value.toDouble?.map fun x => .float (roundDigits 4 (binary32.convert x))
  else lowBits? (if typeId = cIcNa1 then 256 else 2) value

theorem decodeElement_shortFloat {value : Number} {element : List UInt8}
    (h : shortFloat value = .ok element) {typeId : UInt8}
    (htype : typeId = mMeNc1 ∨ typeId = cSeNc1) (rest : List UInt8) :
    ∃ v, carried typeId value = some v ∧
      decodeElement typeId (element ++ rest) = .ok (v, rest) := by
  unfold shortFloat at h
  split at h
  · exact nomatch h
  · rename_i x hx
    obtain ⟨packed, hpacked, h⟩ := bind_eq_ok.mp h
    injection h with h
    have hlen := length_packFloat hpacked
    have htake : (element ++ rest).take 4 = packed := by
      rw [← h, List.append_assoc, ← hlen, List.take_left]
    have hdrop : (element ++ rest).drop 5 = rest := by
      have : element.length = 5 := by rw [← h, List.length_append, hlen]; rfl
      rw [← this, List.drop_left]
    have hcarried : carried typeId value = some (.float (roundDigits 4 (binary32.convert x))) := by
      rw [carried, if_pos htype, hx]
      rfl
    refine ⟨_, hcarried, ?_⟩
    rw [decodeElement, if_pos htype, htake, hdrop, unpackFloat_of_packFloat hpacked]
    rfl

theorem decodeElement_bit {value : Number} {element : List UInt8}
    (h : lowBits 2 value = .ok element) {typeId : UInt8} (htype : typeId = mSpNa1 ∨ typeId = cScNa1)
    (rest : List UInt8) :
    ∃ v, carried typeId value = some v ∧
      decodeElement typeId (element ++ rest) = .ok (v, rest) := by
  have hfloat : ¬(typeId = mMeNc1 ∨ typeId = cSeNc1) := by
    rcases htype with rfl | rfl <;> decide
  have hqoi : typeId ≠ cIcNa1 := by
    rcases htype with rfl | rfl <;> decide
  cases value with
  | float x => exact nomatch h
  | int n =>
      injection h with h
      have hcarried : carried typeId (.int n) = some (.int (n % 2)) := by
        rw [carried, if_neg hfloat, if_neg hqoi, lowBits?]
      have hbit : ((UInt8.ofNat (n % 2).toNat &&& 0x01).toNat : ℤ) = n % 2 := by
        rcases Int.emod_two_eq_zero_or_one n with hn | hn <;> rw [hn] <;> rfl
      refine ⟨_, hcarried, ?_⟩
      rw [← h, decodeElement, if_neg hfloat, if_pos htype]
      exact congrArg (fun m => Except.ok (Number.int m, rest)) hbit

theorem decodeElement_qoi {value : Number} {element : List UInt8}
    (h : lowBits 256 value = .ok element) (rest : List UInt8) :
    ∃ v, carried cIcNa1 value = some v ∧
      decodeElement cIcNa1 (element ++ rest) = .ok (v, rest) := by
  cases value with
  | float x => exact nomatch h
  | int n =>
      injection h with h
      have hbyte : ((UInt8.ofNat (n % 256).toNat).toNat : ℤ) = n % 256 := by
        rw [UInt8.toNat_ofNat']
        omega
      refine ⟨.int (n % 256), rfl, ?_⟩
      rw [← h]
      exact congrArg (fun m => Except.ok (Number.int m, rest)) hbyte

/-- An element is read as what it carries. -/
theorem decodeElement_encode {typeId : UInt8} (htype : typeId ∈ supportedTypes) {value : Number}
    {element : List UInt8} (h : encodeElement typeId value = .ok element) (rest : List UInt8) :
    ∃ v, carried typeId value = some v ∧
      decodeElement typeId (element ++ rest) = .ok (v, rest) := by
  simp only [supportedTypes, List.mem_cons, List.not_mem_nil, or_false] at htype
  rcases htype with rfl | rfl | rfl | rfl | rfl
  · exact decodeElement_bit h (Or.inl rfl) rest
  · exact decodeElement_shortFloat h (Or.inl rfl) rest
  · exact decodeElement_bit h (Or.inr rfl) rest
  · exact decodeElement_shortFloat h (Or.inr rfl) rest
  · exact decodeElement_qoi h rest

/-! ### What an ASDU carries -/

theorem readIoa_append {ioa : ℕ} (h : ioa < 2 ^ 24) (rest : List UInt8) :
    readIoa (ioaBytes ioa ++ rest) = .ok (ioa, rest) := by
  have hnat : Bytes.leNat (ioaBytes ioa) = ioa :=
    Bytes.leNat_leBytes_of_lt (show ioa < 256 ^ 3 by omega)
  have hlen : (ioaBytes ioa).length = 3 := Bytes.length_leBytes 3 ioa
  match ioaBytes ioa, hnat, hlen with
  | [low, middle, high], hnat, _ => exact congrArg (fun n => Except.ok (n, rest)) hnat

/-- The objects with their elements encoded. -/
def encodeObjects (typeId : UInt8) (objects : List (ℕ × Number)) :
    Except PyExc (List (ℕ × List UInt8)) :=
  objects.mapM fun object => do
    let element ← encodeElement typeId object.2
    pure (object.1, element)

/-- The objects with what their elements carry. -/
def carriedObjects (typeId : UInt8) (objects : List (ℕ × Number)) : Option (List (ℕ × Number)) :=
  objects.mapM fun object => (carried typeId object.2).map fun v => (object.1, v)

theorem decodeObjects_encode {typeId : UInt8} (htype : typeId ∈ supportedTypes)
    {objects : List (ℕ × Number)} (hioa : ∀ object ∈ objects, object.1 < 2 ^ 24)
    {encoded : List (ℕ × List UInt8)} (h : encodeObjects typeId objects = .ok encoded) :
    ∃ values, carriedObjects typeId objects = some values ∧
      decodeObjects typeId false encoded.length none
        (encoded.flatMap fun object => ioaBytes object.1 ++ object.2) = .ok values := by
  induction objects generalizing encoded with
  | nil =>
      injection h with h
      exact ⟨[], rfl, by rw [← h]; rfl⟩
  | cons object objects ih =>
      rw [List.forall_mem_cons] at hioa
      rw [encodeObjects, List.mapM_cons] at h
      obtain ⟨first, hfirst, h⟩ := bind_eq_ok.mp h
      obtain ⟨element, helement, hfirst⟩ := bind_eq_ok.mp hfirst
      injection hfirst with hfirst
      obtain ⟨others, hothers, h⟩ := bind_eq_ok.mp h
      injection h with h
      obtain ⟨values, hcarried, hdecoded⟩ := ih hioa.2 hothers
      obtain ⟨v, hv, hdecode⟩ := decodeElement_encode htype helement
        (others.flatMap fun object => ioaBytes object.1 ++ object.2)
      refine ⟨(object.1, v) :: values, ?_, ?_⟩
      · rw [carriedObjects] at hcarried ⊢
        rw [List.mapM_cons, hv, hcarried]
        rfl
      · rw [← h, ← hfirst, List.length_cons, List.flatMap_cons, decodeObjects, List.append_assoc]
        simp only [readIoa_append hioa.1, ok_bind, hdecode, Bool.false_eq_true, if_false, hdecoded]
        rfl

theorem length_encodeAsdu (typeId : UInt8) (cot commonAddr : ℕ) (objects : List (ℕ × List UInt8)) :
    6 + 3 * objects.length ≤ (encodeAsdu typeId cot commonAddr objects).length := by
  have hobjects : 3 * objects.length ≤
      (objects.flatMap fun object => ioaBytes object.1 ++ object.2).length := by
    induction objects with
    | nil => exact Nat.le_refl 0
    | cons object objects ih =>
        simp only [List.flatMap_cons, List.length_append, ioaBytes, Bytes.length_leBytes,
          List.length_cons] at ih ⊢
        omega
  simp only [encodeAsdu, List.length_cons, List.length_append, Bytes.length_leBytes]
  omega

/-- The bit of `sq` is clear, and the others are the count. -/
theorem countByte {n : ℕ} (h : n < 128) :
    UInt8.ofNat (n % 128) &&& 0x80 = 0 ∧ (UInt8.ofNat (n % 128) &&& 0x7F).toNat = n := by
  have hall : ∀ n : Fin 128,
      UInt8.ofNat (n % 128) &&& 0x80 = 0 ∧ (UInt8.ofNat (n % 128) &&& 0x7F).toNat = n := by
    decide
  exact hall ⟨n, h⟩

/-- As long as the count has room for them the objects are read back. -/
theorem decodeAsdu_encode {typeId : UInt8} (htype : typeId ∈ supportedTypes) {cot commonAddr : ℕ}
    (hcot : cot < 256) (haddr : commonAddr < 65536) {objects : List (ℕ × Number)}
    (hioa : ∀ object ∈ objects, object.1 < 2 ^ 24) {encoded : List (ℕ × List UInt8)}
    (h : encodeObjects typeId objects = .ok encoded) (hcount : encoded.length < 128) :
    ∃ values, carriedObjects typeId objects = some values ∧
      decodeAsdu (encodeAsdu typeId cot commonAddr encoded) =
        .ok ⟨typeId, cot, commonAddr, values⟩ := by
  obtain ⟨values, hcarried, hdecoded⟩ := decodeObjects_encode htype hioa h
  refine ⟨values, hcarried, ?_⟩
  have hcauses : unpackLE 2 (Bytes.leBytes 2 cot) = .ok cot := by
    rw [unpackLE_of_length (Bytes.length_leBytes 2 cot), Bytes.leNat_leBytes_of_lt (by omega)]
  have haddrs : unpackLE 2 (Bytes.leBytes 2 commonAddr) = .ok commonAddr := by
    rw [unpackLE_of_length (Bytes.length_leBytes 2 commonAddr),
      Bytes.leNat_leBytes_of_lt (by omega)]
  have htake {xs : List UInt8} (hxs : xs.length = 2) (ys : List UInt8) :
      (xs ++ ys).take 2 = xs ∧ (xs ++ ys).drop 2 = ys := by
    rw [← hxs]
    exact ⟨List.take_left, List.drop_left⟩
  obtain ⟨hsq, hvsq⟩ := countByte hcount
  have hcotBytes := htake (Bytes.length_leBytes 2 cot)
  have haddrBytes := htake (Bytes.length_leBytes 2 commonAddr)
  have hobjects (ys : List UInt8) :
      (Bytes.leBytes 2 cot ++ (Bytes.leBytes 2 commonAddr ++ ys)).drop 4 = ys := by
    rw [show 4 = 2 + 2 from rfl, ← List.drop_drop, (hcotBytes _).2, (haddrBytes _).2]
  have hnotSq : decide (UInt8.ofNat (encoded.length % 128) &&& 0x80 ≠ 0) = false :=
    decide_eq_false (not_not.mpr hsq)
  rw [encodeAsdu, decodeAsdu, List.append_assoc, (hcotBytes _).1, (hcotBytes _).2,
    (haddrBytes _).1, hobjects, hcauses, haddrs, hvsq, hnotSq]
  simp only [ok_bind, hdecoded, Nat.mod_eq_of_lt hcot]
  rfl

end DiepLab.Microgrid
