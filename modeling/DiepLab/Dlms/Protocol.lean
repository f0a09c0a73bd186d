import DiepLab.Drivers.Struct
import DiepLab.Library.Segments

/-!
The PDUs of a DLMS meter.

A value is a tag and an unsigned number or a double, a response carries it behind
the invoke id, and a frame carries a PDU behind a version and a length. `unframe`
splits what has been received so far; `handle` is the receive loop of the server,
which keeps the bytes of a frame that is not complete yet.
-/

namespace DiepLab.Dlms

abbrev Pdu := List UInt8

def getRequestNormal : UInt8 := 0xC0

def getResponseNormal : UInt8 := 0xC4

def accepted : UInt8 := 0

def dataClassId : ℕ := 1

def valueAttribute : ℕ := 2

def frameVer : UInt8 := 1

def typeUint32 : UInt8 := 0x06

def typeFloat64 : UInt8 := 0x0F

/-! ### Values -/

/-- A logical name, with the integers between its dots. -/
structure Obis where
  text : String
  parts : List ℤ
  deriving DecidableEq, Repr

def obisToBytes (obis : Obis) : Except PyExc (List UInt8) :=
  if obis.parts.length = 6 ∧ ∀ p ∈ obis.parts, 0 ≤ p ∧ p ≤ 255 then
    .ok (obis.parts.map fun p => UInt8.ofNat p.toNat)
  else .error (.valueError
    ("OBIS must be 6 octets A.B.C.D.E.F (each 0..255): '" ++ obis.text ++ "'"))

/-- A scalar reading; Python counts the truth values among the integers. -/
inductive Reading where
  | bool (b : Bool)
  | num (x : Number)
  deriving DecidableEq, Repr

def encodeValue : Reading → Except PyExc (List UInt8)
  | .bool _ => .error (.typeError "bool is not a DLMS scalar here")
  | .num (.int n) => .ok (typeUint32 :: Bytes.beBytes 4 (n % 2 ^ 32).toNat)
  | .num (.float x) => do
      let bytes ← packDouble x
      pure (typeFloat64 :: bytes)

def decodeValue : List UInt8 → Except PyExc Number
  | [] => .error .indexError
  | t :: rest =>
      if t = typeUint32 then do
        let n ← unpackBE 4 (rest.take 4)
        pure (.int n)
      else if t = typeFloat64 then do
        let x ← unpackDouble (rest.take 8)
        pure (.float x)
      else .error (.valueError s!"unsupported DLMS data type tag {hex t}")

/-! ### Frames -/

/-- The frame of a PDU that is not too long. -/
def frameBytes (pdu : Pdu) : List UInt8 := frameVer :: Bytes.beBytes 2 pdu.length ++ pdu

def frame (pdu : Pdu) : Except PyExc (List UInt8) :=
  if 0xFFFF < pdu.length then .error (.valueError "PDU exceeds 16-bit length")
  else .ok (frameBytes pdu)

/-- The complete PDUs, and how many bytes their frames occupy. -/
def unframe (buf : List UInt8) : Except PyExc (List Pdu × ℕ) :=
  match buf with
  | ver :: hi :: lo :: rest =>
      if ver ≠ frameVer then .error (.valueError s!"bad frame version {hex ver}")
      else if rest.length < Bytes.beNat [hi, lo] then .ok ([], 0)
      else do
        let (out, used) ← unframe (rest.drop (Bytes.beNat [hi, lo]))
        pure (rest.take (Bytes.beNat [hi, lo]) :: out, 3 + Bytes.beNat [hi, lo] + used)
  | _ => .ok ([], 0)
termination_by buf.length

/-! ### Requests and responses -/

def buildGetRequest (invokeId classId : ℕ) (obis : List UInt8) (attr access : ℕ) :
    Except PyExc Pdu :=
  if obis.length ≠ 6 then .error (.valueError "OBIS must be exactly 6 octets")
  else .ok (getRequestNormal :: UInt8.ofNat invokeId ::
    (Bytes.beBytes 2 classId ++ obis ++ [UInt8.ofNat attr, UInt8.ofNat access]))

def buildGetResponse (invokeId : ℕ) (valueBytes : List UInt8) (result : UInt8) : Pdu :=
  getResponseNormal :: UInt8.ofNat invokeId :: result :: valueBytes

/-- The invoke id, the result and the bytes of the value. -/
def parseGetResponse : Pdu → Except PyExc (ℕ × UInt8 × List UInt8)
  | tag :: invokeId :: result :: valueBytes =>
      if tag ≠ getResponseNormal then .error (.valueError "not a GetResponse-Normal")
      else .ok (invokeId.toNat, result, valueBytes)
  | _ => .error (.valueError "not a GetResponse-Normal")

/-! ### The server -/

/-- What the server has handed to its handler and sent, and what has ended it. -/
structure Served where
  handed : List Pdu
  sent : List UInt8
  raised : Option PyExc

/-- What follows is served afterwards, unless the loop has ended. -/
def Served.andThen (served next : Served) : Served :=
  match served.raised with
  | some _ => served
  | none => { handed := served.handed ++ next.handed
              sent := served.sent ++ next.sent
              raised := next.raised }

def nothingServed : Served := ⟨[], [], none⟩

/-- One PDU: the handler's reply is framed and sent. -/
def reply (handler : Pdu → Option Pdu) (pdu : Pdu) : Served :=
  match handler pdu with
  | none => ⟨[pdu], [], none⟩
  | some answer =>
      match frame answer with
      | .ok bytes => ⟨[pdu], bytes, none⟩
      | .error e => ⟨[pdu], [], some e⟩

def replies (handler : Pdu → Option Pdu) (pdus : List Pdu) : Served :=
  pdus.foldr (fun pdu next => (reply handler pdu).andThen next) nothingServed

/-- The loop of `_handle`, with what is left of the bytes received before. -/
def handle (handler : Pdu → Option Pdu) (buf : List UInt8) (s : Segments UInt8) : Served :=
  if _hs : s = [] then nothingServed
  else
    match unframe (buf ++ (s.recv 2048).1) with
    | .error e => ⟨[], [], some e⟩
    | .ok (pdus, used) =>
        (replies handler pdus).andThen
          (handle handler ((buf ++ (s.recv 2048).1).drop used) (s.recv 2048).2)
termination_by s.content.length
decreasing_by exact Segments.length_recv_lt (by decide) _hs

/-! ### What comes back -/

/-- A value is a tag and four bytes, or another tag and eight. -/
theorem encodeValue_eq {v : Number} {bytes : List UInt8} (h : encodeValue (.num v) = .ok bytes) :
    (∃ packed, bytes = typeUint32 :: packed ∧ packed.length = 4) ∨
      ∃ packed, bytes = typeFloat64 :: packed ∧ packed.length = 8 := by
  cases v with
  | int n =>
      injection h with h
      exact Or.inl ⟨_, h.symm, Bytes.length_beBytes 4 _⟩
  | float x =>
      obtain ⟨packed, hpacked, h⟩ := bind_eq_ok.mp h
      injection h with h
      exact Or.inr ⟨packed, h.symm, length_packDouble hpacked⟩

theorem decodeValue_uint32 (n : ℕ) (h : n < 2 ^ 32) :
    decodeValue (typeUint32 :: Bytes.beBytes 4 n) = .ok (.int n) := by
  have htake : (Bytes.beBytes 4 n).take 4 = Bytes.beBytes 4 n :=
    List.take_of_length_le (Bytes.length_beBytes 4 n).le
  rw [decodeValue, if_pos rfl, htake, unpackBE_of_length (Bytes.length_beBytes 4 n),
    Bytes.beNat_beBytes_of_lt h]
  rfl

/-- An integer comes back modulo a power of two. -/
theorem decodeValue_int (n : ℤ) :
    ∃ bytes, encodeValue (.num (.int n)) = .ok bytes ∧
      decodeValue bytes = .ok (.int (n % 2 ^ 32)) := by
  have hlt : (n % 2 ^ 32).toNat < 2 ^ 32 := by omega
  have hcast : ((n % 2 ^ 32).toNat : ℤ) = n % 2 ^ 32 := by omega
  exact ⟨_, rfl, hcast ▸ decodeValue_uint32 _ hlt⟩

theorem decodeValue_float {x : Double} {bytes : List UInt8}
    (h : encodeValue (.num (.float x)) = .ok bytes) :
    decodeValue bytes = .ok (.float (binary64.convert x)) := by
  obtain ⟨packed, hpacked, h⟩ := bind_eq_ok.mp h
  injection h with h
  have htake : packed.take 8 = packed := List.take_of_length_le (length_packDouble hpacked).le
  rw [← h, decodeValue, if_neg (by decide), if_pos rfl, htake, unpackDouble_of_packDouble hpacked]
  rfl

/-- Only a tag with enough bytes behind it is decoded. -/
theorem decodeValue_eq_ok {bytes : List UInt8} {v : Number} (h : decodeValue bytes = .ok v) :
    ∃ tag packed, bytes = tag :: packed ∧
      (tag = typeUint32 ∧ 4 ≤ packed.length ∨ tag = typeFloat64 ∧ 8 ≤ packed.length) := by
  cases bytes with
  | nil => exact nomatch h
  | cons tag packed =>
      refine ⟨tag, packed, rfl, ?_⟩
      rw [decodeValue] at h
      split at h
      · rename_i htag
        obtain ⟨n, hn, -⟩ := bind_eq_ok.mp h
        have hlen := length_of_unpackBE hn
        rw [List.length_take] at hlen
        exact Or.inl ⟨htag, by omega⟩
      · split at h
        · rename_i htag
          obtain ⟨x, hx, -⟩ := bind_eq_ok.mp h
          obtain ⟨n, hn, -⟩ := bind_eq_ok.mp hx
          have hlen := length_of_unpackBE hn
          rw [List.length_take] at hlen
          exact Or.inr ⟨htag, by omega⟩
        · exact nomatch h

theorem parseGetResponse_eq_ok {pdu : Pdu} {invokeId : ℕ} {result : UInt8} {valueBytes : List UInt8}
    (h : parseGetResponse pdu = .ok (invokeId, result, valueBytes)) :
    ∃ id, pdu = getResponseNormal :: id :: result :: valueBytes := by
  unfold parseGetResponse at h
  split at h
  · split at h
    · exact nomatch h
    · rename_i htag
      injection h with h
      simp only [Prod.mk.injEq] at h
      obtain ⟨-, rfl, rfl⟩ := h
      exact ⟨_, by rw [not_not.mp htag]⟩
  · exact nomatch h

/-- An integer, or a finite double. -/
def Scalar : Number → Prop
  | .int _ => True
  | .float (.finite q) => Double.ofRat q = .finite q
  | .float _ => False

/-- If the value is encoded at all, a response brings back the value and the id. -/
def RoundTrips (invokeId : ℕ) (v : Number) : Prop :=
  ∀ bytes, encodeValue (.num v) = .ok bytes →
    ∃ valueBytes,
      parseGetResponse (buildGetResponse invokeId bytes accepted) =
        .ok (invokeId, accepted, valueBytes) ∧
      decodeValue valueBytes = .ok v

theorem parseGetResponse_build {invokeId : ℕ} (h : invokeId < 256) (valueBytes : List UInt8)
    (result : UInt8) :
    parseGetResponse (buildGetResponse invokeId valueBytes result) =
      .ok (invokeId, result, valueBytes) := by
  have hid : (UInt8.ofNat invokeId).toNat = invokeId := UInt8.toNat_ofNat_of_lt h
  rw [buildGetResponse, parseGetResponse, if_neg (not_not.mpr rfl), hid]

/-- A value comes back exactly if it is no integer that the field has no room for. -/
theorem roundTrips_iff {invokeId : ℕ} (hid : invokeId < 256) {v : Number} (hv : Scalar v) :
    RoundTrips invokeId v ↔ ∀ n, v = .int n → 0 ≤ n ∧ n < 2 ^ 32 := by
  cases v with
  | int n =>
      obtain ⟨bytes, hencode, hdecode⟩ := decodeValue_int n
      constructor
      · rintro h _ ⟨⟩
        obtain ⟨valueBytes, hparse, hback⟩ := h bytes hencode
        rw [parseGetResponse_build hid] at hparse
        obtain rfl : bytes = valueBytes := (Prod.mk.inj (Prod.mk.inj (Except.ok.inj hparse)).2).2
        rw [hdecode] at hback
        injection hback with hback
        injection hback with hback
        omega
      · intro h bytes' hencode'
        obtain ⟨hnonneg, hlt⟩ := h n rfl
        obtain rfl : bytes = bytes' := Except.ok.inj (hencode.symm.trans hencode')
        refine ⟨bytes, parseGetResponse_build hid bytes accepted, ?_⟩
        rw [hdecode, Int.emod_eq_of_lt hnonneg hlt]
  | float x =>
      refine iff_of_true (fun bytes hencode => ?_) nofun
      refine ⟨bytes, parseGetResponse_build hid bytes accepted, ?_⟩
      rw [decodeValue_float hencode]
      cases x with
      | finite q => rw [BinaryFormat.convert_binary64, show Double.ofRat q = .finite q from hv]
      | inf negative => exact hv.elim
      | nan => exact hv.elim

theorem roundTrips_mainsVoltage :
    RoundTrips 7 (.float (.finite 230)) ↔
      ∀ n, Number.float (.finite 230) = .int n → 0 ≤ n ∧ n < 2 ^ 32 :=
  roundTrips_iff (by decide) (show Double.ofRat 230 = .finite 230 by decide +kernel)

/-- A power of minus one comes back as the largest number of the field. -/
theorem exportedPower_lost : ¬RoundTrips 1 (.int (-1)) := by
  intro h
  obtain ⟨valueBytes, hparse, hback⟩ := h [0x06, 0xFF, 0xFF, 0xFF, 0xFF] rfl
  rw [parseGetResponse_build (by decide)] at hparse
  obtain rfl := (Prod.mk.inj (Prod.mk.inj (Except.ok.inj hparse)).2).2
  rw [show decodeValue [0x06, 0xFF, 0xFF, 0xFF, 0xFF] = .ok (.int 4294967295) from rfl] at hback
  injection hback with hback
  exact absurd hback (by decide)

end DiepLab.Dlms
