import DiepLab.Library.Segments
import DiepLab.Microgrid.Asdu

/-!
The APDUs of IEC 60870-5-104.

Six bytes before an ASDU: the start, the length of the rest and four control
bytes, which number the frames of either direction modulo `2 ^ 15`. The length is
one byte, so that an ASDU which fits has fewer objects than its count can say.
-/

namespace DiepLab.Microgrid

def start : UInt8 := 0x68

/-- The two control bytes of a counter. The lowest bit is left for the format. -/
def counterBytes (n : ℕ) : List UInt8 :=
  [UInt8.ofNat ((n <<< 1) &&& 0xFE), UInt8.ofNat ((n >>> 7) &&& 0xFF)]

def readCounter (low high : UInt8) : ℕ := (low.toNat ||| high.toNat <<< 8) >>> 1

def encodeI (asdu : List UInt8) (ns nr : ℕ) : Except PyExc (List UInt8) := do
  let body := counterBytes ns ++ counterBytes nr ++ asdu
  let length ← byte body.length
  pure (start :: length :: body)

def encodeS (nr : ℕ) : List UInt8 := [start, 4, 0x01, 0x00] ++ counterBytes nr

def encodeU (func : UInt8) : List UInt8 := [start, 4, func, 0, 0, 0]

inductive Apdu where
  | i (ns nr : ℕ) (asdu : List UInt8)
  | s (nr : ℕ)
  | u (func : UInt8)
  deriving DecidableEq, Repr

/-- The format goes by the lowest bits of the first control byte. -/
def parseBody : List UInt8 → Option Apdu
  | c₁ :: c₂ :: c₃ :: c₄ :: asdu =>
      some <|
        if c₁ &&& 0x01 = 0 then .i (readCounter c₁ c₂) (readCounter c₃ c₄) asdu
        else if c₁ &&& 0x03 = 0x01 then .s (readCounter c₃ c₄)
        else .u c₁
  | _ => none

variable {σ : Type}

def readApdu (recvExact : ℕ → Reader σ (List UInt8)) : Reader σ Apdu := do
  match ← recvExact 2 with
  | [first, length] =>
      -- out of step with the peer
      if first ≠ start then failure
      else
        match parseBody (← recvExact length.toNat) with
        | some apdu => pure apdu
        | none => failure
  | _ => failure

/-! ### Counters -/

theorem counterLow (n : ℕ) : (n <<< 1) &&& 0xFE = 2 * (n % 128) := by
  have hall : ∀ r : Fin 128, (2 * r.val) &&& 0xFE = 2 * r := by decide
  have hle : (n <<< 1) &&& 0xFE < 2 ^ 8 := lt_of_le_of_lt Nat.and_le_right (by decide)
  have hmod : n <<< 1 % 2 ^ 8 = 2 * (n % 128) := by
    rw [Nat.shiftLeft_eq]
    omega
  rw [← Nat.mod_eq_of_lt hle, Nat.and_mod_two_pow, hmod]
  exact hall ⟨n % 128, Nat.mod_lt _ (by decide)⟩

theorem counterHigh {n : ℕ} (h : n < 2 ^ 15) : (n >>> 7) &&& 0xFF = n / 128 := by
  rw [show 0xFF = 2 ^ 8 - 1 from rfl, Nat.and_two_pow_sub_one_eq_mod, Nat.shiftRight_eq_div_pow]
  omega

/-- Fifteen bits are split between two bytes and put together again. -/
theorem readCounter_counterBytes {n : ℕ} (h : n < 2 ^ 15) :
    ∃ low high, counterBytes n = [low, high] ∧ low &&& 0x01 = 0 ∧ readCounter low high = n := by
  refine ⟨_, _, rfl, ?_, ?_⟩
  · have hall : ∀ r : Fin 128, UInt8.ofNat (2 * r.val) &&& 0x01 = 0 := by decide
    rw [counterLow]
    exact hall ⟨n % 128, Nat.mod_lt _ (by decide)⟩
  · rw [counterLow, counterHigh h, readCounter, UInt8.toNat_ofNat_of_lt' (show _ < 256 by omega),
      UInt8.toNat_ofNat_of_lt' (show _ < 256 by omega), Nat.or_comm,
      ← Nat.shiftLeft_add_eq_or_of_lt (by omega), Nat.shiftLeft_eq, Nat.shiftRight_eq_div_pow]
    omega

/-! ### Frames -/

theorem parseBody_encodeI {ns nr : ℕ} (hns : ns < 2 ^ 15) (hnr : nr < 2 ^ 15) (asdu : List UInt8) :
    parseBody (counterBytes ns ++ counterBytes nr ++ asdu) = some (.i ns nr asdu) := by
  obtain ⟨low, high, hbytes, hformat, hns⟩ := readCounter_counterBytes hns
  obtain ⟨low', high', hbytes', -, hnr⟩ := readCounter_counterBytes hnr
  rw [hbytes, hbytes']
  change some (if low &&& 0x01 = 0 then Apdu.i _ _ asdu else _) = _
  rw [if_pos hformat, hns, hnr]

theorem parseBody_encodeS {nr : ℕ} (hnr : nr < 2 ^ 15) :
    parseBody ([0x01, 0x00] ++ counterBytes nr) = some (.s nr) := by
  obtain ⟨low, high, hbytes, -, hnr⟩ := readCounter_counterBytes hnr
  rw [hbytes]
  exact congrArg (fun n => some (Apdu.s n)) hnr

/-- A function whose two lowest bits are set is not taken for another format. -/
theorem parseBody_encodeU {func : UInt8} (h : func &&& 0x03 = 0x03) :
    parseBody [func, 0, 0, 0] = some (.u func) := by
  have hi : ¬func &&& 0x01 = 0 := by
    rw [show (0x01 : UInt8) = 0x03 &&& 0x01 from rfl, ← UInt8.and_assoc, h]
    decide
  change some (if func &&& 0x01 = 0 then _ else if func &&& 0x03 = 0x01 then _ else _) = _
  rw [if_neg hi, h, if_neg (by decide)]

/-- A frame is taken off the front of the stream. -/
theorem readApdu_takeExact {body : List UInt8} {length : UInt8}
    (hlength : body.length = length.toNat) {apdu : Apdu} (hbody : parseBody body = some apdu)
    (rest : List UInt8) :
    readApdu Segments.takeExact (start :: length :: body ++ rest) = some (apdu, rest) := by
  have hheader : Segments.takeExact 2 (start :: length :: body ++ rest) =
      some ([start, length], body ++ rest) :=
    Segments.takeExact_append (l := [start, length]) rfl (body ++ rest)
  rw [readApdu, Reader.bind_eq hheader]
  dsimp only
  rw [if_neg (not_not.mpr rfl), Reader.bind_eq (Segments.takeExact_append hlength rest), hbody]
  rfl

/-- Nor does `readApdu` see the segmentation. -/
theorem readApdu_simulates :
    Simulates Segments.content (readApdu (Segments.recvExact (α := UInt8)))
      (readApdu Segments.takeExact) := by
  refine Simulates.bind (Segments.recvExact_simulates 2) fun header => ?_
  split
  · refine Simulates.ite Simulates.failure (Simulates.bind (Segments.recvExact_simulates _) ?_)
    intro body
    split
    · exact Simulates.pure _
    · exact Simulates.failure
  · exact Simulates.failure

theorem readApdu_of_content {bytes rest : List UInt8} {apdu : Apdu}
    (h : readApdu Segments.takeExact (bytes ++ rest) = some (apdu, rest)) {s : Segments UInt8}
    (hs : s.content = bytes ++ rest) :
    ∃ s', readApdu Segments.recvExact s = some (apdu, s') ∧ s'.content = rest :=
  readApdu_simulates.eq_some (hs ▸ h)

/-- An acknowledgement is read with its number. -/
theorem acknowledgement_received {nr : ℕ} (hnr : nr < 2 ^ 15) {rest : List UInt8}
    {s : Segments UInt8} (hs : s.content = encodeS nr ++ rest) :
    ∃ s', readApdu Segments.recvExact s = some (.s nr, s') ∧ s'.content = rest := by
  have hlength : ([0x01, 0x00] ++ counterBytes nr).length = (4 : UInt8).toNat := rfl
  exact readApdu_of_content (readApdu_takeExact hlength (parseBody_encodeS hnr) rest) hs

/-- So is a function, such as the start of the transfer of data. -/
theorem function_received {func : UInt8} (hfunc : func &&& 0x03 = 0x03) {rest : List UInt8}
    {s : Segments UInt8} (hs : s.content = encodeU func ++ rest) :
    ∃ s', readApdu Segments.recvExact s = some (.u func, s') ∧ s'.content = rest := by
  have hlength : [func, 0, 0, 0].length = (4 : UInt8).toNat := rfl
  exact readApdu_of_content (readApdu_takeExact hlength (parseBody_encodeU hfunc) rest) hs

/-- What an I-frame has room for. -/
theorem encodeI_eq_ok {asdu : List UInt8} {ns nr : ℕ} {bytes : List UInt8}
    (h : encodeI asdu ns nr = .ok bytes) :
    asdu.length < 252 ∧ ∃ length : UInt8,
      (counterBytes ns ++ counterBytes nr ++ asdu).length = length.toNat ∧
        bytes = start :: length :: (counterBytes ns ++ counterBytes nr ++ asdu) := by
  obtain ⟨length, hlength, h⟩ := bind_eq_ok.mp h
  obtain ⟨hlt, rfl⟩ := byte_eq_ok hlength
  injection h with h
  refine ⟨?_, _, ?_, h.symm⟩
  · simp only [counterBytes, List.length_append, List.length_cons, List.length_nil] at hlt
    omega
  · rw [UInt8.toNat_ofNat_of_lt' (by simpa using hlt)]

/-- A frame that is written is read, with the numbers and the objects that it carries. -/
theorem asdu_received {typeId : UInt8} (htype : typeId ∈ supportedTypes)
    {cot commonAddr ns nr : ℕ} (hcot : cot < 256) (haddr : commonAddr < 65536)
    (hns : ns < 2 ^ 15) (hnr : nr < 2 ^ 15) {objects : List (ℕ × Number)}
    (hioa : ∀ object ∈ objects, object.1 < 2 ^ 24) {encoded : List (ℕ × List UInt8)}
    (h : encodeObjects typeId objects = .ok encoded) {bytes : List UInt8}
    (hframe : encodeI (encodeAsdu typeId cot commonAddr encoded) ns nr = .ok bytes) :
    ∃ values, carriedObjects typeId objects = some values ∧
      ∀ (rest : List UInt8) (s : Segments UInt8), s.content = bytes ++ rest →
        ∃ asdu s', readApdu Segments.recvExact s = some (.i ns nr asdu, s') ∧
          s'.content = rest ∧ decodeAsdu asdu = .ok ⟨typeId, cot, commonAddr, values⟩ := by
  obtain ⟨hlt, length, hlength, rfl⟩ := encodeI_eq_ok hframe
  have hcount : encoded.length < 128 := by
    have := length_encodeAsdu typeId cot commonAddr encoded
    omega
  obtain ⟨values, hcarried, hdecoded⟩ := decodeAsdu_encode htype hcot haddr hioa h hcount
  refine ⟨values, hcarried, fun rest s hs => ?_⟩
  obtain ⟨s', hread, hrest⟩ := readApdu_of_content
    (readApdu_takeExact hlength (parseBody_encodeI hns hnr _) rest) hs
  exact ⟨_, s', hread, hrest, hdecoded⟩

/-- A frequency of 49.98 comes through the conversion, in two segments. -/
theorem frequency_received :
    ∃ asdu s',
      readApdu Segments.recvExact
        [⟨[0x68, 18, 144, 1, 10, 0, 13, 1, 20, 0], nofun⟩,
          ⟨[1, 0, 233, 3, 0, 133, 235, 71, 66, 0, 0x68], nofun⟩] = some (.i 200 5 asdu, s') ∧
      s'.content = [0x68] ∧
        decodeAsdu asdu = .ok ⟨mMeNc1, 20, 1, [(1001, .float (Double.ofRat (4998 / 100)))]⟩ := by
  have hframe : encodeI (encodeAsdu mMeNc1 20 1 [(1001, [133, 235, 71, 66, 0])]) 200 5 =
      .ok [0x68, 18, 144, 1, 10, 0, 13, 1, 20, 0, 1, 0, 233, 3, 0, 133, 235, 71, 66, 0] := rfl
  have hobjects : encodeObjects mMeNc1 [(1001, .float (Double.ofRat (4998 / 100)))] =
      .ok [(1001, [133, 235, 71, 66, 0])] := by decide +kernel
  obtain ⟨values, hcarried, hreceived⟩ :=
    asdu_received (by decide) (show 20 < 256 by decide) (show 1 < 65536 by decide) (by decide)
      (by decide) (by decide) hobjects hframe
  have hvalues : carriedObjects mMeNc1 [(1001, .float (Double.ofRat (4998 / 100)))] =
      some [(1001, .float (Double.ofRat (4998 / 100)))] := by decide +kernel
  obtain rfl := Option.some.inj (hvalues.symm.trans hcarried)
  exact hreceived [0x68] _ rfl

end DiepLab.Microgrid
