import DiepLab.Drivers.Struct
import DiepLab.Library.Segments

/-!
WebSocket frames.

A length below 126 stands in the second byte, and a longer one behind it, in two
or in eight bytes; the highest bit of that byte says that a key follows, with
which the payload is masked. `frame_received` is the round trip, for the frames
that either side builds.
-/

namespace DiepLab.Ocpp

def opText : ℕ := 0x1

def opClose : ℕ := 0x8

def opPing : ℕ := 0x9

/-- `payload.encode("utf-8")`. -/
def utf8 (s : String) : List UInt8 := s.toByteArray.data.toList

/-- `payload.decode("utf-8")`, or none where it raises `UnicodeDecodeError`. -/
def utf8? (bytes : List UInt8) : Option String := String.fromUTF8? ⟨bytes.toArray⟩

/-- `os.urandom(4)`. -/
abbrev MaskKey := { key : List UInt8 // key.length = 4 }

/-- Byte `i` is masked with byte `i % 4` of the key. -/
def applyMask (key data : List UInt8) : List UInt8 :=
  data.mapIdx fun i b => b ^^^ key.getD (i % 4) 0

/-- `struct.pack` of an unsigned number in network order. -/
def packBE (size n : ℕ) : Except PyExc (List UInt8) :=
  if n < 256 ^ size then .ok (Bytes.beBytes size n)
  else .error (.structError s!"int too large to convert to {size} bytes")

def maskBit (mask : Option MaskKey) : ℕ := if mask.isSome then 0x80 else 0

/-- The second byte, and the length behind it. -/
def lengthBytes (mask : Option MaskKey) (length : ℕ) : Except PyExc (List UInt8) :=
  if length < 126 then .ok [UInt8.ofNat (maskBit mask ||| length)]
  else if length < 65536 then do
    let ext ← packBE 2 length
    pure (UInt8.ofNat (maskBit mask ||| 126) :: ext)
  else do
    let ext ← packBE 8 length
    pure (UInt8.ofNat (maskBit mask ||| 127) :: ext)

/-- The payload, behind its key if it is masked. -/
def payloadBytes (data : List UInt8) : Option MaskKey → List UInt8
  | some key => key.val ++ applyMask key.val data
  | none => data

/-- The frame of a payload that is encoded already. -/
def dataFrame (data : List UInt8) (mask : Option MaskKey) (opcode : ℕ) :
    Except PyExc (List UInt8) := do
  let first ← byte (0x80 ||| opcode)
  let length ← lengthBytes mask data.length
  pure (first :: length ++ payloadBytes data mask)

def encodeFrame (payload : String) (mask : Option MaskKey) (opcode : ℕ) :
    Except PyExc (List UInt8) :=
  dataFrame (utf8 payload) mask opcode

section Read

variable {σ : Type} (recvExact : ℕ → Reader σ (List UInt8))

/-- The length, when the lowest bits of the second byte are such. -/
def readLength (low : ℕ) : Reader σ ℕ :=
  if low = 126 then do
    let ext ← recvExact 2
    pure (Bytes.beNat ext)
  else if low = 127 then do
    let ext ← recvExact 8
    pure (Bytes.beNat ext)
  else pure low

/-- `_read_frame`; nothing is received for an empty payload. -/
def readFrame : Reader σ (ℕ × List UInt8) := do
  match ← recvExact 2 with
  | [first, second] =>
      let opcode := (first &&& 0x0F).toNat
      let masked := second &&& 0x80 ≠ 0
      let length ← readLength recvExact (second &&& 0x7F).toNat
      if masked then
        let maskKey ← recvExact 4
        let payload ← recvExact length
        pure (opcode, applyMask maskKey payload)
      else
        let payload ← recvExact length
        pure (opcode, payload)
  | _ => failure

end Read

/-! ### Masks and texts -/

theorem length_applyMask (key data : List UInt8) : (applyMask key data).length = data.length :=
  List.length_mapIdx

/-- Masked twice with the same key. -/
theorem applyMask_applyMask (key data : List UInt8) :
    applyMask key (applyMask key data) = data := by
  refine List.ext_getElem (by rw [length_applyMask, length_applyMask]) fun i h h' => ?_
  simp only [applyMask, List.getElem_mapIdx]
  rw [UInt8.xor_assoc, UInt8.xor_self, UInt8.xor_zero]

/-- A text is decoded from its bytes. -/
theorem utf8?_utf8 (s : String) : utf8? (utf8 s) = some s := by
  have hbytes : (⟨(utf8 s).toArray⟩ : ByteArray) = s.toByteArray := rfl
  rw [utf8?, hbytes, String.fromUTF8?, dif_pos s.isValidUTF8]
  rfl

/-! ### The round trip -/

/-- The first byte holds the opcode. -/
theorem byte_opcode {opcode : ℕ} (h : opcode < 16) :
    ∃ first, byte (0x80 ||| opcode) = .ok first ∧ (first &&& 0x0F).toNat = opcode := by
  have hall : ∀ opcode : Fin 16, byte (0x80 ||| opcode.val) = .ok (UInt8.ofNat (0x80 ||| opcode)) ∧
      (UInt8.ofNat (0x80 ||| opcode.val) &&& 0x0F).toNat = opcode := by decide
  exact ⟨_, hall ⟨opcode, h⟩⟩

/-- The second byte holds the bit of the mask and seven bits of the length. -/
theorem secondByte (mask : Option MaskKey) {low : ℕ} (h : low < 128) :
    (UInt8.ofNat (maskBit mask ||| low) &&& 0x80 ≠ 0 ↔ mask.isSome) ∧
      (UInt8.ofNat (maskBit mask ||| low) &&& 0x7F).toNat = low := by
  have hall : ∀ low : Fin 128,
      (UInt8.ofNat (0x80 ||| low.val) &&& 0x80 ≠ 0 ∧
        (UInt8.ofNat (0x80 ||| low.val) &&& 0x7F).toNat = low) ∧
      UInt8.ofNat (0 ||| low.val) &&& 0x80 = 0 ∧
        (UInt8.ofNat (0 ||| low.val) &&& 0x7F).toNat = low := by decide
  obtain ⟨⟨hbit, hlow⟩, hbit', hlow'⟩ := hall ⟨low, h⟩
  cases mask with
  | some key => exact ⟨iff_of_true hbit rfl, hlow⟩
  | none => exact ⟨iff_of_false (not_not.mpr hbit') nofun, hlow'⟩

theorem packBE_of_lt {size n : ℕ} (h : n < 256 ^ size) :
    packBE size n = .ok (Bytes.beBytes size n) := if_pos h

/-- What is written of a length is read, with the bit of the mask before it. -/
theorem readLength_lengthBytes (mask : Option MaskKey) {length : ℕ} (h : length < 2 ^ 64) :
    ∃ second ext, lengthBytes mask length = .ok (second :: ext) ∧
      (second &&& 0x80 ≠ 0 ↔ mask.isSome) ∧
      ∀ rest, readLength Segments.takeExact (second &&& 0x7F).toNat (ext ++ rest) =
        some (length, rest) := by
  have hext {size : ℕ} (hlt : length < 256 ^ size) (rest : List UInt8) :
      (do let ext ← Segments.takeExact size; pure (Bytes.beNat ext) : Reader (List UInt8) ℕ)
        (Bytes.beBytes size length ++ rest) = some (length, rest) := by
    rw [Reader.bind_eq (Segments.takeExact_append (Bytes.length_beBytes size length) rest),
      Bytes.beNat_beBytes_of_lt hlt]
    rfl
  unfold lengthBytes
  by_cases hshort : length < 126
  · obtain ⟨hbit, hlow⟩ := secondByte mask (show length < 128 by omega)
    refine ⟨_, [], if_pos hshort, hbit, fun rest => ?_⟩
    rw [hlow, readLength, if_neg (by omega), if_neg (by omega)]
    rfl
  · rw [if_neg hshort]
    by_cases hmedium : length < 65536
    · obtain ⟨hbit, hlow⟩ := secondByte mask (show 126 < 128 by decide)
      rw [if_pos hmedium, packBE_of_lt (show length < 256 ^ 2 by omega)]
      refine ⟨_, _, rfl, hbit, fun rest => ?_⟩
      rw [hlow, readLength, if_pos rfl]
      exact hext (by omega) rest
    · obtain ⟨hbit, hlow⟩ := secondByte mask (show 127 < 128 by decide)
      rw [if_neg hmedium, packBE_of_lt (show length < 256 ^ 8 by omega)]
      refine ⟨_, _, rfl, hbit, fun rest => ?_⟩
      rw [hlow, readLength, if_neg (by decide), if_pos rfl]
      exact hext (by omega) rest

/-- A frame is taken off the front of the stream. -/
theorem readFrame_dataFrame {data : List UInt8} (mask : Option MaskKey) {opcode : ℕ}
    (hopcode : opcode < 16) (hlength : data.length < 2 ^ 64) :
    ∃ bytes, dataFrame data mask opcode = .ok bytes ∧ ∀ rest,
      readFrame Segments.takeExact (bytes ++ rest) = some ((opcode, data), rest) := by
  obtain ⟨first, hfirst, hread⟩ := byte_opcode hopcode
  obtain ⟨second, ext, hlengthBytes, hbit, hreadLength⟩ := readLength_lengthBytes mask hlength
  have hbytes : dataFrame data mask opcode =
      .ok (first :: (second :: ext) ++ payloadBytes data mask) := by
    rw [dataFrame, hfirst, ok_bind, hlengthBytes]
    rfl
  refine ⟨_, hbytes, fun rest => ?_⟩
  have hheader (tail : List UInt8) :
      Segments.takeExact 2 (first :: second :: tail) = some ([first, second], tail) :=
    Segments.takeExact_append (l := [first, second]) rfl tail
  rw [List.append_assoc, List.cons_append, List.cons_append, readFrame, Reader.bind_eq (hheader _)]
  dsimp only
  rw [Reader.bind_eq (hreadLength _), hread]
  cases mask with
  | some key =>
      rw [if_pos (hbit.mpr rfl), payloadBytes, List.append_assoc,
        Reader.bind_eq (Segments.takeExact_append key.property _),
        Reader.bind_eq (Segments.takeExact_append (length_applyMask key.val _) _),
        applyMask_applyMask]
      rfl
  | none =>
      rw [if_neg (by rw [hbit]; nofun), payloadBytes,
        Reader.bind_eq (Segments.takeExact_append rfl _)]
      rfl

/-! ### Segments -/

theorem readLength_simulates (low : ℕ) :
    Simulates Segments.content (readLength (Segments.recvExact (α := UInt8)) low)
      (readLength Segments.takeExact low) :=
  .ite (.bind (Segments.recvExact_simulates 2) fun _ => .pure _)
    (.ite (.bind (Segments.recvExact_simulates 8) fun _ => .pure _) (.pure low))

/-- `readFrame` does not see the segmentation. -/
theorem readFrame_simulates :
    Simulates Segments.content (readFrame (Segments.recvExact (α := UInt8)))
      (readFrame Segments.takeExact) := by
  refine .bind (Segments.recvExact_simulates 2) fun header => ?_
  split
  · refine .bind (readLength_simulates _) fun length => .ite ?_ ?_
    · exact .bind (Segments.recvExact_simulates 4) fun _ =>
        .bind (Segments.recvExact_simulates length) fun _ => .pure _
    · exact .bind (Segments.recvExact_simulates length) fun _ => .pure _
  · exact .failure

theorem takes_readFrame : Segments.Takes 2 (readFrame (Segments.takeExact (α := UInt8))) := by
  refine (Segments.takes_takeExact 2).bind (n := 0) fun header => ?_
  split
  · have hlength (low : ℕ) : Segments.Takes 0 (readLength (Segments.takeExact (α := UInt8)) low) :=
      .ite (((Segments.takes_takeExact 2).bind fun _ => Segments.takes_pure _).mono (by decide))
        (.ite (((Segments.takes_takeExact 8).bind fun _ => Segments.takes_pure _).mono (by decide))
          (Segments.takes_pure low))
    have hpayload (n : ℕ) (f : List UInt8 → ℕ × List UInt8) :
        Segments.Takes 0 (do let payload ← Segments.takeExact n; pure (f payload) :
          Reader (List UInt8) (ℕ × List UInt8)) :=
      ((Segments.takes_takeExact n).bind fun _ => Segments.takes_pure _).mono n.zero_le
    refine (hlength _).bind (n := 0) fun length => .ite ?_ (hpayload length _)
    exact ((Segments.takes_takeExact 4).bind fun _ => hpayload length _).mono (by decide)
  · exact Segments.takes_failure 0

/-- Every frame that is read leaves less of the stream. -/
theorem length_readFrame_lt {s s' : Segments UInt8} {frame : ℕ × List UInt8}
    (h : readFrame Segments.recvExact s = some (frame, s')) :
    s'.content.length < s.content.length := by
  have hcontent := readFrame_simulates s
  rw [h] at hcontent
  have := takes_readFrame s.content frame s'.content hcontent.symm
  omega

/-- Whatever the segments are, a frame is read as what it was built of, and
nothing behind it. -/
theorem frame_received (payload : String) (mask : Option MaskKey) {opcode : ℕ}
    (hopcode : opcode < 16) (hlength : (utf8 payload).length < 2 ^ 63) :
    ∃ bytes, encodeFrame payload mask opcode = .ok bytes ∧
      ∀ (rest : List UInt8) (s : Segments UInt8), s.content = bytes ++ rest →
        ∃ s', readFrame Segments.recvExact s = some ((opcode, utf8 payload), s') ∧
          s'.content = rest := by
  obtain ⟨bytes, hbytes, hread⟩ :=
    readFrame_dataFrame mask hopcode (show (utf8 payload).length < 2 ^ 64 by omega)
  exact ⟨bytes, hbytes, fun rest s hs => readFrame_simulates.eq_some (hs ▸ hread rest)⟩

theorem heartbeat_received :
    ∃ bytes, encodeFrame "[2]" (some ⟨[1, 2, 3, 4], rfl⟩) opText = .ok bytes ∧
      ∀ (rest : List UInt8) (s : Segments UInt8), s.content = bytes ++ rest →
        ∃ s', readFrame Segments.recvExact s = some ((opText, utf8 "[2]"), s') ∧
          s'.content = rest :=
  frame_received "[2]" _ (by decide) (by decide +kernel)

end DiepLab.Ocpp
