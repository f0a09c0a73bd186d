import DiepLab.Drivers.Struct
import DiepLab.Library.Loops
import DiepLab.Library.ShiftRegister

/-!
HDLC frames.

A frame stands between two flags and ends with a check of its body. The check
finds every error in one or two adjacent bytes. The reader ends a frame at the
next flag, and the writer does not see to it that there is none inside.
-/

namespace DiepLab.Dlms

def hdlcFlag : UInt8 := 0x7E

def hdlcSnrm : ℕ := 0x93

def hdlcUa : ℕ := 0x73

/-- CRC-16/CCITT. -/
def fcs16 (data : List UInt8) : BitVec 16 :=
  ShiftRegister.run 0x8408#16 0xFFFF#16 data ^^^ 0xFFFF#16

/-- The low byte and the high byte. -/
def fcsBytes (fcs : BitVec 16) : List UInt8 :=
  [UInt8.ofBitVec (fcs.setWidth 8), UInt8.ofBitVec ((fcs >>> 8).setWidth 8)]

def buildHdlcFrame (address control : ℕ) (info : List UInt8) : Except PyExc (List UInt8) := do
  let extended ← byte (address <<< 1 ||| 1)
  -- the control byte is masked
  let body := extended :: UInt8.ofNat control :: info
  pure (hdlcFlag :: body ++ fcsBytes (fcs16 body) ++ [hdlcFlag])

/-- The address, the control byte and the information field. -/
def hdlcFields : List UInt8 → Except PyExc (ℕ × ℕ × List UInt8)
  | address :: control :: info => .ok (address.toNat >>> 1, control.toNat, info)
  | _ => .error (.valueError "HDLC frame body too short")

def parseHdlcFrame (frame : List UInt8) : Except PyExc (ℕ × ℕ × List UInt8) :=
  if frame.length < 5 ∨ frame.head? ≠ some hdlcFlag ∨ frame.getLast? ≠ some hdlcFlag then
    .error (.valueError "not an HDLC frame (bad flag delimiters)")
  else
    let body := (frame.take (frame.length - 3)).drop 1
    let low := frame.getD (frame.length - 3) 0
    let high := frame.getD (frame.length - 2) 0
    if fcs16 body ≠ low.toBitVec.setWidth 16 ||| high.toBitVec.setWidth 16 <<< 8 then
      .error (.valueError "HDLC FCS mismatch")
    else hdlcFields body

def isIFrame (control : ℕ) : Bool := control &&& 0x01 = 0x00

def buildIframe (serverAddress sendSeq recvSeq : ℕ) (info : List UInt8) :
    Except PyExc (List UInt8) :=
  buildHdlcFrame serverAddress ((recvSeq &&& 0x07) <<< 5 ||| (sendSeq &&& 0x07) <<< 1) info

/-- The loop of `recv_hdlc_frame`, and what it leaves. The end of the stream and
a timeout end it alike. -/
def recvHdlcFrom (started : Bool) (buf : List UInt8) :
    List UInt8 → Except PyExc (List UInt8) × List UInt8
  | [] =>
      if started && 2 < buf.length then (.ok (hdlcFlag :: buf ++ [hdlcFlag]), [])
      else (.error (.ioError "no complete HDLC frame received"), [])
  | b :: rest =>
      if b = hdlcFlag then
        if started && 2 < buf.length then (.ok (hdlcFlag :: buf ++ [hdlcFlag]), rest)
        -- an opening flag, or one between frames
        else recvHdlcFrom true [] rest
      else recvHdlcFrom started (if started then buf ++ [b] else buf) rest

def recvHdlcFrame (stream : List UInt8) : Except PyExc (List UInt8) × List UInt8 :=
  recvHdlcFrom false [] stream

-- the check value of the code
example : fcs16 "123456789".toUTF8.toList = 0x906E#16 := by decide +kernel

/-! ### What is between the flags -/

def hdlcBody (address control : ℕ) (info : List UInt8) : List UInt8 :=
  UInt8.ofNat (2 * address + 1) :: UInt8.ofNat control :: info

/-- The body and its check. -/
def hdlcInner (body : List UInt8) : List UInt8 := body ++ fcsBytes (fcs16 body)

theorem buildHdlcFrame_eq {address : ℕ} (h : address ≤ 127) (control : ℕ) (info : List UInt8) :
    buildHdlcFrame address control info =
      .ok (hdlcFlag :: hdlcInner (hdlcBody address control info) ++ [hdlcFlag]) := by
  have hextended : address <<< 1 ||| 1 = 2 * address + 1 := by
    rw [← Nat.shiftLeft_add_eq_or_of_lt (by decide), Nat.shiftLeft_eq, pow_one, Nat.mul_comm]
  have hbyte : byte (address <<< 1 ||| 1) = .ok (UInt8.ofNat (2 * address + 1)) := by
    rw [hextended]
    exact byte_of_lt (by omega)
  rw [buildHdlcFrame, hbyte]
  simp [ok_bind, hdlcInner, hdlcBody, pure, Except.pure]

/-- The check is read as it was written. -/
theorem word_fcsBytes (fcs : BitVec 16) : ShiftRegister.word 16 (fcsBytes fcs) = fcs := by
  refine BitVec.eq_of_getLsbD_eq fun i hi => ?_
  simp only [fcsBytes, ShiftRegister.word, BitVec.getLsbD_xor, BitVec.getLsbD_setWidth,
    BitVec.getLsbD_shiftLeft, BitVec.getLsbD_ushiftRight]
  by_cases h8 : i < 8
  · simp [h8, hi]
  · simp [h8, hi, show i - 8 < 8 by omega, show i - 8 < 16 by omega, show 8 + (i - 8) = i by omega]

theorem word_pair (low high : UInt8) :
    ShiftRegister.word 16 [low, high] =
      low.toBitVec.setWidth 16 ||| high.toBitVec.setWidth 16 <<< 8 := by
  refine BitVec.eq_of_getLsbD_eq fun i hi => ?_
  simp only [ShiftRegister.word, BitVec.getLsbD_xor, BitVec.getLsbD_or, BitVec.getLsbD_setWidth,
    BitVec.getLsbD_shiftLeft]
  by_cases h8 : i < 8
  · simp [h8, hi]
  · have hlow : low.toBitVec.getLsbD i = false := BitVec.getLsbD_of_ge _ _ (by omega)
    simp [h8, hi, hlow]

/-! ### Parsing -/

theorem parseHdlcFrame_delimited {body : List UInt8} (hbody : body ≠ []) (low high : UInt8) :
    parseHdlcFrame (hdlcFlag :: (body ++ [low, high]) ++ [hdlcFlag]) =
      if fcs16 body ≠ ShiftRegister.word 16 [low, high] then
        .error (.valueError "HDLC FCS mismatch")
      else hdlcFields body := by
  have hpos := List.length_pos_of_ne_nil hbody
  have hlen : (hdlcFlag :: (body ++ [low, high]) ++ [hdlcFlag]).length = body.length + 4 := by simp
  have htake : ((hdlcFlag :: (body ++ [low, high]) ++ [hdlcFlag]).take
      (body.length + 4 - 3)).drop 1 = body := by simp
  have hlow : (hdlcFlag :: (body ++ [low, high]) ++ [hdlcFlag]).getD
      (body.length + 4 - 3) 0 = low := by simp
  have hhigh : (hdlcFlag :: (body ++ [low, high]) ++ [hdlcFlag]).getD
      (body.length + 4 - 2) 0 = high := by simp
  have hflags : ¬((hdlcFlag :: (body ++ [low, high]) ++ [hdlcFlag]).length < 5 ∨
      (hdlcFlag :: (body ++ [low, high]) ++ [hdlcFlag]).head? ≠ some hdlcFlag ∨
      (hdlcFlag :: (body ++ [low, high]) ++ [hdlcFlag]).getLast? ≠ some hdlcFlag) := by
    rw [hlen]
    simp only [List.cons_append, List.head?_cons, ne_eq, not_true, false_or, not_or, not_not]
    exact ⟨by omega, List.getLast?_concat (l := hdlcFlag :: (body ++ [low, high]))⟩
  unfold parseHdlcFrame
  rw [if_neg hflags]
  simp only [hlen, htake, hlow, hhigh, word_pair]

/-- The state of the register after a body and its check. -/
def hdlcResidue : BitVec 16 := (ShiftRegister.shift 0x8408#16)^[16] 0xFFFF#16

theorem poly_msb : (0x8408#16).msb = true := by decide

/-- The check is right if the register over what is between the flags ends in
the one state. -/
theorem fcs16_eq_iff (body : List UInt8) (low high : UInt8) :
    fcs16 body = ShiftRegister.word 16 [low, high] ↔
      ShiftRegister.run 0x8408#16 0xFFFF#16 (body ++ [low, high]) = hdlcResidue :=
  (ShiftRegister.run_append_eq_iff poly_msb rfl _ _ body).symm

theorem exists_fcsBytes (fcs : BitVec 16) : ∃ low high, fcsBytes fcs = [low, high] := ⟨_, _, rfl⟩

theorem run_hdlcInner (body : List UInt8) :
    ShiftRegister.run 0x8408#16 0xFFFF#16 (hdlcInner body) = hdlcResidue := by
  obtain ⟨low, high, hfcs⟩ := exists_fcsBytes (fcs16 body)
  rw [hdlcInner, hfcs, ← fcs16_eq_iff, ← hfcs, word_fcsBytes]

theorem parseHdlcFrame_build {address control : ℕ} (ha : address ≤ 127) (hc : control < 256)
    (info : List UInt8) :
    parseHdlcFrame (hdlcFlag :: hdlcInner (hdlcBody address control info) ++ [hdlcFlag]) =
      .ok (address, control, info) := by
  obtain ⟨low, high, hfcs⟩ := exists_fcsBytes (fcs16 (hdlcBody address control info))
  have hright : fcs16 (hdlcBody address control info) = ShiftRegister.word 16 [low, high] := by
    rw [← hfcs, word_fcsBytes]
  have haddress : (UInt8.ofNat (2 * address + 1)).toNat >>> 1 = address := by
    rw [UInt8.toNat_ofNat', Nat.shiftRight_eq_div_pow]
    omega
  have hcontrol : (UInt8.ofNat control).toNat = control := by
    rw [UInt8.toNat_ofNat', Nat.mod_eq_of_lt hc]
  have hbody : hdlcBody address control info ≠ [] := List.cons_ne_nil _ _
  rw [hdlcInner, hfcs, parseHdlcFrame_delimited hbody, if_neg (not_not.mpr hright), hdlcBody,
    hdlcFields, haddress, hcontrol]

theorem exists_append_pair {α : Type} {l : List α} (h : 2 < l.length) :
    ∃ body low high, l = body ++ [low, high] ∧ body ≠ [] := by
  rcases List.eq_nil_or_concat l with rfl | ⟨most, high, rfl⟩
  · exact absurd h (Nat.not_lt_zero 2)
  · rcases List.eq_nil_or_concat most with rfl | ⟨body, low, rfl⟩
    · exact absurd h (by simp)
    · refine ⟨body, low, high, by simp, ?_⟩
      rintro rfl
      exact absurd h (by simp)

theorem parseHdlcFrame_eq_ok {stretch info : List UInt8} {address control : ℕ}
    (hlong : 2 < stretch.length)
    (h : parseHdlcFrame (hdlcFlag :: stretch ++ [hdlcFlag]) = .ok (address, control, info)) :
    ∃ first second low high, stretch = first :: second :: info ++ [low, high] ∧
      control = second.toNat := by
  obtain ⟨body, low, high, rfl, hbody⟩ := exists_append_pair hlong
  rw [parseHdlcFrame_delimited hbody] at h
  split at h
  · exact nomatch h
  · unfold hdlcFields at h
    split at h
    · injection h with h
      simp only [Prod.mk.injEq] at h
      obtain ⟨-, rfl, rfl⟩ := h
      exact ⟨_, _, low, high, rfl, rfl⟩
    · exact nomatch h

/-- What differs from a frame in one or two adjacent bytes between the flags is
not parsed. -/
theorem parseHdlcFrame_corrupted {body pre stretch stretch' post : List UInt8} (hbody : body ≠ [])
    (hframe : hdlcInner body = pre ++ (stretch ++ post))
    (hlen : stretch'.length = stretch.length) (hshort : stretch.length ≤ 2)
    (hne : stretch' ≠ stretch) :
    ∃ e, parseHdlcFrame (hdlcFlag :: (pre ++ (stretch' ++ post)) ++ [hdlcFlag]) = .error e := by
  have hrun : ShiftRegister.run 0x8408#16 0xFFFF#16 (pre ++ (stretch' ++ post)) ≠ hdlcResidue := by
    intro h
    rw [← run_hdlcInner body, hframe] at h
    exact hne (ShiftRegister.eq_of_run_eq poly_msb hlen (by omega) h)
  have hlong : 2 < (pre ++ (stretch' ++ post)).length := by
    have hinner := congrArg List.length hframe
    have hpos := List.length_pos_of_ne_nil hbody
    simp only [hdlcInner, fcsBytes, List.length_append, List.length_cons] at hinner ⊢
    omega
  obtain ⟨body', low, high, hsplit, hbody'⟩ := exists_append_pair hlong
  rw [hsplit] at hrun ⊢
  refine ⟨.valueError "HDLC FCS mismatch", ?_⟩
  rw [parseHdlcFrame_delimited hbody', if_pos (mt (fcs16_eq_iff body' low high).mp hrun)]

/-- One byte, or two adjacent bytes, between the first and the last have changed. -/
def Corrupted (frame frame' : List UInt8) : Prop :=
  ∃ pre stretch stretch' post, pre ≠ [] ∧ post ≠ [] ∧
    frame = pre ++ (stretch ++ post) ∧ frame' = pre ++ (stretch' ++ post) ∧
    stretch'.length = stretch.length ∧ stretch.length ≤ 2 ∧ stretch' ≠ stretch

/-- A frame is parsed into what it was built of, and no corrupted frame is parsed. -/
theorem hdlcFrame_checked {address control : ℕ} (ha : address ≤ 127) (hc : control < 256)
    (info : List UInt8) :
    ∃ frame, buildHdlcFrame address control info = .ok frame ∧
      parseHdlcFrame frame = .ok (address, control, info) ∧
      ∀ frame', Corrupted frame frame' → ∃ e, parseHdlcFrame frame' = .error e := by
  refine ⟨_, buildHdlcFrame_eq ha control info, parseHdlcFrame_build ha hc info, ?_⟩
  rintro _ ⟨pre, stretch, stretch', post, hpre, hpost, hframe, rfl, hlen, hshort, hne⟩
  obtain ⟨flag, pre, rfl⟩ := List.exists_cons_of_ne_nil hpre
  obtain ⟨post, flag', rfl⟩ := (List.eq_nil_or_concat post).resolve_left hpost
  rw [List.concat_eq_append, ← List.append_assoc, ← List.append_assoc] at hframe
  obtain ⟨hinner, hlast⟩ := List.append_inj' hframe rfl
  injection hinner with hflag hinner
  injection hlast with hlast
  have hsplit : hdlcInner (hdlcBody address control info) = pre ++ (stretch ++ post) :=
    hinner.trans (List.append_assoc pre stretch post)
  obtain ⟨e, he⟩ := parseHdlcFrame_corrupted (List.cons_ne_nil _ _) hsplit hlen hshort hne
  refine ⟨e, ?_⟩
  rw [← hflag, ← hlast, ← he]
  simp

theorem snrmFrame_checked :
    ∃ frame, buildHdlcFrame 0x10 0x93 [1, 2] = .ok frame ∧
      parseHdlcFrame frame = .ok (0x10, 0x93, [1, 2]) ∧
      ∀ frame', Corrupted frame frame' → ∃ e, parseHdlcFrame frame' = .error e :=
  hdlcFrame_checked (by decide) (by decide) [1, 2]

/-! ### Reading -/

/-- A frame around a stretch of some bytes that has no flag and is long enough. -/
def FramesStretch (frame bytes : List UInt8) : Prop :=
  ∃ stretch, frame = hdlcFlag :: stretch ++ [hdlcFlag] ∧ hdlcFlag ∉ stretch ∧
    2 < stretch.length ∧ stretch <:+: bytes

theorem FramesStretch.mono {frame bytes bytes' : List UInt8} (h : FramesStretch frame bytes)
    (hbytes : bytes <:+: bytes') : FramesStretch frame bytes' := by
  obtain ⟨stretch, hframe, hflag, hlong, hpiece⟩ := h
  exact ⟨stretch, hframe, hflag, hlong, hpiece.trans hbytes⟩

/-- What is returned is a stretch of the stream without a flag. -/
theorem infix_of_recv {started : Bool} {buf stream rest frame : List UInt8}
    (hbuf : hdlcFlag ∉ buf) (hstart : started = false → buf = [])
    (h : recvHdlcFrom started buf stream = (.ok frame, rest)) :
    FramesStretch frame (buf ++ stream) := by
  induction stream generalizing started buf with
  | nil =>
      rw [recvHdlcFrom] at h
      split at h
      · rename_i hlong
        rw [Bool.and_eq_true, decide_eq_true_eq] at hlong
        injection h with h
        injection h with h
        exact ⟨buf, h.symm, hbuf, hlong.2, by simp⟩
      · injection h with h
        exact nomatch h
  | cons b stream ih =>
      rw [recvHdlcFrom] at h
      split at h
      · split at h
        · rename_i hlong
          rw [Bool.and_eq_true, decide_eq_true_eq] at hlong
          injection h with h
          injection h with h
          exact ⟨buf, h.symm, hbuf, hlong.2, List.infix_append [] buf _⟩
        · -- too short for a frame: the flag begins the next one
          have hnext := ih List.not_mem_nil (fun h : true = false => nomatch h) h
          refine hnext.mono ((List.suffix_append (buf ++ [b]) stream).isInfix.trans ?_)
          simp
      · rename_i hb
        cases started with
        | false =>
            obtain rfl := hstart rfl
            have hnext := ih List.not_mem_nil (fun _ => rfl) h
            exact hnext.mono (List.suffix_cons b stream).isInfix
        | true =>
            have hnew : hdlcFlag ∉ buf ++ [b] := by
              rw [List.mem_append, List.mem_singleton]
              exact not_or.mpr ⟨hbuf, fun hflag => hb hflag.symm⟩
            have hnext := ih hnew (fun h : true = false => nomatch h) h
            exact hnext.mono (by simp)

/-- Up to the next flag all bytes are kept. -/
theorem recvHdlcFrom_append {inner : List UInt8} (hinner : hdlcFlag ∉ inner) (buf rest : List UInt8)
    (hlong : 2 < (buf ++ inner).length) :
    recvHdlcFrom true buf (inner ++ hdlcFlag :: rest) =
      (.ok (hdlcFlag :: (buf ++ inner) ++ [hdlcFlag]), rest) := by
  induction inner generalizing buf with
  | nil =>
      rw [List.append_nil] at hlong
      rw [List.nil_append, List.append_nil, recvHdlcFrom, if_pos rfl, if_pos (by simpa using hlong)]
  | cons b inner ih =>
      rw [List.mem_cons, not_or] at hinner
      rw [List.append_cons] at hlong
      rw [List.append_cons buf, List.cons_append, recvHdlcFrom, if_neg (Ne.symm hinner.1),
        if_pos rfl]
      exact ih hinner.2 (buf ++ [b]) hlong

/-- Successive calls. -/
def receiveHdlc : ℕ → List UInt8 → List (Except PyExc (List UInt8))
  | 0, _ => []
  | n + 1, stream => (recvHdlcFrame stream).1 :: receiveHdlc n (recvHdlcFrame stream).2

/-- What a frame is built of. -/
structure HdlcArgs where
  address : ℕ
  control : ℕ
  info : List UInt8
  deriving DecidableEq, Repr

def HdlcArgs.build (args : HdlcArgs) : Except PyExc (List UInt8) :=
  buildHdlcFrame args.address args.control args.info

/-- Neither the control byte nor the information field nor the check has a flag. -/
def HdlcArgs.Transparent (args : HdlcArgs) : Prop :=
  hdlcFlag ∉ UInt8.ofNat args.control :: args.info ∧
    hdlcFlag ∉ fcsBytes (fcs16 (hdlcBody args.address args.control args.info))

instance (args : HdlcArgs) : Decidable args.Transparent :=
  inferInstanceAs (Decidable (_ ∧ _))

def HdlcArgs.inner (args : HdlcArgs) : List UInt8 :=
  hdlcInner (hdlcBody args.address args.control args.info)

/-- The address byte is odd, so it is no flag. -/
theorem HdlcArgs.transparent_iff (args : HdlcArgs) :
    args.Transparent ↔ hdlcFlag ∉ args.inner := by
  have haddress : hdlcFlag ≠ UInt8.ofNat (2 * args.address + 1) := by
    intro h
    have := congrArg UInt8.toNat h
    rw [UInt8.toNat_ofNat'] at this
    change 126 = _ at this
    omega
  have hbody : hdlcFlag ∉ hdlcBody args.address args.control args.info ↔
      hdlcFlag ∉ UInt8.ofNat args.control :: args.info := by
    rw [hdlcBody, List.mem_cons, not_or, and_iff_right haddress]
  rw [inner, hdlcInner, List.mem_append, not_or, hbody, Transparent]

theorem HdlcArgs.build_eq {args : HdlcArgs} (h : args.address ≤ 127) :
    args.build = .ok (hdlcFlag :: args.inner ++ [hdlcFlag]) :=
  buildHdlcFrame_eq h args.control args.info

theorem HdlcArgs.inner_long (args : HdlcArgs) : 2 < args.inner.length := by
  simp [inner, hdlcInner, hdlcBody, fcsBytes]

theorem recvHdlcFrame_transparent {args : HdlcArgs} (h : args.Transparent) (rest : List UInt8) :
    recvHdlcFrame (hdlcFlag :: args.inner ++ [hdlcFlag] ++ rest) =
      (.ok (hdlcFlag :: args.inner ++ [hdlcFlag]), rest) := by
  have hopen : recvHdlcFrame (hdlcFlag :: args.inner ++ [hdlcFlag] ++ rest) =
      recvHdlcFrom true [] (args.inner ++ hdlcFlag :: rest) := by
    rw [List.append_assoc, List.cons_append, recvHdlcFrame, recvHdlcFrom, if_pos rfl]
    rfl
  rw [hopen, recvHdlcFrom_append (args.transparent_iff.mp h) [] rest args.inner_long]
  rfl

/-- What a frame is built of when its address is one. -/
def HdlcArgs.frame (args : HdlcArgs) : List UInt8 := hdlcFlag :: args.inner ++ [hdlcFlag]

theorem mapM_build {frames : List HdlcArgs} (h : ∀ args ∈ frames, args.address ≤ 127) :
    frames.mapM HdlcArgs.build = .ok (frames.map HdlcArgs.frame) :=
  Loops.mapM_of_forall fun args hargs => HdlcArgs.build_eq (h args hargs)

/-- A frame that is returned had no flag inside. -/
theorem transparent_of_recv {args : HdlcArgs} {stream : List UInt8}
    (h : (recvHdlcFrame stream).1 = .ok args.frame) : args.Transparent := by
  obtain ⟨inner, hframe, hinner, -⟩ := infix_of_recv List.not_mem_nil (fun _ => rfl)
    (show recvHdlcFrom false [] stream = (.ok args.frame, (recvHdlcFrame stream).2) from
      Prod.ext h rfl)
  injection hframe with _ hframe
  rw [args.transparent_iff, (List.append_inj' hframe rfl).1]
  exact hinner

/-- Successive calls return the frames of a stream exactly if no frame has a flag
inside. -/
theorem received_iff (frames : List HdlcArgs) (h : ∀ args ∈ frames, args.address ≤ 127) :
    ∃ built, frames.mapM HdlcArgs.build = .ok built ∧
      (receiveHdlc built.length built.flatten = built.map .ok ↔
        ∀ args ∈ frames, args.Transparent) := by
  refine ⟨_, mapM_build h, ?_⟩
  clear h
  induction frames with
  | nil => exact iff_of_true rfl nofun
  | cons args frames ih =>
      rw [List.map_cons, List.length_cons, List.flatten_cons, receiveHdlc, List.map_cons,
        List.forall_mem_cons, List.cons_eq_cons]
      constructor
      · rintro ⟨hhead, htail⟩
        have htransparent := transparent_of_recv hhead
        rw [HdlcArgs.frame, recvHdlcFrame_transparent htransparent] at htail
        exact ⟨htransparent, ih.mp htail⟩
      · rintro ⟨htransparent, hframes⟩
        rw [HdlcArgs.frame, recvHdlcFrame_transparent htransparent]
        exact ⟨rfl, ih.mpr hframes⟩

theorem snrm_received :
    ∃ built, [HdlcArgs.mk 0x10 hdlcSnrm [1, 2]].mapM HdlcArgs.build = .ok built ∧
      (receiveHdlc built.length built.flatten = built.map .ok ↔
        ∀ args ∈ [HdlcArgs.mk 0x10 hdlcSnrm [1, 2]], args.Transparent) :=
  received_iff _ (by decide)

/-- A frame with a flag in the information field is cut off there. -/
theorem flagInside_cut :
    buildHdlcFrame 0x10 hdlcUa [0x01, 0x7E, 0x02] =
        .ok [0x7E, 0x21, 0x73, 0x01, 0x7E, 0x02, 0x30, 0xC8, 0x7E] ∧
      recvHdlcFrame [0x7E, 0x21, 0x73, 0x01, 0x7E, 0x02, 0x30, 0xC8, 0x7E] =
        (.ok [0x7E, 0x21, 0x73, 0x01, 0x7E], [0x02, 0x30, 0xC8, 0x7E]) := by
  decide +kernel

end DiepLab.Dlms
