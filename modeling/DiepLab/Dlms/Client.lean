import DiepLab.Dlms.Framing
import DiepLab.Dlms.Hdlc

/-!
The client of a DLMS meter.

Requests and answers share one stream, and what has not been read when a call
times out is there for the next one. The answer carries the invoke id of its
request, but the client does not compare it. So a value belongs to its call as
long as nothing of an earlier answer is unread; `readMeter_clean` is the step,
`values_answered` the run.

Of the server only its answers are modelled: one for each request, in order. How
late they come is what arrives in the course of a call.
-/

namespace DiepLab.Dlms

inductive Interface where
  | tcp
  | hdlc
  deriving DecidableEq, Repr

/-- An association, with the bytes that the server has been asked for and the
client has not read. -/
structure Association where
  interface : Interface
  serverAddress : ℕ
  invoke : ℕ
  ns : ℕ
  inFlight : List UInt8
  deriving Repr

/-- A call of `read_meter` with what the server makes of it: the value of its
object, the control byte of its I-frame, and how many bytes there are when the
client looks, one less than these each time, until a timeout. -/
structure MeterCall where
  obis : Obis
  value : Number
  valueBytes : List UInt8
  encoded : encodeValue (.num value) = .ok valueBytes
  control : ℕ
  arrivals : List ℕ

/-! ### Receiving -/

/-- `recv_pdus`, with the bytes received before in the same call. -/
def recvPdus : List ℕ → List UInt8 → List UInt8 → Except PyExc (List Pdu) × List UInt8
  | [], buf, inFlight => ((unframe buf).map Prod.fst, inFlight)
  | n :: arrivals, buf, inFlight =>
      -- where nothing has been sent, nothing arrives
      if inFlight = [] then ((unframe buf).map Prod.fst, inFlight)
      else
        match unframe (buf ++ inFlight.take (min (n + 1) 2048)) with
        | .error e => (.error e, inFlight.drop (min (n + 1) 2048))
        | .ok ([], _) =>
            recvPdus arrivals (buf ++ inFlight.take (min (n + 1) 2048))
              (inFlight.drop (min (n + 1) 2048))
        | .ok (pdus, _) => (.ok pdus, inFlight.drop (min (n + 1) 2048))

/-- The PDU that a call takes for its answer, and what is left unread. -/
def recvAnswer (interface : Interface) (arrivals : List ℕ) (inFlight : List UInt8) :
    Except PyExc Pdu × List UInt8 :=
  match interface with
  | .hdlc =>
      let inTime := (arrivals.map (· + 1)).sum
      let received := recvHdlcFrame (inFlight.take inTime)
      (do
        let frame ← received.1
        let (_, control, info) ← parseHdlcFrame frame
        if isIFrame control then pure info
        else .error (.ioError "GET response not received in an I-frame"),
      received.2 ++ inFlight.drop inTime)
  | .tcp =>
      let received := recvPdus arrivals [] inFlight
      (do
        match ← received.1 with
        | [] => .error (.ioError "no GET response")
        | pdu :: _ => pure pdu,
      received.2)

/-! ### Reading -/

/-- The bytes of a request. -/
def request (a : Association) (obis : Obis) : Except PyExc (List UInt8) := do
  let name ← obisToBytes obis
  let req ← buildGetRequest a.invoke dataClassId name valueAttribute 0
  match a.interface with
  | .hdlc => buildIframe a.serverAddress a.ns 0 req
  | .tcp => frame req

/-- The server's answer to a call, with the invoke id of the request. -/
def MeterCall.answer (call : MeterCall) (invoke : ℕ) : Pdu :=
  buildGetResponse invoke call.valueBytes accepted

def answerBytes (a : Association) (call : MeterCall) : List UInt8 :=
  match a.interface with
  | .hdlc => (HdlcArgs.mk a.serverAddress call.control (call.answer a.invoke)).frame
  | .tcp => frameBytes (call.answer a.invoke)

/-- The value of a response. The invoke id is parsed and not looked at. -/
def valueOf (obis : Obis) (pdu : Pdu) : Except PyExc Number := do
  let (_, result, valueBytes) ← parseGetResponse pdu
  if result ≠ accepted then
    .error (.ioError s!"GET for {obis.text} failed (result={result.toNat})")
  else decodeValue valueBytes

def nextInvoke (a : Association) : Association := { a with invoke := (a.invoke + 1) % 256 }

def readMeter (a : Association) (call : MeterCall) : Except PyExc Number × Association :=
  let a := nextInvoke a
  match request a call.obis with
  | .error e => (.error e, a)
  | .ok _ =>
      let (pdu, unread) :=
        recvAnswer a.interface call.arrivals (a.inFlight ++ answerBytes a call)
      let ns := if a.interface = .hdlc ∧ pdu.isOk then (a.ns + 1) % 8 else a.ns
      (pdu >>= valueOf call.obis, { a with inFlight := unread, ns := ns })

/-- A call, what it found, and what it returned. -/
structure Exchange where
  before : Association
  call : MeterCall
  result : Except PyExc Number

def readAll : Association → List MeterCall → List Exchange
  | _, [] => []
  | a, call :: calls => ⟨a, call, (readMeter a call).1⟩ :: readAll (readMeter a call).2 calls

/-- The value is the server's answer to this call. -/
def Exchange.Answered (x : Exchange) : Prop :=
  ∀ v, x.result = .ok v → decodeValue x.call.valueBytes = .ok v

/-- Nothing of an earlier answer is unread, but for a flag between two frames. -/
def Association.Clean (a : Association) : Prop :=
  match a.interface with
  | .tcp => a.inFlight = []
  | .hdlc => ∀ b ∈ a.inFlight, b = hdlcFlag

/-! ### The wrapper -/

/-- Of one frame a call reads the PDU or nothing. -/
theorem recvPdus_frame {pdu : Pdu} (h : Fits pdu) {arrivals : List ℕ} {buf inFlight : List UInt8}
    (hbuf : Incomplete buf) (hstream : buf ++ inFlight = frameBytes pdu) :
    (recvPdus arrivals buf inFlight).1 = .ok [] ∨
      (recvPdus arrivals buf inFlight).1 = .ok [pdu] := by
  induction arrivals generalizing buf inFlight with
  | nil =>
      rw [recvPdus, hbuf]
      exact Or.inl rfl
  | cons n arrivals ih =>
      rw [recvPdus]
      split
      · rw [hbuf]
        exact Or.inl rfl
      · have hbegins : buf ++ inFlight.take (min (n + 1) 2048) <+: stream [pdu] := by
          rw [stream_cons, stream_nil, List.append_nil, ← hstream]
          exact List.prefix_append_right_inj _ |>.mpr (List.take_prefix _ _)
        obtain ⟨k, tail, hsplit, htail, -⟩ := exists_of_prefix (by simpa using h) hbegins
        have hrest : (buf ++ inFlight.take (min (n + 1) 2048)) ++
            inFlight.drop (min (n + 1) 2048) = frameBytes pdu := by
          rw [List.append_assoc, List.take_append_drop, hstream]
        cases k with
        | zero =>
            rw [List.take_zero, stream_nil, List.nil_append] at hsplit
            rw [hsplit, htail]
            rw [hsplit] at hrest
            exact ih htail hrest
        | succ k =>
            have hone : [pdu].take (k + 1) = [pdu] := by simp
            rw [hone] at hsplit
            rw [hsplit, unframe_stream_append (by simpa using h) htail]
            exact Or.inr rfl

theorem MeterCall.fits_answer (call : MeterCall) (invoke : ℕ) : Fits (call.answer invoke) := by
  unfold Fits answer buildGetResponse
  rcases encodeValue_eq call.encoded with ⟨packed, h, hlen⟩ | ⟨packed, h, hlen⟩ <;>
    simp [h, hlen]

theorem valueOf_answer (call : MeterCall) (invoke : ℕ) :
    valueOf call.obis (call.answer invoke) = decodeValue call.valueBytes := rfl

/-! ### The link layer -/

theorem infix_of_cons_flag {stream stretch : List UInt8} (hflag : hdlcFlag ∉ stretch)
    (hne : stretch ≠ []) (h : stretch <:+: hdlcFlag :: stream) : stretch <:+: stream := by
  rcases List.infix_cons_iff.mp h with hbegins | hpiece
  · obtain ⟨b, stretch', rfl⟩ := List.exists_cons_of_ne_nil hne
    rw [List.cons_prefix_cons] at hbegins
    exact absurd (hbegins.1 ▸ List.mem_cons_self) hflag
  · exact hpiece

theorem infix_of_append_flag {stream stretch : List UInt8} (hflag : hdlcFlag ∉ stretch)
    (hne : stretch ≠ []) (h : stretch <:+: stream ++ [hdlcFlag]) : stretch <:+: stream := by
  have hreverse := List.reverse_infix.mpr h
  rw [List.reverse_append, List.reverse_singleton, List.singleton_append] at hreverse
  refine List.reverse_infix.mp (infix_of_cons_flag ?_ ?_ hreverse)
  · rwa [List.mem_reverse]
  · exact mt List.reverse_eq_nil_iff.mp hne

/-- A stretch without a flag is inside a frame, also behind other flags. -/
theorem infix_inner {flags inner stretch : List UInt8} (hflags : ∀ b ∈ flags, b = hdlcFlag)
    (hflag : hdlcFlag ∉ stretch) (hne : stretch ≠ [])
    (h : stretch <:+: flags ++ (hdlcFlag :: inner ++ [hdlcFlag])) : stretch <:+: inner := by
  induction flags with
  | nil => exact infix_of_append_flag hflag hne (infix_of_cons_flag hflag hne h)
  | cons b flags ih =>
      rw [List.forall_mem_cons] at hflags
      rw [List.cons_append, hflags.1] at h
      exact ih hflags.2 (infix_of_cons_flag hflag hne h)

/-- What a response is that a value is read from. -/
theorem valueOf_eq_ok {obis : Obis} {pdu : Pdu} {v : Number} (h : valueOf obis pdu = .ok v) :
    ∃ invokeId tag packed, pdu = getResponseNormal :: invokeId :: accepted :: tag :: packed ∧
      (tag = typeUint32 ∧ 4 ≤ packed.length ∨ tag = typeFloat64 ∧ 8 ≤ packed.length) := by
  obtain ⟨⟨invoke, result, valueBytes⟩, hresponse, hvalue⟩ := bind_eq_ok.mp h
  obtain ⟨invokeId, rfl⟩ := parseGetResponse_eq_ok hresponse
  dsimp only at hvalue
  split at hvalue
  · exact nomatch hvalue
  · rename_i haccepted
    obtain ⟨tag, packed, rfl, htag⟩ := decodeValue_eq_ok hvalue
    exact ⟨invokeId, tag, packed, by rw [not_not.mp haccepted], htag⟩

/-- No smaller part of an answer is taken for one: an integer leaves no room, and
before the tag of a double there is no place for a header. -/
theorem eq_inner_of_stretch {address control invoke : ℕ} {call : MeterCall}
    {first second invokeId tag low high : UInt8} {packed : List UInt8}
    (h : first :: second :: getResponseNormal :: invokeId :: accepted :: tag :: packed ++
      [low, high] <:+: (HdlcArgs.mk address control (call.answer invoke)).inner)
    (hiframe : isIFrame second.toNat = true)
    (htag : tag = typeUint32 ∧ 4 ≤ packed.length ∨ tag = typeFloat64 ∧ 8 ≤ packed.length) :
    first :: second :: getResponseNormal :: invokeId :: accepted :: tag :: packed ++ [low, high] =
      (HdlcArgs.mk address control (call.answer invoke)).inner := by
  have hlen := h.length_le
  rcases encodeValue_eq call.encoded with ⟨packed', hbytes, hpacked⟩ | ⟨packed', hbytes, hpacked⟩
  · refine h.eq_of_length_le ?_
    simp only [HdlcArgs.inner, hdlcInner, hdlcBody, MeterCall.answer, buildGetResponse, hbytes,
      fcsBytes, List.length_append, List.length_cons, hpacked]
    omega
  · rcases htag with ⟨rfl, hlong⟩ | ⟨rfl, hlong⟩
    · obtain ⟨pre, post, h⟩ := h
      have hpre := congrArg List.length h
      simp only [HdlcArgs.inner, hdlcInner, hdlcBody, MeterCall.answer, buildGetResponse, hbytes,
        fcsBytes, List.length_append, List.length_cons, hpacked, List.length_nil] at hpre
      simp only [HdlcArgs.inner, hdlcInner, hdlcBody, MeterCall.answer, buildGetResponse,
        hbytes] at h
      -- the stretch would begin zero to four bytes into the frame
      rcases pre with _ | ⟨_, _ | ⟨_, _ | ⟨_, _ | ⟨_, _ | ⟨_, rest⟩⟩⟩⟩⟩
      · simp [typeUint32, typeFloat64] at h
      · simp [accepted, typeFloat64] at h
      · simp [getResponseNormal, accepted] at h
      · simp [getResponseNormal, typeFloat64] at h
      · simp only [List.cons_append, List.nil_append, List.cons.injEq] at h
        exact absurd (h.2.2.2.2.2.1 ▸ hiframe) (by decide)
      · simp only [List.length_cons] at hpre
        omega
    · refine h.eq_of_length_le ?_
      simp only [HdlcArgs.inner, hdlcInner, hdlcBody, MeterCall.answer, buildGetResponse, hbytes,
        fcsBytes, List.length_append, List.length_cons, hpacked]
      omega

/-! ### Calls -/

/-- Of the frame of an answer the wrapper reads its value or none. -/
theorem value_of_tcp {call : MeterCall} {invoke : ℕ} {v : Number}
    (h : (recvAnswer .tcp call.arrivals (frameBytes (call.answer invoke))).1 >>=
      valueOf call.obis = .ok v) : decodeValue call.valueBytes = .ok v := by
  obtain ⟨pdu, hpdu, hvalue⟩ := bind_eq_ok.mp h
  obtain ⟨pdus, hpdus, hpdu⟩ := bind_eq_ok.mp hpdu
  have hread : (recvPdus call.arrivals [] (frameBytes (call.answer invoke))).1 = .ok [] ∨
      (recvPdus call.arrivals [] (frameBytes (call.answer invoke))).1 =
        .ok [call.answer invoke] :=
    recvPdus_frame (call.fits_answer invoke) incomplete_nil (List.nil_append _)
  rcases hread with hnone | hone
  · rw [hnone] at hpdus
    injection hpdus with hpdus
    subst hpdus
    exact nomatch hpdu
  · rw [hone] at hpdus
    injection hpdus with hpdus
    subst hpdus
    injection hpdu with hpdu
    subst hpdu
    rwa [valueOf_answer] at hvalue

/-- So does the link layer, even if there is a flag inside the frame. -/
theorem value_of_hdlc {call : MeterCall} {address invoke : ℕ} {v : Number} {flags : List UInt8}
    (hflags : ∀ b ∈ flags, b = hdlcFlag)
    (h : (recvAnswer .hdlc call.arrivals
        (flags ++ (HdlcArgs.mk address call.control (call.answer invoke)).frame)).1 >>=
      valueOf call.obis = .ok v) : decodeValue call.valueBytes = .ok v := by
  obtain ⟨pdu, hpdu, hvalue⟩ := bind_eq_ok.mp h
  obtain ⟨frame, hframe, hpdu⟩ := bind_eq_ok.mp hpdu
  obtain ⟨⟨from', control, info⟩, hparse, hiframe⟩ := bind_eq_ok.mp hpdu
  dsimp only at hiframe
  split at hiframe
  · rename_i hcontrol
    injection hiframe with hinfo
    subst hinfo
    obtain ⟨stretch, rfl, hflag, hlong, hpiece⟩ := infix_of_recv List.not_mem_nil (fun _ => rfl)
      (Prod.ext hframe rfl : recvHdlcFrom false [] _ = (.ok frame, _))
    obtain ⟨first, second, low, high, hstretch, rfl⟩ := parseHdlcFrame_eq_ok hlong hparse
    obtain ⟨invokeId, tag, packed, rfl, htag⟩ := valueOf_eq_ok hvalue
    have hne : stretch ≠ [] := by
      rintro rfl
      exact nomatch hlong
    have hinner := infix_inner hflags hflag hne (hpiece.trans (List.take_prefix _ _).isInfix)
    rw [hstretch] at hinner
    have hbody := (List.append_inj' (eq_inner_of_stretch hinner hcontrol htag) rfl).1
    injection hbody with _ hbody
    injection hbody with _ hanswer
    rwa [hanswer, valueOf_answer] at hvalue
  · exact nomatch hiframe

/-- A call that finds nothing unread returns the server's answer to it, if any. -/
theorem readMeter_clean {a : Association} {call : MeterCall} (hclean : a.Clean)
    {v : Number} (h : (readMeter a call).1 = .ok v) : decodeValue call.valueBytes = .ok v := by
  have hnext : (nextInvoke a).Clean := hclean
  unfold readMeter at h
  dsimp only at h
  split at h
  · exact nomatch h
  · unfold Association.Clean at hnext
    rw [answerBytes] at h
    cases hinterface : (nextInvoke a).interface with
    | tcp =>
        rw [hinterface] at h hnext
        rw [hnext, List.nil_append] at h
        exact value_of_tcp h
    | hdlc =>
        rw [hinterface] at h hnext
        exact value_of_hdlc hnext h

/-- In a run whose calls find nothing unread, every value belongs to its call. -/
theorem values_answered (a : Association) (calls : List MeterCall)
    (h : ∀ x ∈ readAll a calls, x.before.Clean) : ∀ x ∈ readAll a calls, x.Answered := by
  induction calls generalizing a with
  | nil => exact nofun
  | cons call calls ih =>
      rw [readAll, List.forall_mem_cons] at h ⊢
      exact ⟨fun v hv => readMeter_clean h.1 hv, ih _ h.2⟩

def meterLink (interface : Interface) : Association := ⟨interface, 1, 0, 0, []⟩

def reads (text : String) (parts : List ℤ) (value : ℤ) (valueBytes : List UInt8)
    (encoded : encodeValue (.num (.int value)) = .ok valueBytes) (arrivals : List ℕ) : MeterCall :=
  ⟨⟨text, parts⟩, .int value, valueBytes, encoded, 0x10, arrivals⟩

/-- The voltage of 230, and when the answer comes. -/
def readsVoltage (arrivals : List ℕ) : MeterCall :=
  reads "1.0.32.7.0.255" [1, 0, 32, 7, 0, 255] 230 [0x06, 0, 0, 0, 230] rfl arrivals

def readsCurrent (arrivals : List ℕ) : MeterCall :=
  reads "1.0.31.7.0.255" [1, 0, 31, 7, 0, 255] 5 [0x06, 0, 0, 0, 5] rfl arrivals

theorem voltage_answered :
    (readAll (meterLink .tcp) [readsVoltage [3, 99]]).map Exchange.result = [.ok (.int 230)] ∧
      ∀ x ∈ readAll (meterLink .tcp) [readsVoltage [3, 99]], x.Answered := by
  refine ⟨by decide +kernel, values_answered _ _ fun x hx => ?_⟩
  rw [readAll, readAll, List.mem_singleton] at hx
  subst hx
  rfl

/-- The voltage comes too late for its call, and the next one takes it for the current. -/
theorem lateVoltage_misread :
    ¬∀ x ∈ readAll (meterLink .tcp) [readsVoltage [], readsCurrent [10]], x.Answered := by
  intro h
  simp only [readAll, List.forall_mem_cons] at h
  have hvoltage := h.2.1 (.int 230) (by decide +kernel)
  exact absurd hvoltage (by decide +kernel)

end DiepLab.Dlms
