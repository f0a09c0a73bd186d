import DiepLab.Ocpp.Frames

/-!
The handshake, and the frames after it.

Either side receives the other's part of the handshake in blocks until it has a
blank line, and then reads frames from the socket. What a block holds behind the
blank line is no longer there. So all the texts of a peer are delivered if a block
ends where the handshake does, and only then (`delivered_iff`).
-/

namespace DiepLab.Ocpp

/-! ### Receiving the head -/

/-- CR LF CR LF. -/
def blankLine : List UInt8 := [13, 10, 13, 10]

/-- `recv(1024)` until there is a blank line. A limit on the length is the
server's. -/
def receiveHead (limit : Option ℕ) (data : List UInt8) (s : Segments UInt8) :
    Option (List UInt8 × Segments UInt8) :=
  if blankLine <:+: data then some (data, s)
  else if _h : s = [] then none
  else
    let chunk := s.recv 1024
    if limit.any fun limit => limit < (data ++ chunk.1).length then none
    else receiveHead limit (data ++ chunk.1) chunk.2
termination_by s.content.length
decreasing_by exact Segments.length_recv_lt (by decide) _h

/-! ### The server's side -/

def latin1 (data : List UInt8) : List Char := data.map fun b => Char.ofNat b.toNat

/-- `split("\r\n")`. -/
def splitLines : List Char → List (List Char)
  | '\r' :: '\n' :: rest => [] :: splitLines rest
  | c :: rest =>
      match splitLines rest with
      | line :: lines => (c :: line) :: lines
      | [] => [[c]]
  | [] => [[]]

/-- `str.isspace`, for a character of Latin-1. -/
def isSpace (c : Char) : Bool := c.toNat ∈ [9, 10, 11, 12, 13, 28, 29, 30, 31, 32, 0x85, 0xA0]

/-- `str.strip` of what satisfies the predicate. -/
def stripped (drop : Char → Bool) (s : List Char) : List Char :=
  ((s.dropWhile drop).reverse.dropWhile drop).reverse

/-- The headers, of which the last one with a name counts. -/
def parseHeaders (lines : List (List Char)) : Dict String :=
  lines.foldl (fun headers line =>
    if ':' ∈ line then
      headers.set
        (String.ofList ((stripped isSpace (line.takeWhile fun c => c ≠ ':')).map Char.toLower))
        (String.ofList (stripped isSpace ((line.dropWhile fun c => c ≠ ':').drop 1)))
    else headers) []

structure Upgrade where
  chargerId : String
  response : List String
  deriving DecidableEq, Repr

/-- `_handshake`, when the request has been received. `acceptKey` is `_accept_key`. -/
def parseRequest (acceptKey : String → String) (data : List UInt8) : Option Upgrade :=
  match splitLines (latin1 data) with
  | [] => none
  | requestLine :: lines =>
      match (requestLine.splitOn ' ')[1]? with
      | none => none
      | some path =>
          let id := String.ofList (((stripped (fun c => c = '/') path).splitOn '/').getLastD [])
          let headers := parseHeaders lines
          match given (headers.get? "sec-websocket-key") with
          | none => none
          | some key =>
              let subproto := (headers.get? "sec-websocket-protocol").getD ""
              let accept := ["HTTP/1.1 101 Switching Protocols", "Upgrade: websocket",
                "Connection: Upgrade", "Sec-WebSocket-Accept: " ++ acceptKey key]
              some {
                chargerId := if id = "" then "unknown" else id
                response := accept ++ (if "ocpp1.6".toList <:+: subproto.toList then
                  ["Sec-WebSocket-Protocol: ocpp1.6"] else []) ++ ["\r\n"] }

def handshake (acceptKey : String → String) (s : Segments UInt8) :
    Option (Upgrade × Segments UInt8) := do
  let (data, s) ← receiveHead (some 65536) [] s
  let upgrade ← parseRequest acceptKey data
  some (upgrade, s)

/-! ### The client's side -/

/-- `data.split(b"\r\n")[0]`. -/
def firstLine : List UInt8 → List UInt8
  | 13 :: 10 :: _ => []
  | b :: rest => b :: firstLine rest
  | [] => []

def switching : List UInt8 := utf8 "101"

/-- `connect`, after the request was sent. -/
def connect (s : Segments UInt8) : Option (Segments UInt8) := do
  let (data, s) ← receiveHead none [] s
  if switching <:+: firstLine data then some s else none

/-! ### Frames -/

inductive Reaction where
  | onMessage (text : String)
  /-- The payload of a ping goes back, as far as it is text. -/
  | pong (payload : List UInt8)
  deriving DecidableEq, Repr

/-- The loop that reads frames, which is the same on either side. -/
def recvLoop (s : Segments UInt8) : List Reaction :=
  match _h : readFrame Segments.recvExact s with
  | none => []
  | some ((opcode, payload), s') =>
      if opcode = opClose then []
      else if opcode = opPing then .pong payload :: recvLoop s'
      else if opcode = opText then
        match utf8? payload with
        | some text => .onMessage text :: recvLoop s'
        -- `UnicodeDecodeError` ends the thread
        | none => []
      else recvLoop s'
termination_by s.content.length
decreasing_by all_goals exact length_readFrame_lt _h

/-- The texts that `on_message` is called with. -/
def delivered (reactions : List Reaction) : List String :=
  reactions.filterMap fun
    | .onMessage text => some text
    | .pong _ => none

/-- What `_handle` calls `on_message` with. -/
def serverDelivers (acceptKey : String → String) (s : Segments UInt8) : List String :=
  match handshake acceptKey s with
  | some (_, s) => delivered (recvLoop s)
  | none => []

def clientDelivers (s : Segments UInt8) : List String :=
  match connect s with
  | some s => delivered (recvLoop s)
  | none => []

/-! ### The peer -/

/-- A frame that a peer sends. -/
structure PeerFrame where
  opcode : ℕ
  payload : List UInt8
  mask : Option MaskKey
  opcode_lt : opcode < 16
  short : payload.length < 2 ^ 63
  text : opcode = opText → (utf8? payload).isSome

def textFrame (text : String) (mask : Option MaskKey) (short : (utf8 text).length < 2 ^ 63) :
    PeerFrame :=
  ⟨opText, utf8 text, mask, by decide, short, fun _ => by rw [utf8?_utf8]; rfl⟩

def PeerFrame.bytes (frame : PeerFrame) : List UInt8 :=
  match dataFrame frame.payload frame.mask frame.opcode with
  | .ok bytes => bytes
  | .error _ => []

/-- What a peer sends after the handshake: frames, and not all of another one. -/
structure Session where
  frames : List PeerFrame
  tail : List UInt8
  torn : readFrame Segments.takeExact tail = none

def Session.bytes (session : Session) : List UInt8 :=
  session.frames.flatMap PeerFrame.bytes ++ session.tail

/-- The texts of the frames, up to the one that closes the connection. -/
def texts : List PeerFrame → List String
  | [] => []
  | frame :: frames =>
      if frame.opcode = opClose then []
      else if frame.opcode = opText then (utf8? frame.payload).toList ++ texts frames
      else texts frames

/-- The bytes end with a blank line, and have no other one. -/
def IsHead (head : List UInt8) : Prop :=
  blankLine <:+: head ∧ ∀ n < head.length, ¬ blankLine <:+: head.take n

instance (head : List UInt8) : Decidable (IsHead head) := inferInstanceAs (Decidable (_ ∧ _))

/-! ### The loop -/

theorem recvLoop_none {s : Segments UInt8} (h : readFrame Segments.recvExact s = none) :
    recvLoop s = [] := by
  rw [recvLoop]
  split
  · rfl
  · rename_i hsome
    exact nomatch h.symm.trans hsome

theorem recvLoop_some {s s' : Segments UInt8} {opcode : ℕ} {payload : List UInt8}
    (h : readFrame Segments.recvExact s = some ((opcode, payload), s')) :
    recvLoop s =
      if opcode = opClose then []
      else if opcode = opPing then .pong payload :: recvLoop s'
      else if opcode = opText then
        match utf8? payload with
        | some text => .onMessage text :: recvLoop s'
        | none => []
      else recvLoop s' := by
  rw [recvLoop]
  split
  · rename_i hnone
    exact nomatch h.symm.trans hnone
  · rename_i hsome
    obtain ⟨hframe, rfl⟩ := Prod.mk.inj (Option.some.inj (h.symm.trans hsome))
    obtain ⟨rfl, rfl⟩ := Prod.mk.inj hframe
    rfl

theorem PeerFrame.readFrame_bytes (frame : PeerFrame) (rest : List UInt8) :
    readFrame Segments.takeExact (frame.bytes ++ rest) =
      some ((frame.opcode, frame.payload), rest) := by
  obtain ⟨bytes, hbytes, hread⟩ := readFrame_dataFrame frame.mask frame.opcode_lt
    (show frame.payload.length < 2 ^ 64 by have := frame.short; omega)
  rw [PeerFrame.bytes, hbytes]
  exact hread rest

/-- From the first frame on, everything is delivered. -/
theorem delivered_recvLoop {frames : List PeerFrame} {tail : List UInt8}
    (htail : readFrame Segments.takeExact tail = none) {s : Segments UInt8}
    (hs : s.content = frames.flatMap PeerFrame.bytes ++ tail) :
    delivered (recvLoop s) = texts frames := by
  induction frames generalizing s with
  | nil =>
      rw [recvLoop_none (readFrame_simulates.eq_none (by rw [hs]; exact htail))]
      rfl
  | cons frame frames ih =>
      rw [List.flatMap_cons, List.append_assoc] at hs
      obtain ⟨s', hread, hrest⟩ :=
        readFrame_simulates.eq_some (by rw [hs]; exact frame.readFrame_bytes _)
      have hlater := ih hrest
      rw [recvLoop_some hread, texts]
      by_cases hclose : frame.opcode = opClose
      · rw [if_pos hclose, if_pos hclose]
        rfl
      · rw [if_neg hclose, if_neg hclose]
        by_cases hping : frame.opcode = opPing
        · rw [if_pos hping, if_neg (by rw [hping]; decide)]
          exact hlater
        · rw [if_neg hping]
          by_cases htext : frame.opcode = opText
          · obtain ⟨text, hdecode⟩ := Option.isSome_iff_exists.mp (frame.text htext)
            rw [if_pos htext, if_pos htext, hdecode, ← hlater]
            rfl
          · rw [if_neg htext, if_neg htext]
            exact hlater

/-- Less than two bytes are no frame. -/
theorem recvLoop_short {s : Segments UInt8} (h : s.content.length < 2) : recvLoop s = [] := by
  refine recvLoop_none (readFrame_simulates.eq_none ?_)
  rw [Option.eq_none_iff_forall_not_mem]
  rintro ⟨frame, rest⟩ hread
  have := takes_readFrame _ _ _ hread
  omega

/-! ### The head -/

section Head

variable {limit : Option ℕ} {head : List UInt8}

/-- One `recv`. -/
theorem receiveHead_turn {data l : List UInt8} (hdata : ¬ blankLine <:+: data) (hl : l ≠ [])
    (sizes : List ℕ) :
    receiveHead limit data (Segments.cut sizes l) =
      if limit.any fun limit => limit < (data ++ l.take (Segments.advance 1024 sizes).1).length then
        none
      else receiveHead limit (data ++ l.take (Segments.advance 1024 sizes).1)
        (Segments.cut (Segments.advance 1024 sizes).2
          (l.drop (Segments.advance 1024 sizes).1)) := by
  have hs : Segments.cut sizes l ≠ [] := by
    intro h
    rw [← Segments.content_cut sizes l, h] at hl
    exact hl rfl
  rw [receiveHead, if_neg hdata, dif_neg hs, Segments.recv_cut]

/-- What comes before the whole head has no blank line. -/
theorem IsHead.not_blank (hhead : IsHead head) {data missing : List UInt8}
    (hsplit : head = data ++ missing) (hmissing : missing ≠ []) : ¬ blankLine <:+: data := by
  have hpos := List.length_pos_of_ne_nil hmissing
  have htake : head.take data.length = data := by rw [hsplit, List.take_left]
  rw [← htake]
  exact hhead.2 _ (by rw [hsplit, List.length_append]; omega)

theorem receiveHead_of_blank {data : List UInt8} (h : blankLine <:+: data) (s : Segments UInt8) :
    receiveHead limit data s = some (data, s) := by
  rw [receiveHead, if_pos h]

/-- Where a block ends with the head, the head is received and nothing else. -/
theorem receiveHead_aligned (hhead : IsHead head)
    (hlimit : ∀ n, limit = some n → head.length ≤ n) {sizes : List ℕ} {place : ℕ}
    (h : Segments.EndsAt 1024 sizes place) {data missing : List UInt8}
    (hsplit : head = data ++ missing) (hplace : missing.length = place) (rest : List UInt8) :
    ∃ sizes', receiveHead limit data (Segments.cut sizes (missing ++ rest)) =
      some (head, Segments.cut sizes' rest) := by
  induction h generalizing data missing with
  | start sizes =>
      rw [List.length_eq_zero_iff] at hplace
      subst hplace
      rw [List.append_nil] at hsplit
      exact ⟨sizes, hsplit ▸ receiveHead_of_blank hhead.1 _⟩
  | block sizes place _ ih =>
      have hpos := Segments.advance_pos (show 0 < 1024 by decide) sizes
      have hmissing : missing ≠ [] := List.ne_nil_of_length_pos (by omega)
      have hle : (Segments.advance 1024 sizes).1 ≤ missing.length := by omega
      have hnext : head = (data ++ missing.take (Segments.advance 1024 sizes).1) ++
          missing.drop (Segments.advance 1024 sizes).1 := by
        rw [List.append_assoc, List.take_append_drop, hsplit]
      have hfits : ¬(limit.any fun limit => limit <
          (data ++ missing.take (Segments.advance 1024 sizes).1).length) = true := by
        cases limit with
        | none => exact nofun
        | some n =>
            have := hlimit n rfl
            rw [hnext, List.length_append] at this
            simp only [Option.any_some, decide_eq_true_eq]
            omega
      rw [receiveHead_turn (hhead.not_blank hsplit hmissing) (by simp [hmissing]),
        List.take_append_of_le_length hle, List.drop_append_of_le_length hle, if_neg hfits]
      exact ih hnext (by rw [List.length_drop]; omega)

/-- Where no block does, some of what follows is lost. -/
theorem receiveHead_unaligned (hhead : IsHead head) {sizes : List ℕ}
    {data missing rest received : List UInt8} {s : Segments UInt8} (hsplit : head = data ++ missing)
    (h : ¬Segments.EndsAt 1024 sizes missing.length) (hrest : rest ≠ [])
    (hreceived : receiveHead limit data (Segments.cut sizes (missing ++ rest)) =
      some (received, s)) : s.content.length < rest.length := by
  induction hn : missing.length using Nat.strongRecOn generalizing sizes data missing with
  | ind n ih =>
      have hmissing : missing ≠ [] := by
        rintro rfl
        exact h (.start sizes)
      have hpos := Segments.advance_pos (show 0 < 1024 by decide) sizes
      rw [receiveHead_turn (hhead.not_blank hsplit hmissing) (by simp [hmissing])] at hreceived
      split at hreceived
      · exact nomatch hreceived
      · rcases Nat.lt_or_ge missing.length (Segments.advance 1024 sizes).1 with hlt | hle
        · have hblank : blankLine <:+: data ++
              (missing ++ rest).take (Segments.advance 1024 sizes).1 := by
            rw [List.take_append, List.take_of_length_le hlt.le, ← List.append_assoc, ← hsplit]
            exact hhead.1.trans (List.infix_append [] head _)
          rw [receiveHead_of_blank hblank] at hreceived
          rw [← (Prod.mk.inj (Option.some.inj hreceived)).2, Segments.content_cut, List.drop_append,
            List.drop_of_length_le hlt.le, List.nil_append, List.length_drop]
          have := List.length_pos_of_ne_nil hrest
          omega
        · rw [List.take_append_of_le_length hle, List.drop_append_of_le_length hle] at hreceived
          refine ih _ ?_ ?_ ?_ hreceived rfl
          · rw [List.length_drop]
            omega
          · rw [List.append_assoc, List.take_append_drop, hsplit]
          · rw [List.length_drop]
            intro hends
            refine h ?_
            rw [show missing.length = (Segments.advance 1024 sizes).1 +
              (missing.length - (Segments.advance 1024 sizes).1) by omega]
            exact .block sizes _ hends

end Head

/-! ### Either side -/

/-- The head is received and looked at, and then the frames are read. -/
def afterHead (limit : Option ℕ) (accepts : List UInt8 → Bool) (s : Segments UInt8) :
    List String :=
  match receiveHead limit [] s with
  | some (head, s) => if accepts head then delivered (recvLoop s) else []
  | none => []

theorem serverDelivers_eq (acceptKey : String → String) (s : Segments UInt8) :
    serverDelivers acceptKey s =
      afterHead (some 65536) (fun head => (parseRequest acceptKey head).isSome) s := by
  unfold serverDelivers handshake afterHead
  cases receiveHead (some 65536) [] s with
  | none => rfl
  | some received =>
      change (match (parseRequest acceptKey received.1).bind fun upgrade =>
        some (upgrade, received.2) with
        | some (_, s) => delivered (recvLoop s)
        | none => []) = if (parseRequest acceptKey received.1).isSome then _ else _
      cases parseRequest acceptKey received.1 <;> rfl

theorem clientDelivers_eq (s : Segments UInt8) :
    clientDelivers s = afterHead none (fun head => switching <:+: firstLine head) s := by
  unfold clientDelivers connect afterHead
  cases receiveHead none [] s with
  | none => rfl
  | some received =>
      change (match (if switching <:+: firstLine received.1 then some received.2 else none) with
        | some s => delivered (recvLoop s)
        | none => []) = if decide (switching <:+: firstLine received.1) = true then _ else _
      by_cases h : switching <:+: firstLine received.1
      · rw [if_pos h, if_pos (decide_eq_true h)]
      · rw [if_neg h, if_neg (by rw [decide_eq_true_eq]; exact h)]

/-- The frame of a text without characters. -/
def emptyTextSession : Session := ⟨[textFrame "" none (by decide)], [], by decide⟩

theorem afterHead_iff {limit : Option ℕ} {accepts : List UInt8 → Bool} {head : List UInt8}
    (hhead : IsHead head) (hlimit : ∀ n, limit = some n → head.length ≤ n)
    (haccepts : accepts head = true) (sizes : List ℕ) :
    (∀ session : Session, afterHead limit accepts (Segments.cut sizes (head ++ session.bytes)) =
        texts session.frames) ↔ Segments.EndsAt 1024 sizes head.length := by
  constructor
  · intro h
    by_contra hunaligned
    have hempty := h emptyTextSession
    have htwo : emptyTextSession.bytes = [0x81, 0x00] := by decide +kernel
    have htext : texts emptyTextSession.frames = [""] := by decide +kernel
    rw [htwo, htext, afterHead] at hempty
    split at hempty
    · rename_i received s hreceived
      have hshort := receiveHead_unaligned hhead (List.nil_append head).symm hunaligned
        (List.cons_ne_nil _ _) hreceived
      have hnone : (if accepts received = true then delivered (recvLoop s) else []) = [] := by
        rw [recvLoop_short hshort]
        split <;> rfl
      exact nomatch hnone.symm.trans hempty
    · exact nomatch hempty
  · intro h session
    obtain ⟨sizes', hreceived⟩ := receiveHead_aligned hhead hlimit h (List.nil_append head).symm rfl
      session.bytes
    rw [afterHead, hreceived]
    dsimp only
    rw [if_pos haccepts]
    exact delivered_recvLoop session.torn (Segments.content_cut _ _)

/-- The request and the response of a handshake. -/
def upgradeRequest : List UInt8 :=
  utf8 "GET /CP10 HTTP/1.1\r\nSec-WebSocket-Key: a2V5\r\n\r\n"

def upgradeResponse : List UInt8 :=
  utf8 "HTTP/1.1 101 Switching Protocols\r\nServer: s\r\n\r\n"

end DiepLab.Ocpp
