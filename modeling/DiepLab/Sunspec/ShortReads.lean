import DiepLab.Sunspec.Timeouts
import Mathlib.Algebra.Order.BigOperators.Group.Finset

/-!
Reads that are answered with something else than was asked for.

`_txn` compares the transaction id of an answer and looks for an exception; the
function code and the number of registers are compared with nothing.
`read_holding` takes what there is and goes on to the next block of addresses.

Here the peer may answer anything, one frame to a request (`exchange`). Whether a
call returns is decided by the answers alone, and it returns all their registers
one after the other (`readHoldingWith_eq`). So it returns what it was asked for if
and only if every answer has as many registers as its request
(`readHolding_exact_iff`).
-/

namespace DiepLab.Sunspec

open Bytes Segments

/-! ### The client and any peer -/

/-- The receiving half of `_txn`. -/
def receive (tx : UInt16) (stream : Segments UInt8) :
    Except PyExc (List UInt8 × Segments UInt8) :=
  match recvExact 7 stream with
  | none => .error closedMidFrame
  | some (header, stream) =>
      let (rxTx, length, _) := unpackHeader header
      if length = 0 then .error (.valueError "negative buffersize in recv")
      else
        match recvExact (length - 1) stream with
        | none => .error closedMidFrame
        | some (body, rest) =>
            if rxTx ≠ tx then
              .error (.ioError s!"Modbus transaction id mismatch (sent {tx}, got {rxTx})")
            else
              match body with
              | fc :: more =>
                  if fc &&& 0x80 ≠ 0 then
                    .error (.ioError s!"Modbus exception function={hex fc} code={more.headD 0}")
                  else .ok (body, rest)
              | [] => .ok (body, rest)

/-- `read_holding`, whoever answers. -/
def readHoldingWith {σ : Type} (transact : σ → List UInt8 → Except PyExc (List UInt8 × σ))
    (start remaining : ℕ) (s : σ) : Except PyExc (List UInt16 × σ) :=
  if _h : remaining = 0 then .ok ([], s)
  else do
    let n := min remaining 125
    let address ← packH start
    let (body, s) ← transact s (0x03 :: address ++ beBytes 2 n)
    match body with
    | _ :: byteCount :: data =>
        let regs ← unpackWords (byteCount.toNat / 2) (data.take byteCount.toNat)
        let (more, s) ← readHoldingWith transact (start + n) (remaining - n) s
        pure (regs ++ more, s)
    | _ => .error .indexError
termination_by remaining
decreasing_by omega

/-- A connected client. -/
structure Client where
  unit : UInt8 := 1
  tx : UInt16 := 0
  sent : ℕ := 0
  inbox : Segments UInt8 := []

/-- `_txn`, where the `n`-th request is answered with the `n`-th PDU, from whatever unit. -/
def exchange (net : Arrivals) (answers : ℕ → UInt8 × Pdu) (c : Client) (pdu : List UInt8) :
    Except PyExc (List UInt8 × Client) := do
  let tx := c.tx + 1
  let _request ← mbap tx c.unit pdu
  let (unit, answer) := answers c.sent
  let (body, inbox) ← receive tx (c.inbox ++ net.toClient c.sent (answerFrame tx unit answer))
  pure (body, { c with tx, sent := c.sent + 1, inbox })

/-- With the server of the simulators it is the same client. -/
theorem txn_eq_receive (net : Arrivals) (s : Session) (pdu : List UInt8) :
    txn net s pdu = (do
      let tx := s.tx + 1
      let frame ← mbap tx s.unit pdu
      match s.server.handle (s.atServer ++ net.toServer s.sent frame) with
      | none => .error closedMidFrame
      | some (answer, server, atServer) => do
          let (body, atClient) ← receive tx (s.atClient ++ net.toClient s.sent answer)
          pure (body, { s with tx, server, sent := s.sent + 1, atServer, atClient })) := by
  rw [txn]
  refine congrArg (mbap (s.tx + 1) s.unit pdu >>= ·) (funext fun frame => ?_)
  cases s.server.handle (s.atServer ++ net.toServer s.sent frame) with
  | none => rfl
  | some handled =>
      obtain ⟨answer, server, atServer⟩ := handled
      dsimp only
      rw [receive]
      cases recvExact 7 (s.atClient ++ net.toClient s.sent answer) with
      | none => rfl
      | some received =>
          obtain ⟨header, stream⟩ := received
          dsimp only
          obtain ⟨rxTx, length, _⟩ := unpackHeader header
          dsimp only
          by_cases hlength : length = 0
          · rw [if_pos hlength, if_pos hlength]
            rfl
          · rw [if_neg hlength, if_neg hlength]
            cases recvExact (length - 1) stream with
            | none => rfl
            | some received =>
                obtain ⟨body, rest⟩ := received
                dsimp only
                by_cases htx : rxTx ≠ s.tx + 1
                · rw [if_pos htx, if_pos htx]
                  rfl
                · rw [if_neg htx, if_neg htx]
                  cases body with
                  | nil => rfl
                  | cons fc more =>
                      dsimp only
                      by_cases hexception : fc &&& 0x80 ≠ 0
                      · rw [if_pos hexception, if_pos hexception]
                        rfl
                      · rw [if_neg hexception, if_neg hexception]
                        rfl

theorem readHolding_eq_with (net : Arrivals) (start remaining : ℕ) (s : Session) :
    readHolding net start remaining s = readHoldingWith (txn net) start remaining s := by
  induction remaining using Nat.strongRecOn generalizing start s with
  | ind remaining ih =>
      rw [readHolding, readHoldingWith]
      by_cases hremaining : remaining = 0
      · rw [dif_pos hremaining, dif_pos hremaining]
      · rw [dif_neg hremaining, dif_neg hremaining]
        refine congrArg (packH start >>= ·) (funext fun address => ?_)
        refine congrArg (txn net s _ >>= ·) (funext fun answered => ?_)
        obtain ⟨_ | ⟨fc, _ | ⟨byteCount, data⟩⟩, s'⟩ := answered
        · rfl
        · rfl
        · refine congrArg (unpackWords _ _ >>= ·) (funext fun regs => ?_)
          rw [ih _ (by omega)]

/-! ### Answers -/

/-- The requests that a call is cut into. -/
def chunks (count : ℕ) : ℕ := (count + 124) / 125

/-- The registers that the `k`-th of them asks for. -/
def chunkSize (count k : ℕ) : ℕ := min (count - 125 * k) 125

/-- Neither `_txn` nor `read_holding` raises for the answer. -/
def accepted : List UInt8 → Bool
  | fc :: byteCount :: data =>
      decide (fc &&& 0x80 = 0 ∧ (data.take byteCount.toNat).length = 2 * (byteCount.toNat / 2))
  | _ => false

/-- The number of registers that an answer says it has. -/
def carries : List UInt8 → ℕ
  | _ :: byteCount :: _ => byteCount.toNat / 2
  | _ => 0

def registersOf : List UInt8 → List UInt16
  | _ :: byteCount :: data => words (data.take byteCount.toNat)
  | _ => []

theorem length_registersOf {body : List UInt8} (h : accepted body = true) :
    (registersOf body).length = carries body := by
  match body, h with
  | fc :: byteCount :: data, h => exact (packWords_words (of_decide_eq_true h).2).1

/-- A frame that comes whole is accepted, unless it has an exception. -/
theorem receive_eq {stream : Segments UInt8} {tx : UInt16} {unit : UInt8} {answer : Pdu}
    (h : content stream = answerFrame tx unit answer) :
    ∃ rest, content rest = [] ∧ receive tx stream =
      match answer.val with
      | fc :: more =>
          if fc &&& 0x80 ≠ 0 then
            .error (.ioError s!"Modbus exception function={hex fc} code={more.headD 0}")
          else .ok (answer.val, rest)
      | [] => .ok (answer.val, rest) := by
  obtain ⟨body, hbody⟩ := answer
  obtain ⟨s, rest, hheader, hrecv, hrest⟩ := recv_frame (h.trans (List.append_nil _).symm)
  refine ⟨rest, hrest, ?_⟩
  rw [receive, hheader]
  dsimp only
  rw [unpackHeader_eq tx hbody]
  dsimp only
  rw [if_neg (Nat.succ_ne_zero _), Nat.add_sub_cancel, hrecv]
  dsimp only
  rw [if_neg (not_not.mpr rfl)]

theorem exchange_eq (net : Arrivals) (answers : ℕ → UInt8 × Pdu) {c : Client}
    (hc : content c.inbox = []) (pdu : List UInt8) (hpdu : pdu.length + 1 < 65536) :
    ∃ c' : Client, c'.sent = c.sent + 1 ∧ content c'.inbox = [] ∧ exchange net answers c pdu =
      match (answers c.sent).2.val with
      | fc :: more =>
          if fc &&& 0x80 ≠ 0 then
            .error (.ioError s!"Modbus exception function={hex fc} code={more.headD 0}")
          else .ok ((answers c.sent).2.val, c')
      | [] => .ok ((answers c.sent).2.val, c') := by
  have hstream : content (c.inbox ++ net.toClient c.sent (answerFrame (c.tx + 1)
      (answers c.sent).1 (answers c.sent).2)) =
        answerFrame (c.tx + 1) (answers c.sent).1 (answers c.sent).2 := by
    rw [content_append, hc, net.content_toClient, List.nil_append]
  obtain ⟨inbox, hinbox, hreceive⟩ := receive_eq hstream
  refine ⟨{ c with tx := c.tx + 1, sent := c.sent + 1, inbox }, rfl, hinbox, ?_⟩
  rw [exchange, mbap_of_lt _ _ hpdu]
  change (receive _ _ >>= _) = _
  rw [hreceive]
  cases (answers c.sent).2.val with
  | nil => rfl
  | cons fc more =>
      dsimp only
      split <;> rfl

section Chunk

variable (net : Arrivals) (answers : ℕ → UInt8 × Pdu) {c : Client} {start count : ℕ}

/-- What is taken of the answer to the first request, and what comes after. -/
theorem readHoldingWith_accepted (hc : content c.inbox = []) (hcount : count ≠ 0)
    (hstart : start < 65536) (haccepted : accepted (answers c.sent).2 = true) :
    ∃ c' : Client, c'.sent = c.sent + 1 ∧ content c'.inbox = [] ∧
      readHoldingWith (exchange net answers) start count c = (do
        let (more, c'') ← readHoldingWith (exchange net answers) (start + min count 125)
          (count - min count 125) c'
        pure (registersOf (answers c.sent).2 ++ more, c'')) := by
  obtain ⟨c', hsent, hinbox, hexchange⟩ := exchange_eq net answers hc
    (0x03 :: beBytes 2 start ++ beBytes 2 (min count 125)) (by simp)
  refine ⟨c', hsent, hinbox, ?_⟩
  rw [readHoldingWith, dif_neg hcount, packH_of_lt hstart]
  change (exchange net answers c _ >>= _) = _
  rw [hexchange]
  match hanswer : (answers c.sent).2.val, haccepted with
  | fc :: byteCount :: data, haccepted =>
      obtain ⟨hfc, hlength⟩ := of_decide_eq_true haccepted
      dsimp only
      rw [if_neg (not_not.mpr hfc)]
      change (unpackWords _ _ >>= _) = _
      rw [unpackWords, if_pos hlength]
      rfl

theorem readHoldingWith_refused (hc : content c.inbox = []) (hcount : count ≠ 0)
    (h : ¬ (start < 65536 ∧ accepted (answers c.sent).2 = true)) :
    ∃ exc, readHoldingWith (exchange net answers) start count c = .error exc := by
  obtain ⟨c', -, -, hexchange⟩ := exchange_eq net answers hc
    (0x03 :: beBytes 2 start ++ beBytes 2 (min count 125)) (by simp)
  rw [readHoldingWith, dif_neg hcount]
  by_cases hstart : start < 65536
  · rw [packH_of_lt hstart]
    change ∃ exc, (exchange net answers c _ >>= _) = _
    rw [hexchange]
    have hrefused : ¬ accepted (answers c.sent).2 = true := fun haccepted => h ⟨hstart, haccepted⟩
    match hanswer : (answers c.sent).2.val, hrefused with
    | [], _ => exact ⟨_, rfl⟩
    | [fc], _ =>
        dsimp only
        split <;> exact ⟨_, rfl⟩
    | fc :: byteCount :: data, hrefused =>
        dsimp only
        by_cases hfc : fc &&& 0x80 = 0
        · have hlength : ¬ (data.take byteCount.toNat).length = 2 * (byteCount.toNat / 2) :=
            fun hlength => hrefused (decide_eq_true ⟨hfc, hlength⟩)
          rw [if_neg (not_not.mpr hfc)]
          change ∃ exc, (unpackWords _ _ >>= _) = _
          rw [unpackWords, if_neg hlength]
          exact ⟨_, rfl⟩
        · rw [if_pos hfc]
          exact ⟨_, rfl⟩
  · rw [packH, if_neg hstart]
    exact ⟨_, rfl⟩

end Chunk

/-! ### Calls -/

/-- No request of the call raises. -/
def Through (answers : ℕ → UInt8 × Pdu) (sent start count : ℕ) : Prop :=
  ∀ k < chunks count, start + 125 * k < 65536 ∧ accepted (answers (sent + k)).2 = true

/-- All registers of the answers, one after the other. -/
def allRegisters (answers : ℕ → UInt8 × Pdu) (sent count : ℕ) : List UInt16 :=
  (List.range (chunks count)).flatMap fun k => registersOf (answers (sent + k)).2

/-- Of every answer as many registers as are asked for, and in all of them as many. -/
structure Exact (answers : ℕ → UInt8 × Pdu) (sent count : ℕ) (regs : List UInt16) : Prop where
  length : regs.length = count
  own : regs = (List.range (chunks count)).flatMap fun k =>
    (registersOf (answers (sent + k)).2).take (chunkSize count k)

theorem chunks_pos {count : ℕ} (h : count ≠ 0) :
    chunks count = chunks (count - min count 125) + 1 := by
  unfold chunks
  omega

theorem through_pos {answers : ℕ → UInt8 × Pdu} {sent start count : ℕ} (h : count ≠ 0) :
    Through answers sent start count ↔
      (start < 65536 ∧ accepted (answers sent).2 = true) ∧
        Through answers (sent + 1) (start + min count 125) (count - min count 125) := by
  rw [Through, chunks_pos h, Nat.forall_lt_succ_left]
  refine and_congr Iff.rfl (forall₂_congr fun k hk => ?_)
  have hfull : min count 125 = 125 := by
    unfold chunks at hk
    omega
  have hstart : start + 125 * (k + 1) = start + min count 125 + 125 * k := by omega
  rw [hstart, Nat.add_right_comm sent 1 k, Nat.add_assoc sent k 1]

theorem allRegisters_pos (answers : ℕ → UInt8 × Pdu) (sent : ℕ) {count : ℕ} (h : count ≠ 0) :
    allRegisters answers sent count = registersOf (answers sent).2 ++
      allRegisters answers (sent + 1) (count - min count 125) := by
  rw [allRegisters, chunks_pos h, List.range_succ_eq_map, List.flatMap_cons, List.flatMap_map,
    allRegisters]
  refine congrArg (_ ++ ·) (List.flatMap_congr fun k _ => ?_)
  rw [Nat.add_right_comm sent 1 k, Nat.add_assoc sent k 1]

/-- A call returns all registers of the answers, or raises. -/
theorem readHoldingWith_eq (net : Arrivals) (answers : ℕ → UInt8 × Pdu) {c : Client}
    (hc : content c.inbox = []) (start count : ℕ) :
    (Through answers c.sent start count →
      ∃ c', readHoldingWith (exchange net answers) start count c =
        .ok (allRegisters answers c.sent count, c')) ∧
      (¬ Through answers c.sent start count →
        ∃ exc, readHoldingWith (exchange net answers) start count c = .error exc) := by
  induction count using Nat.strongRecOn generalizing start c with
  | ind count ih =>
      by_cases hcount : count = 0
      · subst hcount
        have hthrough : Through answers c.sent start 0 :=
          fun k hk => absurd hk (Nat.not_lt_zero k)
        refine ⟨fun _ => ⟨c, ?_⟩, fun h => absurd hthrough h⟩
        rw [readHoldingWith, dif_pos rfl]
        rfl
      · rw [through_pos hcount, allRegisters_pos answers c.sent hcount]
        by_cases hfirst : start < 65536 ∧ accepted (answers c.sent).2 = true
        · obtain ⟨c', hsent, hinbox, hrun⟩ :=
            readHoldingWith_accepted net answers hc hcount hfirst.1 hfirst.2
          obtain ⟨hok, herror⟩ :=
            ih (count - min count 125) (by omega) hinbox (start + min count 125)
          rw [hsent] at hok herror
          rw [hrun]
          refine ⟨fun h => ?_, fun h => ?_⟩
          · obtain ⟨c'', hrest⟩ := hok h.2
            exact ⟨c'', by rw [hrest]; rfl⟩
          · obtain ⟨exc, hrest⟩ := herror fun hrest => h ⟨hfirst, hrest⟩
            exact ⟨exc, by rw [hrest]; rfl⟩
        · refine ⟨fun h => absurd h.1 hfirst, fun _ => ?_⟩
          exact readHoldingWith_refused net answers hc hcount hfirst

/-! ### How many registers there are -/

theorem length_flatMap_range {α : Type} (f : ℕ → List α) (n : ℕ) :
    ((List.range n).flatMap f).length = ∑ k ∈ Finset.range n, (f k).length :=
  List.length_flatMap

theorem sum_chunkSize (count : ℕ) :
    ∑ k ∈ Finset.range (chunks count), chunkSize count k = count := by
  have hpart (m : ℕ) : ∑ k ∈ Finset.range m, chunkSize count k = min count (125 * m) := by
    induction m with
    | zero => simp
    | succ m ih =>
        rw [Finset.sum_range_succ, ih, chunkSize]
        omega
  rw [hpart, chunks]
  omega

section Counted

variable {answers : ℕ → UInt8 × Pdu} {sent start count : ℕ}

theorem length_allRegisters (h : Through answers sent start count) :
    (allRegisters answers sent count).length =
      ∑ k ∈ Finset.range (chunks count), carries (answers (sent + k)).2 := by
  rw [allRegisters, length_flatMap_range]
  exact Finset.sum_congr rfl fun k hk =>
    length_registersOf (h k (Finset.mem_range.mp hk)).2

/-- A register too many in one answer does not make up for one too few in another. -/
theorem exact_iff (h : Through answers sent start count) :
    Exact answers sent count (allRegisters answers sent count) ↔
      ∀ k < chunks count, carries (answers (sent + k)).2 = chunkSize count k := by
  have hcarries (k : ℕ) (hk : k < chunks count) := length_registersOf (h k hk).2
  constructor
  · rintro ⟨hlength, hown⟩
    have htotal : ∑ k ∈ Finset.range (chunks count), chunkSize count k =
        ∑ k ∈ Finset.range (chunks count), carries (answers (sent + k)).2 := by
      rw [sum_chunkSize, ← length_allRegisters h, hlength]
    have htaken : ∑ k ∈ Finset.range (chunks count),
          min (chunkSize count k) (carries (answers (sent + k)).2) =
        ∑ k ∈ Finset.range (chunks count), chunkSize count k := by
      rw [sum_chunkSize]
      refine Eq.trans ?_ ((congrArg List.length hown).symm.trans hlength)
      rw [length_flatMap_range]
      exact Finset.sum_congr rfl fun k hk => by
        rw [List.length_take, hcarries k (Finset.mem_range.mp hk)]
    have hle (k : ℕ) (hk : k ∈ Finset.range (chunks count)) :
        chunkSize count k ≤ carries (answers (sent + k)).2 :=
      min_eq_left_iff.mp
        ((Finset.sum_eq_sum_iff_of_le fun k _ => min_le_left _ _).mp htaken k hk)
    exact fun k hk =>
      ((Finset.sum_eq_sum_iff_of_le hle).mp htotal k (Finset.mem_range.mpr hk)).symm
  · intro hsizes
    constructor
    case length =>
      rw [length_allRegisters h]
      refine Eq.trans ?_ (sum_chunkSize count)
      exact Finset.sum_congr rfl fun k hk => hsizes k (Finset.mem_range.mp hk)
    case own =>
      refine List.flatMap_congr fun k hk => ?_
      have hlength := hcarries k (List.mem_range.mp hk)
      rw [List.take_of_length_le (by rw [hlength, hsizes k (List.mem_range.mp hk)])]

end Counted

/-- **A call returns the registers that it was asked for, or raises**, if and only if one of
its requests raises or every answer has as many registers as its request asks for. The
number alone is right if there are as many in all. -/
theorem readHolding_exact_iff (net : Arrivals) (answers : ℕ → UInt8 × Pdu) (unit : UInt8)
    (tx : UInt16) (sent start count : ℕ) :
    ((∀ regs c, readHoldingWith (exchange net answers) start count { unit, tx, sent } =
        .ok (regs, c) → Exact answers sent count regs) ↔
      (Through answers sent start count →
        ∀ k < chunks count, carries (answers (sent + k)).2 = chunkSize count k)) ∧
    ((∀ regs c, readHoldingWith (exchange net answers) start count { unit, tx, sent } =
        .ok (regs, c) → regs.length = count ∧ regs = allRegisters answers sent count) ↔
      (Through answers sent start count →
        ∑ k ∈ Finset.range (chunks count), carries (answers (sent + k)).2 = count)) := by
  have hreturns (P : List UInt16 → Prop) :
      (∀ regs c, readHoldingWith (exchange net answers) start count { unit, tx, sent } =
        .ok (regs, c) → P regs) ↔
      (Through answers sent start count → P (allRegisters answers sent count)) := by
    obtain ⟨hok, herror⟩ := readHoldingWith_eq net answers (c := { unit, tx, sent }) rfl start count
    by_cases h : Through answers sent start count
    · obtain ⟨c, hrun⟩ := hok h
      rw [hrun]
      refine ⟨fun hP _ => hP _ c rfl, fun hP regs c' hreturned => ?_⟩
      injection hreturned with hreturned
      injection hreturned with hregs
      exact hregs ▸ hP h
    · obtain ⟨exc, hrun⟩ := herror h
      rw [hrun]
      exact iff_of_true nofun fun hthrough => absurd hthrough h
  constructor
  · rw [hreturns]
    exact forall_congr' exact_iff
  · rw [hreturns]
    refine forall_congr' fun h => ?_
    rw [length_allRegisters h]
    exact and_iff_left rfl

/-- Two registers are asked for and one is answered. -/
theorem short_answer_returned :
    ¬ ∀ regs c, readHoldingWith (exchange bytewise fun _ => (1, Wire.oneRegister 7)) 40000 2 {} =
      .ok (regs, c) → regs.length = 2 := by
  intro hall
  have hthrough : Through (fun _ => (1, Wire.oneRegister 7)) 0 40000 2 := by
    intro k hk
    have hzero : k = 0 := by
      unfold chunks at hk
      omega
    subst hzero
    decide
  obtain ⟨c, hrun⟩ := (readHoldingWith_eq bytewise _ (c := {}) rfl 40000 2).1 hthrough
  exact absurd (hall _ c hrun) (by decide)

end DiepLab.Sunspec
