import DiepLab.Library.Runs
import DiepLab.Sunspec.RoundTrip

/-!
Transactions that time out.

The threads of a client take turns on one stream. What a transaction has not
read when it times out stays in the stream, and nothing takes it out before the
next transaction reads. So every transaction has its own answer as long as none
is started with something of an earlier answer unread (`answered`); after one
that has timed out the next one reads the answer of that one, and so on.

Of the server only its answers are modelled: one for each request, in order. How
late they are is what arrives when.
-/

namespace DiepLab.Sunspec

open Bytes Runs

/-- A PDU that fits into a frame. -/
abbrev Pdu := { bs : List UInt8 // bs.length + 1 < 65536 }

/-- What `_txn` ends with. -/
inductive Outcome where
  | body (bs : List UInt8)
  | raised (e : PyExc)
  | timedOut
  deriving DecidableEq, Repr

/-- A transaction with its own answer. -/
structure Started where
  thread : ℕ
  tx : UInt16
  answer : Pdu
  deriving Repr

/-- The transaction that has the lock, and what it has received. -/
structure Transaction where
  number : ℕ
  tx : UInt16
  received : List UInt8 := []
  deriving DecidableEq, Repr

/-- The stream from the server to the client: what has arrived, and what has been
answered and is on its way. The transactions are numbered from zero. -/
structure Wire where
  unit : UInt8
  tx : UInt16 := 0
  current : Option Transaction := none
  inbox : List UInt8 := []
  inFlight : List UInt8 := []
  started : List Started := []
  finished : List (ℕ × Outcome) := []
  deriving Repr

inductive WireEvent where
  /-- A thread takes the lock and sends its request, which the server will answer. -/
  | starts (thread : ℕ) (request answer : Pdu)
  /-- One byte more than these arrives. -/
  | arrives (n : ℕ)
  /-- `recv` returns one byte more than these, if there are so many. -/
  | receives (n : ℕ)
  /-- `recv` raises, where nothing has arrived. -/
  | timesOut

/-- The frame of an answer. -/
def answerFrame (tx : UInt16) (unit : UInt8) (answer : List UInt8) : List UInt8 :=
  beBytes 2 tx.toNat ++ beBytes 2 0 ++ beBytes 2 (answer.length + 1) ++ [unit] ++ answer

/-- What `_txn` makes of a frame. -/
def judge (tx rxTx : UInt16) (body : List UInt8) : Outcome :=
  if rxTx ≠ tx then
    .raised (.ioError s!"Modbus transaction id mismatch (sent {tx}, got {rxTx})")
  else
    match body with
    | fc :: rest =>
        if fc &&& 0x80 ≠ 0 then
          .raised (.ioError s!"Modbus exception function={hex fc} code={rest.headD 0}")
        else .body body
    | [] => .body body

/-- What a transaction is to end with. -/
def Started.own (st : Started) : Outcome := judge st.tx st.tx st.answer

namespace Transaction

/-- The argument of the next `recv`: what is missing of the header, or of the body. -/
def missing (t : Transaction) : ℕ :=
  if t.received.length < 7 then 7 - t.received.length
  else (unpackHeader (t.received.take 7)).2.1 + 6 - t.received.length

/-- What the transaction ends with, or none while it waits. -/
def outcome (t : Transaction) : Option Outcome :=
  if t.received.length < 7 then none
  else
    let (rxTx, length, _) := unpackHeader (t.received.take 7)
    if length = 0 then some (.raised (.valueError "negative buffersize in recv"))
    else if t.received.length < length + 6 then none
    else some (judge t.tx rxTx (t.received.drop 7))

end Transaction

namespace Wire

/-- The transaction gives the lock back. -/
def finish (w : Wire) (t : Transaction) (outcome : Outcome) : Wire :=
  { w with current := none, finished := w.finished ++ [(t.number, outcome)] }

/-- One event. What cannot happen changes nothing. -/
def step (w : Wire) : WireEvent → Wire
  | .starts thread _ answer =>
      match w.current with
      -- the lock is taken
      | some _ => w
      | none =>
          let tx := w.tx + 1
          { w with
            tx, current := some { number := w.started.length, tx }
            inFlight := w.inFlight ++ answerFrame tx w.unit answer
            started := w.started ++ [⟨thread, tx, answer⟩] }
  | .arrives n =>
      { w with inbox := w.inbox ++ w.inFlight.take (n + 1), inFlight := w.inFlight.drop (n + 1) }
  | .receives n =>
      match w.current with
      | none => w
      | some t =>
          if w.inbox = [] then w
          else
            let count := min (n + 1) t.missing
            let t := { t with received := t.received ++ w.inbox.take count }
            let w := { w with inbox := w.inbox.drop count }
            match t.outcome with
            | none => { w with current := some t }
            | some outcome => w.finish t outcome
  | .timesOut =>
      match w.current with
      | some t => if w.inbox = [] then w.finish t .timedOut else w
      | none => w

def run (unit : UInt8) (events : List WireEvent) : Wire := events.foldl step { unit }

/-- When a transaction starts nothing of an earlier answer is unread, or on its way. -/
def InStep (w : Wire) : WireEvent → Prop
  | .starts _ _ _ => w.current = none → w.inbox = [] ∧ w.inFlight = []
  | _ => True

instance (w : Wire) (e : WireEvent) : Decidable (w.InStep e) := by
  unfold InStep
  split <;> infer_instance

/-- The transaction has timed out, or ended with its own answer. -/
def Own (w : Wire) (number : ℕ) (outcome : Outcome) : Prop :=
  outcome = .timedOut ∨ ∃ st, w.started[number]? = some st ∧ outcome = st.own

/-- What is unread is the rest of the answer of the transaction that has the lock, and
those that have ended, but for timeouts, have had their own. -/
structure Aligned (w : Wire) : Prop where
  current : ∀ t, w.current = some t → t.outcome = none ∧ ∃ st, w.started[t.number]? = some st ∧
    st.tx = t.tx ∧ t.received ++ w.inbox ++ w.inFlight = answerFrame t.tx w.unit st.answer
  finished : ∀ number outcome, (number, outcome) ∈ w.finished → w.Own number outcome

/-! ### Steps -/

section Steps

variable {w : Wire}

theorem length_answerFrame (tx : UInt16) (unit : UInt8) (answer : List UInt8) :
    (answerFrame tx unit answer).length = 7 + answer.length := by
  simp only [answerFrame, List.length_append, length_beBytes, List.length_singleton]

/-- The beginning of a frame, as far as it has been received. -/
theorem header_of_prefix {received rest : List UInt8} {tx : UInt16} {unit : UInt8} {answer : Pdu}
    (h : received ++ rest = answerFrame tx unit answer) (hlength : 7 ≤ received.length) :
    unpackHeader (received.take 7) = (tx, answer.val.length + 1, unit) := by
  have htake := congrArg (List.take 7) h
  rw [List.take_append_of_le_length hlength, answerFrame, List.take_left' (by simp)] at htake
  rw [htake, unpackHeader_eq tx answer.property]

/-- A transaction that reads its own answer waits until it has all of it, and ends
with it. -/
theorem outcome_of_split {t : Transaction} {rest : List UInt8} {unit : UInt8} {answer : Pdu}
    (h : t.received ++ rest = answerFrame t.tx unit answer) :
    t.outcome = if rest = [] then some (judge t.tx t.tx answer) else none := by
  have hlength := congrArg List.length h
  rw [List.length_append, length_answerFrame] at hlength
  unfold Transaction.outcome
  by_cases hheader : t.received.length < 7
  · have hrest : rest ≠ [] := by
      rintro rfl
      rw [List.length_nil] at hlength
      omega
    rw [if_pos hheader, if_neg hrest]
  · rw [if_neg hheader, header_of_prefix h (Nat.not_lt.mp hheader)]
    dsimp only
    rw [if_neg (Nat.succ_ne_zero _)]
    by_cases hrest : rest = []
    · subst hrest
      rw [List.length_nil] at hlength
      rw [List.append_nil] at h
      rw [if_neg (by omega), if_pos rfl, h, answerFrame, List.drop_left' (by simp)]
    · have hpos := List.length_pos_of_ne_nil hrest
      rw [if_pos (by omega), if_neg hrest]

theorem missing_pos {t : Transaction} (h : t.outcome = none) : 0 < t.missing := by
  unfold Transaction.outcome at h
  unfold Transaction.missing
  generalize unpackHeader (t.received.take 7) = header at h ⊢
  obtain ⟨rxTx, length, unit⟩ := header
  dsimp only at h ⊢
  split at h
  · rw [if_pos ‹_›]
    omega
  · rw [if_neg ‹_›]
    split at h
    · exact nomatch h
    · split at h
      · omega
      · exact nomatch h

/-! ### What a step keeps -/

theorem Aligned.starts (h : w.Aligned) (thread : ℕ) (request answer : Pdu)
    (hclear : w.current = none → w.inbox = [] ∧ w.inFlight = []) :
    (w.step (.starts thread request answer)).Aligned := by
  rw [step]
  split
  · exact h
  · rename_i hcurrent
    obtain ⟨hinbox, hflight⟩ := hclear hcurrent
    refine ⟨?_, fun number outcome hmem => ?_⟩
    · rintro t ⟨⟩
      refine ⟨rfl, ⟨thread, w.tx + 1, answer⟩, List.getElem?_concat_length, rfl, ?_⟩
      rw [hinbox, hflight, List.nil_append, List.nil_append]
      rfl
    · refine (h.finished number outcome hmem).imp_right ?_
      rintro ⟨st, hst, hown⟩
      exact ⟨st, (List.getElem?_append_left (List.getElem?_eq_some_iff.mp hst).1).trans hst, hown⟩

theorem Aligned.arrives (h : w.Aligned) (n : ℕ) : (w.step (.arrives n)).Aligned := by
  refine ⟨fun t ht => ?_, h.finished⟩
  obtain ⟨hnone, st, hst, htx, hframe⟩ := h.current t ht
  refine ⟨hnone, st, hst, htx, ?_⟩
  simp only [step, ← hframe, List.append_assoc, List.take_append_drop]

theorem aligned_finish {t : Transaction} {outcome : Outcome}
    (h : ∀ number outcome, (number, outcome) ∈ w.finished → w.Own number outcome)
    (houtcome : w.Own t.number outcome) : (w.finish t outcome).Aligned := by
  refine ⟨nofun, fun number o hmem => ?_⟩
  rcases List.mem_append.mp hmem with hmem | hmem
  · exact h number o hmem
  · obtain ⟨rfl, rfl⟩ := Prod.mk.inj (List.mem_singleton.mp hmem)
    exact houtcome

theorem Aligned.timesOut (h : w.Aligned) : (w.step .timesOut).Aligned := by
  rw [step]
  split
  · split
    · exact aligned_finish h.finished (Or.inl rfl)
    · exact h
  · exact h

/-- What `recv` returns to the transaction that has the lock. -/
theorem step_receives {t : Transaction} (hcurrent : w.current = some t) (hinbox : w.inbox ≠ [])
    (h : w.Aligned) (n : ℕ) :
    ∃ st count, w.started[t.number]? = some st ∧ st.tx = t.tx ∧ 0 < count ∧
      (t.received ++ w.inbox.take count) ++ (w.inbox.drop count ++ w.inFlight) =
        answerFrame t.tx w.unit st.answer ∧
      w.step (.receives n) =
        if w.inbox.drop count ++ w.inFlight = [] then
          ({ w with inbox := w.inbox.drop count }).finish t st.own
        else { w with
          current := some { t with received := t.received ++ w.inbox.take count }
          inbox := w.inbox.drop count } := by
  obtain ⟨hnone, st, hst, htx, hframe⟩ := h.current t hcurrent
  have hsplit (count : ℕ) : (t.received ++ w.inbox.take count) ++
      (w.inbox.drop count ++ w.inFlight) = answerFrame t.tx w.unit st.answer := by
    rw [← hframe, List.append_assoc, ← List.append_assoc (w.inbox.take _), List.take_append_drop,
      List.append_assoc]
  refine ⟨st, min (n + 1) t.missing, hst, htx, lt_min n.succ_pos (missing_pos hnone), hsplit _, ?_⟩
  rw [step, hcurrent]
  dsimp only
  rw [if_neg hinbox,
    outcome_of_split (t := ⟨t.number, t.tx, t.received ++ _⟩) (hsplit (min (n + 1) t.missing))]
  by_cases hrest : w.inbox.drop (min (n + 1) t.missing) ++ w.inFlight = []
  · rw [if_pos hrest, if_pos hrest, Started.own, htx]
    rfl
  · rw [if_neg hrest, if_neg hrest]

theorem Aligned.receives (h : w.Aligned) (n : ℕ) : (w.step (.receives n)).Aligned := by
  cases hcurrent : w.current with
  | none =>
      rw [step, hcurrent]
      exact h
  | some t =>
      by_cases hinbox : w.inbox = []
      · rw [step, hcurrent]
        dsimp only
        rw [if_pos hinbox]
        exact h
      · obtain ⟨st, count, hst, htx, -, hsplit, hstep⟩ := step_receives hcurrent hinbox h n
        rw [hstep]
        split
        · exact aligned_finish h.finished (Or.inr ⟨st, hst, rfl⟩)
        · rename_i hrest
          refine ⟨?_, h.finished⟩
          rintro _ ⟨⟩
          refine ⟨?_, st, hst, htx, ?_⟩
          · rw [outcome_of_split (t := ⟨t.number, t.tx, t.received ++ _⟩) hsplit, if_neg hrest]
          · rw [← hsplit, List.append_assoc]

theorem Aligned.step (h : w.Aligned) {e : WireEvent} (he : w.InStep e) : (w.step e).Aligned := by
  cases e with
  | starts thread request answer => exact h.starts thread request answer he
  | arrives n => exact h.arrives n
  | receives n => exact h.receives n
  | timesOut => exact h.timesOut

/-! ### What has arrived is received -/

theorem foldl_receives (h : w.current = none) (sizes : List ℕ) :
    (sizes.map WireEvent.receives).foldl Wire.step w = w := by
  induction sizes with
  | nil => rfl
  | cons n sizes ih =>
      rw [List.map_cons, List.foldl_cons, Wire.step, h]
      exact ih

/-- A transaction whose answer has arrived ends with it, whatever `recv` returns. -/
theorem Aligned.finishes (h : w.Aligned) {t : Transaction} (hcurrent : w.current = some t)
    (hflight : w.inFlight = []) {sizes : List ℕ} (hsizes : w.inbox.length ≤ sizes.length) :
    ∃ st, w.started[t.number]? = some st ∧
      (t.number, st.own) ∈ ((sizes.map WireEvent.receives).foldl Wire.step w).finished := by
  have hunread : w.inbox ≠ [] := by
    intro hinbox
    obtain ⟨hnone, st, -, -, hframe⟩ := h.current t hcurrent
    rw [hinbox, hflight, List.append_nil] at hframe
    rw [outcome_of_split hframe, if_pos rfl] at hnone
    exact nomatch hnone
  induction sizes generalizing w t with
  | nil => exact absurd (List.eq_nil_of_length_eq_zero (Nat.le_zero.mp hsizes)) hunread
  | cons n sizes ih =>
      have hnext := h.receives n
      obtain ⟨st, count, hst, -, hcount, -, hstep⟩ := step_receives hcurrent hunread h n
      rw [List.map_cons, List.foldl_cons]
      split at hstep
      · refine ⟨st, hst, ?_⟩
        rw [hstep, foldl_receives rfl]
        exact List.mem_append_right _ List.mem_cons_self
      · rename_i hrest
        rw [hflight, List.append_nil] at hrest
        have hlength : (w.inbox.drop count).length ≤ sizes.length := by
          rw [List.length_drop]
          rw [List.length_cons] at hsizes
          omega
        rw [hstep] at hnext ⊢
        exact ih hnext (t := ⟨t.number, t.tx, t.received ++ w.inbox.take count⟩) rfl hflight
          hlength hrest

end Steps

/-! ### Runs -/

/-- **Answers in step.** In a run in which no transaction starts with something of an
earlier answer unread, every transaction that has ended without timing out has had
its own answer; and the one that has the lock will have it when it has arrived,
however it is received. -/
theorem answered (unit : UInt8) (events : List WireEvent) (h : Meets step InStep { unit } events) :
    (∀ number outcome, (number, outcome) ∈ (run unit events).finished →
      (run unit events).Own number outcome) ∧
    ∀ t, (run unit events).current = some t → (run unit events).inFlight = [] →
      ∀ sizes : List ℕ, (run unit events).inbox.length ≤ sizes.length →
        ∃ st, (run unit events).started[t.number]? = some st ∧
          (t.number, st.own) ∈ (run unit (events ++ sizes.map WireEvent.receives)).finished := by
  have haligned : (run unit events).Aligned :=
    h.invariant (fun _ _ hw he => hw.step he) ⟨nofun, nofun⟩
  refine ⟨haligned.finished, fun t ht hflight sizes hsizes => ?_⟩
  have hrun : run unit (events ++ sizes.map WireEvent.receives) =
      (sizes.map WireEvent.receives).foldl step (run unit events) := List.foldl_append
  rw [hrun]
  exact haligned.finishes ht hflight hsizes

/-- A read of one register, and the register. -/
def readOne : Pdu := ⟨[0x03, 0x00, 0x00, 0x00, 0x01], by decide⟩

def oneRegister (low : UInt8) : Pdu := ⟨[0x03, 0x02, 0x00, low], by simp⟩

/-- Two threads, the answers in time and in pieces. -/
def inTime : List WireEvent :=
  [.starts 0 readOne (oneRegister 7), .arrives 3, .receives 9, .arrives 99, .receives 9,
    .receives 9, .starts 1 readOne (oneRegister 8), .arrives 99, .receives 9]

theorem inTime_answered :
    (∀ number outcome, (number, outcome) ∈ (run 1 inTime).finished →
      (run 1 inTime).Own number outcome) ∧
    ∀ t, (run 1 inTime).current = some t → (run 1 inTime).inFlight = [] →
      ∀ sizes : List ℕ, (run 1 inTime).inbox.length ≤ sizes.length →
        ∃ st, (run 1 inTime).started[t.number]? = some st ∧
          (t.number, st.own) ∈ (run 1 (inTime ++ sizes.map WireEvent.receives)).finished :=
  answered 1 inTime (by decide)

/-- The first transaction times out and its answer comes late; the second one starts
after that, and finds it. So does the third one with the answer of the second. -/
theorem late_mismatch :
    ∃ late : List WireEvent, (run 1 late).inFlight = [] ∧ (run 1 late).current = none ∧
      (run 1 (late ++ [.starts 1 readOne (oneRegister 8), .arrives 99, .receives 9, .receives 9,
        .starts 2 readOne (oneRegister 9), .arrives 99, .receives 9, .receives 9])).finished =
      [(0, .timedOut),
        (1, .raised (.ioError "Modbus transaction id mismatch (sent 2, got 1)")),
        (2, .raised (.ioError "Modbus transaction id mismatch (sent 3, got 2)"))] :=
  ⟨[.starts 0 readOne (oneRegister 7), .timesOut, .arrives 99], by decide, by decide, by decide⟩

end Wire

end DiepLab.Sunspec
