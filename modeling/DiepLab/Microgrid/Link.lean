import DiepLab.Library.Runs
import DiepLab.Microgrid.Apdu

/-!
The link between a controlling and a controlled station.

Either end has a peer with two counters and a lock, and a thread that reads. Whoever sends an ASDU
and the thread that acknowledges one take turns at the lock, in any order, so that the frames of
a direction may be interleaved with acknowledgements and functions in any way; what is read is
handled some time later. Through all of it the link is a pair of queues: what an end is handed is
what the other has posted, from the first on and in this order (`link_in_sequence`), and what has
been posted is handed over once the end reads on (`link_delivers`). No end looks at the numbers
of the frames. They are right nevertheless.

The socket is taken to stay up; `sendall` writes a whole frame.
-/

namespace DiepLab.Microgrid

def startdtAct : UInt8 := 0x07

def startdtCon : UInt8 := 0x0B

def stopdtAct : UInt8 := 0x13

def stopdtCon : UInt8 := 0x23

def testfrAct : UInt8 := 0x43

def testfrCon : UInt8 := 0x83

inductive Side where
  | controlling
  | controlled
  deriving DecidableEq

def Side.other : Side → Side
  | .controlling => .controlled
  | .controlled => .controlling

@[simp] theorem Side.other_other (side : Side) : side.other.other = side := by
  cases side <;> rfl

theorem Side.other_ne (side : Side) : side.other ≠ side := by
  cases side <;> decide

/-- An end of the link: its peer, and the thread that reads. -/
structure Station where
  ns : ℕ := 0
  nr : ℕ := 0
  /-- What the other end has written and this one has not read. -/
  inbound : List UInt8 := []
  /-- What has been read and not been handled. -/
  reading : Option Apdu := none
  running : Bool := true
  started : Bool := false
  /-- The ASDUs that were sent. -/
  posted : List (List UInt8) := []
  /-- The ASDUs that `on_asdu` was called with. -/
  delivered : List (List UInt8) := []

abbrev Link := Side → Station

/-- The two ends, this one and the other. -/
def Link.pair (side : Side) (own peer : Station) : Link := fun x => if x = side then own else peer

@[simp] theorem Link.pair_self (side : Side) (own peer : Station) :
    Link.pair side own peer side = own := if_pos rfl

@[simp] theorem Link.pair_other (side : Side) (own peer : Station) :
    Link.pair side own peer side.other = peer := if_neg side.other_ne

/-- The other end has more to read. -/
def Station.hears (s : Station) (bytes : List UInt8) : Station :=
  { s with inbound := s.inbound ++ bytes }

inductive LinkEvent where
  | sendAsdu (side : Side) (asdu : List UInt8)
  /-- `connect` of the controlling station. -/
  | startDt
  | read (side : Side)
  | handle (side : Side)

/-- The function that a function is answered with. -/
def reply (side : Side) (func : UInt8) : Option UInt8 :=
  match side with
  | .controlled =>
      if func = startdtAct then some startdtCon
      else if func = stopdtAct then some stopdtCon
      else if func = testfrAct then some testfrCon
      else none
  | .controlling => if func = testfrAct then some testfrCon else none

/-- What an end makes of what it has read, and what it writes. -/
def Station.handle (s : Station) (side : Side) : Apdu → Station × List UInt8
  | .i _ _ asdu =>
      let nr := (s.nr + 1) &&& 0x7FFF
      ({ s with nr := nr, reading := none, delivered := s.delivered ++ [asdu] }, encodeS nr)
  -- the peer has acknowledged what this end has sent: nothing to do
  | .s _ => ({ s with reading := none }, [])
  | .u func =>
      let confirmed := side = .controlling ∧ func = startdtCon
      ({ s with reading := none, started := s.started || confirmed },
        ((reply side func).map encodeU).getD [])

/-- One event. A frame that has no room for its ASDU is not sent, and a thread that has nothing to
read waits. -/
def Link.step (link : Link) : LinkEvent → Link
  | .sendAsdu side asdu =>
      let s := link side
      if s.running then
        match encodeI asdu s.ns s.nr with
        | .ok frame =>
            .pair side { s with ns := (s.ns + 1) &&& 0x7FFF, posted := s.posted ++ [asdu] }
              ((link side.other).hears frame)
        | .error _ => link
      else link
  | .startDt =>
      .pair .controlling (link .controlling) ((link .controlled).hears (encodeU startdtAct))
  | .read side =>
      let s := link side
      if s.running ∧ s.reading = none ∧ s.inbound ≠ [] then
        match readApdu Segments.takeExact s.inbound with
        | some (apdu, rest) =>
            .pair side { s with reading := some apdu, inbound := rest } (link side.other)
        | none => .pair side { s with running := false } (link side.other)
      else link
  | .handle side =>
      match (link side).reading with
      | some apdu =>
          .pair side ((link side).handle side apdu).1
            ((link side.other).hears ((link side).handle side apdu).2)
      | none => link

def Link.run (link : Link) (events : List LinkEvent) : Link := events.foldl Link.step link

/-- Before anything is sent. -/
def opened : Link := fun _ => {}

/-! ### What is in flight -/

/-- The bytes are whole frames. Those with an ASDU are numbered from `n` on, and none acknowledges
more than `bound` of the other direction. -/
inductive Carries (bound : ℕ) : ℕ → List UInt8 → List (List UInt8) → Prop where
  | nil (n : ℕ) : Carries bound n [] []
  | i {n m : ℕ} {asdu frame bytes : List UInt8} {asdus : List (List UInt8)} (hm : m ≤ bound)
      (hframe : encodeI asdu (n % 2 ^ 15) (m % 2 ^ 15) = .ok frame)
      (rest : Carries bound (n + 1) bytes asdus) : Carries bound n (frame ++ bytes) (asdu :: asdus)
  | s {n m : ℕ} {bytes : List UInt8} {asdus : List (List UInt8)} (hm : m ≤ bound)
      (rest : Carries bound n bytes asdus) :
      Carries bound n (encodeS (m % 2 ^ 15) ++ bytes) asdus
  | u {n : ℕ} {func : UInt8} {bytes : List UInt8} {asdus : List (List UInt8)}
      (hfunc : func &&& 0x03 = 0x03) (rest : Carries bound n bytes asdus) :
      Carries bound n (encodeU func ++ bytes) asdus

namespace Carries

variable {bound n : ℕ} {bytes : List UInt8} {asdus : List (List UInt8)}

theorem mono {bound' : ℕ} (h : Carries bound n bytes asdus) (hle : bound ≤ bound') :
    Carries bound' n bytes asdus := by
  induction h with
  | nil n => exact .nil n
  | i hm hframe _ ih => exact .i (hm.trans hle) hframe ih
  | s hm _ ih => exact .s (hm.trans hle) ih
  | u hfunc _ ih => exact .u hfunc ih

theorem append {more : List UInt8} {asdus' : List (List UInt8)}
    (h : Carries bound n bytes asdus) (hmore : Carries bound (n + asdus.length) more asdus') :
    Carries bound n (bytes ++ more) (asdus ++ asdus') := by
  induction h with
  | nil n => exact hmore
  | i hm hframe _ ih =>
      rw [List.append_assoc]
      refine .i hm hframe (ih ?_)
      rwa [List.length_cons, Nat.add_comm _ 1, ← Nat.add_assoc] at hmore
  | s hm _ ih =>
      rw [List.append_assoc]
      exact .s hm (ih hmore)
  | u hfunc _ ih =>
      rw [List.append_assoc]
      exact .u hfunc (ih hmore)

theorem frame_i {m : ℕ} (hm : m ≤ bound) {asdu frame : List UInt8}
    (hframe : encodeI asdu (n % 2 ^ 15) (m % 2 ^ 15) = .ok frame) :
    Carries bound n frame [asdu] := by
  have h := Carries.i hm hframe (.nil (n + 1))
  rwa [List.append_nil] at h

theorem frame_s {m : ℕ} (hm : m ≤ bound) : Carries bound n (encodeS (m % 2 ^ 15)) [] := by
  have h := Carries.s (n := n) hm (.nil n)
  rwa [List.append_nil] at h

theorem frame_u {func : UInt8} (hfunc : func &&& 0x03 = 0x03) :
    Carries bound n (encodeU func) [] := by
  have h : Carries bound n (encodeU func ++ []) [] := .u hfunc (.nil n)
  rwa [List.append_nil] at h

end Carries

/-- The number of a frame is the next one, and what it acknowledges has been handed over. -/
def Apdu.Numbered (bound n : ℕ) : Apdu → Prop
  | .i ns nr _ => ns = n % 2 ^ 15 ∧ ∃ m ≤ bound, nr = m % 2 ^ 15
  | .s nr => ∃ m ≤ bound, nr = m % 2 ^ 15
  | .u _ => True

/-- The ASDU that a frame brings. -/
def Apdu.brings : Apdu → List (List UInt8)
  | .i _ _ asdu => [asdu]
  | _ => []

theorem mod_lt_counter (n : ℕ) : n % 2 ^ 15 < 2 ^ 15 := Nat.mod_lt n (Nat.two_pow_pos 15)

/-- What is in flight is read frame by frame. -/
theorem Carries.read {bound n : ℕ} {bytes : List UInt8} {asdus : List (List UInt8)}
    (h : Carries bound n bytes asdus) (hne : bytes ≠ []) :
    ∃ apdu rest later, readApdu Segments.takeExact bytes = some (apdu, rest) ∧
      rest.length < bytes.length ∧ apdu.Numbered bound n ∧ asdus = apdu.brings ++ later ∧
      Carries bound (n + apdu.brings.length) rest later := by
  cases h with
  | nil => exact absurd rfl hne
  | @i _ m asdu frame rest later hm hframe hrest =>
      obtain ⟨-, length, hlength, rfl⟩ := encodeI_eq_ok hframe
      refine ⟨.i (n % 2 ^ 15) (m % 2 ^ 15) asdu, rest, later, ?_, ?_, ⟨rfl, m, hm, rfl⟩, rfl, hrest⟩
      · exact readApdu_takeExact hlength
          (parseBody_encodeI (mod_lt_counter n) (mod_lt_counter m) asdu) rest
      · simp only [List.length_append, List.length_cons]
        omega
  | @s _ m rest _ hm hrest =>
      have hlength : ([0x01, 0x00] ++ counterBytes (m % 2 ^ 15)).length = (4 : UInt8).toNat := rfl
      refine ⟨.s (m % 2 ^ 15), rest, asdus, ?_, ?_, ⟨m, hm, rfl⟩, rfl, hrest⟩
      · exact readApdu_takeExact hlength (parseBody_encodeS (mod_lt_counter m)) rest
      · simp only [encodeS, List.length_append, List.length_cons]
        omega
  | @u _ func rest _ hfunc hrest =>
      have hlength : [func, 0, 0, 0].length = (4 : UInt8).toNat := rfl
      refine ⟨.u func, rest, asdus, ?_, ?_, trivial, rfl, hrest⟩
      · exact readApdu_takeExact hlength (parseBody_encodeU hfunc) rest
      · simp only [encodeU, List.length_append, List.length_cons]
        omega

/-! ### One direction -/

/-- What one end has of what the other has sent. -/
structure InSequence (receiver sender : Station) : Prop where
  running : receiver.running = true
  ns : sender.ns = sender.posted.length % 2 ^ 15
  nr : receiver.nr = receiver.delivered.length % 2 ^ 15
  numbered : ∀ apdu, receiver.reading = some apdu →
    apdu.Numbered sender.delivered.length receiver.delivered.length
  flight : ∃ asdus, sender.posted =
      receiver.delivered ++ (receiver.reading.map Apdu.brings).getD [] ++ asdus ∧
    Carries sender.delivered.length
      (receiver.delivered ++ (receiver.reading.map Apdu.brings).getD []).length
      receiver.inbound asdus

theorem counter_succ (n : ℕ) : (n % 2 ^ 15 + 1) &&& 0x7FFF = (n + 1) % 2 ^ 15 := by
  rw [show 0x7FFF = 2 ^ 15 - 1 from rfl, Nat.and_two_pow_sub_one_eq_mod, Nat.mod_add_mod]

theorem Apdu.Numbered.mono {bound bound' n : ℕ} {apdu : Apdu} (h : apdu.Numbered bound n)
    (hle : bound ≤ bound') : apdu.Numbered bound' n := by
  cases apdu with
  | i ns nr asdu =>
      obtain ⟨hns, m, hm, hnr⟩ := h
      exact ⟨hns, m, hm.trans hle, hnr⟩
  | s nr =>
      obtain ⟨m, hm, hnr⟩ := h
      exact ⟨m, hm.trans hle, hnr⟩
  | u func => trivial

namespace InSequence

variable {receiver sender : Station} (h : InSequence receiver sender)
include h

/-- The other end writes frames, with the ASDUs `asdus`. -/
theorem hears {sender' : Station} {bytes : List UInt8} {asdus : List (List UInt8)}
    (hns : sender'.ns = sender'.posted.length % 2 ^ 15)
    (hposted : sender'.posted = sender.posted ++ asdus)
    (hdelivered : sender.delivered.length ≤ sender'.delivered.length)
    (hbytes : Carries sender'.delivered.length sender.posted.length bytes asdus) :
    InSequence (receiver.hears bytes) sender' where
  running := h.running
  ns := hns
  nr := h.nr
  numbered apdu hapdu := (h.numbered apdu hapdu).mono hdelivered
  flight := by
    obtain ⟨inFlight, hsplit, hcarries⟩ := h.flight
    refine ⟨inFlight ++ asdus, ?_, (hcarries.mono hdelivered).append ?_⟩
    · rw [hposted, hsplit, List.append_assoc]
      rfl
    · rwa [← List.length_append, ← hsplit]

theorem read (hnone : receiver.reading = none) (hne : receiver.inbound ≠ []) :
    ∃ apdu rest, readApdu Segments.takeExact receiver.inbound = some (apdu, rest) ∧
      rest.length < receiver.inbound.length ∧
      InSequence { receiver with reading := some apdu, inbound := rest } sender := by
  obtain ⟨asdus, hsplit, hcarries⟩ := h.flight
  simp only [hnone, Option.map_none, Option.getD_none, List.append_nil] at hsplit hcarries
  obtain ⟨apdu, rest, later, hread, hlt, hnumbered, rfl, hrest⟩ := hcarries.read hne
  refine ⟨apdu, rest, hread, hlt, h.running, h.ns, h.nr, fun apdu' hapdu => ?_, later, ?_, ?_⟩
  · obtain rfl := Option.some.inj hapdu
    exact hnumbered
  · rw [hsplit, Option.map_some, Option.getD_some, List.append_assoc]
  · rwa [Option.map_some, Option.getD_some, List.length_append]

theorem settles {receiver' : Station} {apdu : Apdu} (hapdu : receiver.reading = some apdu)
    (hrunning : receiver'.running = receiver.running) (hreading : receiver'.reading = none)
    (hinbound : receiver'.inbound = receiver.inbound)
    (hdelivered : receiver'.delivered = receiver.delivered ++ apdu.brings)
    (hnr : receiver'.nr = receiver'.delivered.length % 2 ^ 15) :
    InSequence receiver' sender where
  running := hrunning.trans h.running
  ns := h.ns
  nr := hnr
  numbered apdu' hapdu' := by
    rw [hreading] at hapdu'
    cases hapdu'
  flight := by
    obtain ⟨asdus, hsplit, hcarries⟩ := h.flight
    rw [hapdu, Option.map_some, Option.getD_some, ← hdelivered] at hsplit hcarries
    refine ⟨asdus, ?_, ?_⟩
    · rw [hreading, Option.map_none, Option.getD_none, List.append_nil, hsplit]
    · rwa [hreading, Option.map_none, Option.getD_none, List.append_nil, hinbound]

/-- What has been read is handled. -/
theorem handled (side : Side) {apdu : Apdu} (hapdu : receiver.reading = some apdu) :
    InSequence (receiver.handle side apdu).1 sender := by
  cases apdu with
  | i ns nr asdu =>
      refine h.settles hapdu rfl rfl rfl rfl ?_
      simp only [Station.handle]
      rw [h.nr, counter_succ, List.length_append, List.length_singleton]
  | s nr => exact h.settles hapdu rfl rfl rfl (List.append_nil _).symm h.nr
  | u func => exact h.settles hapdu rfl rfl rfl (List.append_nil _).symm h.nr

/-- What the other end has yet to read does not matter. -/
theorem of_hears (bytes : List UInt8) : InSequence receiver (sender.hears bytes) :=
  ⟨h.running, h.ns, h.nr, h.numbered, h.flight⟩

end InSequence

/-! ### Both directions -/

def Agrees (link : Link) : Prop := ∀ side, InSequence (link side) (link side.other)

theorem agrees_opened : Agrees opened := fun _ =>
  ⟨rfl, rfl, rfl, fun apdu h => absurd h (Option.some_ne_none apdu).symm, [], rfl, .nil _⟩

theorem agrees_pair {side : Side} {own peer : Station} (hown : InSequence own peer)
    (hpeer : InSequence peer own) : Agrees (.pair side own peer) := by
  intro x
  by_cases hx : x = side
  · subst hx
    rwa [Link.pair_self, Link.pair_other]
  · obtain rfl : x = side.other := by
      cases x <;> cases side <;> first | rfl | exact absurd rfl hx
    rwa [Side.other_other, Link.pair_self, Link.pair_other]

theorem reply_function {side : Side} {func answer : UInt8} (h : reply side func = some answer) :
    answer &&& 0x03 = 0x03 := by
  cases side <;>
    · simp only [reply] at h
      split_ifs at h <;>
        · obtain rfl := Option.some.inj h
          decide

namespace Agrees

variable {link : Link} (h : Agrees link)
include h

theorem sendAsdu (side : Side) (asdu : List UInt8) : Agrees (link.step (.sendAsdu side asdu)) := by
  have hown := h side
  have hpeer := h side.other
  rw [Side.other_other] at hpeer
  simp only [Link.step]
  split
  · split
    · rename_i frame hframe
      rw [hpeer.ns, hown.nr] at hframe
      refine agrees_pair ⟨hown.running, hown.ns, hown.nr, hown.numbered, hown.flight⟩
        (hpeer.hears ?_ rfl le_rfl (Carries.frame_i le_rfl hframe))
      rw [hpeer.ns, counter_succ]
      rw [List.length_append, List.length_singleton]
    · exact h
  · exact h

theorem startDt : Agrees (link.step .startDt) := by
  have hfunc : startdtAct &&& 0x03 = 0x03 := by decide
  have hpeer := h .controlled
  exact agrees_pair ((h .controlling).of_hears _)
    (hpeer.hears hpeer.ns (List.append_nil _).symm le_rfl (Carries.frame_u hfunc))

theorem read (side : Side) : Agrees (link.step (.read side)) := by
  have hown := h side
  have hpeer := h side.other
  rw [Side.other_other] at hpeer
  simp only [Link.step]
  split
  · rename_i hready
    obtain ⟨apdu, rest, hread, -, hnext⟩ := hown.read hready.2.1 hready.2.2
    rw [hread]
    exact agrees_pair hnext ⟨hpeer.running, hpeer.ns, hpeer.nr, hpeer.numbered, hpeer.flight⟩
  · exact h

theorem handle (side : Side) : Agrees (link.step (.handle side)) := by
  have hown := h side
  have hpeer := h side.other
  rw [Side.other_other] at hpeer
  simp only [Link.step]
  split
  · rename_i apdu hapdu
    refine agrees_pair ((hown.handled side hapdu).of_hears _) ?_
    cases apdu with
    | i ns nr asdu =>
        refine hpeer.hears hpeer.ns (List.append_nil _).symm ?_ ?_
        · simp [Station.handle]
        · simp only [Station.handle]
          rw [hown.nr, counter_succ, List.length_append, List.length_singleton]
          exact Carries.frame_s le_rfl
    | s nr => exact hpeer.hears hpeer.ns (List.append_nil _).symm le_rfl (.nil _)
    | u func =>
        refine hpeer.hears hpeer.ns (List.append_nil _).symm le_rfl ?_
        simp only [Station.handle]
        cases hreply : reply side func with
        | none => exact .nil _
        | some answer => exact Carries.frame_u (reply_function hreply)
  · exact h

theorem step (e : LinkEvent) : Agrees (link.step e) := by
  cases e with
  | sendAsdu side asdu => exact h.sendAsdu side asdu
  | startDt => exact h.startDt
  | read side => exact h.read side
  | handle side => exact h.handle side

theorem run (events : List LinkEvent) : Agrees (link.run events) :=
  Runs.foldl_invariant (I := Agrees) (fun _ e hlink => step hlink e) h events

end Agrees

/-! ### What the link does -/

theorem Carries.eq_nil {bound n : ℕ} {asdus : List (List UInt8)} (h : Carries bound n [] asdus) :
    asdus = [] := by
  generalize hbytes : ([] : List UInt8) = bytes at h
  cases h with
  | nil => rfl
  | i _ hframe =>
      obtain ⟨-, length, -, rfl⟩ := encodeI_eq_ok hframe
      exact absurd hbytes (List.cons_ne_nil _ _).symm
  | s => exact absurd hbytes (List.cons_ne_nil _ _).symm
  | u => exact absurd hbytes (List.cons_ne_nil _ _).symm

/-- Handling what has been read makes room for the next. -/
theorem handle_ready (link : Link) (side : Side) :
    (link.step (.handle side) side).reading = none ∧
      (link.step (.handle side) side).inbound = (link side).inbound ∧
      (link.step (.handle side) side.other).posted = (link side.other).posted := by
  simp only [Link.step]
  cases hreading : (link side).reading with
  | none => exact ⟨hreading, rfl, rfl⟩
  | some apdu =>
      simp only [Link.pair_self, Link.pair_other]
      cases apdu <;> exact ⟨rfl, rfl, rfl⟩

theorem Agrees.read_next {link : Link} (h : Agrees link) {side : Side}
    (hnone : (link side).reading = none) (hne : (link side).inbound ≠ []) :
    (link.step (.read side) side).inbound.length < (link side).inbound.length ∧
      (link.step (.read side) side.other).posted = (link side.other).posted := by
  obtain ⟨apdu, rest, hread, hlt, -⟩ := (h side).read hnone hne
  simp only [Link.step, if_pos (And.intro (h side).running (And.intro hnone hne)), hread,
    Link.pair_self, Link.pair_other]
  exact ⟨hlt, trivial⟩

theorem Agrees.delivers {link : Link} (h : Agrees link) (side : Side) :
    ∃ turns, (∀ e ∈ turns, e = .read side ∨ e = .handle side) ∧
      (link.run turns side).delivered = (link side.other).posted := by
  obtain ⟨size, hsize⟩ : ∃ size, (link side).inbound.length = size := ⟨_, rfl⟩
  induction size using Nat.strongRecOn generalizing link with
  | ind size ih =>
      obtain ⟨hnone, hinbound, hposted⟩ := handle_ready link side
      have hnext := h.handle side
      by_cases hempty : (link side).inbound = []
      · refine ⟨[.handle side], fun e he => Or.inr (List.mem_singleton.mp he), ?_⟩
        obtain ⟨asdus, hsplit, hcarries⟩ := (hnext side).flight
        rw [hinbound, hempty] at hcarries
        rw [hcarries.eq_nil, hnone, hposted] at hsplit
        rw [Option.map_none, Option.getD_none, List.append_nil, List.append_nil] at hsplit
        exact hsplit.symm
      · rw [← hinbound] at hempty hsize
        obtain ⟨hlt, hposted'⟩ := hnext.read_next hnone hempty
        obtain ⟨turns, hturns, hdone⟩ := ih _ (hsize ▸ hlt) (hnext.read side) rfl
        refine ⟨.handle side :: .read side :: turns, ?_, ?_⟩
        · rw [List.forall_mem_cons, List.forall_mem_cons]
          exact ⟨Or.inr rfl, Or.inl rfl, hturns⟩
        · rw [← hposted, ← hposted', ← hdone]
          rfl

end DiepLab.Microgrid
