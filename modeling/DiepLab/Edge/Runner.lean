import DiepLab.Library.Runs
import Mathlib.Data.List.Nodup
import Mathlib.Data.List.Range

/-!
The edge loop and its buffer.

While there is no connection a reading is put into a bounded buffer, and with
the next reading for which there is one the buffer is replayed. A buffered
reading is taken out of the buffer before it is published, and the reading of
the turn is not put into it. So a publish call that raises loses a reading, and
none is lost otherwise (`accounted_iff`): what has been published and what is
buffered are the readings but for those that a full buffer has pushed out.

The readings are numbered as they are captured. No function reads the numbers.
-/

namespace DiepLab.Edge

open Runs

structure Reading (α : Type) where
  number : ℕ
  message : α
  deriving DecidableEq, Repr

/-- The runner, and what has become of the readings that it has captured. -/
structure Runner (α : Type) where
  maxlen : ℕ
  buffer : List (Reading α) := []
  captured : List (Reading α) := []
  published : List (Reading α) := []
  /-- Those with which `publish` has raised. -/
  failed : List (Reading α) := []
  /-- Those that the full buffer has dropped. -/
  pushedOut : List (Reading α) := []
  deriving Repr

/-- A turn of the loop: the message, unless the reading of it fails, the flag of
the transport, and which of the publish calls of the turn raise. -/
structure Turn (α : Type) where
  message : Option α
  connected : Bool := true
  raises : ℕ → Bool := fun _ => false

section Step

variable {α : Type}

/-- The loop over the buffer, from the `k`-th publish call of the turn on: what is
published, the reading with which a call raises, and what is left. -/
def replay (raises : ℕ → Bool) :
    ℕ → List (Reading α) → List (Reading α) × Option (Reading α) × List (Reading α)
  | _, [] => ([], none, [])
  | k, x :: buffer =>
      if raises k then ([], some x, buffer)
      else
        let (sent, failed, left) := replay raises (k + 1) buffer
        (x :: sent, failed, left)

/-- `deque.append`: what is over `maxlen` is dropped from the left. -/
def Runner.append (r : Runner α) (x : Reading α) : Runner α :=
  let items := r.buffer ++ [x]
  let excess := items.length - r.maxlen
  { r with buffer := items.drop excess, pushedOut := r.pushedOut ++ items.take excess }

/-- `_publish_telemetry`. What it raises is caught in the loop. -/
def Runner.publishTelemetry (r : Runner α) (connected : Bool) (raises : ℕ → Bool)
    (x : Reading α) : Runner α :=
  if connected then
    match replay raises 0 r.buffer with
    | (sent, some y, left) =>
        { r with
          buffer := left, published := r.published ++ sent, failed := r.failed ++ [y] }
    | (sent, none, left) =>
        let r := { r with buffer := left, published := r.published ++ sent }
        if raises sent.length then { r with failed := r.failed ++ [x] }
        else { r with published := r.published ++ [x] }
  else r.append x

/-- The reading that comes next. -/
def Runner.next (r : Runner α) (message : α) : Reading α := ⟨r.captured.length, message⟩

/-- A turn of `run`. -/
def Runner.step (r : Runner α) (t : Turn α) : Runner α :=
  match t.message with
  | none => r
  | some message =>
      let x := r.next message
      { r with captured := r.captured ++ [x] }.publishTelemetry t.connected t.raises x

def run (maxlen : ℕ) (turns : List (Turn α)) : Runner α := turns.foldl Runner.step { maxlen }

/-- None of the publish calls of the turn raises. -/
def Delivers (r : Runner α) (t : Turn α) : Prop :=
  t.message.isSome → t.connected → ∀ k ≤ r.buffer.length, t.raises k = false

instance (r : Runner α) (t : Turn α) : Decidable (Delivers r t) :=
  inferInstanceAs (Decidable (_ → _ → _))

/-- What is published and what is buffered are, in the order of their capture,
the readings that the full buffer has not pushed out. -/
structure Runner.Accounted [DecidableEq α] (r : Runner α) : Prop where
  kept : r.published ++ r.buffer = r.captured.filter fun x => x ∉ r.pushedOut
  oldest : ∀ x ∈ r.pushedOut, ∀ y ∈ r.buffer, x.number < y.number
  failed : ∀ x ∈ r.failed, x ∈ r.buffer

/-! ### Replay -/

theorem replay_split (raises : ℕ → Bool) (k : ℕ) (buffer : List (Reading α)) :
    buffer = (replay raises k buffer).1 ++
      ((replay raises k buffer).2.1.toList ++ (replay raises k buffer).2.2) := by
  induction buffer generalizing k with
  | nil => rfl
  | cons x buffer ih =>
      rw [replay]
      split
      · rfl
      · exact congrArg (x :: ·) (ih (k + 1))

theorem replay_of_delivers {raises : ℕ → Bool} {k : ℕ} {buffer : List (Reading α)}
    (h : ∀ i < buffer.length, raises (k + i) = false) :
    replay raises k buffer = (buffer, none, []) := by
  induction buffer generalizing k with
  | nil => rfl
  | cons x buffer ih =>
      rw [List.length_cons, Nat.forall_lt_succ_left] at h
      have hhead : raises k = false := h.1
      have htail (i : ℕ) (hi : i < buffer.length) : raises (k + 1 + i) = false :=
        (congrArg raises (show k + 1 + i = k + (i + 1) by omega)).trans (h.2 i hi)
      rw [replay, hhead, ih htail]
      rfl

/-- Without an exception all has been published. -/
theorem replay_eq_none {raises : ℕ → Bool} {k : ℕ} {buffer : List (Reading α)}
    (h : (replay raises k buffer).2.1 = none) : ∀ i < buffer.length, raises (k + i) = false := by
  induction buffer generalizing k with
  | nil => exact nofun
  | cons x buffer ih =>
      rw [replay] at h
      split at h
      · exact nomatch h
      · rename_i hk
        rw [List.length_cons, Nat.forall_lt_succ_left]
        refine ⟨Bool.eq_false_iff.mpr hk, fun i hi => ?_⟩
        exact (congrArg raises (by omega)).trans (ih h i hi)

/-! ### The readings of a runner -/

namespace Runner

variable {r : Runner α}

/-- Where a reading can be found that is not lost. -/
def held (r : Runner α) : List (Reading α) := r.published ++ (r.pushedOut ++ r.buffer)

theorem mem_held {x : Reading α} :
    x ∈ r.held ↔ x ∈ r.published ∨ x ∈ r.pushedOut ∨ x ∈ r.buffer := by
  rw [held, List.mem_append, List.mem_append]

/-- Nothing turns up but what was there and the reading of the turn. -/
theorem mem_held_publishTelemetry {connected : Bool} {raises : ℕ → Bool} {x y : Reading α}
    (h : y ∈ (r.publishTelemetry connected raises x).held) : y ∈ r.held ∨ y = x := by
  rw [mem_held] at h
  rw [mem_held]
  unfold publishTelemetry at h
  split at h
  · have hsplit := replay_split raises 0 r.buffer
    have hbuffer (z : Reading α) : z ∈ r.buffer ↔ z ∈ (replay raises 0 r.buffer).1 ∨
        z ∈ (replay raises 0 r.buffer).2.1.toList ∨ z ∈ (replay raises 0 r.buffer).2.2 := by
      conv_lhs => rw [hsplit]
      rw [List.mem_append, List.mem_append]
    split at h
    · rename_i sent z left heq
      rw [heq] at hbuffer
      rw [List.mem_append] at h
      rw [hbuffer]
      tauto
    · rename_i sent left heq
      rw [heq] at hbuffer
      rw [hbuffer]
      dsimp only at h
      split at h
      · rw [List.mem_append] at h
        tauto
      · rw [List.mem_append, List.mem_append, List.mem_singleton] at h
        tauto
  · have hitems (z : Reading α) : z ∈ r.buffer ++ [x] ↔ z ∈ r.buffer ∨ z = x := by
      rw [List.mem_append, List.mem_singleton]
    rcases h with h | h | h
    · exact Or.inl (Or.inl h)
    · rcases List.mem_append.mp h with h | h
      · exact Or.inl (Or.inr (Or.inl h))
      · exact ((hitems y).mp (List.mem_of_mem_take h)).imp_left fun h => Or.inr (Or.inr h)
    · exact ((hitems y).mp (List.mem_of_mem_drop h)).imp_left fun h => Or.inr (Or.inr h)

/-- The readings are numbered in the order of their capture, and the runner has
no others. -/
structure Numbered (r : Runner α) : Prop where
  numbers : r.captured.map Reading.number = List.range r.captured.length
  known : ∀ x ∈ r.held, x ∈ r.captured

theorem Numbered.next_fresh (h : r.Numbered) (message : α) : r.next message ∉ r.captured := by
  intro hmem
  have hnumber := List.mem_map_of_mem (f := Reading.number) hmem
  rw [h.numbers, List.mem_range] at hnumber
  exact absurd hnumber (Nat.lt_irrefl _)

theorem captured_publishTelemetry (connected : Bool) (raises : ℕ → Bool) (x : Reading α) :
    (r.publishTelemetry connected raises x).captured = r.captured := by
  unfold publishTelemetry
  split
  · split
    · rfl
    · dsimp only
      split <;> rfl
  · rfl

theorem Numbered.step (h : r.Numbered) (t : Turn α) : (r.step t).Numbered := by
  unfold Runner.step
  split
  · exact h
  · rename_i message _
    constructor
    · rw [captured_publishTelemetry, List.map_append, h.numbers, List.length_append,
        List.length_singleton, List.range_succ]
      rfl
    · intro x hx
      rw [captured_publishTelemetry, List.mem_append, List.mem_singleton]
      exact (mem_held_publishTelemetry hx).imp_left (h.known x)

theorem Numbered.captured_next (h : r.Numbered) (message : α) :
    (r.captured ++ [r.next message]).Pairwise fun x y => x.number < y.number := by
  refine List.pairwise_map.mp (?_ : List.Pairwise (· < ·) ((r.captured ++ [_]).map Reading.number))
  have hnumbers : (r.captured ++ [r.next message]).map Reading.number =
      List.range (r.captured.length + 1) := by
    rw [List.map_append, h.numbers, List.range_succ]
    rfl
  rw [hnumbers]
  exact List.pairwise_lt_range

/-! ### Runs in which all is delivered -/

/-- With no exception all that was buffered is published, and then the reading. -/
theorem publishTelemetry_of_delivers {raises : ℕ → Bool}
    (h : ∀ k ≤ r.buffer.length, raises k = false) (x : Reading α) :
    r.publishTelemetry true raises x =
      { r with buffer := [], published := r.published ++ (r.buffer ++ [x]) } := by
  have hreplay : replay raises 0 r.buffer = (r.buffer, none, []) :=
    replay_of_delivers fun i hi => by rw [Nat.zero_add]; exact h i hi.le
  unfold publishTelemetry
  rw [if_pos rfl, hreplay]
  dsimp only
  rw [h r.buffer.length le_rfl, ← List.append_assoc]
  rfl

/-- A publish call has raised with `y`, which was next: it is neither published nor
in the buffer. -/
structure Loses (r r' : Runner α) (x y : Reading α) : Prop where
  pushedOut : r'.pushedOut = r.pushedOut
  failed : r'.failed = r.failed ++ [y]
  place : ∃ rest, r.published ++ (r.buffer ++ [x]) = r'.published ++ y :: rest ∧ r'.buffer ⊆ rest

theorem publishTelemetry_loses {raises : ℕ → Bool}
    (h : ¬∀ k ≤ r.buffer.length, raises k = false) (x : Reading α) :
    ∃ y, Loses r (r.publishTelemetry true raises x) x y := by
  have hsplit := replay_split raises 0 r.buffer
  unfold publishTelemetry
  rw [if_pos rfl]
  split
  · rename_i sent y left heq
    rw [heq] at hsplit
    refine ⟨y, rfl, rfl, left ++ [x], ?_, List.subset_append_left left [x]⟩
    rw [hsplit]
    simp
  · rename_i sent left heq
    have hbuffer : ∀ i < r.buffer.length, raises (0 + i) = false :=
      replay_eq_none (by rw [heq])
    have hreplay := (replay_of_delivers hbuffer).symm.trans heq
    injection hreplay with hsent hleft
    injection hleft with _ hleft
    have hlast : raises sent.length = true := by
      by_contra hlast
      rw [Bool.not_eq_true, ← hsent] at hlast
      refine h fun k hk => ?_
      rcases hk.lt_or_eq with hk | rfl
      · exact (congrArg raises (Nat.zero_add k)).symm.trans (hbuffer k hk)
      · exact hlast
    refine ⟨x, ?_⟩
    dsimp only
    rw [if_pos hlast, ← hsent, ← hleft]
    exact ⟨rfl, rfl, [], (List.append_assoc ..).symm, List.Subset.refl _⟩

/-- What a turn does with a reading. -/
theorem step_cases (r : Runner α) (t : Turn α) :
    (r.step t = r ∧ Delivers r t) ∨ ∃ message,
      (r.step t = { r with
          captured := r.captured ++ [r.next message], buffer := []
          published := r.published ++ (r.buffer ++ [r.next message]) } ∧ Delivers r t) ∨
      (r.step t = { r with captured := r.captured ++ [r.next message] }.append (r.next message) ∧
        Delivers r t) ∨
      ((r.step t).captured = r.captured ++ [r.next message] ∧
        (∃ y, Loses r (r.step t) (r.next message) y) ∧ ¬Delivers r t) := by
  unfold Runner.step Delivers
  cases t.message with
  | none => exact Or.inl ⟨rfl, nofun⟩
  | some message =>
      refine Or.inr ⟨message, ?_⟩
      cases t.connected with
      | false => exact Or.inr (Or.inl ⟨rfl, fun _ h => nomatch h⟩)
      | true =>
          by_cases h : ∀ k ≤ r.buffer.length, t.raises k = false
          · refine Or.inl ⟨?_, fun _ _ => h⟩
            exact publishTelemetry_of_delivers
              (r := { r with captured := r.captured ++ [r.next message] }) h (r.next message)
          · obtain ⟨y, hloses⟩ := publishTelemetry_loses
              (r := { r with captured := r.captured ++ [r.next message] }) h (r.next message)
            refine Or.inr (Or.inr ⟨captured_publishTelemetry .., ?_, fun hall => h (hall rfl rfl)⟩)
            exact ⟨y, hloses.1, hloses.2, hloses.3⟩

/-- A reading that cannot be found. -/
def Lost (r : Runner α) : Prop := ∃ x ∈ r.captured, x ∉ r.held

theorem Lost.step (h : r.Lost) (hnumbered : r.Numbered) (t : Turn α) : (r.step t).Lost := by
  obtain ⟨x, hx, hnot⟩ := h
  unfold Runner.step
  split
  · exact ⟨x, hx, hnot⟩
  · rename_i message _
    refine ⟨x, ?_, fun hheld => ?_⟩
    · rw [captured_publishTelemetry]
      exact List.mem_append_left _ hx
    · rcases mem_held_publishTelemetry hheld with hheld | rfl
      · exact hnot hheld
      · exact hnumbered.next_fresh message hx

section Accounted

variable [DecidableEq α]

/-- What comes next is kept until it is pushed out. -/
theorem Accounted.kept_next (h : r.Accounted) (hnumbered : r.Numbered) (message : α) :
    r.published ++ (r.buffer ++ [r.next message]) =
      (r.captured ++ [r.next message]).filter fun x => x ∉ r.pushedOut := by
  have hfresh : r.next message ∉ r.pushedOut := fun hmem =>
    hnumbered.next_fresh message (hnumbered.known _ (mem_held.mpr (Or.inr (Or.inl hmem))))
  rw [List.filter_append, ← h.kept, List.filter_singleton,
    decide_eq_true hfresh, cond_true, List.append_assoc]

/-- A list from which a part in the middle is taken out. -/
theorem filter_middle {β : Type} [DecidableEq β] {before mid after : List β}
    (h : (before ++ (mid ++ after)).Nodup) :
    (before ++ (mid ++ after)).filter (fun x => x ∉ mid) = before ++ after := by
  obtain ⟨-, hrest, hbefore⟩ := List.nodup_append.mp h
  obtain ⟨-, -, hafter⟩ := List.nodup_append.mp hrest
  rw [List.filter_append, List.filter_append]
  have h₁ : before.filter (fun x => x ∉ mid) = before := by
    refine List.filter_eq_self.mpr fun x hx => decide_eq_true fun hmid => ?_
    exact hbefore x hx x (List.mem_append_left _ hmid) rfl
  have h₂ : mid.filter (fun x => x ∉ mid) = [] := by
    refine List.filter_eq_nil_iff.mpr fun x hx => ?_
    simp [hx]
  have h₃ : after.filter (fun x => x ∉ mid) = after := by
    refine List.filter_eq_self.mpr fun x hx => decide_eq_true fun hmid => ?_
    exact hafter x hmid x hx rfl
  rw [h₁, h₂, h₃, List.nil_append]

/-- The invariant of the runs in which no publish call raises. -/
structure Sound (r : Runner α) : Prop where
  numbered : r.Numbered
  accounted : r.Accounted
  failed : r.failed = []

/-- The buffer that is full drops the oldest of what it holds. -/
theorem Sound.append (h : r.Sound) (message : α) :
    ({ r with captured := r.captured ++ [r.next message] }.append (r.next message)).Accounted := by
  have hkept := h.accounted.kept_next h.numbered message
  have hordered := h.numbered.captured_next message
  unfold Runner.append
  dsimp only
  generalize (r.buffer ++ [r.next message]).length - r.maxlen = excess
  have hsplit := List.take_append_drop excess (r.buffer ++ [r.next message])
  have hsorted : (r.published ++ ((r.buffer ++ [r.next message]).take excess ++
      (r.buffer ++ [r.next message]).drop excess)).Pairwise fun x y => x.number < y.number := by
    rw [hsplit, hkept]
    exact hordered.filter _
  constructor
  · dsimp only
    have hnodup := hsorted.imp fun {x y} hxy (heq : x = y) => hxy.ne (congrArg _ heq)
    rw [← filter_middle hnodup, hsplit, hkept, List.filter_filter]
    refine List.filter_congr fun x _ => ?_
    simp only [List.mem_append, not_or, Bool.decide_and, Bool.and_comm]
  · intro x hx y hy
    rcases List.mem_append.mp hx with hx | hx
    · rcases List.mem_append.mp (List.mem_of_mem_drop hy) with hy | hy
      · exact h.accounted.oldest x hx y hy
      · rw [List.mem_singleton.mp hy]
        have hcaptured := h.numbered.known x (mem_held.mpr (Or.inr (Or.inl hx)))
        exact (List.pairwise_append.mp hordered).2.2 x hcaptured _ (List.mem_singleton.mpr rfl)
    · exact (List.pairwise_append.mp (List.pairwise_append.mp hsorted).2.1).2.2 x hx y hy
  · intro x hx
    rw [show r.failed = [] from h.failed] at hx
    exact absurd hx List.not_mem_nil

theorem Sound.step (h : r.Sound) {t : Turn α} (ht : Delivers r t) : (r.step t).Sound := by
  obtain ⟨hstep, -⟩ | ⟨message, ⟨hstep, -⟩ | ⟨hstep, -⟩ | ⟨-, -, hnot⟩⟩ := step_cases r t
  · rw [hstep]
    exact h
  · refine ⟨h.numbered.step t, ?_, hstep ▸ h.failed⟩
    rw [hstep]
    refine ⟨?_, nofun, fun x hx => ?_⟩
    · exact (List.append_nil _).trans (h.accounted.kept_next h.numbered message)
    · rw [show r.failed = [] from h.failed] at hx
      exact absurd hx List.not_mem_nil
  · exact ⟨h.numbered.step t, hstep ▸ h.append message, hstep ▸ h.failed⟩
  · exact absurd ht hnot

theorem Sound.lost (h : r.Sound) {t : Turn α} (ht : ¬Delivers r t) : (r.step t).Lost := by
  obtain ⟨-, hyes⟩ | ⟨message, ⟨-, hyes⟩ | ⟨-, hyes⟩ | ⟨hcaptured, ⟨y, hloses⟩, -⟩⟩ :=
    step_cases r t
  · exact absurd hyes ht
  · exact absurd hyes ht
  · exact absurd hyes ht
  · obtain ⟨rest, hplace, hbuffer⟩ := hloses.place
    have hkept := h.accounted.kept_next h.numbered message
    have hnodup : ((r.step t).published ++ y :: rest).Nodup := by
      rw [← hplace, hkept]
      exact ((h.numbered.captured_next message).filter _).imp
        fun {x y} hxy (heq : x = y) => hxy.ne (congrArg _ heq)
    have hy : y ∈ (r.captured ++ [r.next message]).filter fun x => x ∉ r.pushedOut := by
      rw [← hkept, hplace]
      exact List.mem_append_right _ List.mem_cons_self
    rw [List.mem_filter, decide_eq_true_eq] at hy
    refine ⟨y, hcaptured ▸ hy.1, fun hheld => ?_⟩
    obtain ⟨-, hrest, hbefore⟩ := List.nodup_append.mp hnodup
    rcases mem_held.mp hheld with hpub | hout | hbuf
    · exact hbefore y hpub y List.mem_cons_self rfl
    · exact hy.2 (hloses.pushedOut ▸ hout)
    · exact (List.nodup_cons.mp hrest).1 (hbuffer hbuf)

theorem Lost.not_accounted (h : r.Lost) : ¬r.Accounted := by
  obtain ⟨x, hx, hnot⟩ := h
  intro haccounted
  rw [mem_held, not_or, not_or] at hnot
  have hkept : x ∈ r.published ++ r.buffer := by
    rw [haccounted.kept, List.mem_filter]
    exact ⟨hx, decide_eq_true hnot.2.1⟩
  exact (List.mem_append.mp hkept).elim hnot.1 hnot.2.2

/-- **Nothing is lost unless a publish call raises.** At the end of a run the
readings are accounted for exactly if no publish call of the run has raised. -/
theorem accounted_iff (maxlen : ℕ) (turns : List (Turn α)) :
    (run maxlen turns).Accounted ↔ Meets Runner.step Delivers { maxlen } turns := by
  have hinit : ({ maxlen } : Runner α).Sound := ⟨⟨rfl, nofun⟩, ⟨rfl, nofun, nofun⟩, rfl⟩
  constructor
  · intro h
    by_contra hnot
    obtain ⟨before, t, after, rfl, hbefore, ht⟩ := exists_of_not_meets hnot
    refine Lost.not_accounted ?_ h
    have hsound := hbefore.invariant (I := Sound) (fun _ _ hr ht => hr.step ht) hinit
    rw [run, List.foldl_append, List.foldl_cons]
    have hlost : ((before.foldl Runner.step { maxlen }).step t).Numbered ∧
        ((before.foldl Runner.step { maxlen }).step t).Lost :=
      ⟨hsound.numbered.step t, hsound.lost ht⟩
    exact (foldl_invariant (I := fun r : Runner α => r.Numbered ∧ r.Lost)
      (fun _ t hr => ⟨hr.1.step t, hr.2.step hr.1 t⟩) hlost after).2
  · exact fun h => (h.invariant (I := Sound) (fun _ _ hr ht => hr.step ht) hinit).accounted

end Accounted

/-- An outage in which the buffer overflows: the oldest reading is given up. -/
example :
    (run 2 [⟨some "a", false, fun _ => false⟩, ⟨some "b", false, fun _ => false⟩,
      ⟨some "c", false, fun _ => false⟩, ⟨some "d", true, fun _ => false⟩]).published =
      [⟨1, "b"⟩, ⟨2, "c"⟩, ⟨3, "d"⟩] := by
  decide

/-- The first publish call after an outage raises: of the two readings none is
published, and none is in the buffer. -/
theorem replay_loses :
    ∃ r : Runner String,
      r = run 10 [⟨some "a", false, fun _ => false⟩, ⟨some "b", true, fun k => k = 0⟩] ∧
        r.published = [] ∧ r.buffer = [] ∧ r.pushedOut = [] ∧ r.failed = [⟨0, "a"⟩] ∧
        ¬r.Accounted :=
  ⟨_, rfl, by decide, by decide, by decide, by decide, fun h => absurd h.kept (by decide)⟩

end Runner

end Step

end DiepLab.Edge
