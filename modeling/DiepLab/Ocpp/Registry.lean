import DiepLab.Library.Runs
import DiepLab.Ocpp.Csms

/-!
The registry of the charge points.

Every connection has a thread of its own, which puts it into the registry under
its charger id when the handshake is done, and takes the id out when the
connection ends. The id says nothing of the connection. So the registry agrees
with the open connections as long as they come and go in turn (`InTurn`): a
connection is registered after those that were opened before it, and the last
of an id to leave is alone with it.
-/

namespace DiepLab.Ocpp

open Runs

/-- Where a thread stands in `_handle`. -/
inductive Phase where
  /-- Before `on_connect`. -/
  | opened
  /-- In the loop over the frames. -/
  | registered
  /-- `ws.open` is false, before `on_close`. -/
  | ended
  | closed
  deriving DecidableEq, Repr

structure Connection where
  chargerId : String
  phase : Phase
  deriving DecidableEq, Repr

/-- The connections in the order in which they have been opened, and the one in
the entry of each charger id, by its number. -/
structure Registry where
  connections : List Connection := []
  cps : Dict ℕ := []
  deriving Repr

inductive ConnectionEvent where
  /-- A handshake is done. -/
  | opens (chargerId : String)
  /-- `_on_connect`. -/
  | registers (ws : ℕ)
  /-- The loop is left, or an exception leaves it. -/
  | ends (ws : ℕ)
  /-- `_on_close`. -/
  | closes (ws : ℕ)
  deriving DecidableEq, Repr

namespace Registry

/-- The connection goes on to the phase. -/
def enter (r : Registry) (ws : ℕ) (chargerId : String) (phase : Phase) : List Connection :=
  r.connections.set ws ⟨chargerId, phase⟩

/-- One event. What cannot happen changes nothing. -/
def step (r : Registry) : ConnectionEvent → Registry
  | .opens chargerId => { r with connections := r.connections ++ [⟨chargerId, .opened⟩] }
  | .registers ws =>
      match r.connections[ws]? with
      | some ⟨chargerId, .opened⟩ =>
          ⟨r.enter ws chargerId .registered, r.cps.set chargerId ws⟩
      | _ => r
  | .ends ws =>
      match r.connections[ws]? with
      | some ⟨chargerId, .registered⟩ => { r with connections := r.enter ws chargerId .ended }
      | _ => r
  | .closes ws =>
      match r.connections[ws]? with
      | some ⟨chargerId, .ended⟩ => ⟨r.enter ws chargerId .closed, r.cps.pop chargerId⟩
      | _ => r

def run (events : List ConnectionEvent) : Registry := events.foldl step {}

/-- The connection is in its loop. -/
def Serves (r : Registry) (chargerId : String) (ws : ℕ) : Prop :=
  r.connections[ws]? = some ⟨chargerId, .registered⟩

instance (r : Registry) (chargerId : String) (ws : ℕ) : Decidable (r.Serves chargerId ws) :=
  inferInstanceAs (Decidable (_ = _))

/-- `ws.open` of a connection for the id. -/
def IsOpen (r : Registry) (chargerId : String) (ws : ℕ) : Prop :=
  r.connections[ws]? = some ⟨chargerId, .opened⟩ ∨ r.Serves chargerId ws

/-- No thread is on the way into its loop or out of it. -/
def Quiescent (r : Registry) : Prop :=
  ∀ c ∈ r.connections, c.phase = .registered ∨ c.phase = .closed

instance (r : Registry) : Decidable r.Quiescent :=
  inferInstanceAs (Decidable (∀ c ∈ r.connections, _))

/-- When a connection is registered none that was opened after it serves its id,
and when one is taken out no other one does. -/
def InTurn (r : Registry) : ConnectionEvent → Prop
  | .registers ws =>
      ∀ c ∈ r.connections[ws]?, c.phase = .opened →
        ∀ other < r.connections.length, r.Serves c.chargerId other → other ≤ ws
  | .closes ws =>
      ∀ c ∈ r.connections[ws]?, c.phase = .ended →
        ∀ other < r.connections.length, ¬r.Serves c.chargerId other
  | _ => True

instance (r : Registry) (e : ConnectionEvent) : Decidable (r.InTurn e) := by
  unfold InTurn
  split <;> infer_instance

/-- An entry is that of a connection which has not closed, and which was opened
after all that serve its id. -/
structure Agrees (r : Registry) : Prop where
  entry : ∀ id ws, r.cps.get? id = some ws →
    (r.Serves id ws ∨ r.connections[ws]? = some ⟨id, .ended⟩) ∧
      ∀ other, r.Serves id other → other ≤ ws
  serves : ∀ id ws, r.Serves id ws → r.cps.get? id ≠ none

/-! ### Steps -/

section Steps

variable {r : Registry}

theorem Serves.lt {id : String} {ws : ℕ} (h : r.Serves id ws) : ws < r.connections.length :=
  (List.getElem?_eq_some_iff.mp h).1

/-- Only the one connection has gone on. -/
theorem getElem?_enter {ws : ℕ} {c : Connection} (h : r.connections[ws]? = some c) (id : String)
    (phase : Phase) (i : ℕ) :
    (r.enter ws id phase)[i]? = if ws = i then some ⟨id, phase⟩ else r.connections[i]? := by
  rw [enter, List.getElem?_set]
  split
  · rw [if_pos (List.getElem?_eq_some_iff.mp h).1]
  · rfl

theorem serves_enter {ws : ℕ} {c : Connection} (h : r.connections[ws]? = some c) {id : String}
    {phase : Phase} {cps : Dict ℕ} {other : String} {i : ℕ}
    (hi : Serves ⟨r.enter ws id phase, cps⟩ other i) (hphase : phase ≠ .registered) :
    r.Serves other i := by
  unfold Serves at hi
  rw [getElem?_enter h] at hi
  split at hi
  · injection hi with hi
    injection hi with _ hi
    exact absurd hi hphase
  · exact hi

theorem Agrees.opens (h : r.Agrees) (chargerId : String) : (r.step (.opens chargerId)).Agrees := by
  have hold {i : ℕ} {c : Connection} (hi : r.connections[i]? = some c) :
      (r.connections ++ [⟨chargerId, .opened⟩])[i]? = some c := by
    rw [List.getElem?_append_left (List.getElem?_eq_some_iff.mp hi).1, hi]
  have hserves {id : String} {i : ℕ} (hi : (r.step (.opens chargerId)).Serves id i) :
      r.Serves id i := by
    have hlast : (r.connections ++ [⟨chargerId, .opened⟩])[i]? = some ⟨id, .registered⟩ := hi
    rw [List.getElem?_append] at hlast
    split at hlast
    · exact hlast
    · rw [List.getElem?_singleton] at hlast
      split at hlast
      · injection hlast with hlast
        exact nomatch hlast
      · exact nomatch hlast
  constructor
  · intro id ws hws
    obtain ⟨hcases, hlatest⟩ := h.entry id ws hws
    exact ⟨hcases.imp hold hold, fun other hother => hlatest other (hserves hother)⟩
  · exact fun id ws hws => h.serves id ws (hserves hws)

theorem Agrees.registers (h : r.Agrees) {ws : ℕ} {chargerId : String}
    (hws : r.connections[ws]? = some ⟨chargerId, .opened⟩)
    (hturn : ∀ other, r.Serves chargerId other → other ≤ ws) :
    Agrees ⟨r.enter ws chargerId .registered, r.cps.set chargerId ws⟩ := by
  have hserves {id : String} {i : ℕ}
      (hi : Serves ⟨r.enter ws chargerId .registered, r.cps.set chargerId ws⟩ id i) :
      i = ws ∧ id = chargerId ∨ r.Serves id i := by
    unfold Serves at hi
    rw [getElem?_enter hws] at hi
    split at hi
    · rename_i heq
      injection hi with hi
      injection hi with hi _
      exact Or.inl ⟨heq.symm, hi.symm⟩
    · exact Or.inr hi
  constructor
  · intro id i hi
    rw [Dict.get?_set] at hi
    split at hi
    · -- the entry is that of the connection
      subst id
      injection hi with hi
      subst i
      refine ⟨Or.inl ?_, fun other hother => ?_⟩
      · exact (getElem?_enter hws ..).trans (if_pos rfl)
      · exact (hserves hother).elim (fun heq => heq.1.le) (hturn other)
    · rename_i hid
      obtain ⟨hcases, hlatest⟩ := h.entry id i hi
      refine ⟨?_, fun other hother => ?_⟩
      · have hne : ws ≠ i := by
          rintro rfl
          unfold Serves at hcases
          rw [hws] at hcases
          rcases hcases with hi | hi <;> exact nomatch hi
        have hkeep := (getElem?_enter hws chargerId .registered i).trans (if_neg hne)
        exact hcases.imp hkeep.trans hkeep.trans
      · refine hlatest other ((hserves hother).resolve_left fun heq => hid heq.2.symm)
  · intro id i hi
    rw [Dict.get?_set]
    split
    · exact nofun
    · rename_i hid
      exact h.serves id i ((hserves hi).resolve_left fun heq => hid heq.2.symm)

theorem Agrees.ends (h : r.Agrees) {ws : ℕ} {chargerId : String}
    (hws : r.Serves chargerId ws) :
    Agrees { r with connections := r.enter ws chargerId .ended } := by
  constructor
  · intro id i hi
    obtain ⟨hcases, hlatest⟩ := h.entry id i hi
    refine ⟨?_, fun other hother => hlatest other (serves_enter hws hother nofun)⟩
    have hgone := getElem?_enter hws chargerId .ended i
    by_cases hne : ws = i
    · subst i
      have hid : (⟨id, .registered⟩ : Connection) = ⟨chargerId, .registered⟩ ∨
          (⟨id, .ended⟩ : Connection) = ⟨chargerId, .registered⟩ := by
        refine hcases.imp (fun hi => ?_) fun hi => ?_ <;>
          exact Option.some.inj (hi.symm.trans hws)
      obtain hid | hid := hid
      · injection hid with hid _
        subst id
        exact Or.inr (hgone.trans (if_pos rfl))
      · exact nomatch hid
    · have hkeep := hgone.trans (if_neg hne)
      exact hcases.imp hkeep.trans hkeep.trans
  · exact fun id i hi => h.serves id i (serves_enter hws hi nofun)

theorem Agrees.closes (h : r.Agrees) {ws : ℕ} {chargerId : String}
    (hws : r.connections[ws]? = some ⟨chargerId, .ended⟩)
    (hturn : ∀ other, ¬r.Serves chargerId other) :
    Agrees ⟨r.enter ws chargerId .closed, r.cps.pop chargerId⟩ := by
  constructor
  · intro id i hi
    rw [Dict.get?_pop] at hi
    split at hi
    · exact nomatch hi
    · rename_i hid
      obtain ⟨hcases, hlatest⟩ := h.entry id i hi
      refine ⟨?_, fun other hother => hlatest other (serves_enter hws hother nofun)⟩
      have hne : ws ≠ i := by
        rintro rfl
        unfold Serves at hcases
        rw [hws] at hcases
        rcases hcases with hi | hi
        · exact nomatch hi
        · injection hi with hi
          injection hi with hi _
          exact hid hi
      have hkeep := (getElem?_enter hws chargerId .closed i).trans (if_neg hne)
      exact hcases.imp hkeep.trans hkeep.trans
  · intro id i hi
    have hold := serves_enter hws hi nofun
    rw [Dict.get?_pop, if_neg]
    · exact h.serves id i hold
    · rintro rfl
      exact hturn i hold

theorem Agrees.step (h : r.Agrees) {e : ConnectionEvent} (hturn : r.InTurn e) :
    (r.step e).Agrees := by
  cases e with
  | opens chargerId => exact h.opens chargerId
  | registers ws =>
      unfold Registry.step
      dsimp only
      split
      · rename_i chargerId hws
        exact h.registers hws fun other hother => hturn _ hws rfl other hother.lt hother
      · exact h
  | ends ws =>
      unfold Registry.step
      dsimp only
      split
      · rename_i chargerId hws
        exact h.ends hws
      · exact h
  | closes ws =>
      unfold Registry.step
      dsimp only
      split
      · rename_i chargerId hws
        exact h.closes hws fun other hother => hturn _ hws rfl other hother.lt hother
      · exact h

end Steps

/-! ### Messages -/

section Messages

variable {readFloat : String → Option Double} {now chargerId : String} {s s' : Csms}

/-- The same charger ids are registered. -/
def SameIds (s s' : Csms) : Prop := ∀ id, (s'.cps.get? id).isSome = (s.cps.get? id).isSome

theorem sameIds_update (s : Csms) (chargerId : String) (f : ChargePoint → ChargePoint) :
    SameIds s (s.update chargerId f) := by
  intro id
  unfold Csms.update
  split
  · rename_i cp hcp
    rw [Dict.get?_set]
    split
    · rename_i hid
      rw [← hid, hcp]
      rfl
    · rfl
  · rfl

theorem sameIds_bootNotification {payload : PyValue}
    (h : bootNotification chargerId payload s = .ok s') : SameIds s s' := by
  unfold bootNotification at h
  split at h
  · obtain ⟨vendor, -, h⟩ := bind_eq_ok.mp h
    obtain ⟨model, -, h⟩ := bind_eq_ok.mp h
    injection h with h
    exact h ▸ sameIds_update s chargerId _
  · injection h with h
    exact h ▸ fun _ => rfl

theorem sameIds_statusNotification {payload : PyValue}
    (h : statusNotification chargerId payload s = .ok s') : SameIds s s' := by
  obtain ⟨status, -, h⟩ := bind_eq_ok.mp h
  injection h with h
  exact h ▸ sameIds_update s chargerId _

theorem sameIds_meterValues {payload : PyValue}
    (h : meterValues readFloat chargerId payload s = .ok s') : SameIds s s' := by
  obtain ⟨values, -, h⟩ := bind_eq_ok.mp h
  obtain ⟨native, -, h⟩ := bind_eq_ok.mp h
  injection h with h
  subst h
  split <;> exact fun _ => rfl

theorem sameIds_answer {action payload result : PyValue}
    (h : answer readFloat now chargerId action payload s = .ok (s', result)) : SameIds s s' := by
  unfold answer at h
  split at h
  · obtain ⟨s₁, hboot, h⟩ := bind_eq_ok.mp h
    injection h with h
    exact (Prod.mk.inj h).1 ▸ sameIds_bootNotification hboot
  split at h
  · injection h with h
    exact (Prod.mk.inj h).1 ▸ fun _ => rfl
  split at h
  · obtain ⟨s₁, hstatus, h⟩ := bind_eq_ok.mp h
    injection h with h
    exact (Prod.mk.inj h).1 ▸ sameIds_statusNotification hstatus
  split at h
  · injection h with h
    exact (Prod.mk.inj h).1 ▸ sameIds_update _ chargerId _
  split at h
  · injection h with h
    exact (Prod.mk.inj h).1 ▸ sameIds_update s chargerId _
  split at h
  · obtain ⟨s₁, hmeter, h⟩ := bind_eq_ok.mp h
    injection h with h
    exact (Prod.mk.inj h).1 ▸ sameIds_meterValues hmeter
  · injection h with h
    exact (Prod.mk.inj h).1 ▸ fun _ => rfl

theorem sameIds_resolvePending {uniqueId payload : PyValue} {ok : Bool}
    (h : resolvePending uniqueId ok payload s = .ok s') : SameIds s s' := by
  unfold resolvePending at h
  split at h
  · exact nomatch h
  · split at h <;>
    · injection h with h
      exact h ▸ fun _ => rfl

/-- No message registers a charger id, or takes one out. -/
theorem sameIds_onMessage {outcome : SendOutcome} {text : List JsonToken}
    (h : onMessage readFloat now chargerId outcome text s = .ok s') : SameIds s s' := by
  unfold onMessage handleFrame at h
  split at h
  · injection h with h
    exact h ▸ fun _ => rfl
  · exact nomatch h
  · obtain ⟨⟨s₁, result⟩, hanswer, h⟩ := bind_eq_ok.mp h
    have hsame := sameIds_answer hanswer
    cases outcome with
    | sent =>
        injection h with h
        exact h ▸ hsame
    | connectionError =>
        injection h with h
        exact h ▸ hsame
    | osError => exact nomatch h
  · exact sameIds_resolvePending h
  · exact sameIds_resolvePending h

end Messages

/-! ### Runs -/

theorem agrees_run {events : List ConnectionEvent} (h : Meets step InTurn {} events) :
    (run events).Agrees :=
  h.invariant (fun _ _ hagrees hturn => hagrees.step hturn) ⟨nofun, nofun⟩

theorem isOpen_iff_of_quiescent {r : Registry} (h : r.Quiescent) {id : String} {ws : ℕ} :
    r.IsOpen id ws ↔ r.Serves id ws := by
  refine ⟨fun hopen => hopen.resolve_left fun hopened => ?_, Or.inr⟩
  exact (h _ (List.mem_of_getElem? hopened)).elim nofun nofun

/-- **The registry of connections that come and go in turn.** At every quiescent
moment it has an entry for a charger id exactly if a connection for the id is
open, and then that of the one which was opened last. -/
theorem registry_agrees (events : List ConnectionEvent) (h : Meets step InTurn {} events)
    (hquiet : (run events).Quiescent) (id : String) :
    (((run events).cps.get? id).isSome ↔ ∃ ws, (run events).IsOpen id ws) ∧
      ∀ ws, (run events).cps.get? id = some ws →
        (run events).IsOpen id ws ∧ ∀ other, (run events).IsOpen id other → other ≤ ws := by
  have hagrees := agrees_run h
  simp only [isOpen_iff_of_quiescent hquiet]
  have hentry (ws : ℕ) (hws : (run events).cps.get? id = some ws) :
      (run events).Serves id ws ∧ ∀ other, (run events).Serves id other → other ≤ ws := by
    obtain ⟨hcases, hlatest⟩ := hagrees.entry id ws hws
    refine ⟨hcases.resolve_right fun hended => ?_, hlatest⟩
    exact (hquiet _ (List.mem_of_getElem? hended)).elim nofun nofun
  refine ⟨⟨fun hsome => ?_, fun ⟨ws, hws⟩ => ?_⟩, hentry⟩
  · obtain ⟨ws, hws⟩ := Option.isSome_iff_exists.mp hsome
    exact ⟨ws, (hentry ws hws).1⟩
  · exact Option.isSome_iff_ne_none.mpr (hagrees.serves id ws hws)

/-- A charge point that comes back after its first connection has been closed. -/
def cameBack : List ConnectionEvent :=
  [.opens "CP1", .registers 0, .opens "CP2", .registers 1, .ends 0, .closes 0,
    .opens "CP1", .registers 2]

theorem cameBack_registered :
    (((run cameBack).cps.get? "CP1").isSome ↔ ∃ ws, (run cameBack).IsOpen "CP1" ws) ∧
      ∀ ws, (run cameBack).cps.get? "CP1" = some ws →
        (run cameBack).IsOpen "CP1" ws ∧
          ∀ other, (run cameBack).IsOpen "CP1" other → other ≤ ws :=
  registry_agrees cameBack (by decide) (by decide) "CP1"

/-- A charge point that comes back before its first connection times out is taken
out of the registry by the end of that one. -/
theorem reconnected_forgotten :
    ∃ events, (run events).Quiescent ∧ (run events).IsOpen "CP1" 1 ∧
      (run events).cps.get? "CP1" = none :=
  ⟨[.opens "CP1", .registers 0, .opens "CP1", .registers 1, .ends 0, .closes 0],
    by decide, Or.inr (by decide), by decide⟩

end Registry

end DiepLab.Ocpp
