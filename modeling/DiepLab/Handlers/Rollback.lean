import DiepLab.Handlers.Abort
import DiepLab.Handlers.FailurePoints

/-!
Rolling back.

A rollback writes the states that were stored with the request. It undoes the
execution exactly when these are the states just before the execution, and
cover every edge that the execution has moved (`restored_iff`). For a switch
operation the re-check of the execution sees to both; a FLISR action plans
again, and a dry run looks at nothing.
-/

namespace DiepLab

open StatementProgram Controls

/-! ### Writing a snapshot -/

/-- The network after a snapshot has been written back. -/
def Network.restored (states : Dict Bool) (net : Network) : Network :=
  states.foldl (fun net entry => net.setSwitch entry.1 entry.2) net

theorem Network.stateOf_restored {states : Dict Bool} (hkeys : (states.map Prod.fst).Nodup)
    (net : Network) (i : String) :
    (net.restored states).stateOf i =
      match states.get? i with
      | some prev => (net.stateOf i).map fun _ => prev
      | none => net.stateOf i := by
  induction states generalizing net with
  | nil => rfl
  | cons entry states ih =>
      obtain ⟨key, prev⟩ := entry
      rw [List.map_cons, List.nodup_cons] at hkeys
      rw [Network.restored, List.foldl_cons, ← Network.restored, ih hkeys.2,
        Network.stateOf_setSwitch, Dict.get?_cons]
      by_cases hkey : key = i
      · subst hkey
        simp [Dict.get?_eq_none hkeys.1]
      · simp [hkey]

/-- The stored states are the present ones. -/
def Current (states : Dict Bool) (net : Network) : Prop :=
  ∀ i prev, states.get? i = some prev → net.stateOf i = none ∨ net.stateOf i = some prev

/-- When some edges have been moved to their other state, a snapshot takes
everything back exactly when it is current and covers them. -/
theorem restored_iff {states : Dict Bool} (hkeys : (states.map Prod.fst).Nodup)
    {ids : List String} {net net' : Network} (hids : ∀ i ∈ ids, ∃ b, net.stateOf i = some b)
    (hmoved : ∀ i, net'.stateOf i =
      if i ∈ ids then (net.stateOf i).map not else net.stateOf i) :
    (∀ i, (net'.restored states).stateOf i = net.stateOf i) ↔
      Current states net ∧ ∀ i ∈ ids, states.get? i ≠ none := by
  simp only [Network.stateOf_restored hkeys, hmoved]
  constructor
  · refine fun h => ⟨fun i prev hget => ?_, fun i hi hget => ?_⟩
    · have hi := h i
      rw [hget] at hi
      cases hstate : net.stateOf i with
      | none => exact Or.inl rfl
      | some b =>
          rw [hstate] at hi
          by_cases hmem : i ∈ ids
          · rw [if_pos hmem] at hi
            exact Or.inr hi.symm
          · rw [if_neg hmem] at hi
            exact Or.inr hi.symm
    · obtain ⟨b, hb⟩ := hids i hi
      have hi' := h i
      rw [hget, if_pos hi, hb] at hi'
      cases b <;> cases hi'
  · rintro ⟨hcurrent, hcovers⟩ i
    cases hget : states.get? i with
    | none =>
        have hi : i ∉ ids := fun hi => hcovers i hi hget
        simp only [if_neg hi]
    | some prev =>
        rcases hcurrent i prev hget with hnone | hsome
        · simp only [hnone]
          split <;> rfl
        · simp only [hsome]
          split <;> rfl

/-! ### The handlers, when they return -/

theorem setSwitch_ok {site : SwitchWrite} {edgeId : String} {b : Bool} {db : GridDb}
    {c : ℕ → GridChoice} {a : Unit} (h : (gridRun (Sql.setSwitch site edgeId b) db c).1 = .ok a) :
    (gridRun (Sql.setSwitch site edgeId b) db c).2 =
      (db.setSwitch edgeId b, fun n => c (n + 1)) :=
  (call_ok (q := .setSwitch site edgeId b) h).2

namespace OcFlisr

theorem applyWrites_returns {before : Dict Bool} {ws : List (SwitchWrite × String × Bool)}
    {applied ids : List String} {db : GridDb} {c : ℕ → GridChoice}
    (h : (gridRun (applyWrites before ws applied) db c).1 = .ok ids) :
    (gridRun (applyWrites before ws applied) db c).2.1.network = written ws db.network := by
  induction ws generalizing applied db c with
  | nil => rfl
  | cons w ws ih =>
      obtain ⟨site, eid, b⟩ := w
      obtain ⟨_, hwrite, hrun⟩ := Prog.run_bind_ok _ h
      obtain ⟨hset, htry⟩ := Prog.run_attempt_ok _ (fun e s' b hb => by
        obtain ⟨_, -, hthrow⟩ := Prog.run_bind_ok _ hb
        rw [hthrow] at hb
        cases hb) hwrite
      rw [gridRun, applyWrites, hrun, htry, setSwitch_ok hset] at h ⊢
      exact ih h

/-- An execution that returns has applied the plan of the present tables. -/
theorem execute_returns {action : ActionRecord} {db : GridDb} {c : ℕ → GridChoice}
    {doc : ActionDoc} (h : (gridRun (execute action) db c).1 = .ok doc) :
    ∃ p, Dms.planOn db (given action.params.faultNode <|> action.target)
        action.params.faultEdge = .ok p ∧
      (gridRun (execute action) db c).2.1.network = written (writes p) db.network := by
  obtain ⟨p, hplan, hrun⟩ := Prog.run_bind_ok _ h
  have hstate : ∃ c', (gridRun (planFor action.target action.params) db c).2 = (db, c') :=
    ⟨_, Prod.ext (gridRun_reads (planFor_reads action.target action.params) db c) rfl⟩
  obtain ⟨c', hstate⟩ := hstate
  rw [gridRun, execute, hrun, hstate] at h ⊢
  refine ⟨p, Dms.planFlisr_ok hplan, ?_⟩
  obtain ⟨applied, happlied, hrun⟩ := Prog.run_bind_ok _ h
  rw [hrun]
  exact ((recordEvent_run p applied _ _).1).trans (applyWrites_returns happlied)

theorem restoreSwitches_returns {states : Dict Bool} {db : GridDb} {c : ℕ → GridChoice} {a : Unit}
    (h : (gridRun (restoreSwitches states) db c).1 = .ok a) :
    (gridRun (restoreSwitches states) db c).2.1.network = db.network.restored states := by
  induction states generalizing db c with
  | nil => rfl
  | cons entry states ih =>
      obtain ⟨eid, prev⟩ := entry
      obtain ⟨_, hset, hrun⟩ := Prog.run_bind_ok _ h
      rw [gridRun, restoreSwitches, hrun, setSwitch_ok hset] at h ⊢
      exact ih h

theorem rollback_returns {action : ActionRecord} {db : GridDb} {c : ℕ → GridChoice}
    {doc : ActionDoc} (h : (gridRun (rollback action) db c).1 = .ok doc) :
    (gridRun (rollback action) db c).2.1.network = db.network.restored (snapshot action) := by
  obtain ⟨_, hchecked, hrun⟩ := Prog.run_bind_ok _ h
  rw [gridRun, rollback, hrun, (Prog.run_raiseIf_ok _ hchecked).2] at h ⊢
  obtain ⟨_, hrestored, hrun⟩ := Prog.run_bind_ok _ h
  rw [hrun]
  exact restoreSwitches_returns hrestored

/-- What a request remembers is the plan's own snapshot. -/
theorem plan_remembers {target : Option String} {params : ActionParams} {db : GridDb}
    {c : ℕ → GridChoice} {before preview : ActionDoc}
    (h : (gridRun (plan target params) db c).1 = .ok (before, preview)) :
    ∃ p : Dms.FlisrPlan, before = .flisrBefore p.beforeSwitchState ∧
      (p.beforeSwitchState.map Prod.fst).Nodup := by
  obtain ⟨p, hplan, hrun⟩ := Prog.run_bind_ok _ h
  rw [gridRun, plan, hrun] at h
  injection h with h
  injection h with h
  refine ⟨p, h.symm, ?_⟩
  obtain ⟨s, -, rfl⟩ := Dms.planOn_ok (Dms.planFlisr_ok hplan)
  exact Dict.nodup_update (d := [(s.isolated.edgeId, true)])
    (List.nodup_cons.mpr ⟨List.not_mem_nil, .nil⟩) _

end OcFlisr

namespace OcSwitch

theorem plan_remembers {target : Option String} {params : ActionParams} {db : GridDb}
    {c : ℕ → GridChoice} {before preview : ActionDoc}
    (h : (gridRun (plan target params) db c).1 = .ok (before, preview)) :
    ∃ edgeId wantClosed deviceId, target = some edgeId ∧ params.close = some wantClosed ∧
      before = .switchBefore edgeId (!wantClosed) deviceId := by
  obtain ⟨⟨reads, before', preview'⟩, hplan, hrun⟩ := Prog.run_bind_ok _ h
  rw [gridRun, plan, hrun] at h
  injection h with h
  injection h with hbefore
  obtain ⟨edge, wantClosed, hresolved, hne, rfl⟩ := planReads_ok hplan
  refine ⟨edge.edgeId, wantClosed, edge.attrs.deviceId, hresolved.target, hresolved.wantClosed, ?_⟩
  rw [← hbefore]
  cases hc : edge.isClosed <;> cases wantClosed <;> simp_all

theorem rollback_returns {action : ActionRecord} {edgeId : String} {prev : Bool}
    {deviceId : Option String}
    (hbefore : action.beforeState = some (.switchBefore edgeId prev deviceId))
    (htarget : action.target = some edgeId) {db : GridDb} {c : ℕ → GridChoice} {doc : ActionDoc}
    (h : (gridRun (rollback action) db c).1 = .ok doc) :
    (gridRun (rollback action) db c).2.1.network = db.network.setSwitch edgeId prev := by
  have hid : (given (some edgeId) <|> some edgeId) = some edgeId := by
    rw [given]
    split <;> rfl
  simp only [gridRun, rollback, hbefore, htarget, Option.bind_some, ActionDoc.edgeId?,
    ActionDoc.isClosed?, hid] at h ⊢
  obtain ⟨_, hset, hrun⟩ := Prog.run_bind_ok _ h
  rw [hrun, setSwitch_ok hset]
  refine gridRun_keeps ?_ (db.setSwitch edgeId prev) _
  split
  · trivial
  · exact (dispatchAndWait_moves _ _).bind fun _ => (echoOf_moves _ _).bind fun _ => trivial

end OcSwitch

/-! ### Both handlers -/

/-- The switch states that are stored with an action. -/
def storedStates (action : ActionRecord) : Dict Bool :=
  match action.beforeState with
  | some (.switchBefore edgeId isClosed _) => [(edgeId, isClosed)]
  | some (.flisrBefore switches) => switches
  | _ => []

theorem switchingHandlers_cases {name : String}
    {handler : ControlHandler ActionParams ActionDoc GridResp}
    (h : switchingHandlers name = some handler) :
    (name = "switch_op" ∧ handler = OcSwitch.handler) ∨
      (name = "flisr" ∧ handler = OcFlisr.handler) := by
  rw [switchingHandlers] at h
  split at h
  · injection h with h
    exact Or.inl ⟨‹_›, h.symm⟩
  · split at h
    · injection h with h
      exact Or.inr ⟨‹_›, h.symm⟩
    · cases h

section Handlers

variable {row : ActionRecord} {handler : ControlHandler ActionParams ActionDoc GridResp}
variable (hh : switchingHandlers row.actionType = some handler)
variable {db₀ : GridDb} {c₀ : ℕ → GridChoice} {before preview : ActionDoc}
variable (hplan : (gridRun (handler.plan row.target row.params) db₀ c₀).1 = .ok (before, preview))
variable (hbefore : row.beforeState = some before)
include hh hplan hbefore

theorem storedStates_nodup : ((storedStates row).map Prod.fst).Nodup := by
  rw [storedStates, hbefore]
  rcases switchingHandlers_cases hh with ⟨-, rfl⟩ | ⟨-, rfl⟩
  · obtain ⟨_, _, _, -, -, rfl⟩ := OcSwitch.plan_remembers hplan
    exact List.nodup_cons.mpr ⟨List.not_mem_nil, .nil⟩
  · obtain ⟨_, rfl, hkeys⟩ := OcFlisr.plan_remembers hplan
    exact hkeys

/-- A rollback that returns has written the stored states. -/
theorem rollback_restored {db : GridDb} {c : ℕ → GridChoice} {doc : ActionDoc}
    (h : (gridRun (handler.rollback row) db c).1 = .ok doc) :
    (gridRun (handler.rollback row) db c).2.1.network =
      db.network.restored (storedStates row) := by
  rw [storedStates, hbefore]
  rcases switchingHandlers_cases hh with ⟨-, rfl⟩ | ⟨-, rfl⟩
  · obtain ⟨_, _, _, htarget, -, rfl⟩ := OcSwitch.plan_remembers hplan
    exact OcSwitch.rollback_returns hbefore htarget h
  · obtain ⟨_, rfl, -⟩ := OcFlisr.plan_remembers hplan
    refine (OcFlisr.rollback_returns h).trans ?_
    rw [OcFlisr.snapshot, hbefore]
    rfl

/-- What rolling back an execution with the stored states comes to. A switch
operation is always undone. -/
theorem executed_restored_iff {db : GridDb} {c : ℕ → GridChoice} {doc : ActionDoc}
    (h : (gridRun (handler.execute row) db c).1 = .ok doc) :
    (∀ i, ((gridRun (handler.execute row) db c).2.1.network.restored
        (storedStates row)).stateOf i = db.network.stateOf i) ↔
      (row.actionType = "flisr" → Current (storedStates row) db.network ∧
        ∀ p, Dms.planOn db (given row.params.faultNode <|> row.target) row.params.faultEdge =
            .ok p →
          ∀ i ∈ p.isolatedEdge :: p.restoredEdges, (storedStates row).get? i ≠ none) := by
  have hkeys := storedStates_nodup hh hplan hbefore
  rcases switchingHandlers_cases hh with ⟨htype, rfl⟩ | ⟨htype, rfl⟩
  · obtain ⟨edgeId, wantClosed, _, htarget, hclose, rfl⟩ := OcSwitch.plan_remembers hplan
    have hne : ¬ row.actionType = "flisr" := by
      rw [htype]
      decide
    refine iff_of_true (fun i => ?_) fun htype => absurd htype hne
    rcases OcSwitch.execute_run row db c with ⟨-, ⟨e, he⟩, -⟩ | ⟨-, ⟨⟨e, he⟩, -⟩ | ⟨-, hmoved⟩⟩
    · exact absurd (h.symm.trans he) fun h => nomatch h
    · exact absurd (h.symm.trans he) fun h => nomatch h
    · obtain ⟨edgeId', b, htarget', hclose', hstate, hnet⟩ := hmoved
      obtain rfl : edgeId' = edgeId := Option.some.inj (htarget'.symm.trans htarget)
      obtain rfl : (!b) = wantClosed := Option.some.inj (hclose'.symm.trans hclose)
      simp only [gridRun] at hnet
      rw [storedStates, hbefore]
      simp only [OcSwitch.handler, gridRun, Network.restored, List.foldl_cons, List.foldl_nil,
        hnet, Bool.not_not]
      exact Network.stateOf_setSwitch_back hstate _ i
  · obtain ⟨p, hp, hnet⟩ := OcFlisr.execute_returns h
    simp only [htype, forall_const]
    have hmoved (i : String) : (OcFlisr.written (OcFlisr.writes p) db.network).stateOf i =
        if i ∈ p.isolatedEdge :: p.restoredEdges then (db.network.stateOf i).map not
        else db.network.stateOf i := by
      have htake := OcFlisr.stateOf_written_take hp p.restoredEdges.length i
      rwa [← OcFlisr.length_writes, List.take_length, List.take_length] at htake
    have hstates : ∀ i ∈ p.isolatedEdge :: p.restoredEdges,
        ∃ b, db.network.stateOf i = some b := fun i hi =>
      OcFlisr.stateOf_moved hp (j := p.restoredEdges.length) (by rwa [List.take_length])
    simp only [gridRun] at hnet
    simp only [OcFlisr.handler, gridRun, hnet]
    rw [restored_iff hkeys hstates hmoved]
    refine and_congr_right fun _ => ⟨fun hcovers p' hp' => ?_, fun hcovers => hcovers p hp⟩
    obtain rfl : p = p' := Except.ok.inj (hp.symm.trans hp')
    exact hcovers

end Handlers

/-! ### Execution and rollback -/

/-- The stored states undo an execution from these tables. A live switch
operation re-checks them itself. -/
def RollbackFits (row : ActionRecord) (db : GridDb) : Prop :=
  match row.mode with
  | .dry_run => Current (storedStates row) db.network
  | .live => row.actionType = "flisr" → Current (storedStates row) db.network ∧
      ∀ p, Dms.planOn db (given row.params.faultNode <|> row.target) row.params.faultEdge =
          .ok p →
        ∀ i ∈ p.isolatedEdge :: p.restoredEdges, (storedStates row).get? i ≠ none

/-- A snapshot of a network that has not moved. -/
theorem restored_self_iff {states : Dict Bool} (hkeys : (states.map Prod.fst).Nodup)
    (net : Network) :
    (∀ i, (net.restored states).stateOf i = net.stateOf i) ↔ Current states net := by
  have hnone : ∀ i ∈ ([] : List String), False := fun i hi => absurd hi List.not_mem_nil
  rw [restored_iff hkeys (fun i hi => (hnone i hi).elim) fun i => (if_neg (hnone i)).symm,
    and_iff_left]
  exact fun i hi => (hnone i hi).elim

section Calls

variable {s s' : Plane ActionParams ActionDoc GridDb} {c c' : ℕ → ControlChoice × GridChoice}
variable {i : String} {principal principal' : Principal} {row : ActionRecord}
variable {handler : ControlHandler ActionParams ActionDoc GridResp}
variable (hh : switchingHandlers row.actionType = some handler)
include hh

/-- A live execution that returns is the handler's, and settles the action. -/
theorem execute_live_ok (hrow : s.db.get i = some row) (hlive : row.mode = .live)
    {a : Option ActionRecord}
    (ha : (alone gridSem (Controls.execute switchingHandlers i principal) (s, c)).1 = .ok a) :
    let out := (alone gridSem (Controls.execute switchingHandlers i principal) (s, c)).2.1
    ∃ c₁ after, (gridRun (handler.execute row) s.world c₁).1 = .ok after ∧
      out.world = (gridRun (handler.execute row) s.world c₁).2.1 ∧
      out.db.get i = some ((StatusUpdate.executed (.doc after)).apply row) := by
  have hcall := execute_live gridSem switchingHandlers s c i principal hrow hlive hh
  obtain ⟨hresult, hworld⟩ := alone_inr gridSem (handler.execute row)
    (s.invoked .execute row (some true)) (rest (rest (rest c)))
  have hnone : ¬ ∃ e, (alone gridSem (Controls.execute switchingHandlers i principal) (s, c)).1 =
      .error e := by
    rw [ha]
    exact fun h => nomatch h
  intro out
  by_cases hcalled : Called s c principal row
  · rw [if_pos hcalled] at hcall
    obtain ⟨hout, hsettled⟩ := hcall
    cases hhandled : (handled gridSem handler s c row).1 with
    | error e =>
        rw [hhandled] at hsettled
        exact absurd hsettled.1 hnone
    | ok after =>
        rw [hhandled] at hsettled
        simp only at hsettled
        split at hsettled
        · exact ⟨_, after, hresult.symm.trans hhandled, hout.trans hworld, hsettled⟩
        · exact absurd hsettled.1 hnone
  · rw [if_neg hcalled] at hcall
    exact absurd hcall.1 hnone

/-- A rollback that returns has written the states stored with the action. -/
theorem rollback_restored_call {db₀ : GridDb} {c₀ : ℕ → GridChoice} {before preview : ActionDoc}
    (hplan : (gridRun (handler.plan row.target row.params) db₀ c₀).1 = .ok (before, preview))
    (hbefore : row.beforeState = some before) {after : AfterState ActionDoc}
    (hrow : s'.db.get i = some ((StatusUpdate.executed after).apply row)) {a : Option ActionRecord}
    (ha : (alone gridSem (Controls.rollback switchingHandlers i principal') (s', c')).1 = .ok a) :
    (alone gridSem (Controls.rollback switchingHandlers i principal')
      (s', c')).2.1.world.network = s'.world.network.restored (storedStates row) := by
  obtain ⟨⟨doc, hdoc⟩, hout⟩ := rollback_ok switchingHandlers s' c' i principal' hrow hh ha
  obtain ⟨hresult, hworld⟩ := alone_inr gridSem
    (handler.rollback ((StatusUpdate.executed after).apply row))
    (s'.invoked .rollback ((StatusUpdate.executed after).apply row) none) (rest (rest c'))
  -- an executed row has kept its type, its parameters and its snapshot
  have hh' : switchingHandlers ((StatusUpdate.executed after).apply row).actionType =
      some handler := hh
  rw [hout]
  refine (congrArg GridDb.network hworld).trans ?_
  exact rollback_restored hh' hplan hbefore (hresult.symm.trans hdoc)

end Calls

/-- **Rollback.** An action that was planned on some tables is executed on
others, and rolled back before anything else is switched. If both calls
succeed, every edge is back in the state it had just before the execution, if
and only if the stored states fit. -/
theorem rollback_restores_iff {s s' : Plane ActionParams ActionDoc GridDb}
    {c c' : ℕ → ControlChoice × GridChoice} {i : String} {principal principal' : Principal}
    {row : ActionRecord} (hrow : s.db.get i = some row)
    {handler : ControlHandler ActionParams ActionDoc GridResp}
    (hh : switchingHandlers row.actionType = some handler)
    {db₀ : GridDb} {c₀ : ℕ → GridChoice} {before preview : ActionDoc}
    (hplan : (gridRun (handler.plan row.target row.params) db₀ c₀).1 = .ok (before, preview))
    (hbefore : row.beforeState = some before) {a a' : Option ActionRecord}
    (hexecuted : (alone gridSem (Controls.execute switchingHandlers i principal) (s, c)).1 = .ok a)
    (hget : s'.db.get i =
      (alone gridSem (Controls.execute switchingHandlers i principal) (s, c)).2.1.db.get i)
    (hnetwork : s'.world.network =
      (alone gridSem (Controls.execute switchingHandlers i principal) (s, c)).2.1.world.network)
    (hrolledBack :
      (alone gridSem (Controls.rollback switchingHandlers i principal') (s', c')).1 = .ok a') :
    (∀ edgeId, (alone gridSem (Controls.rollback switchingHandlers i principal')
        (s', c')).2.1.world.network.stateOf edgeId = s.world.network.stateOf edgeId) ↔
      RollbackFits row s.world := by
  have hundone {after : AfterState ActionDoc}
      (hafter : s'.db.get i = some ((StatusUpdate.executed after).apply row)) :=
    rollback_restored_call hh hplan hbefore hafter hrolledBack
  cases hmode : row.mode with
  | dry_run =>
      obtain ⟨hworld, hafter⟩ :=
        execute_dryRun switchingHandlers s c i principal hrow hmode hh hexecuted
      rw [hundone (hget.trans hafter), hnetwork, hworld, RollbackFits, hmode]
      exact restored_self_iff (storedStates_nodup hh hplan hbefore) _
  | live =>
      obtain ⟨c₁, after, hok, hworld, hafter⟩ := execute_live_ok hh hrow hmode hexecuted
      rw [hundone (hget.trans hafter), hnetwork, hworld, RollbackFits, hmode]
      exact executed_restored_iff hh hplan hbefore hok

/-- A plane on which the action of a fault at `TX-01` is about to be executed. -/
def faultPlane (mode : Mode) (requested present : Network) :
    Plane ActionParams ActionDoc GridDb where
  db := { actions := [{ OcFlisr.transformerFault requested with mode := mode }], enabled := true }
  world := { network := present }

/-- Nothing fails. -/
def nothingFails (_ : ℕ) : ControlChoice × GridChoice := ({}, {})

abbrev faultExecuted (mode : Mode) (requested present : Network) :=
  alone gridSem (Controls.execute switchingHandlers "a1" ⟨"operator", none⟩)
    (faultPlane mode requested present, nothingFails)

abbrev faultRolledBack (mode : Mode) (requested present : Network) :=
  alone gridSem (Controls.rollback switchingHandlers "a1" ⟨"operator", none⟩)
    ((faultExecuted mode requested present).2.1, nothingFails)

theorem pilot_fault_fits : RollbackFits (OcFlisr.transformerFault pilot) { network := pilot } := by
  have hstored : storedStates (OcFlisr.transformerFault pilot) =
      [("E-SW-01", true), ("E-TIE-01", false)] := by decide +kernel
  have hmoves : (Dms.planOn { network := pilot } (some "TX-01") none).map
      (fun p => p.isolatedEdge :: p.restoredEdges) = .ok ["E-SW-01", "E-TIE-01"] := by
    decide +kernel
  intro _
  rw [hstored]
  refine ⟨fun i prev hget => Or.inr ?_, fun p hp i hi hget => ?_⟩
  · simp only [Dict.get?_cons, Dict.get?_nil] at hget
    split at hget
    · subst i
      rw [← hget]
      decide +kernel
    · split at hget
      · subst i
        rw [← hget]
        decide +kernel
      · cases hget
  · rw [show Dms.planOn { network := pilot } (some "TX-01") none = .ok p from hp] at hmoves
    injection hmoves with hmoves
    simp only [hmoves, List.mem_cons, List.not_mem_nil, or_false] at hi
    rcases hi with rfl | rfl
    · exact nomatch hget
    · exact nomatch hget

/-- Without drift the rollback takes the switching back. -/
theorem pilot_fault_rolledBack :
    (faultExecuted .live pilot pilot).2.1.world.network.stateOf "E-TIE-01" = some true ∧
      ∀ edgeId, (faultRolledBack .live pilot pilot).2.1.world.network.stateOf edgeId =
        pilot.stateOf edgeId :=
  ⟨by decide +kernel, (rollback_restores_iff
    (show (faultPlane .live pilot pilot).db.get "a1" = some (OcFlisr.transformerFault pilot)
      from rfl)
    (show switchingHandlers (OcFlisr.transformerFault pilot).actionType = some OcFlisr.handler
      from rfl)
    (show (gridRun (OcFlisr.plan (some "TX-01") {}) { network := pilot } fun _ => {}).1 =
      .ok (_, _) from rfl)
    rfl
    (show (faultExecuted .live pilot pilot).1 = .ok _ from rfl)
    (show (faultExecuted .live pilot pilot).2.1.db.get "a1" = _ from rfl)
    rfl
    (show (faultRolledBack .live pilot pilot).1 = .ok _ from rfl)).mpr pilot_fault_fits⟩

/-- The first tie was closed when the action was requested, and open when it
was executed: the rollback leaves it closed. And a dry run that is rolled back
writes the switch states of the time of its request. -/
theorem pilot_drift_not_rolledBack :
    ((∃ a, (faultExecuted .live (pilotTwoTies.setSwitch "E-TIE-01" true) pilotTwoTies).1 = .ok a) ∧
      (∃ a, (faultRolledBack .live (pilotTwoTies.setSwitch "E-TIE-01" true) pilotTwoTies).1 =
        .ok a) ∧
      ¬ ∀ edgeId, (faultRolledBack .live (pilotTwoTies.setSwitch "E-TIE-01" true)
        pilotTwoTies).2.1.world.network.stateOf edgeId = pilotTwoTies.stateOf edgeId) ∧
    (∃ a, (faultExecuted .dry_run pilot (pilot.setSwitch "E-TIE-01" true)).1 = .ok a) ∧
      (∃ a, (faultRolledBack .dry_run pilot (pilot.setSwitch "E-TIE-01" true)).1 = .ok a) ∧
      ¬ ∀ edgeId, (faultRolledBack .dry_run pilot
        (pilot.setSwitch "E-TIE-01" true)).2.1.world.network.stateOf edgeId =
          (pilot.setSwitch "E-TIE-01" true).stateOf edgeId := by
  refine ⟨⟨⟨_, rfl⟩, ⟨_, rfl⟩, fun h => ?_⟩, ⟨_, rfl⟩, ⟨_, rfl⟩, fun h => ?_⟩
  · exact absurd (h "E-TIE-01") (by decide +kernel)
  · exact absurd (h "E-TIE-01") (by decide +kernel)

end DiepLab
