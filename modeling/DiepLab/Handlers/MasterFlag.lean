import DiepLab.Handlers.SwitchPaths
import DiepLab.Handlers.Rollback
import DiepLab.Controls.Obligations
import DiepLab.Library.Disturbed

/-!
The master flag and the switch states.

`execute` and the simulated FLISR plan ask for `OC_CONTROLS_ENABLED` before they
move a switch; a rollback and the switch endpoint do not. Requests come one
after the other, and the flag may be switched before every statement.
`OnlyWhileOn` says that a request moves a switch only after the flag was on in
its time. For a request that is made while the flag is off, `Idle` is the
condition: the two paths that do not ask write what is already there.
-/

namespace DiepLab.MasterFlag

open StatementProgram Controls

abbrev SwitchPlane := Plane ActionParams ActionDoc GridDb

abbrev SwitchStmt := ControlStmt ActionParams ActionDoc ⊕ GridStmt

abbrev SwitchProg (α : Type) := PlaneProg ActionParams ActionDoc GridResp α

/-! ### Requests under the flag -/

/-- The tables while a request is served, and whether the flag has been on
since it was made. -/
structure Served where
  plane : SwitchPlane
  wasOn : Bool

/-- What the surroundings decide while one statement runs. -/
structure Choice where
  /-- `OC_CONTROLS_ENABLED`. -/
  enabled : Bool
  control : ControlChoice := {}
  grid : GridChoice := {}

def underFlag (c : Choice) (plane : SwitchPlane) : SwitchPlane :=
  { plane with db := { plane.db with enabled := c.enabled } }

def flagSem (c : Choice) (q : SwitchStmt) (s : Served) :
    Except Exc (Sum.elim ControlResp GridResp q) × Served :=
  ((planeSem gridSem (c.control, c.grid) q (underFlag c s.plane)).1,
    ⟨(planeSem gridSem (c.control, c.grid) q (underFlag c s.plane)).2, s.wasOn || c.enabled⟩)

structure Call where
  request : SwitchRequest
  /-- The flag when the request is made. -/
  enabled : Bool
  choices : ℕ → Choice

def serveCall (plane : SwitchPlane) (call : Call) : SwitchPlane :=
  (call.request.serve.run (withChoices flagSem) (⟨plane, call.enabled⟩, call.choices)).2.1.plane

/-- The statement leaves every switch as it is, or comes after the flag was on. -/
def WhileOn (c : Choice) (q : SwitchStmt) (s : Served) : Prop :=
  (flagSem c q s).2.plane.world.network = s.plane.world.network ∨
    (flagSem c q s).2.wasOn = true

/-- The request moves switches only after the flag was on in its time. -/
def OnlyWhileOn (plane : SwitchPlane) (call : Call) : Prop :=
  call.request.serve.Throughout (withChoices flagSem) (fun q x => WhileOn (x.2 0) q x.1)
    (⟨plane, call.enabled⟩, call.choices)

/-- Every request of a sequence satisfies `P` where it is made. -/
def Along (P : SwitchPlane → Call → Prop) : SwitchPlane → List Call → Prop
  | _, [] => True
  | plane, call :: calls => P plane call ∧ Along P (serveCall plane call) calls

instance decidableAlong (P : SwitchPlane → Call → Prop) [∀ plane call, Decidable (P plane call)] :
    (plane : SwitchPlane) → (calls : List Call) → Decidable (Along P plane calls)
  | _, [] => isTrue trivial
  | plane, call :: calls =>
      have := decidableAlong P (serveCall plane call) calls
      inferInstanceAs (Decidable (P plane call ∧ _))

/-! ### The condition -/

/-- The switch states that the rollback of an action writes. -/
def rollbackStates (row : ActionRecord) : Dict Bool :=
  if row.actionType = "switch_op" then
    match given (row.beforeState.bind ActionDoc.edgeId?) <|> row.target,
      row.beforeState.bind ActionDoc.isClosed? with
    | some edgeId, some prev => [(edgeId, prev)]
    | _, _ => []
  else if row.actionType = "flisr" then OcFlisr.snapshot row
  else []

/-- The edge, if there is one, is in that state. -/
def InState (net : Network) (edgeId : String) (b : Bool) : Prop :=
  ∀ e ∈ net.edges, e.edgeId = edgeId → e.isClosed = b

instance (net : Network) (edgeId : String) (b : Bool) : Decidable (InState net edgeId b) :=
  inferInstanceAs (Decidable (∀ e ∈ net.edges, _))

/-- The paths that do not ask for the flag have nothing to change: the switch
endpoint is given the state of the edge, or an edge it refuses, and a rollback
restores the states that are there, or is refused. -/
def Idle (plane : SwitchPlane) : SwitchRequest → Prop
  | .setSwitch edgeId b =>
      ∀ e ∈ plane.world.network.edges, e.edgeId = edgeId → e.isSwitchable = true → e.isClosed = b
  | .control (.rollback i principal) =>
      ∀ row ∈ plane.db.get i, row.status = .EXECUTED → tenantOk principal row →
        ∀ e ∈ rollbackStates row, InState plane.world.network e.1 e.2
  | _ => True

instance (plane : SwitchPlane) (r : SwitchRequest) : Decidable (Idle plane r) := by
  unfold Idle
  split <;> infer_instance

/-- The condition on a request. -/
def Covered (plane : SwitchPlane) (call : Call) : Prop :=
  call.enabled = true ∨ Idle plane call.request

instance (plane : SwitchPlane) (call : Call) : Decidable (Covered plane call) :=
  inferInstanceAs (Decidable (_ ∨ _))

/-! ### One request -/

def flagRules : Rules SwitchStmt Choice Served where
  rely := Eq
  admits _ _ _ := True
  needs := WhileOn

/-- The switches are as given, unless the flag was on. -/
def Still (net : Network) (s : Served) : Prop := s.wasOn = true ∨ s.plane.world.network = net

section Rules

variable {α : Type} {net : Network} {s : Served}

/-- After the flag was on, anything goes. -/
theorem wp_wasOn (h : s.wasOn = true) (p : SwitchProg α) :
    wp flagSem flagRules p (fun _ s' => s'.wasOn = true) s := by
  induction p generalizing s with
  | ret a => exact h
  | raise e => exact h
  | stmt q k ih =>
      rintro s' rfl c -
      have hon : (flagSem c q s).2.wasOn = true := by simp only [flagSem, h, Bool.true_or]
      exact ⟨Or.inr hon, ih _ hon⟩

/-- A switch write, if it is one, writes the state that is there. -/
def WritesBack (net : Network) (q : GridStmt) : Prop :=
  ∀ site edgeId b, q = .setSwitch site edgeId b → InState net edgeId b

theorem writesBack_of_moves {q : GridStmt} (hq : q.MovesNothing) (net : Network) :
    WritesBack net q :=
  fun site edgeId b h => absurd h (hq site edgeId b)

theorem flagSem_network (c : Choice) {q : SwitchStmt} {s : Served}
    (hq : OnWorld (WritesBack s.plane.world.network) q) :
    (flagSem c q s).2.plane.world.network = s.plane.world.network := by
  cases q with
  | inl q => rfl
  | inr q =>
      rcases gridSem_network c.grid q s.plane.world with hsame | ⟨site, edgeId, b, rfl, hset⟩
      · exact hsame
      · refine (congrArg GridDb.network hset).trans (Network.ext_tables rfl ?_)
        exact setClosed_eq_self (hq _ rfl site edgeId b rfl)

/-- A program that only writes back what is there. -/
theorem wp_writesBack {p : SwitchProg α} (hp : p.Issues (OnWorld (WritesBack net)))
    (h : Still net s) : wp flagSem flagRules p (fun _ s' => Still net s') s := by
  induction p generalizing s with
  | ret a => exact h
  | raise e => exact h
  | stmt q k ih =>
      rintro s' rfl c -
      rcases h with h | rfl
      · have hon : (flagSem c q s).2.wasOn = true := by simp only [flagSem, h, Bool.true_or]
        exact ⟨Or.inr hon, ih _ (hp.2 _) (Or.inl hon)⟩
      · have hsame := flagSem_network c hp.1
        exact ⟨Or.inl hsame, ih _ (hp.2 _) (Or.inr hsame)⟩

end Rules

/-! ### The endpoints -/

section Endpoints

variable {net : Network} {s : Served}

theorem tables_pass (net : Network) :
    PassesTables (OnWorld (WritesBack net) : SwitchStmt → Prop) :=
  fun _ _ _ hq => nomatch hq

theorem tables_call {q : ControlStmt ActionParams ActionDoc} :
    (Prog.call (Sum.inl q) : SwitchProg (ControlResp q)).Issues (OnWorld (WritesBack net)) :=
  (Prog.issues_call _).mpr fun _ hq => nomatch hq

/-- A program of the world that writes back. -/
theorem issues_inr {α : Type} {p : GridProg α} (hp : p.Issues (WritesBack net)) :
    (p.inr : SwitchProg α).Issues (OnWorld (WritesBack net)) := by
  refine hp.inr fun q hq q' heq => ?_
  injection heq with heq
  exact heq ▸ hq

/-- A program of the world that reads. -/
theorem issues_reads {α : Type} {p : GridProg α} (hp : p.Issues GridStmt.ReadsOnly) :
    (p.inr : SwitchProg α).Issues (OnWorld (WritesBack net)) :=
  issues_inr (hp.mono fun _ hq => writesBack_of_moves hq.movesNothing net)

/-- A program of the world that moves nothing. -/
theorem issues_moves {α : Type} {p : GridProg α} (hp : p.Issues GridStmt.MovesNothing) :
    (p.inr : SwitchProg α).Issues (OnWorld (WritesBack net)) :=
  issues_inr (hp.mono fun _ hq => writesBack_of_moves hq net)

/-- Planning reads. -/
theorem plan_issues {name : String} {handler : ControlHandler ActionParams ActionDoc GridResp}
    (hh : switchingHandlers name = some handler) (target : Option String) (params : ActionParams) :
    ((handler.plan target params).inr : SwitchProg _).Issues (OnWorld (WritesBack net)) ∧
      ((handler.riskFor target params).inr : SwitchProg _).Issues (OnWorld (WritesBack net)) := by
  rcases switchingHandlers_cases hh with ⟨-, rfl⟩ | ⟨-, rfl⟩
  · exact ⟨issues_reads ((OcSwitch.planReads_reads target params).bind fun _ => trivial), trivial⟩
  · exact ⟨issues_reads ((OcFlisr.planFor_reads target params).bind fun _ => trivial), trivial⟩

theorem setSwitch_issues {site : SwitchWrite} {edgeId : String} {b : Bool}
    (hb : InState net edgeId b) : (Sql.setSwitch site edgeId b).Issues (WritesBack net) := by
  refine (Prog.issues_call _).mpr fun _ _ _ h => ?_
  injection h with _ hid hb'
  exact hid ▸ hb' ▸ hb

/-- The way to the device, after the write of a rollback. -/
theorem rollbackDevice_moves (edgeId : Option String) (prev : Bool) (deviceId : Option String) :
    (match given deviceId with
      | none => pure (.switchRestored edgeId prev none none)
      | some deviceId => do
          let ack ← dispatchAndWait deviceId (if prev then "grid_connect" else "island")
          let echo ← OcSwitch.echoOf deviceId prev
          pure (.switchRestored edgeId prev (some ack) echo) : GridProg ActionDoc).Issues
      GridStmt.MovesNothing := by
  cases given deviceId with
  | none => trivial
  | some deviceId =>
      exact (OcSwitch.dispatchAndWait_moves _ _).bind fun _ =>
        (OcSwitch.echoOf_moves _ _).bind fun _ => trivial

theorem switchRollback_issues {row : ActionRecord} (htype : row.actionType = "switch_op")
    (hstates : ∀ e ∈ rollbackStates row, InState net e.1 e.2) :
    (OcSwitch.rollback row).Issues (WritesBack net) := by
  rw [rollbackStates, if_pos htype] at hstates
  rw [OcSwitch.rollback]
  cases hprev : row.beforeState.bind ActionDoc.isClosed? with
  | none => trivial
  | some prev =>
      have hdevice (edgeId : Option String) := (rollbackDevice_moves edgeId prev
        (row.beforeState.bind ActionDoc.deviceId?)).mono fun _ hq => writesBack_of_moves hq net
      cases hedge : given (row.beforeState.bind ActionDoc.edgeId?) <|> row.target with
      | none => exact hdevice none
      | some edgeId =>
          rw [hprev, hedge] at hstates
          exact (setSwitch_issues (hstates (edgeId, prev) (by simp))).bind fun _ =>
            hdevice (some edgeId)

theorem restoreSwitches_issues {states : Dict Bool}
    (hstates : ∀ e ∈ states, InState net e.1 e.2) :
    (OcFlisr.restoreSwitches states).Issues (WritesBack net) := by
  induction states with
  | nil => trivial
  | cons e states ih =>
      exact (setSwitch_issues (hstates e List.mem_cons_self)).bind fun _ =>
        ih fun e' he' => hstates e' (List.mem_cons_of_mem _ he')

/-- Rolling back writes the stored states. -/
theorem rollback_issues {row : ActionRecord}
    {handler : ControlHandler ActionParams ActionDoc GridResp}
    (hh : switchingHandlers row.actionType = some handler)
    (hstates : ∀ e ∈ rollbackStates row, InState net e.1 e.2) :
    ((handler.rollback row).inr : SwitchProg _).Issues (OnWorld (WritesBack net)) := by
  refine issues_inr ?_
  rcases switchingHandlers_cases hh with ⟨htype, rfl⟩ | ⟨htype, rfl⟩
  · exact switchRollback_issues htype hstates
  · rw [rollbackStates, htype] at hstates
    exact (Prog.issues_raiseIf _ _).bind fun _ =>
      (restoreSwitches_issues hstates).bind fun _ => trivial

/-- A request that reads the flag knows whether it was on. -/
theorem wp_controlsEnabled {α : Type} {k : Bool → SwitchProg α}
    {Q : Except Exc α → Served → Prop} (h : Still net s)
    (hoff : ∀ s', Still net s' → wp flagSem flagRules (k false) Q s')
    (hon : ∀ s', s'.wasOn = true → wp flagSem flagRules (k true) Q s') :
    wp flagSem flagRules (Db.controlsEnabled >>= k) Q s := by
  rw [wp_bind]
  refine (wp_call flagSem flagRules (.inl .controlsEnabled) _ s).mpr ?_
  rintro s' rfl c -
  refine ⟨Or.inl rfl, ?_⟩
  cases hflag : c.enabled with
  | false =>
      have hanswer : (flagSem c (.inl .controlsEnabled) s).1 = .ok false := congrArg Except.ok hflag
      rw [hanswer]
      exact hoff _ (h.imp (fun h => by simp only [flagSem, h, Bool.true_or]) id)
  | true =>
      have hanswer : (flagSem c (.inl .controlsEnabled) s).1 = .ok true := congrArg Except.ok hflag
      rw [hanswer]
      exact hon _ (by simp only [flagSem, hflag, Bool.or_true])

/-- The gates let a request pass only when the flag is on. -/
theorem wp_liveGates (row : ActionRecord) (actionId : String) (principal : Principal)
    (h : Still net s) :
    wp flagSem flagRules (liveGates row actionId principal : SwitchProg Bool)
      (fun r s' => ∀ b, r = .ok b → s'.wasOn = true) s := by
  have hblocked (detail : AuditDetail ActionDoc) (e : Exc) {s : Served} (h : Still net s) :
      wp flagSem flagRules
        (audit actionId .BLOCKED principal.name detail >>= fun _ => throw e : SwitchProg Bool)
        (fun r s' => ∀ b, r = .ok b → s'.wasOn = true) s :=
    wp.bind (wp_writesBack ((tables_pass net).audit ..) h) (fun _ _ _ _ hok => by cases hok)
      fun _ _ _ _ hok => by cases hok
  refine wp_controlsEnabled h (fun s₁ h₁ => hblocked _ _ h₁) fun s₁ hon => ?_
  simp only [not_true_eq_false, if_false]
  split
  · split
    · exact hblocked _ _ (Or.inl (b := s₁.plane.world.network = net) hon)
    · exact fun _ _ => hon
  · rw [singleOperator, wp_bind, wp_raiseIf]
    exact ⟨(fun _ _ hok => by cases hok), fun _ _ _ => hon⟩

theorem wp_execute (actionId : String) (principal : Principal) (h : Still net s) :
    wp flagSem flagRules (execute switchingHandlers actionId principal) (fun _ _ => True) s := by
  refine wp.bind (wp_writesBack ((tables_pass net).fetch actionId principal) h)
    (fun row s₁ h₁ => ?_) fun _ _ _ => trivial
  refine wp.bind (wp_writesBack (handlerFor_issues _ _) h₁) (fun handler s₂ h₂ => ?_)
    fun _ _ _ => trivial
  split
  · exact (wp_writesBack ((tables_pass net).executeDryRun row actionId principal) h₂).mono
      fun _ _ _ => trivial
  · exact wp.bind (wp_liveGates row actionId principal h₂)
      (fun enabled s₃ h₃ => (wp_wasOn (h₃ enabled rfl) _).mono fun _ _ _ => trivial)
      fun _ _ _ => trivial

/-- A read that succeeds answers from the tables. -/
theorem flagSem_getAction (c : Choice) (actionId : String) (s : Served) :
    (∃ e, (flagSem c (.inl (.getAction actionId)) s).1 = .error e) ∨
      (flagSem c (.inl (.getAction actionId)) s).1 = .ok (s.plane.db.get actionId) := by
  cases hfails : c.control.fails with
  | some m =>
      refine Or.inl ⟨.other m, ?_⟩
      simp only [flagSem, planeSem, controlSem, ControlStmt.failure, hfails]
      rfl
  | none =>
      refine Or.inr ?_
      simp only [flagSem, planeSem, controlSem, ControlStmt.failure, hfails]
      rfl

/-- What is fetched is stored, and open to the caller. -/
theorem wp_fetch (actionId : String) (principal : Principal) :
    wp flagSem flagRules (fetch actionId principal : SwitchProg ActionRecord)
      (fun r s' => s'.plane.world.network = s.plane.world.network ∧
        ∀ row, r = .ok row → s.plane.db.get actionId = some row ∧ tenantOk principal row) s := by
  rw [fetch, wp_bind]
  refine (wp_call flagSem flagRules (.inl (.getAction actionId)) _ s).mpr ?_
  rintro s' rfl c -
  have hsame : (flagSem c (.inl (.getAction actionId)) s).2.plane.world.network =
      s.plane.world.network := rfl
  refine ⟨Or.inl hsame, ?_⟩
  generalize (flagSem c (.inl (.getAction actionId)) s).2 = s₁ at hsame
  rcases flagSem_getAction c actionId s with ⟨e, hanswer⟩ | hanswer
  · rw [hanswer]
    exact ⟨hsame, fun _ h => by cases h⟩
  · rw [hanswer]
    cases hrow : s.plane.db.get actionId with
    | none => exact ⟨hsame, fun _ h => by cases h⟩
    | some row =>
        simp only [wp_bind, wp_raiseIf, wp_pure]
        refine ⟨fun _ => ⟨hsame, fun _ h => by cases h⟩, fun htenant => ⟨hsame, fun row' h => ?_⟩⟩
        injection h with h
        subst h
        exact ⟨rfl, not_not.mp htenant⟩

theorem wp_rollback (actionId : String) (principal : Principal)
    (hidle : Idle s.plane (.control (.rollback actionId principal))) :
    wp flagSem flagRules (rollback switchingHandlers actionId principal) (fun _ _ => True) s := by
  refine wp.bind (wp_fetch actionId principal) (fun row s₁ h₁ => ?_) fun _ _ _ => trivial
  obtain ⟨hnet, hrow⟩ := h₁
  obtain ⟨hrow, htenant⟩ := hrow row rfl
  rw [wp_bind, wp_raiseIf]
  refine ⟨fun _ => trivial, fun hstatus => ?_⟩
  have hstates := hidle row hrow (not_not.mp hstatus) htenant
  have hstill : Still s.plane.world.network s₁ := Or.inr hnet
  refine (wp_writesBack ?_ hstill).mono fun _ _ _ => trivial
  refine (handlerFor_issues _ _).bind_returns (handlerFor_returns _ _) fun handler hh => ?_
  refine tables_call.bind fun _ => (rollback_issues hh hstates).bind fun after => ?_
  exact tables_call.bind fun _ => (tables_pass _).finish ..

theorem recordSimulation_moves (plan : Dms.FlisrPlan) (faultEdge : Option String)
    (execute : Bool) :
    (Dms.recordSimulation plan faultEdge execute).Issues GridStmt.MovesNothing := by
  refine Prog.Issues.bind (OcSwitch.moves_call fun _ _ _ h => nomatch h) fun eventId => ?_
  refine Prog.Issues.bind (OcSwitch.moves_call fun _ _ _ h => nomatch h) fun version => ?_
  exact Prog.Issues.bind (OcSwitch.moves_call fun _ _ _ h => nomatch h) fun _ => trivial

theorem wp_flisrSimulate (faultNode faultEdge : Option String) (execute : Bool)
    (h : Still net s) :
    wp flagSem flagRules (Dms.flisrSimulate faultNode faultEdge execute) (fun _ _ => True) s := by
  refine wp.bind (wp_writesBack (issues_reads (Dms.planFlisr_reads faultNode faultEdge)) h)
    (fun plan s₁ h₁ => ?_) fun _ _ _ => trivial
  cases execute with
  | false =>
      exact (wp_writesBack (issues_moves (recordSimulation_moves plan faultEdge false)) h₁).mono
        fun _ _ _ => trivial
  | true =>
      rw [if_pos rfl, wp_bind]
      refine wp_controlsEnabled h₁ (fun s₂ _ => ?_) fun s₂ hon => ?_
      · rw [wp_bind, wp_raiseIf]
        exact ⟨fun _ => trivial, fun hoff => absurd rfl hoff⟩
      · refine (wp_wasOn hon _).mono fun r s₃ hon => ?_
        cases r with
        | error e => trivial
        | ok a => exact (wp_wasOn hon _).mono fun _ _ _ => trivial

theorem flagSem_loadEdges (c : Choice) (s : Served) :
    (∃ e, (flagSem c (.inr .loadEdges) s).1 = .error e) ∨
      (flagSem c (.inr .loadEdges) s).1 = .ok s.plane.world.network.edges := by
  cases hfails : c.grid.fails with
  | some m =>
      refine Or.inl ⟨.other m, ?_⟩
      simp only [flagSem, planeSem, gridSem, GridStmt.failure, hfails]
      rfl
  | none =>
      refine Or.inr ?_
      simp only [flagSem, planeSem, gridSem, GridStmt.failure, hfails]
      rfl

theorem edgeRow_moves (edgeId : String) :
    (Topology.edgeRow edgeId).Issues GridStmt.MovesNothing :=
  Prog.Issues.bind (OcSwitch.moves_call fun _ _ _ h => nomatch h) fun _ => trivial

theorem wp_setSwitch (edgeId : String) (b : Bool) (hidle : Idle s.plane (.setSwitch edgeId b)) :
    wp flagSem flagRules ((Topology.setSwitch edgeId b).inr : SwitchProg (Option GridEdge))
      (fun _ _ => True) s := by
  rintro s' rfl c -
  have hsame : (flagSem c (.inr .loadEdges) s).2.plane.world.network =
      s.plane.world.network := by
    refine flagSem_network c fun q hq => writesBack_of_moves ?_ _
    injection hq with hq
    subst hq
    rintro _ _ _ ⟨⟩
  refine ⟨Or.inl hsame, ?_⟩
  rcases flagSem_loadEdges c s with ⟨e, hanswer⟩ | hanswer
  · rw [hanswer]
    trivial
  · rw [hanswer]
    refine (wp_writesBack (issues_inr ?_) (Or.inr hsame)).mono fun _ _ _ => trivial
    -- what the endpoint does with the row that it finds
    dsimp only [Prog.bind, Pure.pure]
    cases hfind : s.plane.world.network.edges.find? fun e => e.edgeId = edgeId with
    | none => trivial
    | some edge =>
        have hmem := List.mem_of_find?_eq_some hfind
        have hfound := List.find?_some hfind
        have hid : edge.edgeId = edgeId := of_decide_eq_true hfound
        refine (Prog.issues_raiseIf _ _).bind_returns (Prog.returns_raiseIf _ _) fun _ hswitch => ?_
        refine (setSwitch_issues fun e he heid => ?_).bind fun _ =>
          (edgeRow_moves edgeId).mono fun _ hq => writesBack_of_moves hq _
        -- by the primary key it is the row that was found
        rw [s.plane.world.network.edgeKey.eq he hmem (heid.trans hid.symm)]
        exact hidle edge hmem hid (not_not.mp hswitch)

/-- **One request.** A request that meets the condition moves switches only after
the flag was on. -/
theorem wp_serve (r : SwitchRequest) (h : s.wasOn = true ∨ Idle s.plane r) :
    wp flagSem flagRules r.serve (fun _ _ => True) s := by
  rcases h with hon | hidle
  · exact (wp_wasOn hon _).mono fun _ _ _ => trivial
  · have hstill : Still s.plane.world.network s := Or.inr rfl
    have htables := tables_pass s.plane.world.network
    cases r with
    | flisrSimulate faultNode faultEdge execute =>
        exact wp.bind (wp_flisrSimulate faultNode faultEdge execute hstill)
          (fun _ _ _ => trivial) fun _ _ _ => trivial
    | setSwitch edgeId b =>
        exact wp.bind (wp_setSwitch edgeId b hidle) (fun _ _ _ => trivial) fun _ _ _ => trivial
    | control r =>
        cases r with
        | create actionType target params mode reason principal =>
            refine (wp_writesBack ?_ hstill).mono fun _ _ _ => trivial
            exact (htables.createAction (fun h hh => (plan_issues hh target params).1)
              fun h hh => (plan_issues hh target params).2).bind fun _ => trivial
        | approve i reason principal =>
            refine (wp_writesBack ?_ hstill).mono fun _ _ _ => trivial
            exact (htables.approve i reason principal).bind fun _ => trivial
        | reject i reason principal =>
            refine (wp_writesBack ?_ hstill).mono fun _ _ _ => trivial
            exact (htables.reject i reason principal).bind fun _ => trivial
        | execute i principal =>
            exact wp.bind (wp_execute i principal hstill) (fun _ _ _ => trivial)
              fun _ _ _ => trivial
        | rollback i principal =>
            exact wp.bind (wp_rollback i principal hidle) (fun _ _ _ => trivial)
              fun _ _ _ => trivial

end Endpoints

/-! ### Sequences of requests -/

theorem onlyWhileOn_of_covered {plane : SwitchPlane} {call : Call} (h : Covered plane call) :
    OnlyWhileOn plane call :=
  alone_of_wp (D := flagRules) (fun _ => rfl) (fun _ _ _ => trivial) call.choices
    (wp_serve call.request h)

/-- **The master flag.** In every sequence of requests, with the flag switched at
any point, in which each request meets the condition, a switch state changes
only in the time of a request in which the flag was on. -/
theorem switches_move_while_on (plane : SwitchPlane) (calls : List Call)
    (h : Along Covered plane calls) : Along OnlyWhileOn plane calls := by
  induction calls generalizing plane with
  | nil => trivial
  | cons call calls ih => exact ⟨onlyWhileOn_of_covered h.1, ih _ h.2⟩

/-! ### The pilot feeder -/

def pilotPlane : SwitchPlane := ⟨{}, { network := pilot }⟩

/-- A request with the flag in one position, in which nothing fails. -/
def flagged (enabled : Bool) (request : SwitchRequest) : Call where
  request := request
  enabled := enabled
  choices _ := { enabled := enabled, control := { uuid := "a1" } }

/-- An opening of the feeder switch, requested, approved and executed. -/
def opened : List Call := [
  flagged false (.control (.create "switch_op" (some "E-SW-01") { close := some false } .live none
    ⟨"operator", none⟩)),
  flagged false (.control (.approve "a1" none ⟨"engineer", none⟩)),
  flagged true (.control (.execute "a1" ⟨"operator", none⟩))]

/-- The rollback is made while the flag is on. -/
theorem pilot_moves_while_on :
    Along OnlyWhileOn pilotPlane (opened ++ [
      flagged true (.control (.rollback "a1" ⟨"engineer", none⟩)),
      flagged false (.flisrSimulate (some "TX-01") none true),
      flagged false (.setSwitch "E-SW-01" true)]) :=
  switches_move_while_on _ _ (by decide +kernel)

/-- With the flag off all the time the switch endpoint opens the feeder; and with
the flag off again the executed opening is rolled back. -/
theorem pilot_moves_while_off :
    (serveCall pilotPlane (flagged false (.setSwitch "E-SW-01" false))).world.network.stateOf
        "E-SW-01" ≠ pilot.stateOf "E-SW-01" ∧
      (opened.foldl serveCall pilotPlane).world.network.stateOf "E-SW-01" = some false ∧
      (serveCall (opened.foldl serveCall pilotPlane)
        (flagged false (.control (.rollback "a1" ⟨"engineer", none⟩)))).world.network.stateOf
          "E-SW-01" = some true := by
  decide +kernel

end DiepLab.MasterFlag
