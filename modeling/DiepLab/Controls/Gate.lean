import DiepLab.Controls.Obligations

/-!
The gate of live actuation, in runs of one request after the other.

`execute` calls its handler only behind the mode of the action and the master
flag. `rollback` asks neither: it calls the handler of whatever action is
EXECUTED, be it the end of a dry run, and whether the flag is on or off. In a
run in which every rollback that gets as far as its handler is one of a live
action, made while the flag is on, every call of a handler is gated.

A request runs to its end with nothing in between, so `rely` is the identity
here, and what a request has read is still what is stored.
-/

namespace DiepLab.Controls

open StatementProgram

variable {P D W WC WStmt : Type} {WResp : WStmt → Type}
variable {wsem : WC → (q : WStmt) → W → Except Exc (WResp q) × W}

/-! ### Runs -/

/-- One call of an endpoint, or a change around the calls. -/
inductive GateStep (P W WC : Type) where
  | call (r : Request P) (choices : ℕ → ControlChoice × WC)
  | surround (a : Surroundings W)

variable (wsem) in
def gateStep (handlers : Registry P D WResp) (s : Plane P D W) : GateStep P W WC → Plane P D W
  | .call r choices => ((serve handlers r).run (withChoices (planeSem wsem)) (s, choices)).2.1
  | .surround a => surround a s

variable (wsem) in
def gateRun (handlers : Registry P D WResp) (s : Plane P D W) (steps : List (GateStep P W WC)) :
    Plane P D W :=
  steps.foldl (gateStep wsem handlers) s

/-- What the rules of the gate ask of a call of a handler. -/
def Gated (row : ActionRow P D) (enabled : Bool) : Prop :=
  row.mode = .live ∧ enabled = true

instance (row : ActionRow P D) (enabled : Bool) : Decidable (Gated row enabled) :=
  inferInstanceAs (Decidable (_ ∧ _))

/-- The condition on a step, in the state before it: a rollback that gets as
far as its handler is one of a live action, made while the flag is on. -/
def RollbackGated (handlers : Registry P D WResp) (s : Plane P D W) : Request P → Prop
  | .rollback i principal =>
      match s.db.get i with
      | none => True
      | some row => row.status = .EXECUTED → tenantOk principal row →
          (handlers row.actionType).isSome = true → Gated row s.db.enabled
  | _ => True

instance (handlers : Registry P D WResp) (s : Plane P D W) (r : Request P) :
    Decidable (RollbackGated handlers s r) := by
  cases r <;> simp only [RollbackGated] <;> try infer_instance
  split <;> infer_instance

variable (wsem) in
/-- Every step of the run meets the condition where it is taken. -/
def GatedRun (handlers : Registry P D WResp) : Plane P D W → List (GateStep P W WC) → Prop
  | _, [] => True
  | s, .call r choices :: steps =>
      RollbackGated handlers s r ∧
        GatedRun handlers (gateStep wsem handlers s (.call r choices)) steps
  | s, .surround a :: steps => GatedRun handlers (surround a s) steps

/-! ### One request -/

/-- Every call of a handler so far was gated. -/
def AllGated (log : List (Trace P D)) : Prop :=
  ∀ op row checked enabled, .invoked op row checked enabled ∈ log → Gated row enabled

def gateRules : PlaneRules P D WStmt WC W where
  rely a b := a = b ∧ AllGated a.db.log
  admits _ _ _ := True
  needs _ q s := ∀ op row checked, q = .inl (.invoke op row checked) → Gated row s.db.enabled

/-- The statement is not the call of a handler. -/
def CallsNoHandler (q : ControlStmt P D ⊕ WStmt) : Prop :=
  ∀ op row checked, q ≠ .inl (.invoke op row checked)

theorem gate_sem (c : ControlChoice × WC) (q : ControlStmt P D ⊕ WStmt) {s : Plane P D W}
    (hs : AllGated s.db.log) (hneeds : (gateRules : PlaneRules P D WStmt WC W).needs c q s) :
    AllGated (planeSem wsem c q s).2.db.log := by
  cases q with
  | inr q => exact hs
  | inl q =>
      rcases controlSem_cases c.1 q s.db with hsem | ⟨-, hsem⟩
      · simp only [planeSem, hsem]
        exact hs
      · simp only [planeSem, hsem]
        have append {e : Trace P D} (he : ∀ op row checked enabled,
            e = .invoked op row checked enabled → Gated row enabled) :
            AllGated (s.db.log ++ [e]) := by
          intro op row checked enabled hmem
          rcases List.mem_append.mp hmem with hmem | hmem
          · exact hs op row checked enabled hmem
          · exact he op row checked enabled (List.mem_singleton.mp hmem).symm
        cases q with
        | updateStatus i u read => exact append fun _ _ _ _ he => by cases he
        | respond endpoint i => exact append fun _ _ _ _ he => by cases he
        | invoke op row checked =>
            refine append fun op' row' checked' enabled he => ?_
            injection he with _ hrow _ henabled
            subst hrow henabled
            exact hneeds op row checked rfl
        | _ => exact hs

section Request

variable {α : Type} {s : Plane P D W}

/-- A program that calls no handler. -/
theorem runs_uncalled {p : PlaneProg P D WResp α} (hp : p.Issues CallsNoHandler) :
    Runs wsem gateRules p (fun _ _ => True) s :=
  (wp.of_issues_needs (fun _ _ _ hq op row checked heq => absurd heq (hq op row checked)) hp
    s).mono fun _ _ _ _ _ => trivial

/-- The rest of the control tables is no call. -/
theorem uncalled_passes : PassesTables (@CallsNoHandler P D WStmt) := by
  intro q hq op row checked heq
  injection heq with heq
  rw [heq] at hq
  exact hq

theorem issues_world (p : Prog WResp Exc α) :
    (p.inr : PlaneProg P D WResp α).Issues CallsNoHandler :=
  Prog.issues_inr (fun _ _ _ _ heq => nomatch heq) p

/-- A statement that only reads. -/
theorem runs_read {q : ControlStmt P D} {K : ControlResp q → Plane P D W → Prop}
    (hs : AllGated s.db.log) (hq : ∀ op row checked, q ≠ .invoke op row checked)
    (hread : ∀ c db, (controlExec c q db).2 = db) (hK : ∀ c, K (controlExec c q s.db).1 s) :
    Runs wsem gateRules (Prog.call (Sum.inl q)) K s := by
  refine runs_effect (fun s' hs' c _ => ⟨fun op row checked heq => ?_, ?_⟩) ?_
  · injection heq with heq
    exact absurd heq (hq op row checked)
  · obtain ⟨rfl, -⟩ := hs'
    obtain ⟨db, world⟩ := s
    refine ⟨?_, hs⟩
    simp only [planeSem]
    rcases controlSem_cases c.1 q db with hsem | ⟨-, hsem⟩
    · rw [hsem]
    · rw [hsem, hread]
  · rintro c s' ⟨rfl, -⟩ -
    rw [hread]
    exact hK c

/-- The row that is fetched is the stored one, and nothing has moved. -/
theorem runs_fetch_gate {actionId : String} {principal : Principal}
    {K : ActionRow P D → Plane P D W → Prop} (hs : AllGated s.db.log)
    (hK : ∀ row, s.db.get actionId = some row → tenantOk principal row → K row s) :
    Runs wsem gateRules (fetch actionId principal) K s := by
  refine runs_bind (runs_read hs (fun _ _ _ heq => nomatch heq) (fun _ _ => rfl) fun c => ?_)
  simp only [controlExec]
  cases hrow : s.db.get actionId with
  | none => exact runs_throw _
  | some row =>
      refine runs_bind (runs_raiseIf fun htenant => ?_)
      exact runs_pure _ (hK row hrow (not_not.mp htenant))

theorem runs_controlsEnabled_gate {K : Bool → Plane P D W → Prop} (hs : AllGated s.db.log)
    (hK : K s.db.enabled s) : Runs wsem gateRules (Db.controlsEnabled) K s :=
  runs_read hs (fun _ _ _ heq => nomatch heq) (fun _ _ => rfl) fun _ => hK

/-- Behind the gates the flag is on, and nothing has moved. -/
theorem runs_liveGates_gate {row : ActionRow P D} {actionId : String} {principal : Principal}
    {K : Bool → Plane P D W → Prop} (hs : AllGated s.db.log)
    (hK : s.db.enabled = true → K true s) :
    Runs wsem gateRules (liveGates row actionId principal) K s := by
  refine runs_bind (runs_controlsEnabled_gate hs ?_)
  have blocked (detail : AuditDetail D) (e : Exc) :
      Runs wsem gateRules
        (audit actionId .BLOCKED principal.name detail >>= fun _ => throw e) K s :=
    runs_bind ((runs_uncalled (uncalled_passes.audit ..)).mono fun _ _ _ _ _ => runs_throw e)
  cases hflag : s.db.enabled with
  | false => exact blocked _ _
  | true =>
      simp only [not_true_eq_false, if_false]
      split
      · split
        · exact blocked _ _
        · exact runs_pure _ (hK hflag)
      · exact runs_bind (runs_raiseIf fun _ => runs_pure _ (hK hflag))

/-- The call of a handler, and what comes after it. -/
theorem runs_invoke {op : Op} {row : ActionRow P D} {checked : Option Bool}
    {k : Unit → PlaneProg P D WResp α} (hgated : Gated row s.db.enabled)
    (hk : (k ()).Issues CallsNoHandler) :
    Runs wsem gateRules (Db.invoke op row checked >>= k) (fun _ _ => True) s := by
  refine runs_bind ((wp_call (planeSem wsem) gateRules _ _ s).mpr ?_)
  rintro s' ⟨rfl, -⟩ c -
  refine ⟨fun op' row' checked' heq => ?_, fun _ _ => runs_uncalled hk⟩
  injection heq with heq
  injection heq with _ hrow
  exact hrow ▸ hgated

theorem runs_execute_gate (handlers : Registry P D WResp) (actionId : String)
    (principal : Principal) (hs : AllGated s.db.log) :
    Runs wsem gateRules (execute handlers actionId principal) (fun _ _ => True) s := by
  refine runs_bind (runs_fetch_gate hs fun row hrow _ => ?_)
  refine runs_bind (Calm.runs_handlerFor fun handler _ => ?_)
  cases hmode : row.mode with
  | dry_run => exact runs_uncalled (uncalled_passes.executeDryRun row actionId principal)
  | live =>
      refine runs_bind (runs_liveGates_gate hs fun henabled => ?_)
      refine runs_invoke ⟨hmode, henabled⟩ ?_
      exact (uncalled_passes.actuate (issues_world _)).bind fun _ =>
        (uncalled_passes.call (by trivial)).bind fun _ => uncalled_passes.finish ..

theorem runs_rollback_gate (handlers : Registry P D WResp) (actionId : String)
    (principal : Principal) (hs : AllGated s.db.log)
    (hgated : RollbackGated handlers s (.rollback actionId principal)) :
    Runs wsem gateRules (rollback handlers actionId principal) (fun _ _ => True) s := by
  refine runs_bind (runs_fetch_gate hs fun row hrow htenant => ?_)
  refine runs_bind (runs_raiseIf fun hstatus => ?_)
  refine runs_bind (Calm.runs_handlerFor fun handler hh => ?_)
  simp only [RollbackGated, hrow] at hgated
  refine runs_invoke (hgated (not_not.mp hstatus) htenant (hh ▸ rfl)) ?_
  exact (issues_world _).bind fun _ => (uncalled_passes.call (by trivial)).bind fun _ =>
    uncalled_passes.finish ..

/-- **One request.** A request that meets the condition calls no handler
outside the gate. -/
theorem serve_gated (handlers : Registry P D WResp) (r : Request P) (hs : AllGated s.db.log)
    (hgated : RollbackGated handlers s r) :
    wp (planeSem wsem) gateRules (serve handlers r) (fun _ _ => True) s := by
  cases r with
  | create actionType target params mode reason principal =>
      exact (runs_uncalled (uncalled_passes.createAction
        (fun _ _ => issues_world _) fun _ _ => issues_world _)).discard
  | approve i reason principal =>
      exact (runs_uncalled (uncalled_passes.approve i reason principal)).discard
  | reject i reason principal =>
      exact (runs_uncalled (uncalled_passes.reject i reason principal)).discard
  | execute i principal => exact (runs_execute_gate handlers i principal hs).discard
  | rollback i principal => exact (runs_rollback_gate handlers i principal hs hgated).discard

end Request

/-! ### The run -/

theorem gateStep_call (handlers : Registry P D WResp) {s : Plane P D W} (r : Request P)
    (choices : ℕ → ControlChoice × WC) (hs : AllGated s.db.log)
    (hgated : RollbackGated handlers s r) :
    AllGated (gateStep wsem handlers s (.call r choices)).db.log := by
  have hserved : wp (planeSem wsem) gateRules (serve handlers r) (fun _ _ => True) s :=
    serve_gated handlers r hs hgated
  refine (run_of_wp ?_ ?_ choices ?_ hserved).2.2
  · exact fun c q s hs _ hneeds => ⟨rfl, gate_sem c q hs.2 hneeds⟩
  · exact fun _ _ _ => trivial
  · exact ⟨rfl, hs⟩

/-- **The gate.** In a run of requests and changes around them, from any
tables, in which every rollback that gets as far as its handler is one of a
live action made while the flag is on, no handler is executed or rolled back
for a dry run, and none while the flag is off. -/
theorem every_call_gated (handlers : Registry P D WResp) (s : Plane P D W) (hlog : s.db.log = [])
    (steps : List (GateStep P W WC)) (hgated : GatedRun wsem handlers s steps) :
    ∀ op row checked enabled,
      .invoked op row checked enabled ∈ (gateRun wsem handlers s steps).db.log →
        row.mode = .live ∧ enabled = true := by
  suffices H : ∀ s : Plane P D W, AllGated s.db.log → GatedRun wsem handlers s steps →
      AllGated (gateRun wsem handlers s steps).db.log by
    refine H s ?_ hgated
    intro op row checked enabled hmem
    rw [hlog] at hmem
    exact absurd hmem List.not_mem_nil
  clear hlog hgated s
  induction steps with
  | nil => exact fun s hs _ => hs
  | cons step steps ih =>
      intro s hs hgated
      cases step with
      | call r choices => exact ih _ (gateStep_call handlers r choices hs hgated.1) hgated.2
      | surround a =>
          refine ih _ ?_ hgated
          cases a with
          | setEnabled b => exact hs
          | world w => exact hs

/-- One call of an endpoint in which nothing fails. -/
def calmCall (r : Request Unit) : GateStep Unit Unit Unit := .call r fun _ => calmChoice

/-- A live action is executed and rolled back while the flag is on. -/
theorem live_rollback_gated :
    let final := gateRun noSem (noopRegistry .low)
      (⟨{ enabled := true }, ()⟩ : Plane Unit (NoopDoc Unit) Unit)
      [calmCall (.create "noop" none () .live none ⟨"operator", none⟩),
        calmCall (.execute "a1" ⟨"operator", none⟩),
        calmCall (.rollback "a1" ⟨"engineer", none⟩)]
    (final.db.get "a1").map ActionRow.status = some .ROLLED_BACK ∧
      ∀ op row checked enabled, .invoked op row checked enabled ∈ final.db.log →
        row.mode = .live ∧ enabled = true := by
  refine ⟨rfl, ?_⟩
  refine every_call_gated (noopRegistry .low) ⟨{ enabled := true }, ()⟩ rfl _ ⟨trivial, trivial, ?_⟩
  exact ⟨fun _ _ _ => ⟨rfl, rfl⟩, trivial⟩

/-- A dry run that has ended EXECUTED is rolled back through its handler, with
the flag off all the time; and so is a live action after the flag was switched
off. -/
theorem rollback_ungated :
    (¬ ∀ op row checked enabled,
      .invoked op row checked enabled ∈ (gateRun noSem (noopRegistry .low)
        (⟨{ enabled := false }, ()⟩ : Plane Unit (NoopDoc Unit) Unit)
        [calmCall (.create "noop" none () .dry_run none ⟨"operator", none⟩),
          calmCall (.execute "a1" ⟨"operator", none⟩),
          calmCall (.rollback "a1" ⟨"engineer", none⟩)]).db.log →
        row.mode ≠ .dry_run) ∧
    (¬ ∀ op row checked enabled,
      .invoked op row checked enabled ∈ (gateRun noSem (noopRegistry .low)
        (⟨{ enabled := true }, ()⟩ : Plane Unit (NoopDoc Unit) Unit)
        [calmCall (.create "noop" none () .live none ⟨"operator", none⟩),
          calmCall (.execute "a1" ⟨"operator", none⟩), .surround (.setEnabled false),
          calmCall (.rollback "a1" ⟨"engineer", none⟩)]).db.log →
        enabled = true) := by
  refine ⟨fun h => ?_, fun h => ?_⟩
  · exact h .rollback _ none false (List.mem_of_getElem? (i := 2) rfl) rfl
  · exact absurd (h .rollback _ none false (List.mem_of_getElem? (i := 3) rfl)) (by decide)

end DiepLab.Controls
