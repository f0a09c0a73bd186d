import DiepLab.Controls.Alone
import DiepLab.Library.Output

/-!
What the governance core lets out.

The core itself writes its own tables only. What leaves the system is said by a
handler, so a live execution says what the handler of the action says once the
gates are open, and a rollback what the handler says about an EXECUTED action.
-/

namespace DiepLab.Controls

open StatementProgram

variable {P D W WC WStmt μ α : Type} {WResp : WStmt → Type}
variable {wsem : WC → (q : WStmt) → W → Except Exc (WResp q) × W}

/-- The output of the world is that of the whole. -/
def planeOutput (O : Output wsem μ) : Output (planeSem (P := P) (D := D) wsem) μ where
  log s := O.log s.world
  said c q s :=
    match q with
    | .inl _ => []
    | .inr q => O.said c.2 q s.world
  log_sem := by
    rintro c (q | q) s
    · exact (List.append_nil _).symm
    · exact O.log_sem c.2 q s.world

/-- A statement on the tables of the core. -/
def OnTables (q : ControlStmt P D ⊕ WStmt) : Prop := ∃ q', q = .inl q'

theorem onTables_silent {O : Output wsem μ} (q : ControlStmt P D ⊕ WStmt) (hq : OnTables q) :
    ∀ c s, (planeOutput O).said c q s = [] := by
  obtain ⟨q', rfl⟩ := hq
  exact fun _ _ => rfl

theorem onTables_call (q : ControlStmt P D) :
    (Prog.call (Sum.inl q) : PlaneProg P D WResp _).Issues OnTables :=
  (Prog.issues_call _).mpr ⟨q, rfl⟩

theorem audit_onTables (i : String) (event : AuditEvent) (actor : String)
    (detail : AuditDetail D) :
    (audit i event actor detail : PlaneProg P D WResp Unit).Issues OnTables :=
  (Calm.audit_issues ..).mono fun _ ⟨q', hq, _⟩ => ⟨q', hq⟩

theorem refreshGauges_onTables : (refreshGauges : PlaneProg P D WResp Unit).Issues OnTables :=
  Calm.refreshGauges_issues.mono fun _ ⟨q', hq, _⟩ => ⟨q', hq⟩

theorem finish_onTables (endpoint : Endpoint) (i : String) (event : AuditEvent) (actor : String)
    (detail : AuditDetail D) :
    (finish endpoint i event actor detail :
      PlaneProg P D WResp (Option (ActionRow P D))).Issues OnTables :=
  (finish_issues ..).mono fun _ ⟨q', hq, _⟩ => ⟨q', hq⟩

theorem executeDryRun_onTables (row : ActionRow P D) (i : String) (principal : Principal) :
    (executeDryRun row i principal : PlaneProg P D WResp _).Issues OnTables := by
  refine (Prog.issues_raiseIf _ _).bind fun _ => ?_
  refine (audit_onTables ..).bind fun _ => (onTables_call _).bind fun _ => ?_
  refine refreshGauges_onTables.bind fun _ => (onTables_call _).bind fun after => ?_
  cases after with
  | none => trivial
  | some after => exact (onTables_call _).bind fun _ => trivial

section Rules

variable {O : Output wsem μ} {good : μ → Prop} {s : Plane P D W}

/-- What the surroundings of a handler see of it is what it says in the world. -/
theorem saysOnly_inr (p : Prog WResp Exc α) (s : Plane P D W) :
    SaysOnly (planeOutput O) good (p.inr : PlaneProg P D WResp α) s ↔
      SaysOnly O good p s.world := by
  induction p generalizing s with
  | ret a => exact Iff.rfl
  | raise e => exact Iff.rfl
  | stmt q k ih =>
      rw [SaysOnly, SaysOnly, Prog.inr, wp_alone_stmt, wp_alone_stmt]
      constructor
      · exact fun h c => ⟨(h ({}, c)).1, (ih _ _).mp (h ({}, c)).2⟩
      · exact fun h c => ⟨(h c.2).1, (ih _ _).mpr (h c.2).2⟩

variable {Q : Except Exc α → Plane P D W → Prop}

/-- What ends in an exception on the tables of the core is no harm. -/
theorem wp_refused {p : PlaneProg P D WResp α} (hp : p.Issues OnTables)
    (hnone : p.Returns fun _ => False) (hQ : ∀ e s', Q (.error e) s') :
    wp (planeSem wsem) (.alone ((planeOutput O).needs good)) p Q s := by
  refine (wp.of_issues_returns (fun c q s' hq msg hmsg => ?_) hp hnone s).mono
    fun r s' hr => ?_
  · rw [onTables_silent q hq c s'] at hmsg
    exact absurd hmsg List.not_mem_nil
  · cases r with
    | ok a => exact (hr a rfl).elim
    | error e => exact hQ e s'

variable [Inhabited WC]

/-- A statement on the tables that only reads. -/
theorem wp_read {q : ControlStmt P D} {a : ControlResp q}
    {Q : Except Exc (ControlResp q) → Plane P D W → Prop}
    (hok : ∀ c, (∃ e, controlSem c q s.db = (.error e, s.db)) ∨
      controlSem c q s.db = (.ok a, s.db))
    (hcalm : controlSem {} q s.db = (.ok a, s.db)) (hQ : ∀ e s', Q (.error e) s') :
    wp (planeSem wsem) (.alone ((planeOutput O).needs good))
        (Prog.call (Sum.inl q) : PlaneProg P D WResp _) Q s ↔ Q (.ok a) s := by
  refine wp_alone_call.trans ⟨fun h => ?_, fun h c => ⟨fun msg hmsg => ?_, ?_⟩⟩
  · have hthis := (h ({}, default)).2
    simp only [planeSem, hcalm] at hthis
    exact hthis
  · exact absurd hmsg List.not_mem_nil
  · simp only [planeSem]
    rcases hok c.1 with ⟨e, he⟩ | hsame
    · rw [he]
      exact hQ e s
    · rw [hsame]
      exact h

theorem wp_getAction {i : String}
    {Q : Except Exc (Option (ActionRow P D)) → Plane P D W → Prop}
    (hQ : ∀ e s', Q (.error e) s') :
    wp (planeSem wsem) (.alone ((planeOutput O).needs good))
        (Db.getAction i : PlaneProg P D WResp _) Q s ↔ Q (.ok (s.db.get i)) s := by
  refine wp_read (fun c => ?_) rfl hQ
  cases hfails : c.fails with
  | some m => exact Or.inl ⟨.other m, by simp [controlSem, ControlStmt.failure, hfails]⟩
  | none => exact Or.inr (by simp [controlSem, ControlStmt.failure, controlExec, hfails])

theorem wp_controlsEnabled {f : Bool → PlaneProg P D WResp α} (hQ : ∀ e s', Q (.error e) s') :
    wp (planeSem wsem) (.alone ((planeOutput O).needs good)) (Db.controlsEnabled >>= f) Q s ↔
      wp (planeSem wsem) (.alone ((planeOutput O).needs good)) (f s.db.enabled) Q s :=
  (wp_bind ..).trans (wp_read (fun _ => Or.inr rfl) rfl fun e s' => hQ e s')

theorem wp_fetch {i : String} {principal : Principal}
    {Q : Except Exc (ActionRow P D) → Plane P D W → Prop} (hQ : ∀ e s', Q (.error e) s') :
    wp (planeSem wsem) (.alone ((planeOutput O).needs good))
        (fetch i principal : PlaneProg P D WResp _) Q s ↔
      ∀ row, s.db.get i = some row → tenantOk principal row → Q (.ok row) s := by
  rw [fetch, wp_bind, wp_getAction fun e s' => hQ e s']
  cases s.db.get i with
  | none => simp [hQ]
  | some row => simp [hQ]

/-- Refusals of the gates are written to the audit trail. -/
theorem wp_liveGates {row : ActionRow P D} {i : String} {principal : Principal}
    {Q : Except Exc Bool → Plane P D W → Prop} (hQ : ∀ e s', Q (.error e) s') :
    wp (planeSem wsem) (.alone ((planeOutput O).needs good))
        (liveGates row i principal : PlaneProg P D WResp Bool) Q s ↔
      (GatesOpen s row → Q (.ok true) s) := by
  have hblocked (detail : AuditDetail D) (e : Exc) :
      wp (planeSem wsem) (.alone ((planeOutput O).needs good))
        (audit i .BLOCKED principal.name detail >>= fun _ => throw e :
          PlaneProg P D WResp Bool) Q s :=
    wp_refused ((audit_onTables ..).bind fun _ => trivial)
      ((Prog.returns_true _).bind fun _ _ => trivial) hQ
  rw [liveGates, wp_controlsEnabled hQ]
  by_cases henabled : s.db.enabled = true
  · by_cases hrisk : row.risk = .high
    · by_cases hstatus : row.status = .APPROVED
      · simp [GatesOpen, henabled, hrisk, hstatus]
      · rw [if_neg (not_not.mpr henabled), if_pos hrisk, if_pos hstatus]
        exact iff_of_true (hblocked _ _) fun hopen => absurd (hopen.2.1 hrisk) hstatus
    · by_cases hstatus : row.status = .PENDING ∨ row.status = .APPROVED
      · have hnone : ¬ (row.status ≠ .PENDING ∧ row.status ≠ .APPROVED) := by tauto
        simp [GatesOpen, henabled, hrisk, hstatus, singleOperator, hnone]
      · have hsome : row.status ≠ .PENDING ∧ row.status ≠ .APPROVED := by tauto
        simp [GatesOpen, henabled, hrisk, singleOperator, hsome, hQ]
  · rw [if_pos henabled]
    exact iff_of_true (hblocked _ _) fun hopen => absurd hopen.1 henabled

end Rules

/-! ### The two endpoints that call a handler -/

section Endpoints

variable [Inhabited WC] {O : Output wsem μ} {good : μ → Prop} {s : Plane P D W}
variable {handlers : Registry P D WResp} {i : String} {principal : Principal}

/-- A call of the handler, with nothing but the tables of the core around it. -/
theorem wp_called {op : Op} {row : ActionRow P D} {checked : Option Bool}
    {p : PlaneProg P D WResp α} {Q : Except Exc α → Plane P D W → Prop} :
    wp (planeSem wsem) (.alone ((planeOutput O).needs good))
        (Db.invoke op row checked >>= fun _ => p) Q s ↔
      wp (planeSem wsem) (.alone ((planeOutput O).needs good)) p Q (s.invoked op row checked) := by
  refine (wp_bind ..).trans (wp_alone_call.trans ?_)
  exact ⟨fun h => (h ({}, default)).2, fun h c => ⟨fun _ hmsg => absurd hmsg List.not_mem_nil, h⟩⟩

theorem execute_output :
    SaysOnly (planeOutput O) good (execute handlers i principal) s ↔
      ∀ row, s.db.get i = some row → tenantOk principal row → row.mode = .live →
        GatesOpen s row → ∀ handler, handlers row.actionType = some handler →
          SaysOnly O good (handler.execute row) s.world := by
  rw [SaysOnly, execute, wp_bind, wp_fetch fun _ _ => trivial]
  refine forall₃_congr fun row hrow htenant => ?_
  cases hh : handlers row.actionType with
  | none => simp [handlerFor, hh]
  | some handler =>
      simp only [handlerFor, hh, wp_bind, wp_pure, Option.some.injEq, forall_eq']
      cases hmode : row.mode with
      | dry_run =>
          simp only [reduceCtorEq, if_true, false_implies, iff_true]
          exact saysOnly_silent ((executeDryRun_onTables row i principal).mono onTables_silent)
      | live =>
          simp only [reduceCtorEq, if_false, true_implies]
          rw [wp_bind, wp_liveGates fun _ _ => trivial]
          refine forall_congr' fun _ => wp_called.trans ?_
          rw [← SaysOnly, saysOnly_bind_silent fun after => ?silent, actuate,
            saysOnly_attempt_silent fun e => ?refused, saysOnly_inr]
          · rfl
          case silent =>
            exact ((onTables_call _).bind fun _ => finish_onTables ..).mono onTables_silent
          case refused =>
            refine Prog.Issues.mono onTables_silent ?_
            split
            · trivial
            · exact (onTables_call _).bind fun _ => (audit_onTables ..).bind fun _ =>
                refreshGauges_onTables.bind fun _ => trivial

theorem rollback_output :
    SaysOnly (planeOutput O) good (rollback handlers i principal) s ↔
      ∀ row, s.db.get i = some row → tenantOk principal row → row.status = .EXECUTED →
        ∀ handler, handlers row.actionType = some handler →
          SaysOnly O good (handler.rollback row) s.world := by
  rw [SaysOnly, rollback, wp_bind, wp_fetch fun _ _ => trivial]
  refine forall₃_congr fun row hrow htenant => ?_
  refine (wp_bind ..).trans ((wp_raiseIf ..).trans ?_)
  by_cases hstatus : row.status = .EXECUTED
  · cases hh : handlers row.actionType with
    | none => simp [handlerFor, hh, hstatus]
    | some handler =>
        simp only [hstatus, ne_eq, not_true_eq_false, false_implies, not_false_eq_true,
          true_implies, true_and, Option.some.injEq, forall_eq']
        rw [handlerFor, hh]
        refine wp_called.trans ?_
        rw [← SaysOnly, saysOnly_bind_silent fun after => ?silent, saysOnly_inr]
        · rfl
        case silent =>
          exact ((onTables_call _).bind fun _ => finish_onTables ..).mono onTables_silent
  · simp [hstatus]

end Endpoints

end DiepLab.Controls
