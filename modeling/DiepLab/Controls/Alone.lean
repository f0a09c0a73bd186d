import DiepLab.Controls.Obligations

/-!
One request that runs alone.

`execute` and `rollback` as functions from the state and the decisions of the
surroundings to the answer and the state after it. A live execution either
stops in front of its handler and changes neither rows nor world, or it is the
handler's own run followed by the update that settles it (`execute_live`).
-/

namespace DiepLab.Controls

open StatementProgram

variable {P D W WC WStmt : Type} {WResp : WStmt → Type}
variable (wsem : WC → (q : WStmt) → W → Except Exc (WResp q) × W)

/-- The run of a program with nothing in between. -/
abbrev alone {α : Type} (p : PlaneProg P D WResp α) (x : Plane P D W × (ℕ → ControlChoice × WC)) :
    Except Exc α × (Plane P D W × (ℕ → ControlChoice × WC)) :=
  p.run (withChoices (planeSem wsem)) x

variable {x : Plane P D W × (ℕ → ControlChoice × WC)}

/-- The decisions that are left after one statement. -/
def rest {C : Type} (c : ℕ → C) : ℕ → C := fun n => c (n + 1)

def statusOf (s : Plane P D W) (i : String) : Option ActionStatus :=
  (s.db.get i).map ActionRow.status

/-! ### The pieces -/

/-- Quiet statements and answers keep the rows and the world. -/
theorem alone_keeps {α : Type} {p : PlaneProg P D WResp α}
    (hp : p.Issues fun q => ∃ q', q = .inl q' ∧ (Quiet q' ∨ ∃ e i, q' = .respond e i)) :
    (alone wsem p x).2.1.db.actions = x.1.db.actions ∧
      (alone wsem p x).2.1.world = x.1.world := by
  have h := hp.run_keeps (withChoices (planeSem wsem))
    (fun x : Plane P D W × (ℕ → ControlChoice × WC) => (x.1.db.actions, x.1.world)) ?_ x
  · injection h with hactions hworld
    exact ⟨hactions, hworld⟩
  · rintro - ⟨s, c⟩ ⟨q, rfl, hq⟩
    simp only [withChoices, planeSem]
    rcases controlSem_cases (c 0).1 q s.db with hsem | ⟨-, hsem⟩
    · rw [hsem]
    · rw [hsem]
      rcases hq with hq | ⟨e, i, rfl⟩
      · cases q with
        | insertAction row => exact hq.elim
        | updateStatus i u read => exact hq.elim
        | invoke op row checked => exact hq.elim
        | respond e i => exact hq.elim
        | _ => rfl
      · rfl

theorem get_congr {db db' : ControlDb P D} (h : db.actions = db'.actions) (i : String) :
    db.get i = db'.get i := by
  rw [ControlDb.get, ControlDb.get, h]

theorem finish_issues (endpoint : Endpoint) (actionId : String) (event : AuditEvent)
    (actor : String) (detail : AuditDetail D) :
    (finish endpoint actionId event actor detail :
      PlaneProg P D WResp (Option (ActionRow P D))).Issues
        fun q => ∃ q', q = .inl q' ∧ (Quiet q' ∨ ∃ e i, q' = .respond e i) := by
  have quiet (q : ControlStmt P D ⊕ WStmt) (hq : ∃ q', q = .inl q' ∧ Quiet q') :
      ∃ q', q = .inl q' ∧ (Quiet q' ∨ ∃ e i, q' = .respond e i) := by
    obtain ⟨q', rfl, hquiet⟩ := hq
    exact ⟨q', rfl, Or.inl hquiet⟩
  refine ((Calm.audit_issues ..).mono quiet).bind fun _ => ?_
  refine (Calm.refreshGauges_issues.mono quiet).bind fun _ => ?_
  refine Prog.Issues.bind ((Prog.issues_call _).mpr ⟨_, rfl, Or.inl trivial⟩) fun _ => ?_
  exact Prog.Issues.bind ((Prog.issues_call _).mpr ⟨_, rfl, Or.inr ⟨_, _, rfl⟩⟩) fun _ => trivial

/-- The world's part of a request does not touch the tables. -/
theorem alone_inr_db {α : Type} (p : Prog WResp Exc α) :
    (alone wsem (p.inr : PlaneProg P D WResp α) x).2.1.db = x.1.db := by
  refine Prog.Issues.run_keeps (withChoices (planeSem wsem))
    (fun x : Plane P D W × (ℕ → ControlChoice × WC) => x.1.db)
    (P := fun q => ∃ q', q = .inr q') ?_ (Prog.issues_inr (fun q => ⟨q, rfl⟩) p) x
  rintro - ⟨s, c⟩ ⟨q, rfl⟩
  rfl

/-- The world's part of a request runs as it does without the tables. -/
theorem alone_inr {α : Type} (p : Prog WResp Exc α) (s : Plane P D W)
    (c : ℕ → ControlChoice × WC) :
    (alone wsem (p.inr : PlaneProg P D WResp α) (s, c)).1 =
        (p.run (withChoices wsem) (s.world, fun n => (c n).2)).1 ∧
      (alone wsem (p.inr : PlaneProg P D WResp α) (s, c)).2.1.world =
        (p.run (withChoices wsem) (s.world, fun n => (c n).2)).2.1 := by
  induction p generalizing s c with
  | ret a => exact ⟨rfl, rfl⟩
  | raise e => exact ⟨rfl, rfl⟩
  | stmt q k ih => exact ih _ { s with world := (wsem (c 0).2 q s.world).2 } (rest c)

theorem updateStatus_alone (s : Plane P D W) (c : ℕ → ControlChoice × WC) (i : String)
    (u : StatusUpdate D) (read : ActionRow P D) :
    alone wsem (Db.updateStatus i u read : PlaneProg P D WResp Unit) (s, c) =
      match (c 0).1.fails with
      | none => (.ok (), (s.update i u, rest c))
      | some m => (.error (.other m), (s, rest c)) := by
  refine (Prog.run_call _ _ _).trans ?_
  simp only [withChoices, planeSem, controlSem, ControlStmt.failure]
  cases (c 0).1.fails <;> rfl

theorem fetch_alone (s : Plane P D W) (c : ℕ → ControlChoice × WC) (i : String)
    (principal : Principal) (row : ActionRow P D) (hrow : s.db.get i = some row) :
    if (c 0).1.fails = none ∧ tenantOk principal row then
      alone wsem (fetch i principal : PlaneProg P D WResp _) (s, c) = (.ok row, (s, rest c))
    else ∃ e, alone wsem (fetch i principal : PlaneProg P D WResp _) (s, c) =
      (.error e, (s, rest c)) := by
  have hget : alone wsem (Db.getAction i : PlaneProg P D WResp _) (s, c) =
      match (c 0).1.fails with
      | none => (.ok (some row), (s, rest c))
      | some m => (.error (.other m), (s, rest c)) := by
    refine (Prog.run_call _ _ _).trans ?_
    simp only [withChoices, planeSem, controlSem, ControlStmt.failure]
    cases (c 0).1.fails with
    | none =>
        simp only [Option.map_none, controlExec, hrow]
        rfl
    | some m => rfl
  simp only [alone, fetch, Prog.run_bind] at hget ⊢
  rw [hget]
  cases (c 0).1.fails with
  | some m => simp
  | none =>
      by_cases htenant : tenantOk principal row
      · simp [htenant]
      · simp [htenant]

/-- What the gates of a live execution ask of the flag and the row. -/
def GatesOpen (s : Plane P D W) (row : ActionRow P D) : Prop :=
  s.db.enabled = true ∧ (row.risk = .high → row.status = .APPROVED) ∧
    (row.status = .PENDING ∨ row.status = .APPROVED)

instance (s : Plane P D W) (row : ActionRow P D) : Decidable (GatesOpen s row) :=
  inferInstanceAs (Decidable (_ ∧ _ ∧ _))

/-- The program ends in an exception and keeps rows and world. -/
def Refuses {α : Type} (p : PlaneProg P D WResp α) : Prop :=
  ∀ x, ∃ e y, alone wsem p x = (.error e, y) ∧ y.1.db.actions = x.1.db.actions ∧
    y.1.world = x.1.world

variable {wsem} in
theorem Refuses.throw {α : Type} (e : Exc) :
    Refuses wsem (throw e : PlaneProg P D WResp α) :=
  fun x => ⟨e, x, rfl, rfl, rfl⟩

variable {wsem} in
theorem Refuses.bind {α β : Type} {p : PlaneProg P D WResp β} {k : β → PlaneProg P D WResp α}
    (hp : p.Issues fun q => ∃ q', q = .inl q' ∧ Quiet q') (hk : ∀ b, Refuses wsem (k b)) :
    Refuses wsem (p >>= k) := by
  intro x
  have hkeeps := alone_keeps wsem (x := x)
    (hp.mono fun q ⟨q', hq, hquiet⟩ => ⟨q', hq, Or.inl hquiet⟩)
  simp only [alone, Prog.run_bind] at hkeeps ⊢
  generalize Prog.run _ p x = out at hkeeps ⊢
  obtain ⟨r, y⟩ := out
  cases r with
  | ok b =>
      obtain ⟨e, z, hrun, hactions, hworld⟩ := hk b y
      exact ⟨e, z, hrun, hactions.trans hkeeps.1, hworld.trans hkeeps.2⟩
  | error e => exact ⟨e, y, rfl, hkeeps⟩

theorem liveGates_alone (s : Plane P D W) (c : ℕ → ControlChoice × WC) (i : String)
    (principal : Principal) (row : ActionRow P D) :
    if GatesOpen s row then
      alone wsem (liveGates row i principal : PlaneProg P D WResp Bool) (s, c) =
        (.ok true, (s, rest c))
    else ∃ e y, alone wsem (liveGates row i principal : PlaneProg P D WResp Bool) (s, c) =
      (.error e, y) ∧ y.1.db.actions = s.db.actions ∧ y.1.world = s.world := by
  have hflag : alone wsem (Db.controlsEnabled : PlaneProg P D WResp Bool) (s, c) =
      (.ok s.db.enabled, (s, rest c)) := Prog.run_call _ _ _
  have hblocked (detail : AuditDetail D) (e : Exc) :
      Refuses wsem (audit i .BLOCKED principal.name detail >>= fun _ => throw e :
        PlaneProg P D WResp Bool) :=
    .bind (Calm.audit_issues ..) fun _ => .throw e
  simp only [alone] at hflag ⊢
  unfold liveGates
  rw [Prog.run_bind, hflag]
  by_cases henabled : s.db.enabled = true
  · by_cases hrisk : row.risk = .high
    · by_cases hstatus : row.status = .APPROVED
      · simp [GatesOpen, henabled, hrisk, hstatus]
      · simp only [GatesOpen, henabled, hrisk, hstatus, forall_const, false_and, and_false,
          not_true_eq_false, if_false, if_true, ne_eq, not_false_eq_true]
        exact hblocked _ _ _
    · by_cases hstatus : row.status = .PENDING ∨ row.status = .APPROVED
      · have hnone : ¬ (row.status ≠ .PENDING ∧ row.status ≠ .APPROVED) := by tauto
        simp [GatesOpen, henabled, hrisk, hstatus, singleOperator, hnone]
      · have hboth : row.status ≠ .PENDING ∧ row.status ≠ .APPROVED := by tauto
        simp [GatesOpen, henabled, hrisk, singleOperator, hboth]
  · simp only [GatesOpen, henabled]
    exact hblocked _ _ _

/-! ### Live execution -/

/-- The state in which a handler is called. -/
def Plane.invoked (s : Plane P D W) (op : Op) (row : ActionRow P D) (checked : Option Bool) :
    Plane P D W :=
  { s with db := { s.db with log := s.db.log ++ [.invoked op row checked s.db.enabled] } }

theorem invoke_alone (s : Plane P D W) (c : ℕ → ControlChoice × WC) (op : Op)
    (row : ActionRow P D) (checked : Option Bool) :
    alone wsem (Db.invoke op row checked : PlaneProg P D WResp Unit) (s, c) =
      (.ok (), (s.invoked op row checked, rest c)) := Prog.run_call _ _ _

/-- A live execution that gets as far as its handler. -/
def Called (s : Plane P D W) (c : ℕ → ControlChoice × WC) (principal : Principal)
    (row : ActionRow P D) : Prop :=
  (c 0).1.fails = none ∧ tenantOk principal row ∧ GatesOpen s row

instance (s : Plane P D W) (c : ℕ → ControlChoice × WC) (principal : Principal)
    (row : ActionRow P D) : Decidable (Called s c principal row) :=
  inferInstanceAs (Decidable (_ ∧ _ ∧ _))

/-- The handler's own part of a live execution. -/
def handled (handler : ControlHandler P D WResp) (s : Plane P D W)
    (c : ℕ → ControlChoice × WC) (row : ActionRow P D) :
    Except Exc D × (Plane P D W × (ℕ → ControlChoice × WC)) :=
  alone wsem (handler.execute row).inr
    (s.invoked .execute row (some true), rest (rest (rest c)))

theorem get_handled (handler : ControlHandler P D WResp) (s : Plane P D W)
    (c : ℕ → ControlChoice × WC) (row : ActionRow P D) (i : String) :
    (handled wsem handler s c row).2.1.db.get i = s.db.get i := by
  rw [handled, alone_inr_db]
  rfl

/-- What follows when the handler raises: the world stays, and the action is
not EXECUTED. -/
theorem handler_raised_alone (s : Plane P D W) (c : ℕ → ControlChoice × WC) (i : String)
    (principal : Principal) (row : ActionRow P D) (hrow : s.db.get i = some row)
    (hstatus : row.status ≠ .EXECUTED) (exc : Exc) :
    ∃ e y, alone wsem (if exc.isHttp then throw exc
      else do
        Db.updateStatus i (.failed exc.text) row
        audit i .FAILED principal.name (.error exc.text)
        refreshGauges
        throw (.http 500 (.text ("execution failed: " ++ exc.text))) : PlaneProg P D WResp D)
        (s, c) = (.error e, y) ∧ y.1.world = s.world ∧ statusOf y.1 i ≠ some .EXECUTED := by
  have hbefore : statusOf s i ≠ some .EXECUTED := by
    rw [statusOf, hrow]
    exact fun h => hstatus (Option.some.inj h)
  have hupdate := updateStatus_alone wsem s c i (.failed exc.text) row
  cases hhttp : exc.isHttp with
  | true => exact ⟨exc, (s, c), by simp, rfl, hbefore⟩
  | false =>
      simp only [alone] at hupdate ⊢
      simp only [Bool.false_eq_true, if_false]
      rw [Prog.run_bind, hupdate]
      cases (c 0).1.fails with
      | some m => exact ⟨_, _, rfl, rfl, hbefore⟩
      | none =>
          have hafter : statusOf (s.update i (.failed exc.text)) i ≠ some .EXECUTED := by
            rw [statusOf, Plane.update, ControlDb.get_update, if_pos rfl, hrow]
            simp [StatusUpdate.status]
          have htail : Refuses wsem (do
              audit i .FAILED principal.name (.error exc.text)
              refreshGauges
              throw (.http 500 (.text ("execution failed: " ++ exc.text))) :
                PlaneProg P D WResp D) :=
            .bind (Calm.audit_issues ..) fun _ => .bind Calm.refreshGauges_issues fun _ => .throw _
          obtain ⟨e, y, hrun, hactions, hworld⟩ := htail (s.update i (.failed exc.text), rest c)
          refine ⟨e, y, hrun, hworld, ?_⟩
          rw [statusOf, get_congr hactions]
          exact hafter

theorem handlerFor_alone {handlers : Registry P D WResp} {actionType : String}
    {handler : ControlHandler P D WResp} (hh : handlers actionType = some handler)
    (detail : String) : handlerFor handlers actionType detail = pure handler := by
  rw [handlerFor, hh]

/-- What follows when the handler returns: the update that settles the call. -/
theorem handler_returned_alone (s : Plane P D W) (c : ℕ → ControlChoice × WC) (i : String)
    (principal : Principal) (row : ActionRow P D) (hrow : s.db.get i = some row) (after : D) :
    let out := alone wsem (do
        Db.updateStatus i (.executed (.doc after)) row
        finish .execute i .EXECUTED principal.name (.after after (some .live)) :
          PlaneProg P D WResp (Option (ActionRow P D))) (s, c)
    out.2.1.world = s.world ∧
      if (c 0).1.fails = none then
        out.2.1.db.get i = some ((StatusUpdate.executed (.doc after)).apply row)
      else (∃ e, out.1 = .error e) ∧ out.2.1.db.get i = some row := by
  have hupdate := updateStatus_alone wsem s c i (.executed (.doc after)) row
  simp only [alone] at hupdate ⊢
  rw [Prog.run_bind, hupdate]
  cases (c 0).1.fails with
  | some m => exact ⟨rfl, ⟨_, rfl⟩, hrow⟩
  | none =>
      obtain ⟨hactions, hworld⟩ := alone_keeps wsem
        (x := (s.update i (.executed (.doc after)), rest c))
        (finish_issues .execute i .EXECUTED principal.name
          (.after after (some .live)))
      refine ⟨hworld, ?_⟩
      rw [if_pos rfl, get_congr hactions]
      change (s.db.update i _).get i = _
      rw [ControlDb.get_update, if_pos rfl, hrow]
      rfl

/-- The handler's own part, and what an exception of it leads to. -/
theorem actuate_alone (handler : ControlHandler P D WResp) (s : Plane P D W)
    (c : ℕ → ControlChoice × WC) (i : String) (principal : Principal) (row : ActionRow P D) :
    alone wsem (actuate handler row i principal)
        (s.invoked .execute row (some true), rest (rest (rest c))) =
      match handled wsem handler s c row with
      | (.ok after, y) => (.ok after, y)
      | (.error exc, y) => alone wsem (if exc.isHttp then throw exc
          else do
            Db.updateStatus i (.failed exc.text) row
            audit i .FAILED principal.name (.error exc.text)
            refreshGauges
            throw (.http 500 (.text ("execution failed: " ++ exc.text)))) y := by
  rw [alone, actuate, Prog.run_attempt, ← alone, ← handled]
  obtain ⟨r, y⟩ := handled wsem handler s c row
  cases r <;> rfl

section ExecuteLive

variable {wsem}
variable {handlers : Registry P D WResp} {s : Plane P D W} {c : ℕ → ControlChoice × WC}
variable {i : String} {principal : Principal} {row : ActionRow P D}
variable {handler : ControlHandler P D WResp}
variable (hrow : s.db.get i = some row) (hlive : row.mode = .live)
variable (hh : handlers row.actionType = some handler)
include hrow hlive hh

/-- The row is fetched; the gates come next. -/
theorem execute_fetched (hf : (c 0).1.fails = none ∧ tenantOk principal row) :
    alone wsem (execute handlers i principal) (s, c) =
      alone wsem (do
        let enabled ← liveGates row i principal
        Db.invoke .execute row (some enabled)
        let after ← actuate handler row i principal
        Db.updateStatus i (.executed (.doc after)) row
        finish .execute i .EXECUTED principal.name (.after after (some .live))) (s, rest c) := by
  have hfetch := fetch_alone wsem s c i principal row hrow
  rw [if_pos hf] at hfetch
  have hmode : ¬ row.mode = .dry_run := by rw [hlive]; exact fun h => nomatch h
  simp only [alone, execute] at hfetch ⊢
  rw [Prog.run_bind, hfetch]
  simp only [handlerFor_alone hh, hmode, if_false, Prog.run_bind, Prog.run_pure]

/-- The gates are open; the handler comes next. -/
theorem execute_called (hcalled : Called s c principal row) :
    alone wsem (execute handlers i principal) (s, c) =
      alone wsem (do
        let after ← actuate handler row i principal
        Db.updateStatus i (.executed (.doc after)) row
        finish .execute i .EXECUTED principal.name (.after after (some .live)))
        (s.invoked .execute row (some true), rest (rest (rest c))) := by
  obtain ⟨hfails, htenant, hopen⟩ := hcalled
  have hgates := liveGates_alone wsem s (rest c) i principal row
  have hinvoke := invoke_alone wsem s (rest (rest c)) .execute row (some true)
  rw [if_pos hopen] at hgates
  rw [execute_fetched hrow hlive hh ⟨hfails, htenant⟩]
  simp only [alone] at hgates hinvoke ⊢
  rw [Prog.run_bind, hgates]
  simp only
  rw [Prog.run_bind, hinvoke]

theorem execute_refused (hcalled : ¬ Called s c principal row) :
    let out := alone wsem (execute handlers i principal) (s, c)
    (∃ e, out.1 = .error e) ∧ out.2.1.world = s.world ∧ out.2.1.db.get i = some row := by
  intro out
  by_cases hf : (c 0).1.fails = none ∧ tenantOk principal row
  · have hgates := liveGates_alone wsem s (rest c) i principal row
    rw [if_neg fun hopen => hcalled ⟨hf.1, hf.2, hopen⟩] at hgates
    obtain ⟨e, y, hrun, hactions, hworld⟩ := hgates
    simp only [out]
    rw [execute_fetched hrow hlive hh hf]
    simp only [alone] at hrun ⊢
    rw [Prog.run_bind, hrun]
    exact ⟨⟨e, rfl⟩, hworld, (get_congr hactions i).trans hrow⟩
  · have hfetch := fetch_alone wsem s c i principal row hrow
    rw [if_neg hf] at hfetch
    obtain ⟨e, hrun⟩ := hfetch
    simp only [alone] at hrun
    simp only [out, alone, execute]
    rw [Prog.run_bind, hrun]
    exact ⟨⟨e, rfl⟩, rfl, hrow⟩

end ExecuteLive

/-- **Live execution.** Either the request is refused in front of the handler,
and rows and world stay; or the world is as the handler leaves it, and the
action is EXECUTED exactly when the handler returns and the update after it
succeeds. -/
theorem execute_live (handlers : Registry P D WResp) (s : Plane P D W)
    (c : ℕ → ControlChoice × WC) (i : String) (principal : Principal) {row : ActionRow P D}
    {handler : ControlHandler P D WResp} (hrow : s.db.get i = some row) (hlive : row.mode = .live)
    (hh : handlers row.actionType = some handler) :
    let out := alone wsem (execute handlers i principal) (s, c)
    if Called s c principal row then
      out.2.1.world = (handled wsem handler s c row).2.1.world ∧
        match (handled wsem handler s c row).1 with
        | .error _ => (∃ e, out.1 = .error e) ∧ statusOf out.2.1 i ≠ some .EXECUTED
        | .ok after =>
            if ((handled wsem handler s c row).2.2 0).1.fails = none then
              out.2.1.db.get i = some ((StatusUpdate.executed (.doc after)).apply row)
            else (∃ e, out.1 = .error e) ∧ out.2.1.db.get i = some row
    else (∃ e, out.1 = .error e) ∧ out.2.1.world = s.world ∧ out.2.1.db.get i = some row := by
  by_cases hcalled : Called s c principal row
  · have hget := get_handled wsem handler s c row i
    have hactuate := actuate_alone wsem handler s c i principal row
    have hexec : row.status ≠ .EXECUTED := by
      rcases hcalled.2.2.2.2 with h | h <;> rw [h] <;> exact fun h => nomatch h
    rw [hrow] at hget
    rw [if_pos hcalled, execute_called hrow hlive hh hcalled]
    simp only [alone] at hactuate ⊢
    rw [Prog.run_bind, hactuate]
    generalize handled wsem handler s c row = called at hget ⊢
    obtain ⟨r, y, c'⟩ := called
    cases r with
    | ok after => exact handler_returned_alone wsem y c' i principal row hget after
    | error exc =>
        obtain ⟨e, z, hrun, hworld, hstatus⟩ :=
          handler_raised_alone wsem y c' i principal row hget hexec exc
        simp only [alone] at hrun
        simp only [hrun]
        exact ⟨hworld, ⟨e, rfl⟩, hstatus⟩
  · rw [if_neg hcalled]
    exact execute_refused hrow hlive hh hcalled

/-! ### Dry runs and rollbacks -/

variable {wsem}

/-- A request on an action that returns has fetched its row. -/
theorem fetch_ok {s : Plane P D W} {c : ℕ → ControlChoice × WC} {i : String}
    {principal : Principal} {row row' : ActionRow P D} (hrow : s.db.get i = some row)
    (h : (alone wsem (fetch i principal : PlaneProg P D WResp _) (s, c)).1 = .ok row') :
    row' = row ∧
      (alone wsem (fetch i principal : PlaneProg P D WResp _) (s, c)).2 = (s, rest c) := by
  have hfetch := fetch_alone wsem s c i principal row hrow
  split at hfetch
  · rw [hfetch] at h ⊢
    injection h with h
    exact ⟨h.symm, rfl⟩
  · obtain ⟨e, hrun⟩ := hfetch
    rw [hrun] at h
    cases h

theorem updateStatus_ok {s : Plane P D W} {c : ℕ → ControlChoice × WC} {i : String}
    {u : StatusUpdate D} {read : ActionRow P D}
    (h : (alone wsem (Db.updateStatus i u read : PlaneProg P D WResp Unit) (s, c)).1 = .ok ()) :
    (alone wsem (Db.updateStatus i u read : PlaneProg P D WResp Unit) (s, c)).2 =
      (s.update i u, rest c) := by
  rw [updateStatus_alone] at h ⊢
  cases hfails : (c 0).1.fails with
  | none => rfl
  | some m =>
      rw [hfails] at h
      cases h

theorem executeDryRun_ok {s : Plane P D W} {c : ℕ → ControlChoice × WC} {i : String}
    {principal : Principal} {row : ActionRow P D} {a : Option (ActionRow P D)}
    (hrow : s.db.get i = some row)
    (ha : (alone wsem (executeDryRun row i principal : PlaneProg P D WResp _) (s, c)).1 = .ok a) :
    let out := (alone wsem (executeDryRun row i principal : PlaneProg P D WResp _) (s, c)).2.1
    out.world = s.world ∧ out.db.get i = some ((StatusUpdate.executed .dryRun).apply row) := by
  simp only [alone, executeDryRun, singleOperator] at ha ⊢
  obtain ⟨_, hchecked, hrun⟩ := Prog.run_bind_ok _ ha
  obtain ⟨-, hstate⟩ := Prog.run_raiseIf_ok _ hchecked
  rw [hrun, hstate] at ha ⊢
  obtain ⟨_, -, hrun⟩ := Prog.run_bind_ok _ ha
  rw [hrun] at ha ⊢
  have haudit := alone_keeps wsem (x := (s, c))
    ((Calm.audit_issues i .DRYRUN principal.name .empty).mono fun q hq =>
      hq.imp fun _ hq => ⟨hq.1, Or.inl hq.2⟩)
  simp only [alone] at haudit
  generalize (Prog.run _ (audit i .DRYRUN principal.name .empty) (s, c)).2 = y at haudit ha ⊢
  obtain ⟨s₁, c₁⟩ := y
  obtain ⟨_, hupdated, hrun⟩ := Prog.run_bind_ok _ ha
  rw [hrun, updateStatus_ok hupdated]
  -- what is left of the endpoint reads, and answers
  generalize hp : (refreshGauges >>= _ : PlaneProg P D WResp (Option (ActionRow P D))) = p
  have htail := alone_keeps wsem (x := (s₁.update i (.executed .dryRun), rest c₁)) (p := p) ?_
  · refine ⟨htail.2.trans haudit.2, ?_⟩
    refine (get_congr htail.1 i).trans ?_
    change (s₁.db.update i _).get i = _
    rw [ControlDb.get_update, if_pos rfl, get_congr haudit.1 i, hrow]
    rfl
  · rw [← hp]
    refine (Calm.refreshGauges_issues.mono fun q hq =>
      hq.imp fun _ hq => ⟨hq.1, Or.inl hq.2⟩).bind fun _ => ?_
    refine Prog.Issues.bind ((Prog.issues_call _).mpr ⟨_, rfl, Or.inl trivial⟩) fun after => ?_
    cases after with
    | none => trivial
    | some after =>
        exact Prog.Issues.bind ((Prog.issues_call _).mpr ⟨_, rfl, Or.inr ⟨_, _, rfl⟩⟩)
          fun _ => trivial

/-- A dry run that returns has touched nothing but its own row. -/
theorem execute_dryRun (handlers : Registry P D WResp) (s : Plane P D W)
    (c : ℕ → ControlChoice × WC) (i : String) (principal : Principal) {row : ActionRow P D}
    {handler : ControlHandler P D WResp} (hrow : s.db.get i = some row)
    (hdry : row.mode = .dry_run) (hh : handlers row.actionType = some handler)
    {a : Option (ActionRow P D)}
    (ha : (alone wsem (execute handlers i principal) (s, c)).1 = .ok a) :
    let out := (alone wsem (execute handlers i principal) (s, c)).2.1
    out.world = s.world ∧ out.db.get i = some ((StatusUpdate.executed .dryRun).apply row) := by
  obtain ⟨row', hfetched, hrun⟩ := Prog.run_bind_ok _ ha
  obtain ⟨rfl, hstate⟩ := fetch_ok hrow hfetched
  simp only [alone] at hstate ha ⊢
  rw [execute, hrun, hstate] at ha ⊢
  simp only [handlerFor_alone hh, hdry, if_true] at ha ⊢
  exact executeDryRun_ok hrow ha

/-! ### Rollback -/

variable (wsem) in
/-- The handler's own part of a rollback. -/
def handledRollback (handler : ControlHandler P D WResp) (s : Plane P D W)
    (c : ℕ → ControlChoice × WC) (row : ActionRow P D) :
    Except Exc D × (Plane P D W × (ℕ → ControlChoice × WC)) :=
  alone wsem (handler.rollback row).inr (s.invoked .rollback row none, rest (rest c))

/-- A rollback that returns was one of an EXECUTED action, and leaves the
world as the handler does. -/
theorem rollback_ok (handlers : Registry P D WResp) (s : Plane P D W)
    (c : ℕ → ControlChoice × WC) (i : String) (principal : Principal) {row : ActionRow P D}
    {handler : ControlHandler P D WResp} (hrow : s.db.get i = some row)
    (hh : handlers row.actionType = some handler) {a : Option (ActionRow P D)}
    (ha : (alone wsem (rollback handlers i principal) (s, c)).1 = .ok a) :
    (∃ after, (handledRollback wsem handler s c row).1 = .ok after) ∧
      (alone wsem (rollback handlers i principal) (s, c)).2.1.world =
        (handledRollback wsem handler s c row).2.1.world := by
  obtain ⟨row', hfetched, hrun⟩ := Prog.run_bind_ok _ ha
  obtain ⟨rfl, hstate⟩ := fetch_ok hrow hfetched
  simp only [alone] at hstate ha ⊢
  rw [rollback, hrun, hstate] at ha ⊢
  obtain ⟨_, hchecked, hrun⟩ := Prog.run_bind_ok _ ha
  obtain ⟨-, hstate⟩ := Prog.run_raiseIf_ok _ hchecked
  rw [hrun, hstate] at ha ⊢
  simp only [handlerFor_alone hh] at ha ⊢
  obtain ⟨handler', hhandler, hrun⟩ := Prog.run_bind_ok _ ha
  injection hhandler with hhandler
  subst hhandler
  rw [hrun, Prog.run_pure] at ha ⊢
  obtain ⟨_, -, hrun⟩ := Prog.run_bind_ok _ ha
  have hinvoke := invoke_alone wsem s (rest c) .rollback row' none
  simp only [alone] at hinvoke
  rw [hrun, hinvoke] at ha ⊢
  obtain ⟨after, hafter, hrun⟩ := Prog.run_bind_ok _ ha
  refine ⟨⟨after, hafter⟩, ?_⟩
  rw [hrun] at ha ⊢
  rw [handledRollback, alone]
  generalize (Prog.run _ (handler.rollback row').inr _).2 = y at ha ⊢
  obtain ⟨s₁, c₁⟩ := y
  obtain ⟨_, hupdated, hrun⟩ := Prog.run_bind_ok _ ha
  rw [hrun, updateStatus_ok hupdated]
  exact (alone_keeps wsem
    (finish_issues .rollback i .ROLLED_BACK principal.name (.after after none))).2

end DiepLab.Controls
