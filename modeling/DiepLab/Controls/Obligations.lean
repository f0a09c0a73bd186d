import DiepLab.Controls.Plane
import DiepLab.Library.Interleaving

/-!
What each endpoint has to prove.

For rules `R` about the control plane, a statement is `Safe` in a state when
it meets what `R` needs there and moves along what `R` relies on. Most
statements of the endpoints read, write the audit trail, or belong to a
handler; rules that let all of these pass are `Calm`. Under calm rules an
endpoint comes down to its few effects: the row it inserts, the status it
writes, the handler it calls, the answer it gives. One theorem for each
endpoint says which effects these are and what is known when they happen: the
row that was read, the checks that it passed, and that the state has only
moved along `rely` since.
-/

namespace DiepLab.Controls

open StatementProgram

variable {P D W WC WStmt : Type} {WResp : WStmt → Type}
variable (wsem : WC → (q : WStmt) → W → Except Exc (WResp q) × W)

/-- Rules about the control plane. -/
abbrev PlaneRules (P D WStmt WC W : Type) :=
  Rules (ControlStmt P D ⊕ WStmt) (ControlChoice × WC) (Plane P D W)

/-- The program can be run, and if it returns, then with `K`. -/
def Runs (R : PlaneRules P D WStmt WC W) {α : Type} (p : PlaneProg P D WResp α)
    (K : α → Plane P D W → Prop) (s : Plane P D W) : Prop :=
  wp (planeSem wsem) R p (fun r s' => ∀ a, r = .ok a → K a s') s

def Safe (R : PlaneRules P D WStmt WC W) (q : ControlStmt P D) (s : Plane P D W) : Prop :=
  ∀ c, R.admits c (.inl q) s →
    R.needs c (.inl q) s ∧ R.rely s (planeSem wsem c (.inl q) s).2

/-- The statements without an effect on actions and log. -/
def Quiet : ControlStmt P D → Prop
  | .insertAction _ => False
  | .updateStatus .. => False
  | .invoke .. => False
  | .respond .. => False
  | _ => True

/-- A program of a handler keeps to `rely`. -/
def Keeps (R : PlaneRules P D WStmt WC W) {α : Type} (p : Prog WResp Exc α) : Prop :=
  ∀ s, R.rely s s → wp (planeSem wsem) R (p.inr : PlaneProg P D WResp α)
    (fun _ s' => R.rely s s') s

structure Calm (handlers : Registry P D WResp) (R : PlaneRules P D WStmt WC W) : Prop where
  trans : ∀ a b c, R.rely a b → R.rely b c → R.rely a c
  self : ∀ a b, R.rely a b → R.rely b b
  quiet : ∀ q s, R.rely s s → Quiet q → Safe wsem R q s
  riskFor : ∀ name h, handlers name = some h → ∀ t p, Keeps wsem R (h.riskFor t p)
  plan : ∀ name h, handlers name = some h → ∀ t p, Keeps wsem R (h.plan t p)
  execute : ∀ name h, handlers name = some h → ∀ row, Keeps wsem R (h.execute row)
  rollback : ∀ name h, handlers name = some h → ∀ row, Keeps wsem R (h.rollback row)

variable {wsem}

/-- Rules that let every statement of the world pass let every handler pass. -/
theorem keeps_of_world {R : PlaneRules P D WStmt WC W}
    (htrans : ∀ a b c, R.rely a b → R.rely b c → R.rely a c)
    (hself : ∀ a b, R.rely a b → R.rely b b)
    (hworld : ∀ c q s, R.rely s s → R.admits c (.inr q) s →
      R.needs c (.inr q) s ∧ R.rely s (planeSem wsem c (.inr q) s).2)
    {α : Type} (p : Prog WResp Exc α) : Keeps wsem R p := by
  intro s hs
  refine wp.of_issues (P := fun q => ∃ q', q = .inr q') htrans hself ?_
    (Prog.issues_inr (fun q => ⟨q, rfl⟩) p) hs fun _ s' hs' => hs'
  rintro c - s ⟨q, rfl⟩ hs hadm
  exact hworld c q s hs hadm

theorem Calm.of_world (handlers : Registry P D WResp) {R : PlaneRules P D WStmt WC W}
    (htrans : ∀ a b c, R.rely a b → R.rely b c → R.rely a c)
    (hself : ∀ a b, R.rely a b → R.rely b b)
    (hquiet : ∀ q s, R.rely s s → Quiet q → Safe wsem R q s)
    (hworld : ∀ c q s, R.rely s s → R.admits c (.inr q) s →
      R.needs c (.inr q) s ∧ R.rely s (planeSem wsem c (.inr q) s).2) :
    Calm wsem handlers R where
  trans := htrans
  self := hself
  quiet := hquiet
  riskFor _ _ _ _ _ := keeps_of_world htrans hself hworld _
  plan _ _ _ _ _ := keeps_of_world htrans hself hworld _
  execute _ _ _ _ := keeps_of_world htrans hself hworld _
  rollback _ _ _ _ := keeps_of_world htrans hself hworld _

/-- A status update moves the tables and the log in one step. -/
def Plane.update (s : Plane P D W) (actionId : String) (u : StatusUpdate D) : Plane P D W :=
  { s with db := s.db.update actionId u }

def Plane.insert (s : Plane P D W) (row : ActionRow P D) : Plane P D W :=
  { s with db := { s.db with actions := s.db.actions ++ [row] } }

/-- Rows stay, and with them what was requested. -/
def RowsStay (a b : Plane P D W) : Prop :=
  ∀ i row, a.db.get i = some row → ∃ row', b.db.get i = some row' ∧ SameRequest row row'

/-- The row holds what was asked for. -/
structure Asked (actionType : String) (target : Option String) (params : P) (mode : Mode)
    (requestedBy : String) (row : ActionRow P D) : Prop where
  actionType : row.actionType = actionType
  target : row.target = target
  params : row.params = params
  mode : row.mode = mode
  requestedBy : row.requestedBy = requestedBy

instance [DecidableEq P] (actionType : String) (target : Option String) (params : P) (mode : Mode)
    (requestedBy : String) (row : ActionRow P D) :
    Decidable (Asked actionType target params mode requestedBy row) :=
  decidable_of_iff (row.actionType = actionType ∧ row.target = target ∧ row.params = params ∧
      row.mode = mode ∧ row.requestedBy = requestedBy)
    ⟨fun ⟨h₁, h₂, h₃, h₄, h₅⟩ => ⟨h₁, h₂, h₃, h₄, h₅⟩,
      fun h => ⟨h.actionType, h.target, h.params, h.mode, h.requestedBy⟩⟩

theorem Asked.same {actionType : String} {target : Option String} {params : P} {mode : Mode}
    {requestedBy : String} {a b : ActionRow P D}
    (h : Asked actionType target params mode requestedBy a) (hab : SameRequest a b) :
    Asked actionType target params mode requestedBy b where
  actionType := hab.actionType ▸ h.actionType
  target := hab.target ▸ h.target
  params := hab.params ▸ h.params
  mode := hab.mode ▸ h.mode
  requestedBy := hab.requestedBy ▸ h.requestedBy

variable {handlers : Registry P D WResp} {R : PlaneRules P D WStmt WC W}

/-! ### One program after the other -/

section Rules

variable {α β : Type} {K : α → Plane P D W → Prop} {s : Plane P D W}

theorem runs_pure (a : α) (hK : K a s) : Runs wsem R (pure a : PlaneProg P D WResp α) K s := by
  intro b hb
  injection hb with hb
  exact hb ▸ hK

theorem runs_throw (e : Exc) : Runs wsem R (throw e : PlaneProg P D WResp α) K s :=
  fun _ hb => nomatch hb

theorem runs_bind {p : PlaneProg P D WResp β} {k : β → PlaneProg P D WResp α}
    (h : Runs wsem R p (fun b => Runs wsem R (k b) K) s) : Runs wsem R (p >>= k) K s :=
  wp.bind h (fun b _ hr => hr b rfl) fun _ _ _ _ ha => nomatch ha

theorem runs_raiseIf {c : Prop} [Decidable c] {e : Exc} {K : Unit → Plane P D W → Prop}
    (hK : ¬ c → K () s) :
    Runs wsem R (Prog.raiseIf c e : PlaneProg P D WResp Unit) K s := by
  refine (wp_raiseIf (planeSem wsem) R c e _ s).mpr ⟨?_, fun hc _ _ => hK hc⟩
  exact fun _ _ ha => nomatch ha

/-- An effect. -/
theorem runs_effect {q : ControlStmt P D} {K : ControlResp q → Plane P D W → Prop}
    (hsafe : ∀ s', R.rely s s' → Safe wsem R q s')
    (hK : ∀ c s', R.rely s s' → R.rely s' { s' with db := (controlExec c q s'.db).2 } →
      K (controlExec c q s'.db).1 { s' with db := (controlExec c q s'.db).2 }) :
    Runs wsem R (Prog.call (Sum.inl q) : PlaneProg P D WResp (ControlResp q)) K s := by
  refine (wp_call (planeSem wsem) R _ _ s).mpr fun s' hs' c hadm => ?_
  obtain ⟨hneeds, hmove⟩ := hsafe s' hs' c hadm
  refine ⟨hneeds, fun a ha => ?_⟩
  have hsem := controlSem_ok (show (controlSem c.1 q s'.db).1 = .ok a from ha)
  simp only [planeSem, hsem] at ha hmove ⊢
  injection ha with ha
  exact ha ▸ hK c.1 s' hs' hmove

theorem runs_update {i : String} {u : StatusUpdate D} {read : ActionRow P D}
    {K : Unit → Plane P D W → Prop}
    (hsafe : ∀ s', R.rely s s' → Safe wsem R (.updateStatus i u read) s')
    (hK : ∀ s', R.rely s s' → R.rely s' (s'.update i u) → K () (s'.update i u)) :
    Runs wsem R (Db.updateStatus i u read) K s :=
  runs_effect hsafe fun _ s' hs' hmove => hK s' hs' hmove

theorem runs_insert {row : ActionRow P D} {K : Unit → Plane P D W → Prop}
    (hsafe : ∀ s', R.rely s s' → Safe wsem R (.insertAction row) s')
    (hK : ∀ s', R.rely s s' → R.rely s' (s'.insert row) →
      (s'.insert row).db.get row.actionId = some row → K () (s'.insert row)) :
    Runs wsem R (Db.insertAction row) K s := by
  refine (wp_call (planeSem wsem) R _ _ s).mpr fun s' hs' c hadm => ?_
  obtain ⟨hneeds, hmove⟩ := hsafe s' hs' c hadm
  refine ⟨hneeds, fun a ha => ?_⟩
  have hok : (controlSem c.1 (.insertAction row) s'.db).1 = .ok a := ha
  have hsem := controlSem_ok hok
  simp only [planeSem, hsem] at hmove ⊢
  exact hK s' hs' hmove (ControlDb.get_insert_new (insertAction_ok hok))

theorem runs_keeps {p : Prog WResp Exc α} (hp : Keeps wsem R p) (hs : R.rely s s)
    (hK : ∀ a s', R.rely s s' → K a s') : Runs wsem R (p.inr : PlaneProg P D WResp α) K s :=
  (hp s hs).mono fun _ s' hs' a _ => hK a s' hs'

/-- A handler's program of which the exceptions are caught. -/
theorem runs_attempt_keeps {p : Prog WResp Exc α} {f : Exc → PlaneProg P D WResp α}
    (hp : Keeps wsem R p) (hs : R.rely s s) (hK : ∀ a s', R.rely s s' → K a s')
    (hf : ∀ e s', R.rely s s' → Runs wsem R (f e) K s') :
    Runs wsem R (tryCatch p.inr f) K s :=
  wp.attempt (hp s hs) (fun _ s' hs' b _ => hK b s' hs') hf

end Rules

namespace Calm

variable (h : Calm wsem handlers R)
include h

section Rules

variable {α : Type} {K : α → Plane P D W → Prop} {s : Plane P D W}

/-- A program of quiet statements. -/
theorem runs_quiet {p : PlaneProg P D WResp α}
    (hp : p.Issues fun q => ∃ q', q = .inl q' ∧ Quiet q') (hs : R.rely s s)
    (hK : ∀ a s', R.rely s s' → K a s') : Runs wsem R p K s := by
  refine wp.of_issues h.trans h.self ?_ hp hs fun r s' hs' a _ => hK a s' hs'
  rintro c - s ⟨q, rfl, hq⟩ hs hadm
  exact h.quiet q s hs hq c hadm

theorem runs_getAction {i : String} {K : Option (ActionRow P D) → Plane P D W → Prop}
    (hK : ∀ s', R.rely s s' → K (s'.db.get i) s') :
    Runs wsem R (Db.getAction i) K s :=
  runs_effect (fun s' hs' => h.quiet (.getAction i) s' (h.self _ _ hs') trivial)
    fun _ s' hs' _ => hK s' hs'

theorem runs_controlsEnabled {K : Bool → Plane P D W → Prop}
    (hK : ∀ s', R.rely s s' → K s'.db.enabled s') :
    Runs wsem R (Db.controlsEnabled) K s :=
  runs_effect (fun s' hs' => h.quiet .controlsEnabled s' (h.self _ _ hs') trivial)
    fun _ s' hs' _ => hK s' hs'

end Rules

/-! ### Helpers of the endpoints -/

omit h in
theorem audit_issues (actionId : String) (event : AuditEvent) (actor : String)
    (detail : AuditDetail D) :
    (audit actionId event actor detail : PlaneProg P D WResp Unit).Issues
      fun q => ∃ q', q = .inl q' ∧ Quiet q' :=
  Prog.Issues.bind ((Prog.issues_call _).mpr ⟨_, rfl, trivial⟩) fun _ =>
    (Prog.issues_call _).mpr ⟨_, rfl, trivial⟩

omit h in
theorem refreshGauges_issues :
    (refreshGauges : PlaneProg P D WResp Unit).Issues fun q => ∃ q', q = .inl q' ∧ Quiet q' := by
  refine Prog.Issues.attempt ?_ fun _ => trivial
  exact Prog.Issues.bind ((Prog.issues_call _).mpr ⟨_, rfl, trivial⟩) fun _ =>
    Prog.Issues.bind ((Prog.issues_call _).mpr ⟨_, rfl, trivial⟩) fun _ => trivial

theorem runs_finish {endpoint : Endpoint} {actionId : String} {event : AuditEvent}
    {actor : String} {detail : AuditDetail D} {s : Plane P D W} (hs : R.rely s s)
    (hrespond : ∀ s', R.rely s s' → Safe wsem R (.respond endpoint actionId) s') :
    Runs wsem R (finish endpoint actionId event actor detail) (fun _ _ => True) s := by
  refine runs_bind (h.runs_quiet (audit_issues ..) hs fun _ s₁ h₁ => ?_)
  refine runs_bind (h.runs_quiet refreshGauges_issues (h.self _ _ h₁) fun _ s₂ h₂ => ?_)
  refine runs_bind (h.runs_getAction fun s₃ h₃ => ?_)
  have hs₃ : R.rely s s₃ := h.trans _ _ _ (h.trans _ _ _ h₁ h₂) h₃
  refine runs_bind (runs_effect (fun s₄ h₄ => hrespond s₄ (h.trans _ _ _ hs₃ h₄)) ?_)
  exact fun _ _ _ _ => runs_pure _ trivial

/-- `fetch` hands on a stored row that the caller may touch. -/
theorem runs_fetch {actionId : String} {principal : Principal}
    {K : ActionRow P D → Plane P D W → Prop} {s : Plane P D W}
    (hK : ∀ row s', R.rely s s' → s'.db.get actionId = some row → tenantOk principal row →
      K row s') :
    Runs wsem R (fetch actionId principal) K s := by
  refine runs_bind (h.runs_getAction fun s' hs' => ?_)
  cases hrow : s'.db.get actionId with
  | none => exact runs_throw _
  | some row =>
      refine runs_bind (runs_raiseIf fun htenant => ?_)
      exact runs_pure _ (hK row s' hs' hrow (not_not.mp htenant))

omit h in
theorem runs_handlerFor {actionType detail : String}
    {K : ControlHandler P D WResp → Plane P D W → Prop} {s : Plane P D W}
    (hK : ∀ handler, handlers actionType = some handler → K handler s) :
    Runs wsem R (handlerFor handlers actionType detail) K s := by
  unfold handlerFor
  cases hh : handlers actionType with
  | none => exact runs_throw _
  | some handler => exact runs_pure _ (hK handler hh)

/-! ### The endpoints -/

/-- The row that comes back is the stored one, and holds what was asked for. -/
theorem runs_submitAction {actionType : String} {target : Option String} {params : P}
    {mode : Mode} {reason : Option String} {requestedBy : String} {tenant : Option String}
    {K : D → Prop} {s : Plane P D W}
    (hplan : ∀ handler, handlers actionType = some handler →
      Runs wsem R (handler.plan target params).inr (fun out s' => R.rely s s' ∧ K out.2) s)
    (hinsert : ∀ row s', R.rely s s' → row.status = .PENDING →
      Asked actionType target params mode requestedBy row → Safe wsem R (.insertAction row) s') :
    Runs wsem R (submitAction handlers actionType target params mode reason requestedBy tenant)
      (fun out s' => K out.2.2 ∧ ((∀ a b, R.rely a b → RowsStay a b) → ∀ row, out.1 = some row →
        s'.db.get row.actionId = some row ∧
          Asked actionType target params mode requestedBy row)) s := by
  refine runs_bind (runs_handlerFor fun handler hh => ?_)
  refine runs_bind (wp.mono (hplan handler hh) fun r s₁ hr out hout => ?_)
  obtain ⟨h₁, hkept⟩ := hr out hout
  obtain ⟨before, preview⟩ := out
  refine runs_bind (runs_keeps (h.riskFor _ _ hh _ _) (h.self _ _ h₁) fun risk s₂ h₂ => ?_)
  refine runs_bind (h.runs_quiet ((Prog.issues_call _).mpr ⟨_, rfl, trivial⟩) (h.self _ _ h₂)
    fun actionId s₃ h₃ => ?_)
  refine runs_bind (h.runs_quiet ((Prog.issues_call _).mpr ⟨_, rfl, trivial⟩) (h.self _ _ h₃)
    fun version s₄ h₄ => ?_)
  have hs₄ : R.rely s s₄ := h.trans _ _ _ (h.trans _ _ _ (h.trans _ _ _ h₁ h₂) h₃) h₄
  refine runs_bind (runs_insert (fun s₅ h₅ => ?_) fun s₅ _ h₆ hnew => ?_)
  · exact hinsert _ s₅ (h.trans _ _ _ hs₄ h₅) rfl ⟨rfl, rfl, rfl, rfl, rfl⟩
  · refine runs_bind (h.runs_quiet (audit_issues ..) (h.self _ _ h₆) fun _ s₇ h₇ => ?_)
    refine runs_bind (h.runs_quiet refreshGauges_issues (h.self _ _ h₇) fun _ s₈ h₈ => ?_)
    refine runs_bind (h.runs_getAction fun s₉ h₉ => runs_pure _ ⟨hkept, fun hrows row hrow => ?_⟩)
    obtain ⟨row', hrow', hsame⟩ :=
      hrows _ _ (h.trans _ _ _ (h.trans _ _ _ h₇ h₈) h₉) _ _ hnew
    rw [hrow'] at hrow
    injection hrow with hrow
    subst hrow
    refine ⟨by rw [← hsame.actionId]; exact hrow', ?_⟩
    exact ⟨hsame.actionType.symm, hsame.target.symm, hsame.params.symm, hsame.mode.symm,
      hsame.requestedBy.symm⟩

theorem runs_createAction {actionType : String} {target : Option String} {params : P}
    {mode : Mode} {reason : Option String} {principal : Principal} {s : Plane P D W}
    (hs : R.rely s s)
    (hinsert : ∀ row s', R.rely s s' → row.status = .PENDING → row.mode = mode →
      row.requestedBy = principal.name → Safe wsem R (.insertAction row) s') :
    Runs wsem R (createAction handlers actionType target params mode reason principal)
      (fun _ _ => True) s := by
  have hplan (handler : ControlHandler P D WResp) (hh : handlers actionType = some handler) :
      Runs wsem R (handler.plan target params).inr (fun out s' => R.rely s s' ∧ True) s :=
    runs_keeps (h.plan _ _ hh _ _) hs fun _ _ h₁ => ⟨h₁, trivial⟩
  refine runs_bind (wp.mono (h.runs_submitAction (K := fun _ => True) hplan
    fun row s' hs' hpending hasked => hinsert row s' hs' hpending hasked.mode hasked.requestedBy)
    fun r s' _ out _ => ?_)
  obtain ⟨row, -, preview⟩ := out
  cases row with
  | none => exact runs_throw _
  | some row => exact runs_pure _ trivial

theorem runs_approve {actionId : String} {reason : Option String} {principal : Principal}
    {s : Plane P D W}
    (hupdate : ∀ row s₁ s₂, R.rely s s₁ → s₁.db.get actionId = some row →
      row.status = .PENDING → ¬ (row.risk = .high ∧ principal.name = row.requestedBy) →
      R.rely s₁ s₂ → Safe wsem R (.updateStatus actionId (.approved principal.name) row) s₂)
    (hrespond : ∀ s₁ s₂ : Plane P D W, R.rely (s₁.update actionId (.approved principal.name)) s₂ →
      Safe wsem R (.respond .approve actionId) s₂) :
    Runs wsem R (approve actionId reason principal) (fun _ _ => True) s := by
  refine runs_bind (h.runs_fetch fun row s₁ h₁ hrow _ => ?_)
  refine runs_bind (runs_raiseIf fun hstatus => ?_)
  refine runs_bind (runs_raiseIf fun hduties => ?_)
  refine runs_bind (runs_update (fun s₂ h₂ => ?_) fun s₂ _ h₃ => ?_)
  · exact hupdate row s₁ s₂ h₁ hrow (not_not.mp hstatus) hduties h₂
  · exact h.runs_finish (h.self _ _ h₃) fun s₃ h₄ => hrespond s₂ s₃ h₄

theorem runs_reject {actionId : String} {reason : Option String} {principal : Principal}
    {s : Plane P D W}
    (hupdate : ∀ row s₁ s₂, R.rely s s₁ → s₁.db.get actionId = some row →
      row.status = .PENDING → R.rely s₁ s₂ →
      Safe wsem R (.updateStatus actionId (.rejected principal.name) row) s₂)
    (hrespond : ∀ s₁ s₂ : Plane P D W, R.rely (s₁.update actionId (.rejected principal.name)) s₂ →
      Safe wsem R (.respond .reject actionId) s₂) :
    Runs wsem R (reject actionId reason principal) (fun _ _ => True) s := by
  refine runs_bind (h.runs_fetch fun row s₁ h₁ hrow _ => ?_)
  refine runs_bind (runs_raiseIf fun hstatus => ?_)
  refine runs_bind (runs_update (fun s₂ h₂ => ?_) fun s₂ _ h₃ => ?_)
  · exact hupdate row s₁ s₂ h₁ hrow (not_not.mp hstatus) h₂
  · exact h.runs_finish (h.self _ _ h₃) fun s₃ h₄ => hrespond s₂ s₃ h₄

omit h in
theorem runs_singleOperator {row : ActionRow P D} {K : Unit → Plane P D W → Prop}
    {s : Plane P D W} (hK : row.status = .PENDING ∨ row.status = .APPROVED → K () s) :
    Runs wsem R (singleOperator row : PlaneProg P D WResp Unit) K s :=
  runs_raiseIf fun hstatus => hK (by rwa [not_and_or, not_not, not_not] at hstatus)

/-- A live action passes the gates only while the flag reads on and, by its
risk, in the right status. -/
theorem runs_liveGates {row : ActionRow P D} {actionId : String} {principal : Principal}
    {K : Bool → Plane P D W → Prop} {s : Plane P D W}
    (hK : ∀ s', R.rely s s' → s'.db.enabled = true →
      (row.risk = .high → row.status = .APPROVED) →
      row.status = .PENDING ∨ row.status = .APPROVED → K true s') :
    Runs wsem R (liveGates row actionId principal) K s := by
  refine runs_bind (h.runs_controlsEnabled fun s₁ h₁ => ?_)
  have blocked (detail : AuditDetail D) (e : Exc) :
      Runs wsem R (audit actionId .BLOCKED principal.name detail >>= fun _ => throw e) K s₁ :=
    runs_bind (h.runs_quiet (audit_issues ..) (h.self _ _ h₁) fun _ _ _ => runs_throw e)
  cases hflag : s₁.db.enabled with
  | false => exact blocked _ _
  | true =>
      by_cases hrisk : row.risk = .high
      · by_cases hstatus : row.status = .APPROVED
        · simp only [hrisk, hstatus, not_true_eq_false, if_false, if_true, ne_eq]
          exact runs_pure _ (hK s₁ h₁ hflag (fun _ => hstatus) (Or.inr hstatus))
        · simp only [hrisk, hstatus, not_true_eq_false, not_false_eq_true, if_false, if_true,
            ne_eq]
          exact blocked _ _
      · simp only [hrisk, not_true_eq_false, if_false]
        refine runs_bind (runs_singleOperator fun hstatus => ?_)
        exact runs_pure _ (hK s₁ h₁ hflag (fun hhigh => absurd hhigh hrisk) hstatus)

theorem runs_executeDryRun {row : ActionRow P D} {actionId : String} {principal : Principal}
    {s : Plane P D W} (hs : R.rely s s)
    (hupdate : ∀ s', R.rely s s' → row.status = .PENDING ∨ row.status = .APPROVED →
      Safe wsem R (.updateStatus actionId (.executed .dryRun) row) s')
    (hrespond : ∀ s', R.rely s s' → Safe wsem R (.respond .execute actionId) s') :
    Runs wsem R (executeDryRun row actionId principal) (fun _ _ => True) s := by
  refine runs_bind (runs_singleOperator fun hstatus => ?_)
  refine runs_bind (h.runs_quiet (audit_issues ..) hs fun _ s₁ h₁ => ?_)
  refine runs_bind (runs_update (fun s₂ h₂ => ?_) fun s₂ h₂ h₃ => ?_)
  · exact hupdate s₂ (h.trans _ _ _ h₁ h₂) hstatus
  · refine runs_bind (h.runs_quiet refreshGauges_issues (h.self _ _ h₃) fun _ s₄ h₄ => ?_)
    refine runs_bind (h.runs_getAction fun s₅ h₅ => ?_)
    have hs₅ : R.rely s s₅ :=
      h.trans _ _ _ (h.trans _ _ _ (h.trans _ _ _ (h.trans _ _ _ h₁ h₂) h₃) h₄) h₅
    cases s₅.db.get actionId with
    | none => exact runs_throw _
    | some after =>
        refine runs_bind (runs_effect (fun s₆ h₆ => hrespond s₆ (h.trans _ _ _ hs₅ h₆)) ?_)
        exact fun _ _ _ _ => runs_pure _ trivial

theorem runs_actuate {handler : ControlHandler P D WResp} {row : ActionRow P D}
    {actionId : String} {principal : Principal} {K : D → Plane P D W → Prop} {s : Plane P D W}
    (hs : R.rely s s) (hkeeps : Keeps wsem R (handler.execute row))
    (hfailed : ∀ error s', R.rely s s' →
      Safe wsem R (.updateStatus actionId (.failed error) row) s')
    (hK : ∀ after s', R.rely s s' → K after s') :
    Runs wsem R (actuate handler row actionId principal) K s := by
  refine runs_attempt_keeps hkeeps hs hK fun exc s₁ h₁ => ?_
  cases hhttp : exc.isHttp with
  | true => exact runs_throw _
  | false =>
      refine runs_bind (runs_update (fun s₂ h₂ => ?_) fun s₂ _ h₃ => ?_)
      · exact hfailed _ s₂ (h.trans _ _ _ h₁ h₂)
      · refine runs_bind (h.runs_quiet (audit_issues ..) (h.self _ _ h₃) fun _ s₄ h₄ => ?_)
        refine runs_bind (h.runs_quiet refreshGauges_issues (h.self _ _ h₄) fun _ _ _ => ?_)
        exact runs_throw _

/-- The effects of `execute`: the status after a dry run; the call of the
handler behind the gates, and the status that settles it. -/
theorem runs_execute {actionId : String} {principal : Principal} {s : Plane P D W}
    (hdryRun : ∀ row s₁ s₂, R.rely s s₁ → s₁.db.get actionId = some row →
      row.mode = .dry_run → row.status = .PENDING ∨ row.status = .APPROVED → R.rely s₁ s₂ →
      Safe wsem R (.updateStatus actionId (.executed .dryRun) row) s₂)
    (hinvoke : ∀ row s₁ s₂ s₃, R.rely s s₁ → s₁.db.get actionId = some row →
      row.mode = .live → R.rely s₁ s₂ → s₂.db.enabled = true →
      (row.risk = .high → row.status = .APPROVED) →
      row.status = .PENDING ∨ row.status = .APPROVED → R.rely s₂ s₃ →
      Safe wsem R (.invoke .execute row (some true)) s₃)
    (hsettle : ∀ row s₁ s₂ u, R.rely s s₁ → s₁.db.get actionId = some row →
      row.status = .PENDING ∨ row.status = .APPROVED → R.rely s₁ s₂ →
      (∃ after, u = .executed (.doc after)) ∨ (∃ error, u = .failed error) →
      Safe wsem R (.updateStatus actionId u row) s₂)
    (hrespond : ∀ s', R.rely s s' → Safe wsem R (.respond .execute actionId) s') :
    Runs wsem R (Controls.execute handlers actionId principal) (fun _ _ => True) s := by
  refine runs_bind (h.runs_fetch fun row s₁ h₁ hrow _ => ?_)
  refine runs_bind (runs_handlerFor fun handler hh => ?_)
  cases hmode : row.mode with
  | dry_run =>
      refine h.runs_executeDryRun (h.self _ _ h₁) (fun s₂ h₂ hstatus => ?_) fun s₂ h₂ => ?_
      · exact hdryRun row s₁ s₂ h₁ hrow hmode hstatus h₂
      · exact hrespond s₂ (h.trans _ _ _ h₁ h₂)
  | live =>
      refine runs_bind (h.runs_liveGates fun s₂ h₂ hflag hrisk hstatus => ?_)
      refine runs_bind (runs_effect (fun s₃ h₃ => ?_) fun c s₃ h₃ h₄ => ?_)
      · exact hinvoke row s₁ s₂ s₃ h₁ hrow hmode h₂ hflag hrisk hstatus h₃
      · have hinvoked : R.rely s₁ { s₃ with
            db := (controlExec c (.invoke .execute row (some true)) s₃.db).2 } :=
          h.trans _ _ _ (h.trans _ _ _ h₂ h₃) h₄
        refine runs_bind (h.runs_actuate (h.self _ _ h₄) (h.execute _ _ hh row)
          (fun error s₅ h₅ => ?_) fun after s₅ h₅ => ?_)
        · exact hsettle row s₁ s₅ _ h₁ hrow hstatus (h.trans _ _ _ hinvoked h₅)
            (Or.inr ⟨error, rfl⟩)
        · refine runs_bind (runs_update (fun s₆ h₆ => ?_) fun s₆ h₆ h₇ => ?_)
          · exact hsettle row s₁ s₆ _ h₁ hrow hstatus
              (h.trans _ _ _ (h.trans _ _ _ hinvoked h₅) h₆) (Or.inl ⟨after, rfl⟩)
          · refine h.runs_finish (h.self _ _ h₇) fun s₈ h₈ => hrespond s₈ ?_
            exact h.trans _ _ _ h₁ (h.trans _ _ _ (h.trans _ _ _
              (h.trans _ _ _ (h.trans _ _ _ hinvoked h₅) h₆) h₇) h₈)

theorem runs_rollback {actionId : String} {principal : Principal} {s : Plane P D W}
    (hinvoke : ∀ row s₁ s₂, R.rely s s₁ → s₁.db.get actionId = some row →
      row.status = .EXECUTED → R.rely s₁ s₂ → Safe wsem R (.invoke .rollback row none) s₂)
    (hsettle : ∀ row after s₁ s₂, R.rely s s₁ → s₁.db.get actionId = some row →
      row.status = .EXECUTED → R.rely s₁ s₂ →
      Safe wsem R (.updateStatus actionId (.rolledBack after) row) s₂)
    (hrespond : ∀ s', R.rely s s' → Safe wsem R (.respond .rollback actionId) s') :
    Runs wsem R (Controls.rollback handlers actionId principal) (fun _ _ => True) s := by
  refine runs_bind (h.runs_fetch fun row s₁ h₁ hrow _ => ?_)
  refine runs_bind (runs_raiseIf fun hstatus => ?_)
  have hexecuted : row.status = .EXECUTED := not_not.mp hstatus
  refine runs_bind (runs_handlerFor fun handler hh => ?_)
  refine runs_bind (runs_effect (fun s₂ h₂ => ?_) fun c s₂ h₂ h₃ => ?_)
  · exact hinvoke row s₁ s₂ h₁ hrow hexecuted h₂
  · refine runs_bind (runs_keeps (h.rollback _ _ hh row) (h.self _ _ h₃) fun after s₄ h₄ => ?_)
    have hs₄ : R.rely s₁ s₄ := h.trans _ _ _ (h.trans _ _ _ h₂ h₃) h₄
    refine runs_bind (runs_update (fun s₅ h₅ => ?_) fun s₅ h₅ h₆ => ?_)
    · exact hsettle row after s₁ s₅ h₁ hrow hexecuted (h.trans _ _ _ hs₄ h₅)
    · refine h.runs_finish (h.self _ _ h₆) fun s₇ h₇ => hrespond s₇ ?_
      exact h.trans _ _ _ h₁ (h.trans _ _ _ (h.trans _ _ _ (h.trans _ _ _ hs₄ h₅) h₆) h₇)

end Calm

theorem Runs.discard {α : Type} {p : PlaneProg P D WResp α} {s : Plane P D W}
    (h : Runs wsem R p (fun _ _ => True) s) :
    wp (planeSem wsem) R (do let _ ← p) (fun _ _ => True) s :=
  wp.mono (runs_bind (wp.mono h fun _ _ _ _ _ => runs_pure (K := fun _ _ => True) () trivial))
    fun _ _ _ => trivial

/-! ### What the endpoints issue -/

section Issues

/-- Not the mark of a handler call. -/
def NoCall : ControlStmt P D → Prop
  | .invoke .. => False
  | _ => True

/-- `Q` lets the statements on the control tables pass, but for the marks. -/
def PassesTables (Q : ControlStmt P D ⊕ WStmt → Prop) : Prop := ∀ q, NoCall q → Q (.inl q)

variable {Q : ControlStmt P D ⊕ WStmt → Prop}

namespace PassesTables

variable (hQ : PassesTables Q)
include hQ

theorem call {q : ControlStmt P D} (hq : NoCall q) :
    (Prog.call (Sum.inl q) : PlaneProg P D WResp (ControlResp q)).Issues Q :=
  (Prog.issues_call _).mpr (hQ q hq)

theorem audit (actionId : String) (event : AuditEvent) (actor : String)
    (detail : AuditDetail D) :
    (Controls.audit actionId event actor detail : PlaneProg P D WResp Unit).Issues Q :=
  (hQ.call (by trivial)).bind fun _ => hQ.call (by trivial)

theorem refreshGauges : (Controls.refreshGauges : PlaneProg P D WResp Unit).Issues Q := by
  refine Prog.Issues.attempt ?_ fun _ => trivial
  exact (hQ.call (by trivial)).bind fun _ => (hQ.call (by trivial)).bind fun _ => trivial

theorem finish (endpoint : Endpoint) (actionId : String) (event : AuditEvent)
    (actor : String) (detail : AuditDetail D) :
    (Controls.finish endpoint actionId event actor detail :
      PlaneProg P D WResp (Option (ActionRow P D))).Issues Q :=
  (hQ.audit ..).bind fun _ => hQ.refreshGauges.bind fun _ =>
    (hQ.call (by trivial)).bind fun _ => (hQ.call (by trivial)).bind fun _ => trivial

theorem fetch (actionId : String) (principal : Principal) :
    (Controls.fetch actionId principal : PlaneProg P D WResp (ActionRow P D)).Issues Q := by
  refine (hQ.call (by trivial)).bind fun row => ?_
  cases row with
  | none => trivial
  | some row => exact (Prog.issues_raiseIf _ _).bind fun _ => trivial

theorem submitAction {actionType : String} {target : Option String} {params : P} {mode : Mode}
    {reason : Option String} {requestedBy : String} {tenant : Option String}
    (hplan : ∀ h, handlers actionType = some h →
      ((h.plan target params).inr : PlaneProg P D WResp (D × D)).Issues Q)
    (hrisk : ∀ h, handlers actionType = some h →
      ((h.riskFor target params).inr : PlaneProg P D WResp Risk).Issues Q) :
    (Controls.submitAction handlers actionType target params mode reason requestedBy
      tenant).Issues Q := by
  rw [Controls.submitAction, handlerFor]
  cases hh : handlers actionType with
  | none => trivial
  | some handler =>
      refine (hplan handler hh).bind fun planned => (hrisk handler hh).bind fun risk => ?_
      refine (hQ.call (by trivial)).bind fun actionId =>
        (hQ.call (by trivial)).bind fun version => ?_
      refine (hQ.call (by trivial)).bind fun _ => (hQ.audit ..).bind fun _ => ?_
      exact hQ.refreshGauges.bind fun _ => (hQ.call (by trivial)).bind fun _ => trivial

theorem createAction {actionType : String} {target : Option String} {params : P} {mode : Mode}
    {reason : Option String} {principal : Principal}
    (hplan : ∀ h, handlers actionType = some h →
      ((h.plan target params).inr : PlaneProg P D WResp (D × D)).Issues Q)
    (hrisk : ∀ h, handlers actionType = some h →
      ((h.riskFor target params).inr : PlaneProg P D WResp Risk).Issues Q) :
    (Controls.createAction handlers actionType target params mode reason principal).Issues Q := by
  refine (hQ.submitAction hplan hrisk).bind fun out => ?_
  obtain ⟨row, -, preview⟩ := out
  cases row <;> trivial

theorem approve (actionId : String) (reason : Option String) (principal : Principal) :
    (Controls.approve actionId reason principal :
      PlaneProg P D WResp (Option (ActionRow P D))).Issues Q :=
  (hQ.fetch actionId principal).bind fun _ => (Prog.issues_raiseIf _ _).bind fun _ =>
    (Prog.issues_raiseIf _ _).bind fun _ => (hQ.call (by trivial)).bind fun _ => hQ.finish ..

theorem reject (actionId : String) (reason : Option String) (principal : Principal) :
    (Controls.reject actionId reason principal :
      PlaneProg P D WResp (Option (ActionRow P D))).Issues Q :=
  (hQ.fetch actionId principal).bind fun _ => (Prog.issues_raiseIf _ _).bind fun _ =>
    (hQ.call (by trivial)).bind fun _ => hQ.finish ..

theorem executeDryRun (row : ActionRow P D) (actionId : String) (principal : Principal) :
    (Controls.executeDryRun row actionId principal :
      PlaneProg P D WResp (Option (ActionRow P D))).Issues Q := by
  refine (Prog.issues_raiseIf _ _).bind fun _ => (hQ.audit ..).bind fun _ => ?_
  refine (hQ.call (by trivial)).bind fun _ => hQ.refreshGauges.bind fun _ => ?_
  refine (hQ.call (by trivial)).bind fun after => ?_
  cases after with
  | none => trivial
  | some after => exact (hQ.call (by trivial)).bind fun _ => trivial

theorem liveGates (row : ActionRow P D) (actionId : String) (principal : Principal) :
    (Controls.liveGates row actionId principal : PlaneProg P D WResp Bool).Issues Q := by
  have hblocked (detail : AuditDetail D) (e : Exc) :
      (Controls.audit actionId .BLOCKED principal.name detail >>= fun _ => throw e :
        PlaneProg P D WResp Bool).Issues Q := (hQ.audit ..).bind fun _ => trivial
  refine (hQ.call (by trivial)).bind fun enabled => ?_
  split
  · exact hblocked _ _
  · split
    · split
      · exact hblocked _ _
      · trivial
    · exact (Prog.issues_raiseIf _ _).bind fun _ => trivial

theorem actuate {handler : ControlHandler P D WResp} {row : ActionRow P D} {actionId : String}
    {principal : Principal}
    (hexecute : ((handler.execute row).inr : PlaneProg P D WResp D).Issues Q) :
    (Controls.actuate handler row actionId principal : PlaneProg P D WResp D).Issues Q := by
  refine hexecute.attempt fun exc => ?_
  split
  · trivial
  · exact (hQ.call (by trivial)).bind fun _ => (hQ.audit ..).bind fun _ =>
      hQ.refreshGauges.bind fun _ => trivial

end PassesTables

theorem handlerFor_issues (actionType detail : String) :
    (handlerFor handlers actionType detail).Issues Q := by
  unfold handlerFor
  split <;> trivial

theorem handlerFor_returns (actionType detail : String) :
    (handlerFor handlers actionType detail).Returns fun h => handlers actionType = some h := by
  unfold handlerFor
  cases handlers actionType with
  | none => trivial
  | some handler => exact rfl

/-- A handler whose four programs only issue statements in `G`. -/
structure ControlHandler.Issues (handler : ControlHandler P D WResp) (G : WStmt → Prop) :
    Prop where
  riskFor : ∀ target params, (handler.riskFor target params).Issues G
  plan : ∀ target params, (handler.plan target params).Issues G
  execute : ∀ row, (handler.execute row).Issues G
  rollback : ∀ row, (handler.rollback row).Issues G

/-- The statement, if it is one on the world, is in `G`. -/
def OnWorld (G : WStmt → Prop) (q : ControlStmt P D ⊕ WStmt) : Prop := ∀ q', q = .inr q' → G q'

/-- What a request issues on the world, its handlers issue. -/
theorem serve_issues {G : WStmt → Prop}
    (hG : ∀ name handler, handlers name = some handler → handler.Issues G) (r : Request P) :
    (serve handlers r).Issues (OnWorld G) := by
  have htables (q : ControlStmt P D) : OnWorld G (Sum.inl q : ControlStmt P D ⊕ WStmt) :=
    fun _ hq => nomatch hq
  have hQ : PassesTables (OnWorld G : ControlStmt P D ⊕ WStmt → Prop) := fun q _ => htables q
  have hworld (q : WStmt) (hq : G q) : OnWorld G (Sum.inr q : ControlStmt P D ⊕ WStmt) := by
    intro q' heq
    injection heq with heq
    exact heq ▸ hq
  have hcall {q : ControlStmt P D} :
      (Prog.call (Sum.inl q) : PlaneProg P D WResp (ControlResp q)).Issues (OnWorld G) :=
    (Prog.issues_call _).mpr (htables q)
  cases r with
  | create actionType target params mode reason principal =>
      refine (hQ.createAction (fun h hh => ?_) fun h hh => ?_).bind fun _ => trivial
      · exact ((hG _ h hh).plan target params).inr hworld
      · exact ((hG _ h hh).riskFor target params).inr hworld
  | approve i reason principal => exact (hQ.approve i reason principal).bind fun _ => trivial
  | reject i reason principal => exact (hQ.reject i reason principal).bind fun _ => trivial
  | execute i principal =>
      refine Prog.Issues.bind ((hQ.fetch i principal).bind fun row => ?_) fun _ => trivial
      refine (handlerFor_issues _ _).bind_returns (handlerFor_returns _ _) fun handler hh => ?_
      split
      · exact hQ.executeDryRun row i principal
      · refine (hQ.liveGates row i principal).bind fun enabled => hcall.bind fun _ => ?_
        refine (hQ.actuate (((hG _ handler hh).execute row).inr hworld)).bind fun after => ?_
        exact hcall.bind fun _ => hQ.finish ..
  | rollback i principal =>
      refine Prog.Issues.bind ((hQ.fetch i principal).bind fun row => ?_) fun _ => trivial
      refine (Prog.issues_raiseIf _ _).bind fun _ => ?_
      refine (handlerFor_issues _ _).bind_returns (handlerFor_returns _ _) fun handler hh => ?_
      refine hcall.bind fun _ => (((hG _ handler hh).rollback row).inr hworld).bind fun after => ?_
      exact hcall.bind fun _ => hQ.finish ..

end Issues

/-! ### Rules from an invariant

An invariant `I` of the control tables, together with what may be assumed of
a statement (`A`) and what it needs (`N`). Between two statements of a request
the invariant holds, the log grows, and rows keep what was requested. -/

section Invariant

variable (I : ControlDb P D → Prop) (A N : ControlStmt P D → ControlDb P D → Prop)

structure Evolves (a b : Plane P D W) : Prop where
  before : I a.db
  after : I b.db
  log : a.db.log <+: b.db.log
  rows : ∀ i row, a.db.get i = some row → ∃ row', b.db.get i = some row' ∧ SameRequest row row'

def invariantRules : PlaneRules P D WStmt WC W where
  rely := Evolves I
  admits _ q s := ∀ q', q = .inl q' → A q' s.db
  needs _ q s := ∀ q', q = .inl q' → N q' s.db

instance [∀ q db, Decidable (A q db)] (c : ControlChoice × WC) :
    (q : ControlStmt P D ⊕ WStmt) → (s : Plane P D W) →
      Decidable ((invariantRules I A N).admits c q s)
  | .inl q, s =>
      decidable_of_iff (A q s.db)
        ⟨fun h _ hq => Sum.inl.inj hq ▸ h, fun h => h q rfl⟩
  | .inr _, _ => isTrue fun _ hq => nomatch hq

structure Inductive : Prop where
  setEnabled : ∀ db b, I db → I { db with enabled := b }
  step : ∀ c q db, I db → A q db → N q db → I (controlSem c q db).2
  quiet : ∀ q db, I db → Quiet q → N q db

variable {I A N}

theorem Evolves.trans {a b c : Plane P D W} (hab : Evolves I a b) (hbc : Evolves I b c) :
    Evolves I a c where
  before := hab.before
  after := hbc.after
  log := hab.log.trans hbc.log
  rows i row h := by
    obtain ⟨row', h', hsame⟩ := hab.rows i row h
    obtain ⟨row'', h'', hsame'⟩ := hbc.rows i row' h'
    exact ⟨row'', h'', hsame.trans hsame'⟩

theorem Evolves.refl {a : Plane P D W} (ha : I a.db) : Evolves I a a :=
  ⟨ha, ha, List.prefix_rfl, fun _ row h => ⟨row, h, .refl row⟩⟩

namespace Inductive

variable (h : Inductive I A N)
include h

theorem evolves (c : ControlChoice × WC) (q : ControlStmt P D) {s : Plane P D W}
    (hs : I s.db) (hA : A q s.db) (hN : N q s.db) :
    Evolves I s (planeSem wsem c (.inl q) s).2 where
  before := hs
  after := h.step c.1 q s.db hs hA hN
  log := controlSem_log c.1 q s.db
  rows _ _ hrow := controlSem_get c.1 q hrow

/-- A statement that meets its needs is safe. -/
theorem safe {q : ControlStmt P D} {s : Plane P D W} (hs : I s.db) (hN : A q s.db → N q s.db) :
    Safe wsem (invariantRules I A N) q s := by
  intro c hadm
  have hA := hadm q rfl
  refine ⟨fun q' hq => ?_, h.evolves c q hs hA (hN hA)⟩
  injection hq with hq
  exact hq ▸ hN hA

omit h in
theorem world_evolves (c : ControlChoice × WC) (q : WStmt) {s : Plane P D W} (hs : I s.db) :
    Evolves I s (planeSem wsem c (.inr q) s).2 :=
  ⟨hs, hs, List.prefix_rfl, fun _ row hrow => ⟨row, hrow, .refl row⟩⟩

theorem calm (handlers : Registry P D WResp) :
    Calm wsem handlers (invariantRules I A N : PlaneRules P D WStmt WC W) :=
  .of_world handlers (fun _ _ _ => Evolves.trans) (fun _ _ hab => .refl hab.after)
    (fun q _ hs hq => h.safe hs.after fun _ => h.quiet q _ hs.after hq)
    (fun c q _ hs _ => ⟨fun _ hq => (nomatch hq), world_evolves c q hs.after⟩)

theorem cooperative {handlers : Registry P D WResp}
    (hserve : ∀ r (s : Plane P D W), I s.db →
      wp (planeSem wsem) (invariantRules I A N) (serve handlers r) (fun _ _ => True) s) :
    Cooperative (planeSem wsem) (serve handlers) surround (invariantRules I A N) where
  trans _ _ _ := Evolves.trans
  self _ _ hab := .refl hab.after
  stmt c q s hs hadm hneeds := by
    cases q with
    | inl q => exact h.evolves c q hs.after (hadm q rfl) (hneeds q rfl)
    | inr q => exact world_evolves c q hs.after
  env a s hs := by
    cases a with
    | setEnabled b =>
        exact ⟨hs.after, h.setEnabled s.db b hs.after, List.prefix_rfl,
          fun _ row hrow => ⟨row, hrow, .refl row⟩⟩
    | world w =>
        exact ⟨hs.after, hs.after, List.prefix_rfl, fun _ row hrow => ⟨row, hrow, .refl row⟩⟩
  serve r s hs := hserve r s hs.after

/-- Whatever the requests and their interleaving, the invariant holds in the
end. -/
theorem invariant {handlers : Registry P D WResp}
    (hserve : ∀ r (s : Plane P D W), I s.db →
      wp (planeSem wsem) (invariantRules I A N) (serve handlers r) (fun _ _ => True) s)
    (s : Plane P D W) (hs : I s.db)
    (schedule : List (Event (ControlChoice × WC) (Request P) (Surroundings W)))
    (hadm : Config.AllSteps (planeSem wsem) (serve handlers) surround
      (invariantRules I A N).admits ⟨s, []⟩ schedule) :
    I (Config.run (planeSem wsem) (serve handlers) surround ⟨s, []⟩ schedule).state.db :=
  ((h.cooperative hserve).run schedule ⟨.refl hs, fun _ hp => absurd hp List.not_mem_nil⟩
    hadm).1.after

end Inductive

end Invariant

/-! ### Schedules written out -/

/-- Nothing fails. -/
def calmChoice : ControlChoice × Unit := ({ uuid := "a1" }, ())

/-- The `i`-th request issues its next `n` statements. -/
def turns (i n : ℕ) : List (Event (ControlChoice × Unit) (Request Unit) (Surroundings Unit)) :=
  List.replicate n (.act i calmChoice)

end DiepLab.Controls
