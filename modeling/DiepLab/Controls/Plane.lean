import DiepLab.Common
import DiepLab.Library.StatementProgram

/-!
The governance core, `routers/controls.py`.

An action row goes through request, approve or reject, execute, and rollback.
Each endpoint reads the row, checks it, and updates it by `action_id`; live
execution and rollback call the handler registered for the action type. The
handlers work on a world of their own, so the endpoints are programs over two
languages of statements, `ControlStmt` and whatever the world has.

The core is generic in the request parameters `P`, the JSON documents `D` that
handlers produce, and the world. Two statements do not touch the database:
`invoke` marks the call of a handler and `respond` a successful answer. They
append to a log that no endpoint reads; status updates are logged too. An
update also carries the row that the request had read, for the same purpose.
-/

namespace DiepLab.Controls

open StatementProgram

/-! ### Rows -/

inductive Mode where
  | dry_run | live
  deriving DecidableEq, Repr

inductive Risk where
  | low | high
  deriving DecidableEq, Repr

inductive ActionStatus where
  | PENDING | APPROVED | REJECTED | EXECUTED | FAILED | ROLLED_BACK
  deriving DecidableEq, Repr

def ActionStatus.text : ActionStatus → String
  | .PENDING => "PENDING"
  | .APPROVED => "APPROVED"
  | .REJECTED => "REJECTED"
  | .EXECUTED => "EXECUTED"
  | .FAILED => "FAILED"
  | .ROLLED_BACK => "ROLLED_BACK"

/-- `control_actions.after_state`: the marker of a dry run or what a handler
returned. -/
inductive AfterState (D : Type) where
  | dryRun
  | doc (d : D)
  deriving DecidableEq, Repr

structure ActionRow (P D : Type) where
  actionId : String
  actionType : String
  target : Option String
  params : P
  mode : Mode
  risk : Risk
  status : ActionStatus := .PENDING
  reason : Option String
  requestedBy : String
  approvedBy : Option String := none
  beforeState : Option D
  afterState : Option (AfterState D) := none
  error : Option String := none
  tenantId : Option String
  networkModelVersion : Option ℕ
  deriving DecidableEq, Repr

/-- The five `UPDATE control_actions` of the endpoints. -/
inductive StatusUpdate (D : Type) where
  | approved (by_ : String)
  | rejected (by_ : String)
  | executed (after : AfterState D)
  | failed (error : String)
  | rolledBack (after : D)
  deriving DecidableEq, Repr

variable {P D : Type}

def StatusUpdate.status : StatusUpdate D → ActionStatus
  | .approved _ => .APPROVED
  | .rejected _ => .REJECTED
  | .executed _ => .EXECUTED
  | .failed _ => .FAILED
  | .rolledBack _ => .ROLLED_BACK

def StatusUpdate.apply (row : ActionRow P D) : StatusUpdate D → ActionRow P D
  | .approved by_ => { row with status := .APPROVED, approvedBy := some by_ }
  | .rejected by_ => { row with status := .REJECTED, approvedBy := some by_ }
  | .executed after =>
      { row with status := .EXECUTED, afterState := some after, error := none }
  | .failed error => { row with status := .FAILED, error := some error }
  | .rolledBack after => { row with status := .ROLLED_BACK, afterState := some (.doc after) }

inductive AuditEvent where
  | REQUESTED | APPROVED | REJECTED | DRYRUN | EXECUTED | FAILED | BLOCKED | ROLLED_BACK
  deriving DecidableEq, Repr

inductive AuditDetail (D : Type) where
  | empty
  | requested (actionType : String) (target : Option String) (mode : Mode) (risk : Risk)
      (preview : D)
  | reason (text : Option String)
  | error (text : String)
  | after (state : D) (mode : Option Mode)
  deriving DecidableEq, Repr

structure AuditRow (D : Type) where
  actionId : String
  event : AuditEvent
  actor : String
  detail : AuditDetail D
  networkModelVersion : Option ℕ
  deriving DecidableEq, Repr

/-- The authenticated caller. -/
structure Principal where
  name : String
  tenant : Option String := none
  deriving DecidableEq, Repr

/-- The two ways in which the core calls a handler after planning. -/
inductive Op where
  | execute | rollback
  deriving DecidableEq, Repr

inductive Endpoint where
  | approve | reject | execute | rollback
  deriving DecidableEq, Repr

/-- What the log records. A call of a handler is logged with the row passed
to it, the value of the master flag that the request has read, if it did, and
the value that the flag has at that moment. -/
inductive Trace (P D : Type) where
  | updated (actionId : String) (u : StatusUpdate D)
  | invoked (op : Op) (row : ActionRow P D) (checked : Option Bool) (enabled : Bool)
  | responded (endpoint : Endpoint) (actionId : String)
  deriving DecidableEq, Repr

structure ControlDb (P D : Type) where
  actions : List (ActionRow P D) := []
  audit : List (AuditRow D) := []
  /-- `OC_CONTROLS_ENABLED`. -/
  enabled : Bool := false
  log : List (Trace P D) := []
  deriving DecidableEq, Repr

def ControlDb.get (db : ControlDb P D) (actionId : String) : Option (ActionRow P D) :=
  db.actions.find? fun row => row.actionId = actionId

/-! ### Statements -/

inductive ControlStmt (P D : Type) where
  | getAction (actionId : String)
  | insertAction (row : ActionRow P D)
  | updateStatus (actionId : String) (u : StatusUpdate D) (read : ActionRow P D)
  | currentModelVersion
  | insertAudit (row : AuditRow D)
  | countByStatus
  | controlsEnabled
  | uuid4
  | invoke (op : Op) (row : ActionRow P D) (checked : Option Bool)
  | respond (endpoint : Endpoint) (actionId : String)

@[reducible] def ControlResp : ControlStmt P D → Type
  | .getAction _ => Option (ActionRow P D)
  | .insertAction _ => Unit
  | .updateStatus .. => Unit
  | .currentModelVersion => Option ℕ
  | .insertAudit _ => Unit
  | .countByStatus => List (ActionStatus × ℕ)
  | .controlsEnabled => Bool
  | .uuid4 => String
  | .invoke .. => Unit
  | .respond .. => Unit

/-- What the surroundings decide while one statement runs. -/
structure ControlChoice where
  /-- The statement raises, with this message. -/
  fails : Option String := none
  uuid : String := ""
  /-- The version that is flagged as current. -/
  modelVersion : Option ℕ := none

/-- `UPDATE control_actions SET ... WHERE action_id = actionId`. -/
def updateRows (actionId : String) (u : StatusUpdate D) (rows : List (ActionRow P D)) :
    List (ActionRow P D) :=
  rows.map fun row => if row.actionId = actionId then u.apply row else row

def ControlDb.update (db : ControlDb P D) (actionId : String) (u : StatusUpdate D) :
    ControlDb P D :=
  { db with actions := updateRows actionId u db.actions, log := db.log ++ [.updated actionId u] }

def controlExec (c : ControlChoice) :
    (q : ControlStmt P D) → ControlDb P D → ControlResp q × ControlDb P D
  | .getAction i, db => (db.get i, db)
  | .insertAction row, db => ((), { db with actions := db.actions ++ [row] })
  | .updateStatus i u _, db => ((), db.update i u)
  | .currentModelVersion, db => (c.modelVersion, db)
  | .insertAudit row, db => ((), { db with audit := db.audit ++ [row] })
  | .countByStatus, db =>
      let statuses := (db.actions.map ActionRow.status).dedup
      (statuses.map fun s => (s, (db.actions.map ActionRow.status).count s), db)
  | .controlsEnabled, db => (db.enabled, db)
  | .uuid4, db => (c.uuid, db)
  | .invoke op row checked, db =>
      ((), { db with log := db.log ++ [.invoked op row checked db.enabled] })
  | .respond endpoint i, db => ((), { db with log := db.log ++ [.responded endpoint i] })

/-- The exception a statement raises: any database statement may fail, and an
insert fails on a duplicate key. The flag, the identifier and the marks are
not database statements. -/
def ControlStmt.failure (c : ControlChoice) (db : ControlDb P D) : ControlStmt P D → Option Exc
  | .controlsEnabled => none
  | .uuid4 => none
  | .invoke .. => none
  | .respond .. => none
  | .insertAction row =>
      if row.actionId ∈ db.actions.map ActionRow.actionId then some (.other "duplicate key")
      else c.fails.map .other
  | _ => c.fails.map .other

def controlSem (c : ControlChoice) (q : ControlStmt P D) (db : ControlDb P D) :
    Except Exc (ControlResp q) × ControlDb P D :=
  match q.failure c db with
  | some e => (.error e, db)
  | none => (.ok (controlExec c q db).1, (controlExec c q db).2)

/-- A statement that succeeds has its effect. -/
theorem controlSem_ok {c : ControlChoice} {q : ControlStmt P D} {db : ControlDb P D}
    {a : ControlResp q} (h : (controlSem c q db).1 = .ok a) :
    controlSem c q db = (.ok (controlExec c q db).1, (controlExec c q db).2) := by
  rw [controlSem] at h ⊢
  cases hf : q.failure c db with
  | some e =>
      rw [hf] at h
      injection h
  | none => rfl

/-- A statement that fails changes nothing. -/
theorem controlSem_cases (c : ControlChoice) (q : ControlStmt P D) (db : ControlDb P D) :
    (controlSem c q db).2 = db ∨
      (q.failure c db = none ∧ (controlSem c q db).2 = (controlExec c q db).2) := by
  rw [controlSem]
  cases q.failure c db with
  | some e => exact Or.inl rfl
  | none => exact Or.inr ⟨rfl, rfl⟩

/-! ### What a statement can change -/

/-- The columns that no statement writes once the row is there. -/
structure SameRequest (a b : ActionRow P D) : Prop where
  actionId : a.actionId = b.actionId
  mode : a.mode = b.mode
  risk : a.risk = b.risk
  requestedBy : a.requestedBy = b.requestedBy
  tenantId : a.tenantId = b.tenantId
  actionType : a.actionType = b.actionType
  target : a.target = b.target
  params : a.params = b.params

theorem SameRequest.refl (a : ActionRow P D) : SameRequest a a :=
  ⟨rfl, rfl, rfl, rfl, rfl, rfl, rfl, rfl⟩

theorem SameRequest.trans {a b c : ActionRow P D} (hab : SameRequest a b)
    (hbc : SameRequest b c) : SameRequest a c :=
  ⟨hab.1.trans hbc.1, hab.2.trans hbc.2, hab.3.trans hbc.3, hab.4.trans hbc.4,
    hab.5.trans hbc.5, hab.6.trans hbc.6, hab.7.trans hbc.7, hab.8.trans hbc.8⟩

theorem StatusUpdate.apply_sameRequest (row : ActionRow P D) (u : StatusUpdate D) :
    SameRequest row (u.apply row) := by
  cases u <;> exact ⟨rfl, rfl, rfl, rfl, rfl, rfl, rfl, rfl⟩

@[simp] theorem StatusUpdate.apply_status (row : ActionRow P D) (u : StatusUpdate D) :
    (u.apply row).status = u.status := by
  cases u <;> rfl

namespace ControlDb

variable {db : ControlDb P D}

theorem get_actionId {i : String} {row : ActionRow P D} (h : db.get i = some row) :
    row.actionId = i := by
  have hfound := List.find?_some h
  exact of_decide_eq_true hfound

theorem get_update (db : ControlDb P D) (i j : String) (u : StatusUpdate D) :
    (db.update i u).get j = if i = j then (db.get j).map u.apply else db.get j := by
  obtain ⟨rows, _, _, _⟩ := db
  simp only [get, update, updateRows]
  induction rows with
  | nil => simp
  | cons row rows ih =>
      rw [List.map_cons, List.find?_cons, List.find?_cons, ih]
      by_cases hrow : row.actionId = i
      · have happly : (u.apply row).actionId = row.actionId :=
          (u.apply_sameRequest row).actionId.symm
        by_cases hij : i = j
        · simp [hrow, happly, hij]
        · simp [hrow, happly, hij]
      · by_cases hij : i = j
        · subst hij
          simp [hrow]
        · rw [if_neg hrow, if_neg hij, if_neg hij]

/-- A row that is there is not hidden by an inserted one. -/
theorem get_insert {i : String} {row new : ActionRow P D} (h : db.get i = some row) :
    ({ db with actions := db.actions ++ [new] } : ControlDb P D).get i = some row := by
  rw [get, List.find?_append, show db.actions.find? _ = some row from h, Option.some_or]

/-- A row with a new key is found under it. -/
theorem get_insert_new {new : ActionRow P D}
    (h : new.actionId ∉ db.actions.map ActionRow.actionId) :
    ({ db with actions := db.actions ++ [new] } : ControlDb P D).get new.actionId = some new := by
  have hnone : db.actions.find? (fun row => row.actionId = new.actionId) = none := by
    rw [List.find?_eq_none]
    intro row hrow heq
    exact h (List.mem_map.mpr ⟨row, hrow, of_decide_eq_true heq⟩)
  rw [get, List.find?_append, hnone, Option.none_or]
  simp

theorem get_insert_cases {i : String} {row new : ActionRow P D}
    (h : ({ db with actions := db.actions ++ [new] } : ControlDb P D).get i = some row) :
    db.get i = some row ∨ (db.get i = none ∧ row = new) := by
  cases hi : db.get i with
  | some row' =>
      rw [get_insert hi] at h
      exact Or.inl h
  | none =>
      rw [get, List.find?_append, show db.actions.find? _ = none from hi, Option.none_or] at h
      refine Or.inr ⟨rfl, ?_⟩
      exact (List.mem_singleton.mp (List.mem_of_find?_eq_some h))

end ControlDb

theorem controlSem_log (c : ControlChoice) (q : ControlStmt P D) (db : ControlDb P D) :
    db.log <+: (controlSem c q db).2.log := by
  rcases controlSem_cases c q db with h | ⟨-, h⟩
  · exact h.symm ▸ List.prefix_rfl
  · rw [h]
    cases q with
    | updateStatus i u read => exact List.prefix_append _ _
    | invoke op row checked => exact List.prefix_append _ _
    | respond endpoint i => exact List.prefix_append _ _
    | _ => exact List.prefix_rfl

/-- A row stays, and with it what was requested. -/
theorem controlSem_get (c : ControlChoice) (q : ControlStmt P D) {db : ControlDb P D}
    {i : String} {row : ActionRow P D} (h : db.get i = some row) :
    ∃ row', (controlSem c q db).2.get i = some row' ∧ SameRequest row row' := by
  rcases controlSem_cases c q db with hsem | ⟨-, hsem⟩
  · exact ⟨row, by rw [hsem, h], .refl row⟩
  · rw [hsem]
    cases q with
    | insertAction new => exact ⟨row, ControlDb.get_insert h, .refl row⟩
    | updateStatus j u read =>
        change ∃ row', (db.update j u).get i = some row' ∧ SameRequest row row'
        rw [ControlDb.get_update, h]
        by_cases hji : j = i
        · exact ⟨u.apply row, by rw [if_pos hji]; rfl, u.apply_sameRequest row⟩
        · exact ⟨row, by rw [if_neg hji], .refl row⟩
    | _ => exact ⟨row, h, .refl row⟩

/-- An insert that succeeds has a new key. -/
theorem insertAction_ok {c : ControlChoice} {row : ActionRow P D} {db : ControlDb P D}
    (h : (controlSem c (.insertAction row) db).1 = .ok ()) :
    row.actionId ∉ db.actions.map ActionRow.actionId := by
  intro hmem
  simp only [controlSem, ControlStmt.failure, if_pos hmem] at h
  cases h

/-! ### Handlers -/

/-- One action type's plan, execute and rollback, over the statements of the
world. -/
structure ControlHandler (P D : Type) {WStmt : Type} (WResp : WStmt → Type) where
  riskFor : Option String → P → Prog WResp Exc Risk
  /-- Validates, and returns `before_state` and the preview. -/
  plan : Option String → P → Prog WResp Exc (D × D)
  execute : ActionRow P D → Prog WResp Exc D
  rollback : ActionRow P D → Prog WResp Exc D

section Endpoints

variable {WStmt : Type} {WResp : WStmt → Type}

/-- Programs over the control tables and the world. -/
abbrev PlaneProg (P D : Type) {WStmt : Type} (WResp : WStmt → Type) (α : Type) :=
  Prog (Sum.elim (ControlResp (P := P) (D := D)) WResp) Exc α

/-- `_HANDLERS`. -/
abbrev Registry (P D : Type) {WStmt : Type} (WResp : WStmt → Type) :=
  String → Option (ControlHandler P D WResp)

namespace Db

abbrev getAction (i : String) : PlaneProg P D WResp (Option (ActionRow P D)) :=
  Prog.call (Sum.inl (ControlStmt.getAction i))

abbrev insertAction (row : ActionRow P D) : PlaneProg P D WResp Unit :=
  Prog.call (Sum.inl (ControlStmt.insertAction row))

abbrev updateStatus (i : String) (u : StatusUpdate D) (read : ActionRow P D) :
    PlaneProg P D WResp Unit := Prog.call (Sum.inl (ControlStmt.updateStatus i u read))

abbrev currentModelVersion : PlaneProg P D WResp (Option ℕ) :=
  Prog.call (Sum.inl ControlStmt.currentModelVersion)

abbrev insertAudit (row : AuditRow D) : PlaneProg P D WResp Unit :=
  Prog.call (Sum.inl (ControlStmt.insertAudit row))

abbrev countByStatus : PlaneProg P D WResp (List (ActionStatus × ℕ)) :=
  Prog.call (Sum.inl ControlStmt.countByStatus)

abbrev controlsEnabled : PlaneProg P D WResp Bool := Prog.call (Sum.inl ControlStmt.controlsEnabled)

abbrev uuid4 : PlaneProg P D WResp String := Prog.call (Sum.inl ControlStmt.uuid4)

abbrev invoke (op : Op) (row : ActionRow P D) (checked : Option Bool) :
    PlaneProg P D WResp Unit := Prog.call (Sum.inl (ControlStmt.invoke op row checked))

abbrev respond (endpoint : Endpoint) (i : String) : PlaneProg P D WResp Unit :=
  Prog.call (Sum.inl (ControlStmt.respond endpoint i))

end Db

/-! ### Helpers of the endpoints -/

/-- `_audit`: one append-only row. -/
def audit (actionId : String) (event : AuditEvent) (actor : String) (detail : AuditDetail D) :
    PlaneProg P D WResp Unit := do
  let version ← Db.currentModelVersion
  Db.insertAudit ⟨actionId, event, actor, detail, version⟩

/-- `_refresh_gauges`: metrics must never break a request. -/
def refreshGauges : PlaneProg P D WResp Unit :=
  tryCatch
    (do
      let _ ← Db.controlsEnabled
      let _ ← Db.countByStatus
      pure ())
    fun _ => pure ()

/-- Whether `_assert_tenant` lets the caller pass. -/
def tenantOk (principal : Principal) (row : ActionRow P D) : Prop :=
  principal.tenant = none ∨ row.tenantId = none ∨ row.tenantId = principal.tenant

instance (principal : Principal) (row : ActionRow P D) : Decidable (tenantOk principal row) :=
  inferInstanceAs (Decidable (_ ∨ _ ∨ _))

/-- The opening of every endpoint on an existing action: read the row, 404,
then `_assert_tenant`. -/
def fetch (actionId : String) (principal : Principal) :
    PlaneProg P D WResp (ActionRow P D) := do
  match ← Db.getAction actionId with
  | none => throw (.http 404 (.text "action not found"))
  | some row =>
      Prog.raiseIf (¬ tenantOk principal row)
        (.http 403 (.text "action belongs to another tenant"))
      pure row

/-- The closing of every endpoint that has moved an action: audit, gauges, and
the row as it is now. -/
def finish (endpoint : Endpoint) (actionId : String) (event : AuditEvent) (actor : String)
    (detail : AuditDetail D) : PlaneProg P D WResp (Option (ActionRow P D)) := do
  audit actionId event actor detail
  refreshGauges
  let row ← Db.getAction actionId
  Db.respond endpoint actionId
  pure row

/-! ### Endpoints -/

variable (handlers : Registry P D WResp)

def handlerFor (actionType : String) (detail : String) :
    PlaneProg P D WResp (ControlHandler P D WResp) :=
  match handlers actionType with
  | none => throw (.http 422 (.text detail))
  | some handler => pure handler

/-- Create a governed PENDING action through the handler's plan and audit it. -/
def submitAction (actionType : String) (target : Option String) (params : P) (mode : Mode)
    (reason : Option String) (requestedBy : String) (tenant : Option String) :
    PlaneProg P D WResp (Option (ActionRow P D) × Risk × D) := do
  let handler ← handlerFor handlers actionType ("unknown action_type '" ++ actionType ++ "'")
  let (before, preview) ← (handler.plan target params).inr
  let risk ← (handler.riskFor target params).inr
  let actionId ← Db.uuid4
  let version ← Db.currentModelVersion
  Db.insertAction {
    actionId := actionId, actionType := actionType, target := target, params := params
    mode := mode, risk := risk, reason := reason, requestedBy := requestedBy
    beforeState := some before, tenantId := some ((given tenant).getD "default")
    networkModelVersion := version }
  audit actionId .REQUESTED requestedBy (.requested actionType target mode risk preview)
  refreshGauges
  let row ← Db.getAction actionId
  pure (row, risk, preview)

/-- `create_action`. -/
def createAction (actionType : String) (target : Option String) (params : P) (mode : Mode)
    (reason : Option String) (principal : Principal) :
    PlaneProg P D WResp (ActionRow P D × D) := do
  let (row, _, preview) ← submitAction handlers actionType target params mode reason
    principal.name (some ((given principal.tenant).getD "default"))
  match row with
  | none => throw (.other "'NoneType' object is not a mapping")
  | some row => pure (row, preview)

def approve (actionId : String) (reason : Option String) (principal : Principal) :
    PlaneProg P D WResp (Option (ActionRow P D)) := do
  let row ← fetch actionId principal
  Prog.raiseIf (row.status ≠ .PENDING)
    (.http 409 (.text ("cannot approve from status " ++ row.status.text)))
  -- separation of duties
  Prog.raiseIf (row.risk = .high ∧ principal.name = row.requestedBy)
    (.http 403 (.text
      "high-risk action requires a different approver (separation of duties)"))
  Db.updateStatus actionId (.approved principal.name) row
  finish .approve actionId .APPROVED principal.name (.reason reason)

def reject (actionId : String) (reason : Option String) (principal : Principal) :
    PlaneProg P D WResp (Option (ActionRow P D)) := do
  let row ← fetch actionId principal
  Prog.raiseIf (row.status ≠ .PENDING)
    (.http 409 (.text ("cannot reject from status " ++ row.status.text)))
  Db.updateStatus actionId (.rejected principal.name) row
  finish .reject actionId .REJECTED principal.name (.reason reason)

/-- Low-risk actions and dry runs may be executed by a single operator. -/
def singleOperator (row : ActionRow P D) : PlaneProg P D WResp Unit :=
  Prog.raiseIf (row.status ≠ .PENDING ∧ row.status ≠ .APPROVED)
    (.http 409 (.text ("cannot execute from status " ++ row.status.text)))

/-- The dry-run branch of `execute`: audit, no actuation. -/
def executeDryRun (row : ActionRow P D) (actionId : String) (principal : Principal) :
    PlaneProg P D WResp (Option (ActionRow P D)) := do
  singleOperator row
  audit actionId .DRYRUN principal.name .empty
  Db.updateStatus actionId (.executed .dryRun) row
  refreshGauges
  match ← Db.getAction actionId with
  | none => throw (.other "'NoneType' object is not a mapping")
  | some after =>
      Db.respond .execute actionId
      pure (some after)

/-- The gates of the live branch: the master flag first, then the approval
rule by risk. -/
def liveGates (row : ActionRow P D) (actionId : String) (principal : Principal) :
    PlaneProg P D WResp Bool := do
  let enabled ← Db.controlsEnabled
  if ¬ enabled then
    audit actionId .BLOCKED principal.name (.reason (some "OC_CONTROLS_ENABLED=false"))
    throw (.http 403 (.text ("operational controls disabled (OC_CONTROLS_ENABLED=false); " ++
      "live actuation refused")))
  else if row.risk = .high then
    if row.status ≠ .APPROVED then
      audit actionId .BLOCKED principal.name
        (.reason (some ("high-risk live action not approved (status=" ++ row.status.text ++ ")")))
      throw (.http 409 (.text ("high-risk live action requires two-person approval " ++
        "(status=" ++ row.status.text ++ ")")))
    else pure enabled
  else do
    singleOperator row
    pure enabled

/-- The handler's actuation. An `HTTPException` passes through; any other
exception marks the action as failed. -/
def actuate (handler : ControlHandler P D WResp) (row : ActionRow P D) (actionId : String)
    (principal : Principal) : PlaneProg P D WResp D :=
  tryCatch (handler.execute row).inr fun exc =>
    if exc.isHttp then throw exc
    else do
      Db.updateStatus actionId (.failed exc.text) row
      audit actionId .FAILED principal.name (.error exc.text)
      refreshGauges
      throw (.http 500 (.text ("execution failed: " ++ exc.text)))

def execute (actionId : String) (principal : Principal) :
    PlaneProg P D WResp (Option (ActionRow P D)) := do
  let row ← fetch actionId principal
  let handler ← handlerFor handlers row.actionType ("no handler for '" ++ row.actionType ++ "'")
  if row.mode = .dry_run then executeDryRun row actionId principal
  else do
    let enabled ← liveGates row actionId principal
    Db.invoke .execute row (some enabled)
    let after ← actuate handler row actionId principal
    Db.updateStatus actionId (.executed (.doc after)) row
    finish .execute actionId .EXECUTED principal.name (.after after (some .live))

def rollback (actionId : String) (principal : Principal) :
    PlaneProg P D WResp (Option (ActionRow P D)) := do
  let row ← fetch actionId principal
  Prog.raiseIf (row.status ≠ .EXECUTED)
    (.http 409 (.text ("cannot roll back from status " ++ row.status.text)))
  let handler ← handlerFor handlers row.actionType ("no handler for '" ++ row.actionType ++ "'")
  Db.invoke .rollback row none
  let after ← (handler.rollback row).inr
  Db.updateStatus actionId (.rolledBack after) row
  finish .rollback actionId .ROLLED_BACK principal.name (.after after none)

/-! ### Serving -/

inductive Request (P : Type) where
  | create (actionType : String) (target : Option String) (params : P) (mode : Mode)
      (reason : Option String) (principal : Principal)
  | approve (actionId : String) (reason : Option String) (principal : Principal)
  | reject (actionId : String) (reason : Option String) (principal : Principal)
  | execute (actionId : String) (principal : Principal)
  | rollback (actionId : String) (principal : Principal)

def serve : Request P → PlaneProg P D WResp Unit
  | .create actionType target params mode reason principal => do
      let _ ← createAction handlers actionType target params mode reason principal
  | .approve i reason principal => do
      let _ ← approve i reason principal
  | .reject i reason principal => do
      let _ ← reject i reason principal
  | .execute i principal => do
      let _ ← execute handlers i principal
  | .rollback i principal => do
      let _ ← rollback handlers i principal

end Endpoints

/-- The control tables and the world that the handlers act on. -/
structure Plane (P D W : Type) where
  db : ControlDb P D
  world : W

section Semantics

variable {WStmt WC W : Type} {WResp : WStmt → Type}

def planeSem (wsem : WC → (q : WStmt) → W → Except Exc (WResp q) × W)
    (c : ControlChoice × WC) : (q : ControlStmt P D ⊕ WStmt) → Plane P D W →
      Except Exc (Sum.elim ControlResp WResp q) × Plane P D W
  | .inl q, s => ((controlSem c.1 q s.db).1, { s with db := (controlSem c.1 q s.db).2 })
  | .inr q, s => ((wsem c.2 q s.world).1, { s with world := (wsem c.2 q s.world).2 })

/-- What happens around the requests: the master flag is switched, and the
world changes. -/
inductive Surroundings (W : Type) where
  | setEnabled (b : Bool)
  | world (w : W)

def surround : Surroundings W → Plane P D W → Plane P D W
  | .setEnabled b, s => { s with db := { s.db with enabled := b } }
  | .world w, s => { s with world := w }

end Semantics

/-! ### The demonstrator -/

/-- The documents of `NoopHandler`. -/
inductive NoopDoc (P : Type) where
  | empty
  | before
  | preview (echo : P)
  | executed
  deriving DecidableEq, Repr

/-- A world without statements. -/
abbrev NoResp : Empty → Type := fun _ => Unit

def noSem : Unit → (q : Empty) → Unit → Except Exc (NoResp q) × Unit := fun _ q => nomatch q

/-- `NoopHandler`: exercises the full lifecycle, actuates nothing. The source
registers it with low risk. -/
def noopHandler (risk : Risk) : ControlHandler P (NoopDoc P) NoResp where
  riskFor _ _ := pure risk
  plan _ params := pure (.before, .preview params)
  execute _ := pure .executed
  rollback action := pure (action.beforeState.getD .empty)

def noopRegistry (risk : Risk) : Registry P (NoopDoc P) NoResp :=
  fun name => if name = "noop" then some (noopHandler risk) else none

end DiepLab.Controls
