import DiepLab.Controls.Plane
import DiepLab.Handlers.Switching
import Mathlib.Data.List.Sort
import Mathlib.Data.Rat.Floor

/-!
The read endpoints of the governance core: the list of actions, one action with
its trail, the audit trail, the two reports and the export. Each restricts its
queries to the tenant of the caller on its own.

Text rendering of a CSV file is left to the caller; the cells are here.
-/

namespace DiepLab.Controls

/-! ### The tables -/

/-- A row of `control_actions` with its times; its tenant is not null. -/
structure StoredAction (P D : Type) extends ActionRow P D where
  createdAt : ℚ
  approvedAt : Option ℚ := none
  executedAt : Option ℚ := none
  tenant_set : tenantId ≠ none
  deriving DecidableEq

/-- A row of `control_audit` with its key and its time. -/
structure StoredAudit (D : Type) extends AuditRow D where
  auditId : ℕ
  at_ : ℚ
  deriving DecidableEq

structure ControlTables (P D : Type) where
  actions : List (StoredAction P D)
  audit : List (StoredAudit D)
  action_key : (actions.map fun a => a.actionId).Nodup
  audit_action : ∀ e ∈ audit, e.actionId ∈ actions.map fun a => a.actionId

def AuditEvent.text : AuditEvent → String
  | .REQUESTED => "REQUESTED"
  | .APPROVED => "APPROVED"
  | .REJECTED => "REJECTED"
  | .DRYRUN => "DRYRUN"
  | .EXECUTED => "EXECUTED"
  | .FAILED => "FAILED"
  | .BLOCKED => "BLOCKED"
  | .ROLLED_BACK => "ROLLED_BACK"

def Mode.text : Mode → String
  | .dry_run => "dry_run"
  | .live => "live"

def Risk.text : Risk → String
  | .low => "low"
  | .high => "high"

/-- What a request reads besides the tables: the time in seconds, the master
flag, the registered action types in order, and how the database reads a uuid
(none for a text that it rejects). -/
structure ReadEnv where
  now : ℚ
  enabled : Bool
  registered : List String
  uuid : String → Option String

variable {P D : Type}

/-! ### Queries -/

/-- `min(max(x, 1), hi)`. -/
def clamp (hi x : ℤ) : ℕ := (min (max x 1) hi).toNat

/-- `ORDER BY time DESC`; rows of one time stay in the order of the table. -/
def newestFirst {α : Type} (time : α → ℚ) (rows : List α) : List α :=
  rows.insertionSort fun a b => time b ≤ time a

/-- `ORDER BY time`. -/
def oldestFirst {α : Type} (time : α → ℚ) (rows : List α) : List α :=
  rows.insertionSort fun a b => time a ≤ time b

/-- `SELECT column, COUNT(*) ... GROUP BY column`. -/
def countBy {α : Type} (column : α → String) (rows : List α) : List (String × ℕ) :=
  (rows.map column).dedup.map fun value => (value, (rows.map column).count value)

/-- The condition that `_scope` puts on `control_actions`. -/
def inScope (principal : Principal) (row : StoredAction P D) : Bool :=
  match principal.tenant with
  | none => true
  | some tenant => row.tenantId = some tenant

/-- An optional filter on a column. -/
def wanted (value : Option String) (column : String) : Bool :=
  match given value with
  | none => true
  | some value => column = value

namespace ControlTables

variable (db : ControlTables P D)

/-- `SELECT * FROM control_actions` within the scope of the caller. -/
def inScopeRows (principal : Principal) : List (StoredAction P D) :=
  db.actions.filter (inScope principal)

/-- `control_audit ca JOIN control_actions a ON a.action_id = ca.action_id`,
within the scope of the caller. -/
def joined (principal : Principal) : List (StoredAudit D × StoredAction P D) :=
  db.audit.flatMap fun e =>
    ((db.inScopeRows principal).filter fun a => a.actionId = e.actionId).map fun a => (e, a)

/-- `SELECT ... FROM control_audit WHERE action_id = actionId ORDER BY at`. -/
def trail (actionId : String) : List (StoredAudit D) :=
  oldestFirst StoredAudit.at_ (db.audit.filter fun e => e.actionId = actionId)

end ControlTables

/-! ### Answers -/

structure TrailEntry (D : Type) where
  event : AuditEvent
  actor : String
  detail : AuditDetail D
  at_ : ℚ
  deriving DecidableEq

structure ReadinessReport where
  controlsEnabled : Bool
  posture : String
  registeredActionTypes : List String
  approvalModel : List (String × String) :=
    [("high_risk", "two_person"), ("low_risk", "single_operator")]
  counts : List (String × ℕ)
  awaitingApproval : ℕ
  awaitingExecution : ℕ
  oldestPendingAgeSeconds : Option ℚ
  lastActionAt : Option ℚ
  activity24h : List (String × ℕ)
  ready : Bool
  warnings : List String
  deriving DecidableEq

structure HistoryReport (P D : Type) where
  sinceHours : ℕ
  total : ℕ
  byActionType : List (String × ℕ)
  byStatus : List (String × ℕ)
  byMode : List (String × ℕ)
  byRequestedBy : List (String × ℕ)
  actions : List (StoredAction P D)
  deriving DecidableEq

structure ExportRow (D : Type) where
  at_ : ℚ
  actionId : String
  actionType : String
  risk : Risk
  mode : Mode
  target : Option String
  event : AuditEvent
  actor : String
  requestedBy : String
  approvedBy : Option String
  status : ActionStatus
  detail : AuditDetail D
  deriving DecidableEq

/-- What `csv.writer` is given for one cell. -/
inductive Cell (D : Type) where
  | time (t : ℚ)
  | text (s : String)
  | json (detail : AuditDetail D)
  deriving DecidableEq

inductive ReadAnswer (P D : Type) where
  | actions (rows : List (StoredAction P D))
  | action (row : StoredAction P D) (audit : List (TrailEntry D))
  | audit (rows : List (StoredAudit D))
  | readiness (report : ReadinessReport)
  | history (report : HistoryReport P D)
  | exportJson (rows : List (ExportRow D))
  | exportCsv (rows : List (List (Cell D)))
  deriving DecidableEq

/-! ### Endpoints -/

section Endpoints

variable (env : ReadEnv) (db : ControlTables P D) (principal : Principal)

def listActions (status : Option String) (limit : ℤ) : List (StoredAction P D) :=
  (newestFirst StoredAction.createdAt
    ((db.inScopeRows principal).filter fun a => wanted status a.status.text)).take (clamp 200 limit)

def actionNotFound : Exc := .http 404 (.text "action not found")

def foreignAction : Exc := .http 403 (.text "action belongs to another tenant")

/-- The exception of a text that is no uuid. -/
def invalidUuid : Exc := .other "invalid input syntax for type uuid"

def getAction (actionId : String) : Except Exc (ReadAnswer P D) :=
  match env.uuid actionId with
  | none => .error invalidUuid
  | some i =>
      match db.actions.find? fun a => a.actionId = i with
      | none => .error actionNotFound
      | some row =>
          if tenantOk principal row.toActionRow then
            .ok (.action row ((db.trail i).map fun e => ⟨e.event, e.actor, e.detail, e.at_⟩))
          else .error foreignAction

def auditTrail (actionId : Option String) (limit : ℤ) : Except Exc (ReadAnswer P D) :=
  match given actionId with
  | some actionId =>
      match env.uuid actionId with
      | none => .error invalidUuid
      | some i => .ok (.audit (db.trail i))
  | none =>
      match principal.tenant with
      | some _ =>
          .ok (.audit ((newestFirst StoredAudit.at_ ((db.joined principal).map Prod.fst)).take
            (clamp 500 limit)))
      | none => .ok (.audit ((newestFirst StoredAudit.at_ db.audit).take (clamp 500 limit)))

def knownStatuses : List ActionStatus :=
  [.PENDING, .APPROVED, .REJECTED, .EXECUTED, .FAILED, .ROLLED_BACK]

/-- The rows of a status among the given ones. -/
def withStatus (status : ActionStatus) (rows : List (StoredAction P D)) :
    List (StoredAction P D) :=
  rows.filter fun a => a.status = status

def readinessWarnings (failed awaitingApproval blocked : ℕ) (oldestPending : Option ℚ) :
    List String :=
  (if env.enabled then
    ["LIVE actuation enabled (OC_CONTROLS_ENABLED=true) — actions can actuate."] else []) ++
  (if failed ≠ 0 then [toString failed ++ " action(s) in FAILED state — investigate."] else []) ++
  (if awaitingApproval ≠ 0 then
    [toString awaitingApproval ++ " high-risk action(s) awaiting two-person approval."] else []) ++
  (match oldestPending with
    | some age =>
        if age > 3600 then
          ["oldest PENDING action is " ++ toString ⌊age / 60⌋ ++ " min old."]
        else []
    | none => []) ++
  (if blocked ≠ 0 then
    [toString blocked ++ " live execution(s) refused by a governance gate in 24h."] else [])

def readiness : ReadinessReport :=
  let rows := db.inScopeRows principal
  let pending := withStatus .PENDING rows
  let awaitingApproval := (pending.filter fun a => a.risk = .high).length
  let oldestPending := (pending.map StoredAction.createdAt).min?.map fun t => env.now - t
  let events := ((db.joined principal).filter fun ea => ea.1.at_ > env.now - 24 * 3600).map
    fun ea => ea.1.event
  let failed := (withStatus .FAILED rows).length
  {
    controlsEnabled := env.enabled
    posture := if env.enabled then "LIVE" else "SAFE"
    registeredActionTypes := env.registered
    counts := knownStatuses.map fun s => (s.text, (withStatus s rows).length)
    awaitingApproval := awaitingApproval
    awaitingExecution := (withStatus .APPROVED rows).length
    oldestPendingAgeSeconds := oldestPending
    lastActionAt := (rows.map StoredAction.createdAt).max?
    activity24h := [
      ("requested", events.count .REQUESTED), ("dry_runs", events.count .DRYRUN),
      ("executed_live", events.count .EXECUTED), ("blocked", events.count .BLOCKED),
      ("failed", events.count .FAILED), ("rolled_back", events.count .ROLLED_BACK)]
    ready := failed = 0
    warnings := readinessWarnings env failed awaitingApproval (events.count .BLOCKED)
      oldestPending }

def history (actionType status risk : Option String) (sinceHours limit : ℤ) :
    HistoryReport P D :=
  let since := clamp (24 * 90) sinceHours
  let rows := (db.inScopeRows principal).filter fun a =>
    a.createdAt > env.now - since * 3600 && wanted actionType a.actionType &&
      wanted status a.status.text && wanted risk a.risk.text
  let actions := (newestFirst StoredAction.createdAt rows).take (clamp 1000 limit)
  {
    sinceHours := since
    total := actions.length
    byActionType := countBy (fun a => a.actionType) rows
    byStatus := countBy (fun a => a.status.text) rows
    byMode := countBy (fun a => a.mode.text) rows
    byRequestedBy := countBy (fun a => a.requestedBy) rows
    actions := actions }

def exportRow (ea : StoredAudit D × StoredAction P D) : ExportRow D where
  at_ := ea.1.at_
  actionId := ea.1.actionId
  actionType := ea.2.actionType
  risk := ea.2.risk
  mode := ea.2.mode
  target := ea.2.target
  event := ea.1.event
  actor := ea.1.actor
  requestedBy := ea.2.requestedBy
  approvedBy := ea.2.approvedBy
  status := ea.2.status
  detail := ea.1.detail

def exportColumns : List String :=
  ["at", "action_id", "action_type", "risk", "mode", "target", "event", "actor", "requested_by",
    "approved_by", "status", "detail"]

def ExportRow.cells (r : ExportRow D) : List (Cell D) :=
  [.time r.at_, .text r.actionId, .text r.actionType, .text r.risk.text, .text r.mode.text,
    .text (r.target.getD ""), .text r.event.text, .text r.actor, .text r.requestedBy,
    .text (r.approvedBy.getD ""), .text r.status.text, .json r.detail]

def exportAudit (format : String) (sinceHours : ℤ) : ReadAnswer P D :=
  let since := clamp (24 * 365) sinceHours
  let rows := newestFirst ExportRow.at_ (((db.joined principal).filter fun ea =>
    ea.1.at_ > env.now - since * 3600).map exportRow)
  if format = "json" then .exportJson rows
  else .exportCsv (exportColumns.map Cell.text :: rows.map ExportRow.cells)

end Endpoints

inductive ReadRequest where
  | listActions (status : Option String) (limit : ℤ)
  | getAction (actionId : String)
  | audit (actionId : Option String) (limit : ℤ)
  | readiness
  | history (actionType status risk : Option String) (sinceHours limit : ℤ)
  | exportAudit (format : String) (sinceHours : ℤ)
  deriving DecidableEq

def answer (env : ReadEnv) (db : ControlTables P D) (principal : Principal) :
    ReadRequest → Except Exc (ReadAnswer P D)
  | .listActions status limit => .ok (.actions (listActions db principal status limit))
  | .getAction actionId => getAction env db principal actionId
  | .audit actionId limit => auditTrail env db principal actionId limit
  | .readiness => .ok (.readiness (readiness env db principal))
  | .history actionType status risk sinceHours limit =>
      .ok (.history (history env db principal actionType status risk sinceHours limit))
  | .exportAudit format sinceHours => .ok (exportAudit env db principal format sinceHours)

end DiepLab.Controls
