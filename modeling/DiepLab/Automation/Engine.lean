import DiepLab.Controls.Plane
import DiepLab.Library.Disturbed
import Mathlib.Data.List.Sort
import Mathlib.Data.Rat.Defs

/-!
The automation engine, `routers/automation.py`.

A tick reads the policies that are enabled and not tripped, lets each evaluate,
and turns its proposals into governed actions through the endpoints of the
control plane: a policy in mode `recommend` leaves a PENDING action, one in
mode `auto` approves and executes it. Failures are counted, and enough of them
in a row trip the policy.

The engine is generic in the registered policies and handlers, as is the
control plane, and in `TRIP_THRESHOLD`. Two statements do not touch the
database: `proposing` marks the start of `_run_proposal` and carries what the
tick has read by then, the master flag and the policy's row, and `proposed`
marks its end. What is marked is kept in `current`, and the de-duplication
queries that have found nothing in `foundFree`; no program reads these two.
-/

namespace DiepLab.Automation

open StatementProgram Controls

/-! ### Rows -/

/-- `automation_policies.mode`. -/
inductive PolicyMode where
  | recommend | auto
  deriving DecidableEq, Repr

/-- The keys of `bounds` that the engine and the FLISR policy read. -/
structure Bounds where
  cooldownS : Option ℚ := none
  maxPerTick : Option ℤ := none
  requireRestoresAll : Option Bool := none
  maxCustomers : Option ℚ := none
  deriving DecidableEq, Repr

structure PolicyRow where
  policyId : String
  kind : String
  enabled : Bool := false
  mode : PolicyMode := .recommend
  bounds : Bounds := {}
  consecutiveFailures : ℤ := 0
  tripped : Bool := false
  lastRunAt : Option ℚ := none
  tenantId : String := "default"
  deriving DecidableEq, Repr

/-- The values in a policy's trigger. -/
inductive TriggerValue where
  | text (s : String)
  | flag (b : Bool)
  deriving DecidableEq, Repr

/-- What a policy wants to have done. -/
structure Proposal (P : Type) where
  actionType : String
  target : Option String
  params : P
  mode : Mode
  trigger : Dict TriggerValue
  reason : String
  deriving DecidableEq, Repr

/-- The body of `PATCH /automation/policies/{policy_id}`. -/
structure PolicyPatch where
  enabled : Option Bool := none
  mode : Option String := none
  resetTrip : Option Bool := none
  deriving DecidableEq, Repr

/-- `automation_events.decision`. -/
inductive Decision where
  | proposed | executed | skipped | blocked | failed | tripped | config
  deriving DecidableEq, Repr

inductive EventDetail (D : Type) where
  | error (text : String)
  | proposed (risk : Risk) (preview : D) (mode : Mode)
  | outOfBounds (why : String) (preview : D)
  | reason (text : String)
  | executed (risk : Risk) (afterState : Option (AfterState D))
  | failed (error : String) (consecutiveFailures : ℤ)
  | config (change : PolicyPatch) (by_ : String)
  deriving DecidableEq, Repr

structure EventRow (D : Type) where
  policyId : String
  kind : String
  decision : Decision
  trigger : Dict TriggerValue
  actionId : Option String
  detail : EventDetail D
  tenantId : String
  networkModelVersion : Option ℕ
  deriving DecidableEq, Repr

structure AutoDb (D : Type) where
  policies : List PolicyRow := []
  events : List (EventRow D) := []
  /-- `OC_AUTOMATION_ENABLED`. -/
  enabled : Bool := false
  deriving DecidableEq, Repr

/-- The proposal that a tick is at: the master flag and the row of the policy as
the tick has read them, and the world when the proposal was started. -/
structure Started (P W : Type) where
  checked : Bool
  policy : PolicyRow
  prop : Proposal P
  world : W

/-- A query for open and recent actions that has found none, and how many rows
the table had by then. -/
structure FoundFree where
  actionType : String
  target : String
  requestedBy : String
  rows : ℕ
  deriving DecidableEq, Repr

/-- The automation tables, the control tables and the world; and, for the tick
whose run is looked at, the proposal that it is at. -/
structure Engine (P D W : Type) where
  auto : AutoDb D
  plane : Plane P D W
  current : Option (Started P W) := none
  foundFree : List FoundFree := []

/-! ### Statements -/

inductive AutoStmt (P D : Type) where
  | automationEnabled
  /-- The policies that are enabled and not tripped. -/
  | selectPolicies
  | getPolicy (policyId : String)
  /-- The seconds that have gone by since a timestamp. -/
  | age (since : ℚ)
  /-- Whether an action of this type on this target is open, or was executed in
  the last ten minutes. -/
  | recentAction (actionType target requestedBy : String)
  | markRun (policyId : String)
  | bumpFailures (policyId : String)
  | resetFailures (policyId : String)
  | trip (policyId : String) (tripped : Bool)
  | updatePolicy (policyId : String) (enabled : Option Bool) (mode : Option PolicyMode)
      (resetTrip : Bool)
  | insertEvent (row : EventRow D)
  | proposing (checked : Bool) (policy : PolicyRow) (prop : Proposal P)
  | proposed

variable {P D : Type}

@[reducible] def AutoResp : AutoStmt P D → Type
  | .automationEnabled => Bool
  | .selectPolicies => List PolicyRow
  | .getPolicy _ => Option PolicyRow
  | .age _ => ℚ
  | .recentAction .. => Bool
  | .markRun _ => Unit
  | .bumpFailures _ => Option ℤ
  | .resetFailures _ => Unit
  | .trip .. => Unit
  | .updatePolicy .. => Unit
  | .insertEvent _ => Unit
  | .proposing .. => Unit
  | .proposed => Unit

/-- What the surroundings decide while one statement runs. -/
structure AutoChoice where
  /-- The statement raises, with this message. -/
  fails : Option String := none
  now : ℚ := 0
  /-- The actions that were executed in the last ten minutes. -/
  recent : List String := []

/-- `UPDATE automation_policies SET ... WHERE policy_id = policyId`. -/
def AutoDb.update (db : AutoDb D) (policyId : String) (f : PolicyRow → PolicyRow) : AutoDb D :=
  { db with policies := db.policies.map fun row => if row.policyId = policyId then f row else row }

/-- An open action of this type on this target. -/
def openAction (actionType target requestedBy : String) (row : ActionRow P D) : Bool :=
  row.actionType = actionType && row.target = some target && row.requestedBy = requestedBy &&
    (row.status = .PENDING || row.status = .APPROVED)

/-- The same, or one that was executed in the last ten minutes. -/
def recentlyTouched (recent : List String) (actionType target requestedBy : String)
    (row : ActionRow P D) : Bool :=
  row.actionType = actionType && row.target = some target && row.requestedBy = requestedBy &&
    (row.status = .PENDING || row.status = .APPROVED ||
      (row.status = .EXECUTED && row.actionId ∈ recent))

/-- `SELECT * FROM automation_policies WHERE enabled AND NOT tripped ORDER BY
policy_id`. -/
def AutoDb.runnable (db : AutoDb D) : List PolicyRow :=
  (db.policies.filter fun row => row.enabled && !row.tripped).insertionSort
    fun a b => a.policyId ≤ b.policyId

def AutoDb.get (db : AutoDb D) (policyId : String) : Option PolicyRow :=
  db.policies.find? fun row => row.policyId = policyId

/-- The columns that a patch sets. -/
def PolicyRow.patched (enabled : Option Bool) (mode : Option PolicyMode) (resetTrip : Bool)
    (row : PolicyRow) : PolicyRow :=
  { row with
    enabled := enabled.getD row.enabled
    mode := mode.getD row.mode
    tripped := if resetTrip then false else row.tripped
    consecutiveFailures := if resetTrip then 0 else row.consecutiveFailures }

def PolicyRow.bumped (row : PolicyRow) : PolicyRow :=
  { row with consecutiveFailures := row.consecutiveFailures + 1 }

section Semantics

variable {W : Type}

/-- The answer to a query for open and recent actions, remembered if there are
none. -/
def Engine.dedup (s : Engine P D W) (recent : List String)
    (actionType target requestedBy : String) : Bool × Engine P D W :=
  if s.plane.db.actions.any (recentlyTouched recent actionType target requestedBy) then (true, s)
  else
    (false, { s with foundFree :=
      ⟨actionType, target, requestedBy, s.plane.db.actions.length⟩ :: s.foundFree })

@[simp] theorem Engine.dedup_auto (s : Engine P D W) (recent : List String)
    (actionType target requestedBy : String) :
    (s.dedup recent actionType target requestedBy).2.auto = s.auto := by
  unfold Engine.dedup
  split <;> rfl

@[simp] theorem Engine.dedup_plane (s : Engine P D W) (recent : List String)
    (actionType target requestedBy : String) :
    (s.dedup recent actionType target requestedBy).2.plane = s.plane := by
  unfold Engine.dedup
  split <;> rfl

def autoExec (c : AutoChoice) :
    (q : AutoStmt P D) → Engine P D W → AutoResp q × Engine P D W
  | .automationEnabled, s => (s.auto.enabled, s)
  | .selectPolicies, s => (s.auto.runnable, s)
  | .getPolicy i, s => (s.auto.get i, s)
  | .age since, s => (c.now - since, s)
  | .recentAction actionType target requestedBy, s =>
      s.dedup c.recent actionType target requestedBy
  | .markRun i, s =>
      ((), { s with auto := s.auto.update i fun row => { row with lastRunAt := some c.now } })
  | .bumpFailures i, s =>
      let auto := s.auto.update i PolicyRow.bumped
      ((auto.get i).map PolicyRow.consecutiveFailures, { s with auto := auto })
  | .resetFailures i, s =>
      ((), { s with auto := s.auto.update i fun row => { row with consecutiveFailures := 0 } })
  | .trip i tripped, s =>
      ((), { s with auto := s.auto.update i fun row => { row with tripped := tripped } })
  | .updatePolicy i enabled mode resetTrip, s =>
      ((), { s with auto := s.auto.update i (PolicyRow.patched enabled mode resetTrip) })
  | .insertEvent row, s =>
      ((), { s with auto := { s.auto with events := s.auto.events ++ [row] } })
  | .proposing checked policy prop, s =>
      ((), { s with current := some ⟨checked, policy, prop, s.plane.world⟩ })
  | .proposed, s => ((), { s with current := none })

/-- Any database statement may fail; the flag and the marks are none. -/
def AutoStmt.failure (c : AutoChoice) : AutoStmt P D → Option Exc
  | .automationEnabled => none
  | .proposing .. => none
  | .proposed => none
  | _ => c.fails.map .other

def autoSem (c : AutoChoice) (q : AutoStmt P D) (s : Engine P D W) :
    Except Exc (AutoResp q) × Engine P D W :=
  match q.failure c with
  | some e => (.error e, s)
  | none => (.ok (autoExec c q s).1, (autoExec c q s).2)

/-- The engine's own statements leave the plane alone. -/
theorem autoSem_plane (c : AutoChoice) (q : AutoStmt P D) (s : Engine P D W) :
    (autoSem c q s).2.plane = s.plane := by
  rw [autoSem]
  cases q.failure c with
  | some e => rfl
  | none =>
      cases q with
      | recentAction actionType target requestedBy => exact Engine.dedup_plane ..
      | _ => rfl

variable {WStmt WC : Type} {WResp : WStmt → Type}

def engineSem (wsem : WC → (q : WStmt) → W → Except Exc (WResp q) × W)
    (c : AutoChoice × ControlChoice × WC) :
    (q : AutoStmt P D ⊕ (ControlStmt P D ⊕ WStmt)) → Engine P D W →
      Except Exc (Sum.elim AutoResp (Sum.elim ControlResp WResp) q) × Engine P D W
  | .inl q, s => autoSem c.1 q s
  | .inr q, s => ((planeSem wsem c.2 q s.plane).1,
      { s with plane := (planeSem wsem c.2 q s.plane).2 })

end Semantics

section Programs

variable {WStmt : Type} {WResp : WStmt → Type}

/-- Programs over the automation tables, the control tables and the world. -/
abbrev EngineProg (P D : Type) {WStmt : Type} (WResp : WStmt → Type) (α : Type) :=
  Prog (Sum.elim (AutoResp (P := P) (D := D))
    (Sum.elim (ControlResp (P := P) (D := D)) WResp)) Exc α

namespace Auto

abbrev automationEnabled : EngineProg P D WResp Bool :=
  Prog.call (Sum.inl AutoStmt.automationEnabled)

abbrev selectPolicies : EngineProg P D WResp (List PolicyRow) :=
  Prog.call (Sum.inl AutoStmt.selectPolicies)

abbrev getPolicy (i : String) : EngineProg P D WResp (Option PolicyRow) :=
  Prog.call (Sum.inl (AutoStmt.getPolicy i))

abbrev age (since : ℚ) : EngineProg P D WResp ℚ := Prog.call (Sum.inl (AutoStmt.age since))

abbrev recentAction (actionType target requestedBy : String) : EngineProg P D WResp Bool :=
  Prog.call (Sum.inl (AutoStmt.recentAction actionType target requestedBy))

abbrev markRun (i : String) : EngineProg P D WResp Unit :=
  Prog.call (Sum.inl (AutoStmt.markRun i))

abbrev bumpFailures (i : String) : EngineProg P D WResp (Option ℤ) :=
  Prog.call (Sum.inl (AutoStmt.bumpFailures i))

abbrev resetFailures (i : String) : EngineProg P D WResp Unit :=
  Prog.call (Sum.inl (AutoStmt.resetFailures i))

abbrev trip (i : String) (tripped : Bool) : EngineProg P D WResp Unit :=
  Prog.call (Sum.inl (AutoStmt.trip i tripped))

abbrev updatePolicy (i : String) (enabled : Option Bool) (mode : Option PolicyMode)
    (resetTrip : Bool) : EngineProg P D WResp Unit :=
  Prog.call (Sum.inl (AutoStmt.updatePolicy i enabled mode resetTrip))

abbrev insertEvent (row : EventRow D) : EngineProg P D WResp Unit :=
  Prog.call (Sum.inl (AutoStmt.insertEvent row))

abbrev proposing (checked : Bool) (policy : PolicyRow) (prop : Proposal P) :
    EngineProg P D WResp Unit :=
  Prog.call (Sum.inl (AutoStmt.proposing checked policy prop))

abbrev proposed : EngineProg P D WResp Unit := Prog.call (Sum.inl AutoStmt.proposed)

end Auto

/-! ### Policies -/

/-- What an evaluation may do: ask whether an action was taken recently, and
whatever the world offers. -/
def Evaluates : AutoStmt P D ⊕ (ControlStmt P D ⊕ WStmt) → Prop
  | .inl (.recentAction ..) => True
  | .inr (.inr _) => True
  | _ => False

/-- One policy kind. -/
structure AutomationPolicy (P D : Type) {WStmt : Type} (WResp : WStmt → Type) where
  kind : String
  evaluate : PolicyRow → EngineProg P D WResp (List (Proposal P))
  /-- Is a proposal with this preview inside the policy's safety envelope, and
  if not, why? -/
  withinBounds : D → Bounds → Bool × String
  evaluates : ∀ policy, (evaluate policy).Issues Evaluates

/-- `_POLICIES`. -/
abbrev PolicyRegistry (P D : Type) {WStmt : Type} (WResp : WStmt → Type) :=
  String → Option (AutomationPolicy P D WResp)

/-- `NoopAutoPolicy`: proposes a governed dry run each tick; `params` is the
dictionary that names the policy. -/
def noopAutoPolicy (params : String → P) : AutomationPolicy P D WResp where
  kind := "noop"
  evaluate policy := pure [{
    actionType := "noop", target := none, params := params policy.policyId, mode := .dry_run
    trigger := [("reason", .text "demonstrator tick")]
    reason := "automation:" ++ policy.policyId ++ " demonstrator" }]
  withinBounds _ _ := (true, "")
  evaluates _ := Prog.issues_pure _

/-! ### Helpers -/

/-- The name under which a policy requests its actions. -/
def requester (policyId : String) : String := "automation:" ++ policyId

/-- `_sys_actor`: a system actor without a tenant. -/
def sysActor (suffix : String) : Principal := ⟨"automation:" ++ suffix, none⟩

/-- `_event`. -/
def event (policyId kind : String) (decision : Decision) (trigger : Dict TriggerValue)
    (actionId : Option String) (detail : EventDetail D) (tenant : String) :
    EngineProg P D WResp Unit := do
  let version ← (Db.currentModelVersion : PlaneProg P D WResp (Option ℕ)).inr
  Auto.insertEvent ⟨policyId, kind, decision, trigger, actionId, detail, tenant, version⟩

/-- `_cooldown_active`. -/
def cooldownActive (policy : PolicyRow) : EngineProg P D WResp Bool :=
  let cd := policy.bounds.cooldownS.getD 0
  match policy.lastRunAt with
  | none => pure false
  | some since =>
      if cd ≤ 0 then pure false
      else do
        let age ← Auto.age since
        pure (age < cd)

/-- `l[: n]`: a negative bound counts from the end. -/
def upTo {α : Type} (n : ℤ) (l : List α) : List α :=
  l.take (if 0 ≤ n then n else l.length + n).toNat

/-! ### The engine -/

/-- The dictionary that `_run_proposal` returns. -/
structure Outcome where
  decision : Decision
  actionId : Option String := none
  risk : Option Risk := none
  detail : Option String := none
  deriving DecidableEq, Repr

variable (handlers : Registry P D WResp) (threshold : ℤ)

/-- `controls.submit_action` in its `try`: an `HTTPException` is handed on as a
value. -/
def submit (policy : PolicyRow) (prop : Proposal P) :
    EngineProg P D WResp (Except Exc (Option (ActionRow P D) × Risk × D)) :=
  tryCatch (do
      let out ← (submitAction handlers prop.actionType prop.target prop.params prop.mode
        (some prop.reason) (requester policy.policyId) (some policy.tenantId)).inr
      pure (.ok out))
    fun exc => if exc.isHttp then pure (.error exc) else throw exc

/-- The approval of a high-risk action, by an actor of its own. -/
def approveHigh (policyId actionId : String) : Risk → EngineProg P D WResp Unit
  | .low => pure ()
  | .high => do
      let _ ← (approve actionId (some (requester policyId)) (sysActor "supervisor")).inr
      pure ()

/-- What follows an execution that returns: the status has to be EXECUTED. -/
def recordExecution (policy : PolicyRow) (kind : String) (prop : Proposal P) (actionId : String)
    (risk : Risk) : Option (ActionRow P D) → EngineProg P D WResp Outcome
  | none => throw (.other "'NoneType' object has no attribute 'get'")
  | some result => do
      Prog.raiseIf (result.status ≠ .EXECUTED)
        (.other ("unexpected post-execute status " ++ result.status.text))
      Auto.resetFailures policy.policyId
      event policy.policyId kind .executed prop.trigger (some actionId)
        (.executed risk result.afterState) policy.tenantId
      pure { decision := .executed, actionId := some actionId }

/-- The body of the second `try`. -/
def approveAndExecute (policy : PolicyRow) (kind : String) (prop : Proposal P)
    (actionId : String) (risk : Risk) : EngineProg P D WResp Outcome := do
  approveHigh policy.policyId actionId risk
  let result ← (execute handlers actionId (sysActor policy.policyId)).inr
  recordExecution policy kind prop actionId risk result

/-- `if tripped: _trip(pid, True)`. -/
def tripWhen (policyId : String) (tooMany : Bool) : EngineProg P D WResp Unit :=
  if tooMany = true then Auto.trip policyId true else pure ()

/-- Its `except`: count the failure, and trip the policy when there are too
many of them. -/
def countFailure (policy : PolicyRow) (kind : String) (prop : Proposal P) (actionId : String)
    (exc : Exc) : EngineProg P D WResp Outcome := do
  let bumped ← Auto.bumpFailures policy.policyId
  let fails := bumped.getD 0
  let decision : Decision := if threshold ≤ fails then .tripped else .failed
  tripWhen policy.policyId (threshold ≤ fails)
  let error := (exc.text.take 200).toString
  event policy.policyId kind decision prop.trigger (some actionId) (.failed error fails)
    policy.tenantId
  pure { decision := decision, actionId := some actionId, detail := some error }

/-- The auto mode of `_run_proposal`. -/
def runAuto (policy : PolicyRow) (obj : AutomationPolicy P D WResp) (prop : Proposal P)
    (actionId : String) (risk : Risk) (preview : D) : EngineProg P D WResp Outcome :=
  if ¬ (obj.withinBounds preview policy.bounds).1 = true then do
    let why := (obj.withinBounds preview policy.bounds).2
    event policy.policyId obj.kind .blocked prop.trigger (some actionId)
      (.outOfBounds why preview) policy.tenantId
    pure { decision := .blocked, actionId := some actionId, detail := some why }
  else do
    let enabled ← (Db.controlsEnabled : PlaneProg P D WResp Bool).inr
    if ¬ enabled = true then do
      event policy.policyId obj.kind .blocked prop.trigger (some actionId)
        (.reason "OC_CONTROLS_ENABLED=false") policy.tenantId
      pure { decision := .blocked, actionId := some actionId, detail := some "controls disabled" }
    else
      tryCatch (approveAndExecute handlers policy obj.kind prop actionId risk)
        (countFailure threshold policy obj.kind prop actionId)

/-- `_run_proposal`: turn one proposal into a governed action. -/
def runProposal (policy : PolicyRow) (obj : AutomationPolicy P D WResp) (prop : Proposal P) :
    EngineProg P D WResp Outcome := do
  match ← submit handlers policy prop with
  | .error exc => do
      event policy.policyId obj.kind .blocked prop.trigger none (.error exc.text) policy.tenantId
      pure { decision := .blocked, detail := some exc.text }
  | .ok (none, _, _) => throw (.other "'NoneType' object is not subscriptable")
  | .ok (some row, risk, preview) =>
      match policy.mode with
      | .recommend => do
          event policy.policyId obj.kind .proposed prop.trigger (some row.actionId)
            (.proposed risk preview row.mode) policy.tenantId
          pure { decision := .proposed, actionId := some row.actionId, risk := some risk }
      | .auto => runAuto handlers threshold policy obj prop row.actionId risk preview

/-- The proposals of one policy, one after the other. -/
def runProposals (checked : Bool) (policy : PolicyRow) (obj : AutomationPolicy P D WResp) :
    List (Proposal P) → EngineProg P D WResp (List (String × Outcome))
  | [] => pure []
  | prop :: rest => do
      Auto.proposing checked policy prop
      let r ← runProposal handlers threshold policy obj prop
      Auto.proposed
      let results ← runProposals checked policy obj rest
      pure ((policy.policyId, r) :: results)

variable (policies : PolicyRegistry P D WResp)

/-- One policy of a tick. -/
def tickPolicy (checked : Bool) (policy : PolicyRow) :
    EngineProg P D WResp (List (String × Outcome)) :=
  match policies policy.kind with
  | none => do
      event policy.policyId policy.kind .skipped [] none
        (.reason "no policy handler registered") policy.tenantId
      pure []
  | some obj => do
      let cooling ← cooldownActive policy
      if cooling = true then
        pure [(policy.policyId, { decision := .skipped, detail := some "cooldown" })]
      else do
        let evaluated ← obj.evaluate policy
        let proposals := upTo (policy.bounds.maxPerTick.getD 1) evaluated
        if proposals.isEmpty = true then pure []
        else do
          Auto.markRun policy.policyId
          runProposals handlers threshold checked policy obj proposals

def tickPolicies (checked : Bool) : List PolicyRow → EngineProg P D WResp (List (String × Outcome))
  | [] => pure []
  | policy :: rest => do
      let results ← tickPolicy handlers threshold policies checked policy
      let later ← tickPolicies checked rest
      pure (results ++ later)

/-- `tick`: evaluate all enabled policies once; inert unless the master flag is
on. -/
def tick : EngineProg P D WResp (Option (List (String × Outcome))) := do
  let enabled ← Auto.automationEnabled
  if ¬ enabled = true then pure none
  else do
    let rows ← Auto.selectPolicies
    let results ← tickPolicies handlers threshold policies enabled rows
    pure (some results)

/-! ### Patching a policy -/

def policyModeOf (mode : String) : Option PolicyMode :=
  if mode = "recommend" then some .recommend else if mode = "auto" then some .auto else none

/-- `patch_policy`. -/
def patchPolicy (policyId : String) (body : PolicyPatch) (principal : Principal) :
    EngineProg P D WResp (Option PolicyRow) := do
  match ← Auto.getPolicy policyId with
  | none => throw (.http 404 (.text "policy not found"))
  | some pol =>
      Prog.raiseIf (body.mode.isSome ∧ (body.mode.bind policyModeOf).isNone)
        (.http 422 (.text "mode must be 'recommend' or 'auto'"))
      Prog.raiseIf (body.enabled = none ∧ body.mode = none ∧ body.resetTrip ≠ some true)
        (.http 422 (.text "nothing to update"))
      Auto.updatePolicy policyId body.enabled (body.mode.bind policyModeOf)
        (body.resetTrip = some true)
      event policyId pol.kind .config [] none (.config body principal.name) pol.tenantId
      Auto.getPolicy policyId

end Programs

end DiepLab.Automation
