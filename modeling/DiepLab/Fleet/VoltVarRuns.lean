import DiepLab.Fleet.HandlerAddressees
import DiepLab.Library.Runs

/-!
Volt/VAR dispatches from request to execution.

The risk of a dispatch is decided when it is requested, from the telemetry of that moment,
and `execute` sends the setpoint without planning again. Between the two the telemetry, the
registry and what the DERs deliver may change in any way; a `World` is what they are at one
moment.

`sent_bounded_iff` says when every dispatch that was classed as low-risk goes out inside
the band and within a step of the real output, whenever it is executed.
-/

namespace DiepLab.Fleet

open StatementProgram Controls Runs

namespace OcVoltVar

/-! ### The world at one moment -/

/-- What the handler can read, the latest telemetry row of each device with its age among
it, and what it cannot: the output that each DER delivers. -/
structure World where
  db : FleetDb
  latestPower : String → Option (Option ℚ × ℚ) := fun _ => none
  output : String → ℚ

namespace World

variable (w : World)

/-- A statement at this moment. -/
def exec (q : GridStmt ⊕ FleetStmt) (db : FleetDb) : Except Exc (FleetResp q) × FleetDb :=
  fleetSem
    { power := match q with
        | .inr (.latestPower derId) => w.latestPower derId
        | _ => none }
    q db

/-- What a program ends in at this moment. -/
def ask {α : Type} (p : FleetProg α) : Except Exc α := (p.run w.exec w.db).1

/-- The DER and the setpoint of an action that can be dispatched. -/
def resolved (target : Option String) (params : OcParams) : Option (DerAsset × ℚ) :=
  match given target with
  | none => none
  | some derId =>
      match w.db.der? derId with
      | none => none
      | some der =>
          if der.controllable = false then none
          else params.setpointKw.map fun setpoint => (der, setpoint)

/-- The output as the handler reads it: nothing without a fresh reading. -/
def readKw (settings : Settings) (derId : String) : ℚ :=
  match w.latestPower derId with
  | some (some power, age) => if settings.freshS < age then 0 else power
  | _ => 0

variable {w}

/-- An action that cannot be resolved is refused, by an exception that passes through. -/
theorem resolve_run (target : Option String) (params : OcParams) :
    ∃ e : Exc, e.isHttp = true ∧ (resolve target params).run w.exec w.db =
      ((w.resolved target params).elim (.error e) .ok, w.db) := by
  cases htarget : given target with
  | none =>
      rw [resolve, resolved, htarget]
      refine ⟨_, ?_, rfl⟩
      rfl
  | some derId =>
      have hquery : (Sql.der derId).run w.exec w.db = (.ok (w.db.der? derId), w.db) := rfl
      have hmapped (der : DerAsset) := curtailMap_total der.derType
      simp only [resolve, resolved, htarget, Prog.run_bind, hquery]
      cases w.db.der? derId with
      | none =>
          refine ⟨_, ?_, rfl⟩
          rfl
      | some der =>
          simp only [Prog.run_bind, Prog.run_raiseIf, hmapped, if_false]
          by_cases hcontrollable : der.controllable = false
          · simp only [hcontrollable, if_true]
            refine ⟨_, ?_, rfl⟩
            rfl
          · simp only [hcontrollable]
            cases params.setpointKw with
            | none =>
                refine ⟨_, ?_, rfl⟩
                rfl
            | some setpoint => exact ⟨.http 422 (.text ""), rfl, rfl⟩

theorem currentKw_run (settings : Settings) (derId : String) :
    (currentKw settings derId).run w.exec w.db = (.ok (w.readKw settings derId), w.db) := by
  have hquery : (Sql.latestPower derId).run w.exec w.db = (.ok (w.latestPower derId), w.db) := rfl
  rw [currentKw, Prog.run_bind, hquery, readKw]
  rcases w.latestPower derId with _ | ⟨_ | power, age⟩ <;> rfl

theorem resolved_derId {target : Option String} {params : OcParams} {der : DerAsset}
    {setpoint : ℚ} (h : w.resolved target params = some (der, setpoint)) :
    target = some der.derId ∧ params.setpointKw = some setpoint := by
  rw [resolved] at h
  cases htarget : given target with
  | none => rw [htarget] at h; exact nomatch h
  | some derId =>
      rw [htarget] at h
      dsimp only at h
      split at h
      · exact nomatch h
      · rename_i found hfound
        split at h
        · exact nomatch h
        · obtain ⟨value, hvalue, hpair⟩ := Option.map_eq_some_iff.mp h
          obtain ⟨rfl, rfl⟩ := Prod.mk.inj hpair
          have hid := List.find?_some hfound
          rw [(given_eq_some htarget).1, of_decide_eq_true hid]
          exact ⟨rfl, hvalue⟩

/-! ### What the handler answers -/

variable (settings : Settings)

/-- The risk is that of the step from the reading, and high where there is nothing to step
to. -/
theorem ask_riskFor (target : Option String) (params : OcParams) :
    w.ask (riskFor settings target params) =
      .ok ((w.resolved target params).elim .high fun found =>
        if settings.maxStepKw < |found.2 - w.readKw settings found.1.derId| then .high
        else .low) := by
  obtain ⟨e, he, hrun⟩ := w.resolve_run target params
  rw [ask, riskFor, Prog.run_bind, Prog.run_attempt, Prog.run_bind, hrun]
  cases hresolved : w.resolved target params with
  | none => simp only [Option.elim_none, he, if_true, Prog.run_pure]
  | some found =>
      obtain ⟨der, setpoint⟩ := found
      simp only [Option.elim_some, Prog.run_pure, Prog.run_bind, currentKw_run,
        (resolved_derId hresolved).1, Option.getD_some]

end World

/-- Nothing blocks a setpoint in the band; without a rating the band has no end. -/
theorem bandBlocks_eq_nil (settings : Settings) {setpoint rated : ℚ} :
    bandBlocks settings setpoint rated = [] ↔ 0 ≤ setpoint ∧ (rated ≠ 0 → setpoint ≤ rated) := by
  rw [bandBlocks, List.append_eq_nil_iff]
  refine and_congr ?_ ?_
  · rw [ite_eq_right_iff, ← not_lt]
    exact ⟨fun h hneg => absurd (h hneg) (List.cons_ne_nil _ _), fun h hneg => absurd hneg h⟩
  · rw [ite_eq_right_iff]
    constructor
    · intro h hrated
      by_contra hlt
      exact absurd (h ⟨hrated, not_le.mp hlt⟩) (List.cons_ne_nil _ _)
    · rintro h ⟨hrated, hlt⟩
      exact absurd (h hrated) hlt.not_ge

/-- A plan is made for what can be resolved and is not blocked, or is overridden. -/
theorem World.ask_plan (settings : Settings) (w : World) (target : Option String)
    (params : OcParams) :
    (∃ out, w.ask (plan settings target params) = .ok out) ↔
      ∃ der setpoint, w.resolved target params = some (der, setpoint) ∧
        (bandBlocks settings setpoint (der.ratedKw.getD 0) = [] ∨ params.override = true) := by
  obtain ⟨e, -, hrun⟩ := w.resolve_run target params
  rw [ask, plan, Prog.run_bind, hrun]
  cases w.resolved target params with
  | none => simp
  | some found =>
      obtain ⟨der, setpoint⟩ := found
      simp only [Option.elim_some, Prog.run_bind, currentKw_run, Prog.run_raiseIf]
      by_cases hpass : bandBlocks settings setpoint (der.ratedKw.getD 0) = [] ∨
          params.override = true
      · rw [if_neg (by tauto)]
        exact iff_of_true ⟨_, rfl⟩ ⟨der, setpoint, rfl, hpass⟩
      · rw [if_pos (by tauto)]
        refine iff_of_false (by rintro ⟨out, h⟩; cases h) ?_
        rintro ⟨der', setpoint', heq, h⟩
        obtain ⟨rfl, rfl⟩ := Prod.mk.inj (Option.some.inj heq)
        exact hpass h

/-! ### Runs -/

/-- A setpoint that has gone out, with the output that the DER delivered then. -/
structure Sent where
  action : OcRow
  der : DerAsset
  setpoint : ℚ
  outputKw : ℚ

structure RunState where
  world : World
  control : ControlDb OcParams OcDoc := {}
  sent : List Sent := []

/-- A request for a dispatch, with the identifier and the network version that its row
gets. -/
structure Submission where
  actionId : String
  target : Option String
  params : OcParams
  mode : Mode := .live
  reason : Option String := none
  requestedBy : String
  tenantId : String := "default"
  networkModelVersion : Option ℕ := none

inductive Event where
  /-- Telemetry arrives or ages, outputs move, the registry is edited. -/
  | surroundings (world : World)
  | submit (request : Submission)
  | approve (actionId by_ : String)
  | reject (actionId by_ : String)
  /-- With what the handler ends in once the command is out. -/
  | execute (actionId : String) (outcome : Except String OcDoc)

def RunState.update (s : RunState) (actionId : String) (u : StatusUpdate OcDoc) : RunState :=
  { s with control := s.control.update actionId u }

/-- The row that `submit_action` inserts. -/
def Submission.row (r : Submission) (risk : Risk) (before : OcDoc) : OcRow where
  actionId := r.actionId
  actionType := "voltvar_dispatch"
  target := r.target
  params := r.params
  mode := r.mode
  risk := risk
  reason := r.reason
  requestedBy := r.requestedBy
  beforeState := some before
  tenantId := some r.tenantId
  networkModelVersion := r.networkModelVersion

/-- The approval rule of `execute`. -/
def MayExecute (row : OcRow) : Prop :=
  row.status = .APPROVED ∨ (row.status = .PENDING ∧ (row.risk = .low ∨ row.mode = .dry_run))

instance (row : OcRow) : Decidable (MayExecute row) := by
  unfold MayExecute
  infer_instance

/-- What the end of a handler's run leaves in the row. -/
def settled : Except String OcDoc → StatusUpdate OcDoc
  | .ok after => .executed (.doc after)
  | .error text => .failed text

variable (settings : Settings)

/-- `submit_action`: plan, classify, insert; the identifier is a primary key. -/
def submitStep (s : RunState) (r : Submission) : RunState :=
  if r.actionId ∈ s.control.actions.map ActionRow.actionId then s
  else
    match s.world.ask (plan settings r.target r.params) with
    | .error _ => s
    | .ok (before, _) =>
        match s.world.ask (riskFor settings r.target r.params) with
        | .error _ => s
        | .ok risk =>
            { s with control := { s.control with
                actions := s.control.actions ++ [r.row risk before] } }

/-- `execute`: a live action that resolves sends its setpoint; one that does not is left as
it is. -/
def executeStep (s : RunState) (row : OcRow) (outcome : Except String OcDoc) : RunState :=
  if ¬MayExecute row then s
  else if row.mode = .dry_run then s.update row.actionId (.executed .dryRun)
  else
    match s.world.ask (resolve row.target row.params) with
    | .error _ => s
    | .ok (der, setpoint) =>
        { s.update row.actionId (settled outcome) with
          sent := s.sent ++ [⟨row, der, setpoint, s.world.output der.derId⟩] }

def step (s : RunState) : Event → RunState
  | .surroundings world => { s with world := world }
  | .submit r => submitStep settings s r
  | .approve i by_ =>
      match s.control.get i with
      | some row => if row.status = .PENDING then s.update i (.approved by_) else s
      | none => s
  | .reject i by_ =>
      match s.control.get i with
      | some row => if row.status = .PENDING then s.update i (.rejected by_) else s
      | none => s
  | .execute i outcome =>
      match s.control.get i with
      | some row => executeStep s row outcome
      | none => s

/-! ### What is promised, and when it is kept -/

/-- Inside the band and within a step of the output. -/
def InBounds (der : DerAsset) (setpoint outputKw : ℚ) : Prop :=
  (0 ≤ setpoint ∧ setpoint ≤ der.ratedKw.getD 0) ∧ |setpoint - outputKw| ≤ settings.maxStepKw

instance (der : DerAsset) (setpoint outputKw : ℚ) :
    Decidable (InBounds settings der setpoint outputKw) := by
  unfold InBounds
  infer_instance

/-- Every low-risk dispatch without override went out in bounds. -/
def SentInBounds (s : RunState) : Prop :=
  ∀ x ∈ s.sent, x.action.risk = .low → x.action.params.override = false →
    InBounds settings x.der x.setpoint x.outputKw

instance (s : RunState) : Decidable (SentInBounds settings s) := by
  unfold SentInBounds
  infer_instance

/-- A low-risk dispatch without override that can be executed. -/
structure Waiting (row : OcRow) : Prop where
  low : row.risk = .low
  live : row.mode = .live
  plain : row.params.override = false
  pending : row.status = .PENDING ∨ row.status = .APPROVED

/-- When a dispatch is stored as low-risk, the DER has a rating and its real output is
within a step; and while it waits, no change of the surroundings takes it out of the rating
or away from the output. -/
def Sound (s : RunState) : Event → Prop
  | .surroundings world =>
      ∀ i row, s.control.get i = some row → Waiting row →
        ∀ der setpoint, world.resolved row.target row.params = some (der, setpoint) →
          setpoint ≤ der.ratedKw.getD 0 ∧
            |setpoint - world.output der.derId| ≤ settings.maxStepKw
  | .submit r =>
      r.actionId ∉ s.control.actions.map ActionRow.actionId → r.mode = .live →
        r.params.override = false →
        ∀ der setpoint, s.world.resolved r.target r.params = some (der, setpoint) →
          bandBlocks settings setpoint (der.ratedKw.getD 0) = [] →
          |setpoint - s.world.readKw settings der.derId| ≤ settings.maxStepKw →
            (der.ratedKw.getD 0 = 0 → setpoint = 0) ∧
              |setpoint - s.world.output der.derId| ≤ settings.maxStepKw
  | _ => True

/-! ### Steps -/

section Steps

variable {settings : Settings} {s : RunState} {row : OcRow}

theorem ask_resolve (w : World) (target : Option String) (params : OcParams) :
    ∃ e, w.ask (resolve target params) = (w.resolved target params).elim (.error e) .ok := by
  obtain ⟨e, -, hrun⟩ := w.resolve_run target params
  exact ⟨e, by rw [World.ask, hrun]⟩

/-- An action that does not resolve is not executed: nothing is published, and the exception
is one that leaves the row as it is. -/
theorem execute_unresolved {w : World} (h : w.resolved row.target row.params = none) :
    ∃ e : Exc, e.isHttp = true ∧ (execute settings row).run w.exec w.db = (.error e, w.db) := by
  obtain ⟨e, he, hrun⟩ := w.resolve_run row.target row.params
  exact ⟨e, he, by rw [execute, Prog.run_bind, hrun, h, Option.elim_none]⟩

/-- What an execution reports is what resolved when it began. -/
theorem execute_reports {w : World} {after : OcDoc}
    (h : w.ask (execute settings row) = .ok after) :
    ∃ der setpoint commandId echo, w.resolved row.target row.params = some (der, setpoint) ∧
      after = .voltvarAfter der.derId (commandFor der.derType).1 setpoint commandId echo := by
  obtain ⟨e, -, hrun⟩ := w.resolve_run row.target row.params
  obtain ⟨⟨der, setpoint⟩, hfound, hrest⟩ := Prog.run_bind_ok w.exec h
  have hresolved : w.resolved row.target row.params = some (der, setpoint) := by
    rw [hrun] at hfound
    cases hcase : w.resolved row.target row.params with
    | none => rw [hcase] at hfound; exact nomatch hfound
    | some found =>
        rw [hcase] at hfound
        exact congrArg some (Except.ok.inj hfound)
  rw [World.ask, execute, hrest] at h
  obtain ⟨commandId, -, hrest⟩ := Prog.run_bind_ok w.exec h
  rw [hrest] at h
  obtain ⟨echo, -, hrest⟩ := Prog.run_bind_ok w.exec h
  rw [hrest] at h
  exact ⟨der, setpoint, commandId, echo, hresolved, (Except.ok.inj h).symm⟩

theorem Waiting.mayExecute (h : Waiting row) : MayExecute row :=
  h.pending.symm.imp_right fun hpending => ⟨hpending, Or.inl h.low⟩

theorem waiting_of_mayExecute (hmay : MayExecute row) (hlow : row.risk = .low)
    (hlive : row.mode ≠ .dry_run) (hplain : row.params.override = false) : Waiting row where
  low := hlow
  live := by
    cases hmode : row.mode with
    | live => rfl
    | dry_run => exact absurd hmode hlive
  plain := hplain
  pending := hmay.symm.imp_left And.left

theorem not_waiting_apply {u : StatusUpdate OcDoc} (hp : u.status ≠ .PENDING)
    (ha : u.status ≠ .APPROVED) : ¬Waiting (u.apply row) := by
  intro h
  have hpending := h.pending
  rw [StatusUpdate.apply_status] at hpending
  exact hpending.elim hp ha

/-- An approval makes nothing wait that did not wait before. -/
theorem waiting_of_apply {u : StatusUpdate OcDoc} (h : Waiting (u.apply row))
    (hrow : row.status = .PENDING) : Waiting row := by
  have hsame := u.apply_sameRequest row
  exact ⟨hsame.risk.trans h.low, hsame.mode.trans h.live, hsame.params ▸ h.plain, Or.inl hrow⟩

variable (settings) in
/-- What can be executed is in bounds, and so was what has been. -/
structure Inv (s : RunState) : Prop where
  nonneg : ∀ i row, s.control.get i = some row → Waiting row →
    ∀ setpoint, row.params.setpointKw = some setpoint → 0 ≤ setpoint
  waiting : ∀ i row, s.control.get i = some row → Waiting row →
    ∀ der setpoint, s.world.resolved row.target row.params = some (der, setpoint) →
      InBounds settings der setpoint (s.world.output der.derId)
  sent : SentInBounds settings s

theorem Inv.update (h : Inv settings s) {i : String} {u : StatusUpdate OcDoc}
    (hget : s.control.get i = some row) (hu : Waiting (u.apply row) → Waiting row) :
    Inv settings (s.update i u) := by
  -- a waiting row of the new table was waiting before, with the same target and parameters
  have hold : ∀ j row', (s.update i u).control.get j = some row' → Waiting row' →
      ∃ old, s.control.get j = some old ∧ Waiting old ∧ SameRequest old row' := by
    intro j row' hget' hwaiting
    rw [RunState.update, ControlDb.get_update] at hget'
    split at hget'
    · rename_i hij
      subst hij
      rw [hget, Option.map_some, Option.some.injEq] at hget'
      subst hget'
      exact ⟨row, hget, hu hwaiting, u.apply_sameRequest row⟩
    · exact ⟨row', hget', hwaiting, SameRequest.refl row'⟩
  refine ⟨fun j row' hget' hwaiting setpoint hsetpoint => ?_,
    fun j row' hget' hwaiting der setpoint hresolved => ?_, h.sent⟩
  · obtain ⟨old, hget'', hwaiting', hsame⟩ := hold j row' hget' hwaiting
    exact h.nonneg j old hget'' hwaiting' setpoint (hsame.params ▸ hsetpoint)
  · obtain ⟨old, hget'', hwaiting', hsame⟩ := hold j row' hget' hwaiting
    refine h.waiting j old hget'' hwaiting' der setpoint ?_
    rw [hsame.target, hsame.params]
    exact hresolved

theorem Inv.execute (h : Inv settings s) {i : String} (hget : s.control.get i = some row)
    (outcome : Except String OcDoc) : Inv settings (executeStep s row outcome) := by
  have hid : row.actionId = i := ControlDb.get_actionId hget
  rw [executeStep]
  by_cases hmay : MayExecute row
  · rw [if_neg (not_not.mpr hmay)]
    split
    · exact h.update (hid ▸ hget) fun hw => absurd hw
        (not_waiting_apply (fun he => nomatch he) fun he => nomatch he)
    · rename_i hlive
      obtain ⟨e, hask⟩ := ask_resolve s.world row.target row.params
      rw [hask]
      cases hresolved : s.world.resolved row.target row.params with
      | none => exact h
      | some found =>
          obtain ⟨der, setpoint⟩ := found
          have hupdated : Inv settings (s.update row.actionId (settled outcome)) :=
            h.update (hid ▸ hget) fun hw => absurd hw (by
              cases outcome with
              | ok after => exact not_waiting_apply (fun he => nomatch he) fun he => nomatch he
              | error text => exact not_waiting_apply (fun he => nomatch he) fun he => nomatch he)
          refine ⟨hupdated.nonneg, hupdated.waiting, ?_⟩
          intro x hx hlow hplain
          rcases List.mem_append.mp hx with hx | hx
          · exact h.sent x hx hlow hplain
          · rw [List.mem_singleton] at hx
            subst hx
            exact h.waiting i row hget (waiting_of_mayExecute hmay hlow hlive hplain) der setpoint
              hresolved
  · rw [if_pos hmay]
    exact h

/-- A new request that can be planned is stored, with the risk of its step. -/
theorem submitStep_planned {r : Submission}
    (hfresh : r.actionId ∉ s.control.actions.map ActionRow.actionId) {der : DerAsset}
    {setpoint : ℚ} (hresolved : s.world.resolved r.target r.params = some (der, setpoint))
    (hpass : bandBlocks settings setpoint (der.ratedKw.getD 0) = [] ∨ r.params.override = true) :
    ∃ risk before,
      (risk = .low ↔ |setpoint - s.world.readKw settings der.derId| ≤ settings.maxStepKw) ∧
        submitStep settings s r = { s with control := { s.control with
          actions := s.control.actions ++ [r.row risk before] } } := by
  obtain ⟨⟨before, preview⟩, hplan⟩ :=
    (s.world.ask_plan settings r.target r.params).mpr ⟨der, setpoint, hresolved, hpass⟩
  simp only [submitStep, hfresh, hplan, s.world.ask_riskFor, hresolved, if_false, Option.elim_some]
  refine ⟨_, before, ?_, rfl⟩
  rw [← not_lt]
  split <;> simp [*]

/-- Any other request changes nothing. -/
theorem submitStep_cases (s : RunState) (r : Submission) :
    submitStep settings s r = s ∨
      ∃ der setpoint, r.actionId ∉ s.control.actions.map ActionRow.actionId ∧
        s.world.resolved r.target r.params = some (der, setpoint) ∧
        (bandBlocks settings setpoint (der.ratedKw.getD 0) = [] ∨ r.params.override = true) := by
  rw [submitStep]
  split
  · exact Or.inl rfl
  · rename_i hfresh
    split
    · exact Or.inl rfl
    · rename_i out hplan
      obtain ⟨der, setpoint, hplanned⟩ :=
        (s.world.ask_plan settings r.target r.params).mp ⟨_, hplan⟩
      exact Or.inr ⟨der, setpoint, hfresh, hplanned⟩

theorem Inv.submit (h : Inv settings s) {r : Submission} (hsound : Sound settings s (.submit r)) :
    Inv settings (submitStep settings s r) := by
  rcases submitStep_cases s r with heq | ⟨der, setpoint, hfresh, hresolved, hpass⟩
  · rw [heq]
    exact h
  · obtain ⟨risk, before, hrisk, heq⟩ := submitStep_planned hfresh hresolved hpass
    rw [heq]
    have hparams := (World.resolved_derId hresolved).2
    have hin (hwaiting : Waiting (r.row risk before)) :
        0 ≤ setpoint ∧ InBounds settings der setpoint (s.world.output der.derId) := by
      have hblocks := hpass.resolve_right (hwaiting.plain ▸ Bool.false_ne_true)
      obtain ⟨hrated, hstep⟩ := hsound hfresh hwaiting.live hwaiting.plain der setpoint hresolved
        hblocks (hrisk.mp hwaiting.low)
      obtain ⟨hnonneg, hle⟩ := (bandBlocks_eq_nil settings).mp hblocks
      refine ⟨hnonneg, ⟨hnonneg, ?_⟩, hstep⟩
      by_cases hzero : der.ratedKw.getD 0 = 0
      · rw [hzero, hrated hzero]
      · exact hle hzero
    refine ⟨fun i row hget hwaiting value hvalue => ?_,
      fun i row hget hwaiting der' value hvalue => ?_, h.sent⟩
    · rcases ControlDb.get_insert_cases hget with hget | ⟨-, rfl⟩
      · exact h.nonneg i row hget hwaiting value hvalue
      · obtain rfl := Option.some.inj (hparams.symm.trans hvalue)
        exact (hin hwaiting).1
    · rcases ControlDb.get_insert_cases hget with hget | ⟨-, rfl⟩
      · exact h.waiting i row hget hwaiting der' value hvalue
      · obtain ⟨rfl, rfl⟩ := Prod.mk.inj (Option.some.inj (hresolved.symm.trans hvalue))
        exact (hin hwaiting).2

theorem Inv.surroundings (h : Inv settings s) {world : World}
    (hsound : Sound settings s (.surroundings world)) :
    Inv settings (step settings s (.surroundings world)) := by
  refine ⟨h.nonneg, fun i row hget hwaiting der setpoint hresolved => ?_, h.sent⟩
  obtain ⟨hrated, hstep⟩ := hsound i row hget hwaiting der setpoint hresolved
  exact ⟨⟨h.nonneg i row hget hwaiting setpoint (World.resolved_derId hresolved).2, hrated⟩, hstep⟩

/-- A decision on a pending action makes nothing wait. -/
theorem Inv.decided (h : Inv settings s) (i : String) (u : StatusUpdate OcDoc) :
    Inv settings (match s.control.get i with
      | some row => if row.status = .PENDING then s.update i u else s
      | none => s) := by
  split
  · rename_i row hget
    split
    · exact h.update hget fun hw => waiting_of_apply hw ‹_›
    · exact h
  · exact h

/-- A sound step keeps the invariant. -/
theorem Inv.step (h : Inv settings s) {e : Event} (hsound : Sound settings s e) :
    Inv settings (step settings s e) := by
  cases e with
  | surroundings world => exact h.surroundings hsound
  | submit r => exact h.submit hsound
  | approve i by_ => exact h.decided i (.approved by_)
  | reject i by_ => exact h.decided i (.rejected by_)
  | execute i outcome =>
      rw [OcVoltVar.step]
      split
      · rename_i row hget
        exact h.execute hget outcome
      · exact h

/-! ### Whole runs -/

variable (settings) in
/-- Whatever is executed now, everything that has gone out went out in bounds. -/
def AnyExecution (s : RunState) : Prop :=
  ∀ i outcome, SentInBounds settings (step settings s (.execute i outcome))

theorem Inv.anyExecution (h : Inv settings s) : AnyExecution settings s := fun i outcome =>
  (h.step (e := .execute i outcome) trivial).sent

/-- An action that waits out of bounds goes out so when it is executed. -/
theorem not_anyExecution {i : String} (hget : s.control.get i = some row) (hwaiting : Waiting row)
    {der : DerAsset} {setpoint : ℚ}
    (hresolved : s.world.resolved row.target row.params = some (der, setpoint))
    (hout : ¬InBounds settings der setpoint (s.world.output der.derId)) :
    ¬AnyExecution settings s := by
  intro hall
  have hsent := hall i (.error "")
  obtain ⟨e, hask⟩ := ask_resolve s.world row.target row.params
  rw [hresolved, Option.elim_some] at hask
  have hlive : row.mode ≠ .dry_run := by rw [hwaiting.live]; exact fun hm => nomatch hm
  simp only [OcVoltVar.step, hget, executeStep, hwaiting.mayExecute, not_true_eq_false, hlive,
    if_false, hask] at hsent
  exact hout (hsent _ (List.mem_append_right _ (List.mem_singleton_self _)) hwaiting.low
    hwaiting.plain)

/-- After a step that is not sound an action waits out of bounds. -/
theorem not_anyExecution_of_unsound {e : Event} (hunsound : ¬Sound settings s e) :
    ¬AnyExecution settings (OcVoltVar.step settings s e) := by
  cases e with
  | surroundings world =>
      simp only [Sound, not_forall] at hunsound
      obtain ⟨i, row, hget, hwaiting, der, setpoint, hresolved, hout⟩ := hunsound
      exact not_anyExecution hget hwaiting hresolved fun hin => hout ⟨hin.1.2, hin.2⟩
  | submit r =>
      simp only [Sound, not_forall] at hunsound
      obtain ⟨hfresh, hlive, hplain, der, setpoint, hresolved, hblocks, hnear, hout⟩ := hunsound
      obtain ⟨risk, before, hrisk, heq⟩ := submitStep_planned hfresh hresolved (Or.inl hblocks)
      rw [OcVoltVar.step, heq]
      refine not_anyExecution (ControlDb.get_insert_new hfresh)
        ⟨hrisk.mpr hnear, hlive, hplain, Or.inl rfl⟩ hresolved fun hin =>
          hout ⟨fun hzero => ?_, hin.2⟩
      obtain ⟨hnonneg, hle⟩ := hin.1
      rw [hzero] at hle
      exact le_antisymm hle hnonneg
  | approve i by_ => exact absurd trivial hunsound
  | reject i by_ => exact absurd trivial hunsound
  | execute i outcome => exact absurd trivial hunsound

end Steps

/-- A low-risk dispatch without override goes out inside the band and within a step of the
real output, whenever in the run it is executed, exactly when every step of the run is
sound. -/
theorem sent_bounded_iff (w : World) (events : List Event) :
    (∀ before after, events = before ++ after → ∀ i outcome,
        SentInBounds settings
          ((before ++ [Event.execute i outcome]).foldl (step settings) { world := w })) ↔
      Meets (step settings) (Sound settings) { world := w } events := by
  have hstart : Inv settings { world := w } :=
    ⟨fun _ _ h => (nomatch h), fun _ _ h => (nomatch h), fun _ h => absurd h List.not_mem_nil⟩
  have hbad (s : RunState) (e : Event) (_ : Inv settings s) (he : ¬Sound settings s e) :
      ¬AnyExecution settings (step settings s e) := not_anyExecution_of_unsound he
  rw [← forall_prefix_iff_meets (fun _ _ h he => h.step he) (fun _ h => h.anyExecution) hbad hstart
    events]
  simp only [List.foldl_append, List.foldl_cons, List.foldl_nil, AnyExecution]

/-! ### A stale reading -/

/-- A battery of 50 kW that delivers 45 kW, with a reading of this age. -/
def batteryWorld (age : ℚ) : World where
  db := {
    grid := { network := Network.empty }
    derAssets := [{ derId := "BAT001", derType := .battery, ratedKw := some 50 }] }
  latestPower _ := some (some 45, age)
  output _ := 45

/-- A request for 8 kW. -/
def swing : Submission where
  actionId := "a1"
  target := some "BAT001"
  params := { setpointKw := some 8 }
  requestedBy := "operator"

/-- With a reading of eleven minutes the request is classed against an output of nothing, and
goes out 37 kW below the real one. -/
theorem stale_swing :
    ¬SentInBounds {} ([Event.submit swing, Event.execute "a1" (.error "")].foldl (step {})
      { world := batteryWorld 660 }) := by
  decide +kernel

/-- With a fresh one it is classed as high-risk and waits for an approval. -/
example :
    ([Event.submit swing, Event.execute "a1" (.error "")].foldl (step {})
      { world := batteryWorld 60 }).sent.length = 0 := by
  decide +kernel

end OcVoltVar

end DiepLab.Fleet
