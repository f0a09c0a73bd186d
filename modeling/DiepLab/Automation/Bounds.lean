import DiepLab.Automation.Flisr
import DiepLab.Automation.Runs
import DiepLab.Grid.Radial

/-!
What automation executes, and within which bounds.

A live action of a tick is executed for a policy that the tick has read as
enabled, not tripped and in auto mode, with both master flags on. The bounds of
the FLISR policy are checked on the preview of the plan that was made when the
action was submitted; `FlisrHandler.execute` plans again and checks nothing.
The plan that it applies keeps to the bounds when every read of the planner,
from the start of the proposal on, sees the node, edge and service point rows
that were there at the start.

The surroundings may do everything in between that keeps action rows: patch
policies, switch the flags, move switches, run other ticks.
-/

namespace DiepLab.Automation

open StatementProgram Controls Dms

/-! ### Bounds -/

/-- The plan is inside the safety envelope. -/
def Keeps (bounds : Bounds) (plan : FlisrPlan) : Prop :=
  (bounds.requireRestoresAll.getD true = true → plan.customersStillOut = 0) ∧
    ∀ m ∈ bounds.maxCustomers, (plan.customersRestored : ℚ) ≤ m

instance (bounds : Bounds) (plan : FlisrPlan) : Decidable (Keeps bounds plan) :=
  inferInstanceAs (Decidable (_ ∧ _))

/-- What the check of a preview comes down to. -/
theorem keeps_of_withinBounds {bounds : Bounds} {plan : FlisrPlan}
    (h : (FlisrAuto.withinBounds (.flisrPreview plan (plan.customersStillOut = 0)) bounds).1 =
      true) : Keeps bounds plan := by
  unfold FlisrAuto.withinBounds at h
  split at h
  · cases h
  · rename_i hall
    constructor
    · intro hrequired
      by_contra hout
      exact hall (by simp [hrequired, FlisrAuto.restoresAll, hout])
    · intro m hm
      rw [Option.mem_def] at hm
      simp only [hm] at h
      split at h
      · cases h
      · rename_i hmax
        exact not_lt.mp hmax

/-! ### The planner on rows that do not change -/

/-- The reads of the planner. -/
def PlannerReads : GridStmt → Prop
  | .loadNodes => True
  | .loadEdges => True
  | .servicePointsIn _ => True
  | _ => False

instance (q : GridStmt) : Decidable (PlannerReads q) := by
  unfold PlannerReads
  split <;> infer_instance

/-- The rows that the planner reads are the same. -/
def SameRows (a b : GridDb) : Prop :=
  a.network.nodes = b.network.nodes ∧ a.network.edges = b.network.edges ∧
    a.servicePoints = b.servicePoints

instance (a b : GridDb) : Decidable (SameRows a b) := inferInstanceAs (Decidable (_ ∧ _))

/-- How many service points there are does not depend on whom they serve. -/
theorem length_servicePointsIn {a b : GridDb} (h : a.servicePoints = b.servicePoints)
    (nodes : Finset String) :
    (a.servicePointsIn nodes).length = (b.servicePointsIn nodes).length := by
  simp only [GridDb.servicePointsIn, List.length_filterMap_eq_countP, h]
  refine List.countP_congr fun sp _ => ?_
  cases sp.nodeId with
  | none => exact Iff.rfl
  | some n => by_cases hn : n ∈ nodes <;> simp [hn]

/-- Whatever else happens, the planner reads the rows of `T`. -/
def plannerRules (T : GridDb) : Rules GridStmt GridChoice GridDb where
  rely _ _ := True
  admits _ q db := PlannerReads q → SameRows T db
  needs _ _ _ := True

/-- A read that succeeds answers from rows like those of `T`. -/
theorem wp_read {T : GridDb} {q : GridStmt} (hq : PlannerReads q)
    {Q : Except Exc (GridResp q) → GridDb → Prop} {db : GridDb}
    (herror : ∀ e s, Q (.error e) s)
    (hok : ∀ c s, SameRows T s → Q (.ok (gridExec c q s).1) (gridSem c q s).2) :
    wp gridSem (plannerRules T) (Prog.call q) Q db := by
  refine (wp_call _ _ _ _ _).mpr fun s _ c hadm => ⟨trivial, ?_⟩
  cases hr : (gridSem c q s).1 with
  | error e => exact herror e _
  | ok a => exact gridSem_ok hr ▸ hok c s (hadm hq)

theorem wp_countServicePoints (T : GridDb) (nodes : Finset String) (db : GridDb) :
    wp gridSem (plannerRules T) (countServicePoints nodes)
      (fun r _ => ∀ n, r = .ok n → n = servicePointCount T nodes) db := by
  unfold countServicePoints servicePointCount
  split
  · intro n hn
    injection hn with hn
    exact hn.symm
  · rw [wp_bind]
    refine wp_read (q := .servicePointsIn nodes) trivial (fun _ _ _ h => nomatch h)
      fun c s hrows n hn => ?_
    injection hn with hn
    exact hn ▸ length_servicePointsIn hrows.2.2.symm nodes

/-- A plan that is made is the plan on those rows. -/
theorem wp_planFlisr (T : GridDb) (faultNode faultEdge : Option String) (db : GridDb) :
    wp gridSem (plannerRules T) (planFlisr faultNode faultEdge)
      (fun r _ => ∀ plan, r = .ok plan → planOn T faultNode faultEdge = .ok plan) db := by
  unfold planFlisr planOn
  rw [wp_bind]
  refine wp_read (q := .loadNodes) trivial (fun _ _ _ h => by cases h) fun c₁ db₁ h₁ => ?_
  rw [show (gridExec c₁ .loadNodes db₁).1 = T.network.nodes from h₁.1.symm]
  show wp _ _ (_ >>= _) _ _
  rw [wp_bind]
  refine wp_read (q := .loadEdges) trivial (fun _ _ _ h => by cases h) fun c₂ db₂ h₂ => ?_
  rw [show (gridExec c₂ .loadEdges db₂).1 = T.network.edges from h₂.2.1.symm]
  dsimp only
  cases switching T.network.nodes T.network.edges faultNode faultEdge with
  | error e => exact fun _ h => by cases h
  | ok s =>
      refine wp.bind (wp_countServicePoints T s.lost _) (fun lost _ hlost => ?_)
        fun _ _ _ _ h => by cases h
      refine wp.bind (wp_countServicePoints T s.restored _) (fun restored _ hrestored => ?_)
        fun _ _ _ _ h => by cases h
      refine wp.bind (wp_countServicePoints T s.stillOut _) (fun stillOut _ hstillOut => ?_)
        fun _ _ _ _ h => by cases h
      intro plan hplan
      injection hplan with hplan
      rw [← hplan, hlost lost rfl, hrestored restored rfl, hstillOut stillOut rfl]

/-! ### What may be executed -/

abbrev GridEngine := Engine ActionParams ActionDoc GridDb

abbrev GridEngineStmt :=
  AutoStmt ActionParams ActionDoc ⊕ (ControlStmt ActionParams ActionDoc ⊕ GridStmt)

abbrev GridMoment := EngineMoment ActionParams ActionDoc GridDb GridChoice

/-- The action is the one that was proposed, and the tick had read the master
flag as on and the policy as enabled, not tripped and in auto mode. -/
structure Governed (started : Started ActionParams GridDb) (row : ActionRecord) : Prop where
  automationOn : started.checked = true
  enabled : started.policy.enabled = true
  untripped : started.policy.tripped = false
  auto : started.policy.mode = .auto
  asked : Asked started.prop.actionType started.prop.target started.prop.params
    started.prop.mode (requester started.policy.policyId) row

instance (started : Started ActionParams GridDb) (row : ActionRecord) :
    Decidable (Governed started row) :=
  decidable_of_iff (started.checked = true ∧ started.policy.enabled = true ∧
      started.policy.tripped = false ∧ started.policy.mode = .auto ∧
      Asked started.prop.actionType started.prop.target started.prop.params started.prop.mode
        (requester started.policy.policyId) row)
    ⟨fun ⟨h₁, h₂, h₃, h₄, h₅⟩ => ⟨h₁, h₂, h₃, h₄, h₅⟩,
      fun h => ⟨h.automationOn, h.enabled, h.untripped, h.auto, h.asked⟩⟩

/-- The plan that `FlisrHandler.execute` makes, and applies, from this moment
on. -/
def replanned (row : ActionRecord) (x : GridMoment) : Except Exc FlisrPlan :=
  (((OcFlisr.planFor row.target row.params).inr.inr : FlisrAuto.AutoProg FlisrPlan).run
    (engineRun gridSem) x).1

def AppliesWithin (bounds : Bounds) (row : ActionRecord) (x : GridMoment) : Prop :=
  match replanned row x with
  | .error _ => True
  | .ok plan => Keeps bounds plan

instance (bounds : Bounds) (row : ActionRecord) (x : GridMoment) :
    Decidable (AppliesWithin bounds row x) := by
  unfold AppliesWithin
  split <;> infer_instance

/-- The action is executed as the tick has been told: a handler is called for a
governed action, with the second master flag read as on, and only governed
actions become EXECUTED. A FLISR policy executes FLISR actions only. -/
def ExecutesGoverned : GridEngineStmt → GridEngine → Prop
  | .inr (.inl (.invoke .execute row checked)), s =>
      ∃ started ∈ s.current, Governed started row ∧ checked = some true ∧
        (started.policy.kind = "flisr" → row.actionType = "flisr")
  | .inr (.inl (.updateStatus _ (.executed _) row)), s =>
      ∃ started ∈ s.current, Governed started row
  | _, _ => True

/-- The plan that is applied for the FLISR policy is within bounds. -/
def ExecutesWithin : GridEngineStmt → GridMoment → Prop
  | .inr (.inl (.invoke .execute row checked)), x =>
      ∀ started ∈ x.state.current, started.policy.kind = "flisr" →
        AppliesWithin started.policy.bounds row
          (engineRun gridSem (.inr (.inl (.invoke .execute row checked))) x).2
  | _, _ => True

instance (q : GridEngineStmt) (x : GridMoment) : Decidable (ExecutesWithin q x) := by
  unfold ExecutesWithin
  split <;> infer_instance

/-- The condition on a step: while a proposal of a FLISR policy in auto mode is
under way, the planner reads the rows that were there when it was started. -/
def ReadsAlike : GridEngineStmt → GridEngine → Prop
  | .inr (.inr q), s => PlannerReads q → ∀ started ∈ s.current,
      started.policy.kind = "flisr" → started.policy.mode = .auto →
        SameRows started.world s.plane.world
  | _, _ => True

instance (q : GridEngineStmt) (s : GridEngine) : Decidable (ReadsAlike q s) := by
  unfold ReadsAlike
  split <;> infer_instance

/-- What the surroundings do between two statements: action rows stay. -/
structure KeepsRows (a b : GridEngine) : Prop where
  current : b.current = a.current
  plane : Evolves (fun _ => True) a.plane b.plane

theorem KeepsRows.refl (a : GridEngine) : KeepsRows a a := ⟨rfl, .refl trivial⟩

/-! ### One proposal -/

/-- What is known of a statement that executes an action of the proposal. The
plan is known only if the planner reads alike. -/
def Checked (alike : Prop) (started : Started ActionParams GridDb) :
    ControlStmt ActionParams ActionDoc → Prop
  | .invoke .execute row checked =>
      Governed started row ∧ checked = some true ∧
        (started.policy.kind = "flisr" → row.actionType = "flisr" ∧ (alike →
          ∀ plan, planOn started.world (given row.params.faultNode <|> row.target)
            row.params.faultEdge = .ok plan → Keeps started.policy.bounds plan))
  | .updateStatus _ (.executed _) row => Governed started row
  | _ => True

def boundsRules (alike : Prop) :
    EngineRules ActionParams ActionDoc GridStmt GridChoice GridDb where
  rely := KeepsRows
  admits _ q s := alike → ReadsAlike q s
  needs _ q s := ∀ q', q = .inr (.inl q') → executes q' ≠ none →
    ∃ started ∈ s.current, Checked alike started q'

variable {alike : Prop}

theorem boundsRules_harmless {q : GridEngineStmt} (h : executedFor q = none) :
    Harmless (boundsRules alike) q := by
  rintro c s q' rfl hexec
  exact absurd (Option.map_eq_none_iff.mp h) hexec

/-- What is assumed of the reads of the world during the proposal. -/
def SeesStart (alike : Prop) (started : Started ActionParams GridDb) (q : GridStmt)
    (w : GridDb) : Prop :=
  alike → started.policy.kind = "flisr" → started.policy.mode = .auto → PlannerReads q →
    SameRows started.world w

/-- The rules of the plane during the proposal. -/
abbrev startedRules (alike : Prop) (started : Started ActionParams GridDb) :
    PlaneRules ActionParams ActionDoc GridStmt GridChoice GridDb :=
  callRules (SeesStart alike started) fun q _ => Checked alike started q

theorem bounds_lifts (alike : Prop) (started : Started ActionParams GridDb) :
    Lifts (boundsRules alike) (startedRules alike started) (fun s => s.current = some started) where
  frame _ _ hJ := hJ
  rely a b hJ hab := ⟨hab.plane, hab.current.trans hJ⟩
  admits c q s hJ hadm := by
    rintro w rfl halike hkind hmode hreads
    exact hadm halike hreads started hJ hkind hmode
  needs c q s hJ hneeds := by
    rintro q' heq -
    injection heq with heq
    exact ⟨started, hJ, hneeds q' heq⟩

/-- What the planner's reads decide holds inside the plane. -/
theorem runs_planner (halike : alike) {started : Started ActionParams GridDb}
    (hkind : started.policy.kind = "flisr") (hmode : started.policy.mode = .auto)
    {α : Type} {p : GridProg α} {K : α → Prop} {s : Plane ActionParams ActionDoc GridDb}
    (hp : wp gridSem (plannerRules started.world) p (fun r _ => ∀ a, r = .ok a → K a) s.world) :
    Runs gridSem (startedRules alike started) p.inr (fun a _ => K a) s := by
  refine wp.mono (wp.inr (J := fun _ => True) Plane.world Prod.snd (fun _ _ _ => rfl)
    (fun _ _ _ => rfl) (fun _ _ _ _ => trivial) (fun _ _ _ _ => ⟨trivial, trivial⟩) ?_ ?_
    trivial hp) fun r s' h a hr => h.2 a hr
  · exact fun _ q s' _ hadm => hadm q rfl halike hkind hmode
  · exact fun _ q s' _ _ q' heq => nomatch heq

/-- The preview that a submission returns shows the plan on the rows that were
there at the start. -/
theorem wp_preview (T : GridDb) (target : Option String) (params : ActionParams) (db : GridDb) :
    wp gridSem (plannerRules T) (OcFlisr.plan target params)
      (fun r _ => ∀ out, r = .ok out → ∃ plan,
        planOn T (given params.faultNode <|> target) params.faultEdge = .ok plan ∧
          out.2 = .flisrPreview plan (plan.customersStillOut = 0)) db := by
  refine wp.bind (wp_planFlisr T _ _ db) (fun plan s' hr => ?_) fun _ _ _ _ h => nomatch h
  intro out hout
  injection hout with hout
  exact ⟨plan, hr plan rfl, hout ▸ rfl⟩

variable {handlers : Registry ActionParams ActionDoc GridResp}
variable {threshold : ℤ} {others : PolicyRegistry ActionParams ActionDoc GridResp}

theorem checked_of_none (alike : Prop) (started : Started ActionParams GridDb)
    (q : ControlStmt ActionParams ActionDoc) (hq : executes q = none) :
    Checked alike started q := by
  cases q with
  | invoke op row checked =>
      cases op with
      | execute => cases hq
      | rollback => trivial
  | updateStatus i u row =>
      cases u with
      | executed after => cases hq
      | _ => trivial
  | _ => trivial

/-- What the FLISR policy proposes. -/
def ProposesFlisr (policy : PolicyRow) (prop : Proposal ActionParams) : Prop :=
  policy.kind = "flisr" → prop.actionType = "flisr"

/-- A proposal of a policy that the tick has read as enabled and not tripped. -/
theorem bounds_proposes (hflisr : handlers "flisr" = some OcFlisr.handler) {policy : PolicyRow}
    (henabled : policy.enabled = true) (htripped : policy.tripped = false)
    {obj : AutomationPolicy ActionParams ActionDoc GridResp}
    (hobj : policy.kind = "flisr" → obj = FlisrAuto.policy) {prop : Proposal ActionParams}
    (hprop : ProposesFlisr policy prop) :
    Proposes (boundsRules alike) gridSem handlers threshold policy obj prop fun _ => True := by
  refine fun c s _ _ => ⟨boundsRules_harmless rfl c s, ?_⟩
  let started : Started ActionParams GridDb := ⟨true, policy, prop, s.plane.world⟩
  have hN := fun q (_ : Plane ActionParams ActionDoc GridDb) (hq : Idle q) =>
    checked_of_none alike started q hq.executes
  refine wp_runProposal (K := fun preview => alike → policy.kind = "flisr" → policy.mode = .auto →
      ∃ plan, planOn s.plane.world (given prop.params.faultNode <|> prop.target)
        prop.params.faultEdge = .ok plan ∧
          preview = .flisrPreview plan (plan.customersStillOut = 0))
    (fun _ hq => boundsRules_harmless hq.inTables.executesNothing) hN
    (bounds_lifts alike started) rfl ?_ (fun _ _ _ => trivial) ?_
  · intro handler hhandler
    by_cases hauto : alike ∧ policy.kind = "flisr" ∧ policy.mode = .auto
    · obtain ⟨halike, hkind, hmode⟩ := hauto
      rw [hprop hkind, hflisr] at hhandler
      injection hhandler with hhandler
      subst hhandler
      refine (runs_evolves (runs_planner halike hkind hmode
        (wp_preview s.plane.world prop.target prop.params _))).mono fun r s' hr out hout => ?_
      exact ⟨hr.2, fun _ _ _ => hr.1 out hout⟩
    · refine runs_keeps ((callRules_calm_of_idle hN).plan _ _ hhandler _ _) (.refl trivial)
        fun _ _ h => ⟨h, fun halike hkind hmode => absurd ⟨halike, hkind, hmode⟩ hauto⟩
  · intro hmode preview hpreview hwithin row hasked
    have hgoverned : Governed started row := ⟨rfl, henabled, htripped, hmode, hasked⟩
    refine ⟨fun _ _ _ => hgoverned, fun _ _ => ⟨hgoverned, rfl, fun hkind => ?_⟩⟩
    refine ⟨hasked.actionType.trans (hprop hkind), fun halike plan' hplan' => ?_⟩
    obtain ⟨plan, hplan, rfl⟩ := hpreview halike hkind hmode
    rw [hasked.target, hasked.params] at hplan'
    rw [hplan] at hplan'
    injection hplan' with hplan'
    rw [hobj hkind] at hwithin
    exact hplan' ▸ keeps_of_withinBounds hwithin

theorem bounds_tick (hflisr : handlers "flisr" = some OcFlisr.handler) (s : GridEngine) :
    wp (engineSem gridSem) (boundsRules alike) (tick handlers threshold (withFlisr others))
      (fun _ _ => True) s := by
  have heval (q : GridEngineStmt) (hq : Evaluates q) : Harmless (boundsRules alike) q :=
    boundsRules_harmless (evaluates_executesNothing q hq)
  refine wp_tick (fun _ hq => boundsRules_harmless hq.inTables.executesNothing) ?_ s
  intro policy henabled htripped obj hobj
  by_cases hkind : policy.kind = "flisr"
  · rw [withFlisr, if_pos hkind] at hobj
    injection hobj with hobj
    subst hobj
    exact ⟨_, allows_of_returns (K := ProposesFlisr policy) heval
      ((FlisrAuto.evaluate_flisr policy).mono fun _ h prop hprop _ => h prop hprop)
      fun prop hprop => bounds_proposes hflisr henabled htripped (fun _ => rfl) hprop⟩
  · exact ⟨_, allows_of_returns (K := ProposesFlisr policy) heval
      ((Prog.returns_true _).mono fun _ _ _ _ h => absurd h hkind) fun prop hprop =>
        bounds_proposes hflisr henabled htripped (fun h => absurd h hkind) hprop⟩

/-! ### What the call of a handler announces -/

/-- A handler call is followed by the handler. -/
def Calls (handlers : Registry ActionParams ActionDoc GridResp) :
    ControlStmt ActionParams ActionDoc ⊕ GridStmt →
      PlaneProg ActionParams ActionDoc GridResp ActionDoc → Prop
  | .inl (.invoke .execute row _), g =>
      ∃ handler, handlers row.actionType = some handler ∧ g = (handler.execute row).inr
  | _, _ => False

/-- The same for a statement of the engine. -/
def CallsInEngine (handlers : Registry ActionParams ActionDoc GridResp) :
    GridEngineStmt → FlisrAuto.AutoProg ActionDoc → Prop
  | .inr (.inl (.invoke .execute row _)), g =>
      ∃ handler, handlers row.actionType = some handler ∧ g = (handler.execute row).inr.inr
  | _, _ => False

theorem passesTables_calls (handlers : Registry ActionParams ActionDoc GridResp) :
    PassesTables fun q => ∀ g, ¬ Calls handlers q g := by
  intro q hq g hg
  cases q with
  | invoke op row checked => exact hq
  | _ => exact hg

theorem world_callsNothing {α : Type} (p : GridProg α) :
    (p.inr : PlaneProg ActionParams ActionDoc GridResp α).Issues
      fun q => ∀ g, ¬ Calls handlers q g :=
  Prog.issues_inr (fun _ _ hg => hg) p

/-- The endpoint goes on with the handler that it has called. -/
theorem execute_announces (actionId : String) (principal : Principal) :
    (Controls.execute handlers actionId principal).Announces (Calls handlers) := by
  have hQ := passesTables_calls handlers
  refine ((hQ.fetch actionId principal).announces).bind (Prog.returns_true _) fun row _ => ?_
  refine ((handlerFor_issues _ _).announces).bind (handlerFor_returns _ _) fun handler hh => ?_
  split
  · exact (hQ.executeDryRun row actionId principal).announces
  · refine ((hQ.liveGates row actionId principal).announces).bind (Prog.returns_true _)
      fun enabled _ => ?_
    refine Prog.announces_call_bind ?_ fun _ => ?_
    · rintro g ⟨handler', hh', rfl⟩ -
      rw [hh] at hh'
      injection hh' with hh'
      subst hh'
      exact (Prog.beginsWith_attempt _ _).bind _
    · refine Prog.Issues.announces ((hQ.actuate (world_callsNothing _)).bind fun after => ?_)
      exact (hQ.call (by trivial)).bind fun _ => hQ.finish ..

theorem inEngine {α : Type} {p : PlaneProg ActionParams ActionDoc GridResp α}
    (hp : p.Announces (Calls handlers)) :
    (p.inr : FlisrAuto.AutoProg α).Announces (CallsInEngine handlers) := by
  refine hp.inr fun q g' hg' => ?_
  rcases q with q | q
  · cases q with
    | invoke op row checked =>
        cases op with
        | execute =>
            obtain ⟨handler, hh, hg⟩ := hg'
            exact ⟨_, hg, handler, hh, rfl⟩
        | rollback => exact hg'.elim
    | _ => exact hg'.elim
  · exact hg'.elim

theorem announces_of_executesNothing {α : Type} {p : FlisrAuto.AutoProg α}
    (hp : p.Issues fun q => executedFor q = none) : p.Announces (CallsInEngine handlers) := by
  refine Prog.Issues.announces (hp.mono fun q hq g hg => ?_)
  rcases q with q | q | q
  · exact hg
  · cases q with
    | invoke op row checked =>
        cases op with
        | execute => cases hq
        | rollback => exact hg
    | _ => exact hg
  · exact hg

theorem tick_announces :
    (tick handlers threshold (withFlisr others)).Announces (CallsInEngine handlers) := by
  have hQ := passesTables_calls handlers
  refine tick_parts Prog.announces_compositional
    (fun _ p hp => announces_of_executesNothing (hp.mono fun _ hq => hq.inTables.executesNothing))
    (fun _ _ _ _ _ _ _ => inEngine (Prog.Issues.announces (hQ.submitAction
      (fun _ _ => world_callsNothing _) fun _ _ => world_callsNothing _)))
    (fun _ _ _ => inEngine (Prog.Issues.announces (hQ.approve _ _ _)))
    (fun _ _ => inEngine (execute_announces _ _))
    (fun _ p hp => announces_of_executesNothing (hp.mono evaluates_executesNothing))
    fun _ _ _ => announces_of_executesNothing ((Prog.issues_call _).mpr rfl)

/-! ### Runs -/

theorem planFor_begins (row : ActionRecord) :
    Prog.BeginsWith
      ((OcFlisr.planFor row.target row.params).inr.inr : FlisrAuto.AutoProg FlisrPlan)
      ((OcFlisr.handler.execute row).inr.inr) :=
  Prog.BeginsWith.inr (Prog.BeginsWith.inr (Prog.beginsWith_bind _ _))

/-- The statements of one program, in surroundings that keep action rows. -/
theorem bounds_throughout {α : Type} {p : FlisrAuto.AutoProg α}
    {Q : Except Exc α → GridEngine → Prop} {x : GridMoment}
    (hsurround : ∀ n s, KeepsRows s ((x.2 n).1 s))
    (hp : wp (engineSem gridSem) (boundsRules alike) p Q x.1)
    (hreads : p.Throughout (engineRun gridSem)
      (fun q (y : GridMoment) => alike → ReadsAlike q y.state) x) :
    p.Throughout (engineRun gridSem) (fun q (y : GridMoment) =>
        ∀ q', q = .inr (.inl q') → executes q' ≠ none →
          ∃ started ∈ y.state.current, Checked alike started q') x ∧
      Q (p.run (engineRun gridSem) x).1 (p.run (engineRun gridSem) x).2.1 :=
  throughout_of_wp (D := boundsRules alike) (fun _ _ _ _ _ _ => .refl _)
    (fun _ b _ => .refl b) (fun n s _ => hsurround n s) (.refl _) hp hreads

/-- When the planner reads alike after the call of the handler, the plan that it
makes was checked. -/
theorem applies_within {started : Started ActionParams GridDb} {row : ActionRecord}
    (hkind : started.policy.kind = "flisr") (hmode : started.policy.mode = .auto)
    (hplans : ∀ plan, planOn started.world (given row.params.faultNode <|> row.target)
      row.params.faultEdge = .ok plan → Keeps started.policy.bounds plan)
    {x : GridMoment} (hx : x.1.current = some started)
    (hsurround : ∀ n s, KeepsRows s ((x.2 n).1 s))
    (hreads : ((OcFlisr.planFor row.target row.params).inr.inr :
      FlisrAuto.AutoProg FlisrPlan).Throughout (engineRun gridSem) (atState ReadsAlike) x) :
    AppliesWithin started.policy.bounds row x := by
  have hwp := (bounds_lifts True started).plane hx (runs_planner trivial hkind hmode
    (wp_planFlisr started.world (given row.params.faultNode <|> row.target) row.params.faultEdge
      x.1.plane.world))
  have hplan := (bounds_throughout hsurround hwp (hreads.mono fun _ _ h _ => h)).2.2
  unfold AppliesWithin replanned
  cases hr : (((OcFlisr.planFor row.target row.params).inr.inr :
    FlisrAuto.AutoProg FlisrPlan).run (engineRun gridSem) x).1 with
  | error e => trivial
  | ok plan => exact hplans plan (hplan plan hr)

/-- What is known of a statement says that it is governed. -/
theorem executesGoverned_of_checked {q : GridEngineStmt} {s : GridEngine}
    (hchecked : ∀ q', q = .inr (.inl q') → executes q' ≠ none →
      ∃ started ∈ s.current, Checked alike started q') : ExecutesGoverned q s := by
  rcases q with q | q | q
  · trivial
  · cases q with
    | updateStatus i u row =>
        cases u with
        | executed after => exact hchecked _ rfl (Option.some_ne_none row)
        | _ => trivial
    | invoke op row checked =>
        cases op with
        | rollback => trivial
        | execute =>
            obtain ⟨started, hcurrent, hgoverned, hflag, hbounds⟩ :=
              hchecked _ rfl (Option.some_ne_none row)
            exact ⟨started, hcurrent, hgoverned, hflag, fun hkind => (hbounds hkind).1⟩
    | _ => trivial
  · trivial

/-- With what it announces, it says that the plan is within bounds. -/
theorem executesWithin_of_checked (hflisr : handlers "flisr" = some OcFlisr.handler)
    {q : GridEngineStmt} {x : GridMoment} (hsurround : ∀ n s, KeepsRows s ((x.2 n).1 s))
    (hchecked : ∀ q', q = .inr (.inl q') → executes q' ≠ none →
      ∃ started ∈ x.state.current, Checked True started q')
    (hcalls : ∀ g, CallsInEngine handlers q g → ∀ a, (engineRun gridSem q x).1 = .ok a →
      g.Throughout (engineRun gridSem) (atState ReadsAlike) (engineRun gridSem q x).2) :
    ExecutesWithin q x := by
  rcases q with q | q | q
  · trivial
  · cases q with
    | invoke op row checked =>
        cases op with
        | rollback => trivial
        | execute =>
            intro started hcurrent hkind
            obtain ⟨started', hcurrent', hgoverned, -, hbounds⟩ :=
              hchecked _ rfl (Option.some_ne_none row)
            obtain rfl : started' = started := Option.mem_unique hcurrent' hcurrent
            obtain ⟨htype, hplans⟩ := hbounds hkind
            have hreads := hcalls _ ⟨OcFlisr.handler, htype ▸ hflisr, rfl⟩ () rfl
            exact applies_within hkind hgoverned.auto (hplans trivial) hcurrent
              (fun n => hsurround (n + 1)) ((planFor_begins row).throughout hreads)
    | _ => trivial
  · trivial

section Call

variable (call : EngineCall ActionParams ActionDoc GridDb GridChoice)

theorem bounds_prog (alike : Prop) (hflisr : handlers "flisr" = some OcFlisr.handler)
    (s : GridEngine) :
    wp (engineSem gridSem) (boundsRules alike) (call.prog handlers threshold (withFlisr others))
      (fun _ _ => True) s :=
  call.wp_prog handlers threshold (withFlisr others)
    (fun _ hq => boundsRules_harmless hq.executesNothing) (bounds_tick hflisr) s

theorem prog_announces :
    (call.prog handlers threshold (withFlisr others)).Announces (CallsInEngine handlers) := by
  cases call with
  | tick c => exact tick_announces.bind (Prog.returns_true _) fun _ _ => trivial
  | patch policyId body principal c =>
      exact announces_of_executesNothing (((patchPolicy_issues policyId body principal).mono
        fun _ hq => hq.executesNothing).bind fun _ => Prog.issues_pure _)

variable (hsurround : ∀ n s, KeepsRows s ((call.surrounding n).1 s))
include hsurround

theorem call_governed (hflisr : handlers "flisr" = some OcFlisr.handler) (s : GridEngine) :
    call.Throughout gridSem handlers threshold (withFlisr others) (atState ExecutesGoverned) s := by
  have hprog : wp _ _ (call.prog handlers threshold (withFlisr others)) _ (call.start s).1 :=
    bounds_prog call False hflisr _
  have hchecked := (bounds_throughout (x := call.start s) hsurround hprog
    (Prog.throughout_of_forall (fun _ _ h => h.elim) _ _)).1
  exact hchecked.mono fun q x h => executesGoverned_of_checked h

theorem call_within (hflisr : handlers "flisr" = some OcFlisr.handler) (s : GridEngine)
    (hreads : call.Throughout gridSem handlers threshold (withFlisr others) (atState ReadsAlike)
      s) :
    call.Throughout gridSem handlers threshold (withFlisr others) ExecutesWithin s := by
  have hchecked := (bounds_throughout hsurround (bounds_prog call True hflisr _)
    (hreads.mono fun _ _ h _ => h)).1
  have hcalls := (prog_announces call).throughout hreads
  have hkeeps := throughout_surround (engineSem gridSem)
    (call.prog handlers threshold (withFlisr others)) (x := call.start s) hsurround
  refine ((hchecked.and hcalls).and hkeeps).mono fun q x h => ?_
  exact executesWithin_of_checked hflisr h.2 h.1.1 h.1.2

end Call

/-- **What automation executes.** In a run of ticks and patches, with anything
going on in between that keeps action rows, every action is executed for a
policy that was read as enabled, not tripped and in auto mode, with both master
flags on. If moreover the planner always reads the rows that were there when
the proposal was started, every FLISR plan that is applied is within the bounds
of its policy. -/
theorem executes_governed (hflisr : handlers "flisr" = some OcFlisr.handler) (s : GridEngine)
    (calls : List (EngineCall ActionParams ActionDoc GridDb GridChoice))
    (hsurround : ∀ call ∈ calls, ∀ n s, KeepsRows s ((call.surrounding n).1 s)) :
    EngineCall.AllThroughout gridSem handlers threshold (withFlisr others)
        (atState ExecutesGoverned) s calls ∧
      (EngineCall.AllThroughout gridSem handlers threshold (withFlisr others)
          (atState ReadsAlike) s calls →
        EngineCall.AllThroughout gridSem handlers threshold (withFlisr others) ExecutesWithin s
          calls) := by
  constructor
  · exact EngineCall.allThroughout_of_forall _ _ _ _ (fun call hcall s =>
      call_governed call (hsurround call hcall) hflisr s) s
  · exact EngineCall.allThroughout_of_call _ _ _ _ fun call hcall s =>
      call_within call (hsurround call hcall) hflisr s

/-! ### The pilot network -/

/-- One outage at the transformer, with the customer behind it, and the FLISR
policy in auto mode with its default bounds. -/
def pilotOutage : GridEngine where
  auto := {
    enabled := true
    policies := [{ policyId := "flisr_auto", kind := "flisr", enabled := true, mode := .auto }] }
  plane := ⟨{ enabled := true }, {
    network := pilot
    servicePoints := [⟨"SP-1", some "CUST-1", some "ND-METER001"⟩]
    outageCases := [⟨"OUT-1", .CONFIRMED, some "TX-01"⟩] }⟩

/-- Somebody opens `E-SW-02`, which feeds the tie, in front of the `k`-th
statement. -/
def openingFeed (k : ℕ) : Surrounding ActionParams ActionDoc GridDb GridChoice := fun n =>
  (fun s =>
      if n = k then
        { s with plane := { s.plane with world := { s.plane.world with
          network := s.plane.world.network.setSwitch "E-SW-02" false } } }
      else s,
    {}, { uuid := "a1" }, {})

theorem openingFeed_keepsRows (k n : ℕ) (s : GridEngine) :
    KeepsRows s ((openingFeed k n).1 s) := by
  simp only [openingFeed]
  split
  · exact ⟨rfl, trivial, trivial, List.prefix_rfl, fun _ row hrow => ⟨row, hrow, .refl row⟩⟩
  · exact .refl s

/-- A tick restores the customer, the feed of the tie is opened afterwards, and
the policy is patched. -/
theorem executes_governed_for_pilot :
    let calls : List (EngineCall ActionParams ActionDoc GridDb GridChoice) :=
      [.tick (openingFeed 50),
        .patch "flisr_auto" { mode := some "recommend" } ⟨"engineer", none⟩ (calmly {})]
    EngineCall.AllThroughout gridSem switchingHandlers 3 (withFlisr fun _ => none)
        (atState ExecutesGoverned) pilotOutage calls ∧
      EngineCall.AllThroughout gridSem switchingHandlers 3 (withFlisr fun _ => none) ExecutesWithin
        pilotOutage calls := by
  intro calls
  have hsurround : ∀ call ∈ calls, ∀ n s, KeepsRows s ((call.surrounding n).1 s) := by
    intro call hcall n s
    simp only [calls, List.mem_cons, List.not_mem_nil, or_false] at hcall
    rcases hcall with rfl | rfl
    · exact openingFeed_keepsRows 50 n s
    · exact .refl s
  obtain ⟨hgoverned, hwithin⟩ :=
    executes_governed (show switchingHandlers "flisr" = some OcFlisr.handler from rfl) pilotOutage
      calls hsurround
  exact ⟨hgoverned, hwithin (by decide +kernel)⟩

/-- The feed of the tie is opened while the action is being approved. The
preview restored the customer; the plan that is applied leaves them out, and
the policy requires that all are restored. -/
theorem plan_out_of_bounds :
    (∀ n s, KeepsRows s ((openingFeed 30 n).1 s)) ∧
      ¬ EngineCall.AllThroughout gridSem switchingHandlers 3 (withFlisr fun _ => none)
        ExecutesWithin pilotOutage [.tick (openingFeed 30)] :=
  ⟨openingFeed_keepsRows 30, by decide +kernel⟩

end DiepLab.Automation
