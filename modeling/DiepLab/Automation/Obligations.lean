import DiepLab.Automation.Engine
import DiepLab.Controls.Obligations

/-!
What the engine has to prove.

`_run_proposal` acts through the endpoints of the control plane, so a proof
about it is a proof about these under rules `R` of the plane, lifted to rules
`E` of the engine (`Lifts`); `J` is what is known of the engine meanwhile. The
engine's own statements are `Harmless`: they need nothing. What is left of a
proposal is its submission and, in auto mode and within bounds, the approval
and the execution of the row that came back (`wp_runProposal`).
-/

namespace DiepLab.Automation

open StatementProgram Controls

variable {P D W WC WStmt : Type} {WResp : WStmt → Type}
variable {wsem : WC → (q : WStmt) → W → Except Exc (WResp q) × W}

/-- Rules about the engine. -/
abbrev EngineRules (P D WStmt WC W : Type) :=
  Rules (AutoStmt P D ⊕ (ControlStmt P D ⊕ WStmt)) (AutoChoice × ControlChoice × WC)
    (Engine P D W)

/-! ### Rules of the plane inside the engine -/

/-- While `J` holds, which nothing in the plane can change, statements of the
plane may be treated by the rules `R`. -/
structure Lifts (E : EngineRules P D WStmt WC W) (R : PlaneRules P D WStmt WC W)
    (J : Engine P D W → Prop) : Prop where
  frame : ∀ s plane, J s → J { s with plane := plane }
  rely : ∀ a b, J a → E.rely a b → R.rely a.plane b.plane ∧ J b
  admits : ∀ c q s, J s → E.admits c (.inr q) s → R.admits c.2 q s.plane
  needs : ∀ c q s, J s → R.needs c.2 q s.plane → E.needs c (.inr q) s

variable {E : EngineRules P D WStmt WC W} {R : PlaneRules P D WStmt WC W}
variable {J : Engine P D W → Prop}

theorem Lifts.plane (h : Lifts E R J) {α : Type} {p : PlaneProg P D WResp α}
    {Q : Except Exc α → Plane P D W → Prop} {s : Engine P D W} (hJ : J s)
    (hp : wp (planeSem wsem) R p Q s.plane) :
    wp (engineSem wsem) E (p.inr : EngineProg P D WResp α) (fun r s' => J s' ∧ Q r s'.plane) s :=
  wp.inr Engine.plane Prod.snd (fun _ _ _ => rfl) (fun _ _ _ => rfl) (fun _ _ s => h.frame s _)
    h.rely h.admits h.needs hJ hp

/-! ### Rules about what the plane's statements need -/

/-- Rows stay; `A` is assumed of the statements on the world, and `N` is what
the others need. -/
def callRules (A : WStmt → W → Prop) (N : ControlStmt P D → Plane P D W → Prop) :
    PlaneRules P D WStmt WC W where
  rely := Evolves fun _ => True
  admits _ q s := ∀ w, q = .inr w → A w s.world
  needs _ q s := ∀ q', q = .inl q' → N q' s

section Call

variable {A : WStmt → W → Prop} {N : ControlStmt P D → Plane P D W → Prop}

theorem evolves_sem (c : ControlChoice × WC) (q : ControlStmt P D ⊕ WStmt) (s : Plane P D W) :
    Evolves (fun _ => True) s (planeSem wsem c q s).2 := by
  cases q with
  | inr _ => exact ⟨trivial, trivial, List.prefix_rfl, fun _ row hrow => ⟨row, hrow, .refl row⟩⟩
  | inl q =>
      exact ⟨trivial, trivial, controlSem_log c.1 q s.db, fun _ _ hrow => controlSem_get c.1 q hrow⟩

theorem callRules_safe {q : ControlStmt P D} {s : Plane P D W} (hq : N q s) :
    Safe wsem (callRules A N) q s := by
  refine fun c _ => ⟨fun q' heq => ?_, evolves_sem c _ s⟩
  injection heq with heq
  exact heq ▸ hq

theorem callRules_calm (handlers : Registry P D WResp) (hN : ∀ q s, Quiet q → N q s) :
    Calm wsem handlers (callRules A N) :=
  .of_world handlers (fun _ _ _ => Evolves.trans) (fun _ _ _ => Evolves.refl trivial)
    (fun _ s _ hq => callRules_safe (hN _ s hq))
    (fun c _ s _ _ => ⟨(fun _ heq => by cases heq), evolves_sem c _ s⟩)

/-- Whatever the plane runs, rows stay. -/
theorem runs_evolves {α : Type} {p : PlaneProg P D WResp α} {K : α → Plane P D W → Prop}
    {s : Plane P D W} (h : Runs wsem (callRules A N) p K s) :
    wp (planeSem wsem) (callRules A N) p
      (fun r s' => (∀ a, r = .ok a → K a s') ∧ Evolves (fun _ => True) s s') s :=
  wp.and_rely (fun _ _ _ => Evolves.trans) (fun _ _ _ => Evolves.refl trivial)
    (fun c q s _ _ _ => evolves_sem c q s) (.refl trivial) h

end Call

/-- The action that the statement executes: its handler is called, or it
becomes EXECUTED. -/
def executes : ControlStmt P D → Option (ActionRow P D)
  | .invoke .execute row _ => some row
  | .updateStatus _ (.executed _) read => some read
  | _ => none

/-- The statement neither inserts nor executes an action. -/
def Idle : ControlStmt P D → Prop
  | .insertAction _ => False
  | .invoke .execute _ _ => False
  | .updateStatus _ (.executed _) _ => False
  | _ => True

theorem Idle.executes {q : ControlStmt P D} (h : Idle q) : executes q = none := by
  cases q with
  | invoke op row checked =>
      cases op with
      | execute => exact h.elim
      | rollback => rfl
  | updateStatus i u row =>
      cases u with
      | executed after => exact h.elim
      | _ => rfl
  | _ => rfl

section Execute

variable {A : WStmt → W → Prop} {N : ControlStmt P D → Plane P D W → Prop}
variable {handlers : Registry P D WResp}
variable (hN : ∀ q s, Idle q → N q s)
include hN

theorem callRules_calm_of_idle :
    Calm wsem handlers (callRules A N : PlaneRules P D WStmt WC W) := by
  refine callRules_calm handlers fun q s hq => hN q s ?_
  cases q with
  | insertAction row => exact hq.elim
  | invoke op row checked => exact hq.elim
  | updateStatus i u read => exact hq.elim
  | _ => trivial

theorem runs_submit {actionType : String} {target : Option String} {params : P} {mode : Mode}
    {reason : Option String} {requestedBy : String} {tenant : Option String} {K : D → Prop}
    {s : Plane P D W}
    (hplan : ∀ handler, handlers actionType = some handler →
      Runs wsem (callRules A N) (handler.plan target params).inr
        (fun out s' => Evolves (fun _ => True) s s' ∧ K out.2) s)
    (hinsert : ∀ row, Asked actionType target params mode requestedBy row →
      ∀ s, N (.insertAction row) s) :
    Runs wsem (callRules A N)
      (submitAction handlers actionType target params mode reason requestedBy tenant)
      (fun out s' => K out.2.2 ∧ ∀ row, out.1 = some row →
        s'.db.get row.actionId = some row ∧ Asked actionType target params mode requestedBy row)
      s := by
  refine wp.mono ((callRules_calm_of_idle hN).runs_submitAction hplan
    fun row s' _ _ hasked => callRules_safe (hinsert row hasked s')) fun r s' hr out hout => ?_
  exact ⟨(hr out hout).1, (hr out hout).2 fun _ _ hab => hab.rows⟩

theorem runs_approved {actionId : String} {reason : Option String} {principal : Principal}
    (s : Plane P D W) :
    Runs wsem (callRules A N) (approve actionId reason principal) (fun _ _ => True) s :=
  Calm.runs_approve (callRules_calm_of_idle hN : Calm wsem (fun _ => none) (callRules A N))
    (fun _ _ s₂ _ _ _ _ _ => callRules_safe (hN _ s₂ trivial))
    fun _ s₂ _ => callRules_safe (hN _ s₂ trivial)

/-- An execution executes the row that is stored under its key. -/
theorem runs_executed {actionId : String} {principal : Principal} {row₀ : ActionRow P D}
    {s : Plane P D W} (h₀ : s.db.get actionId = some row₀)
    (hupdate : ∀ row, SameRequest row₀ row →
      ∀ i after s, N (.updateStatus i (.executed after) row) s)
    (hinvoke : ∀ row, SameRequest row₀ row → row.mode = .live →
      ∀ s, N (.invoke .execute row (some true)) s) :
    Runs wsem (callRules A N) (execute handlers actionId principal) (fun _ _ => True) s := by
  have same {row : ActionRow P D} {s₁ : Plane P D W} (h₁ : Evolves (fun _ => True) s s₁)
      (hrow : s₁.db.get actionId = some row) : SameRequest row₀ row := by
    obtain ⟨row', hrow', hsame⟩ := h₁.rows _ _ h₀
    rw [hrow] at hrow'
    injection hrow' with hrow'
    exact hrow' ▸ hsame
  refine (callRules_calm_of_idle hN).runs_execute ?_ ?_ ?_ ?_
  · exact fun row _ s₂ h₁ hrow _ _ _ => callRules_safe (hupdate row (same h₁ hrow) _ _ s₂)
  · exact fun row _ _ s₃ h₁ hrow hlive _ _ _ _ _ =>
      callRules_safe (hinvoke row (same h₁ hrow) hlive s₃)
  · intro row s₁ s₂ u h₁ hrow _ _ hu
    obtain ⟨after, rfl⟩ | ⟨error, rfl⟩ := hu
    · exact callRules_safe (hupdate row (same h₁ hrow) _ _ s₂)
    · exact callRules_safe (hN _ s₂ trivial)
  · exact fun s' _ => callRules_safe (hN _ s' trivial)

end Execute

/-! ### The pieces of `_run_proposal` -/

variable {A : WStmt → W → Prop} {N : ControlStmt P D → Plane P D W → Prop}
variable {handlers : Registry P D WResp} {threshold : ℤ}

/-- The statement needs nothing. -/
def Harmless (E : EngineRules P D WStmt WC W)
    (q : AutoStmt P D ⊕ (ControlStmt P D ⊕ WStmt)) : Prop :=
  ∀ c s, E.needs c q s

/-- The statements of a tick that act neither through the control plane nor for
an evaluation, and mark no proposal. -/
def Own : AutoStmt P D ⊕ (ControlStmt P D ⊕ WStmt) → Prop
  | .inl (.proposing ..) => False
  | .inl (.updatePolicy ..) => False
  | .inl (.trip _ tripped) => tripped = true
  | .inl _ => True
  | .inr (.inl .currentModelVersion) => True
  | .inr (.inl .controlsEnabled) => True
  | _ => False

theorem event_issues (policyId kind : String) (decision : Decision)
    (trigger : Dict TriggerValue) (actionId : Option String) (detail : EventDetail D)
    (tenant : String) :
    (event policyId kind decision trigger actionId detail tenant :
      EngineProg P D WResp Unit).Issues Own :=
  Prog.Issues.bind (Prog.Issues.inr (P := fun q => q = .inl .currentModelVersion)
      (fun _ hq => hq ▸ trivial) ((Prog.issues_call _).mpr rfl)) fun _ =>
    (Prog.issues_call _).mpr trivial

theorem tripWhen_issues (policyId : String) (tooMany : Bool) :
    (tripWhen policyId tooMany : EngineProg P D WResp Unit).Issues Own := by
  cases tooMany with
  | true => exact (Prog.issues_call _).mpr rfl
  | false => trivial

theorem countFailure_issues (policy : PolicyRow) (kind : String) (prop : Proposal P)
    (actionId : String) (exc : Exc) :
    (countFailure threshold policy kind prop actionId exc : EngineProg P D WResp Outcome).Issues
      Own := by
  refine Prog.Issues.bind ((Prog.issues_call _).mpr trivial) fun bumped => ?_
  refine Prog.Issues.bind (tripWhen_issues _ _) fun _ => ?_
  exact (event_issues ..).bind fun _ => Prog.issues_pure _

theorem recordExecution_issues (policy : PolicyRow) (kind : String) (prop : Proposal P)
    (actionId : String) (risk : Risk) (result : Option (ActionRow P D)) :
    (recordExecution policy kind prop actionId risk result :
      EngineProg P D WResp Outcome).Issues Own := by
  cases result with
  | none => trivial
  | some result =>
      refine (Prog.issues_raiseIf _ _).bind fun _ => ?_
      exact Prog.Issues.bind ((Prog.issues_call _).mpr trivial) fun _ =>
        (event_issues ..).bind fun _ => Prog.issues_pure _

section Own

variable (hown : ∀ q, Own q → Harmless E q)
include hown

theorem wp_own {α : Type} {p : EngineProg P D WResp α} (hp : p.Issues Own) (s : Engine P D W) :
    wp (engineSem wsem) E p (fun _ _ => True) s :=
  wp.of_issues_needs (fun c _ s hq => hown _ hq c s) hp s

variable (hN : ∀ q s, Idle q → N q s)
include hN

/-- Approval and execution of a stored row. -/
theorem wp_approveAndExecute (lift : Lifts E (callRules A N) J) {policy : PolicyRow}
    {kind : String} {prop : Proposal P} {actionId : String} {risk : Risk} {s : Engine P D W}
    {row₀ : ActionRow P D} (hJ : J s) (h₀ : s.plane.db.get actionId = some row₀)
    (hupdate : ∀ row, SameRequest row₀ row →
      ∀ i after s, N (.updateStatus i (.executed after) row) s)
    (hinvoke : ∀ row, SameRequest row₀ row → row.mode = .live →
      ∀ s, N (.invoke .execute row (some true)) s) :
    wp (engineSem wsem) E (approveAndExecute handlers policy kind prop actionId risk)
      (fun _ _ => True) s := by
  have hexecuted (s' : Engine P D W) (hJ' : J s')
      (hs' : Evolves (fun _ => True) s.plane s'.plane) :
      wp (engineSem wsem) E (do
        let result ← (execute handlers actionId (sysActor policy.policyId)).inr
        recordExecution policy kind prop actionId risk result) (fun _ _ => True) s' := by
    obtain ⟨row, hrow, hsame⟩ := hs'.rows _ _ h₀
    have hruns : Runs wsem (callRules A N)
        (execute handlers actionId (sysActor policy.policyId)) (fun _ _ => True) s'.plane :=
      runs_executed hN hrow (fun row' h' => hupdate row' (hsame.trans h'))
        fun row' h' => hinvoke row' (hsame.trans h')
    refine wp.bind (lift.plane hJ' hruns) (fun result s'' _ => ?_) fun _ _ _ => trivial
    exact wp_own hown (recordExecution_issues ..) s''
  have happroved : wp (engineSem wsem) E (approveHigh policy.policyId actionId risk)
      (fun _ s' => J s' ∧ Evolves (fun _ => True) s.plane s'.plane) s := by
    cases risk with
    | low => exact ⟨hJ, .refl trivial⟩
    | high =>
        exact wp.bind (lift.plane hJ (runs_evolves (runs_approved hN _)))
          (fun _ _ hs' => ⟨hs'.1, hs'.2.2⟩) fun _ _ hs' => ⟨hs'.1, hs'.2.2⟩
  exact happroved.bind (fun _ s' hs' => hexecuted s' hs'.1 hs'.2) fun _ _ _ => trivial

theorem wp_runAuto (lift : Lifts E (callRules A N) J) {policy : PolicyRow}
    {obj : AutomationPolicy P D WResp} {prop : Proposal P} {actionId : String} {risk : Risk}
    {preview : D} {s : Engine P D W} {row₀ : ActionRow P D} (hJ : J s)
    (h₀ : s.plane.db.get actionId = some row₀)
    (hact : (obj.withinBounds preview policy.bounds).1 = true → ∀ row, SameRequest row₀ row →
      (∀ i after s, N (.updateStatus i (.executed after) row) s) ∧
        (row.mode = .live → ∀ s, N (.invoke .execute row (some true)) s)) :
    wp (engineSem wsem) E (runAuto handlers threshold policy obj prop actionId risk preview)
      (fun _ _ => True) s := by
  unfold runAuto
  split
  · exact wp_own hown ((event_issues ..).bind fun _ => Prog.issues_pure _) s
  · rename_i hbounds
    have hact' := hact (not_not.mp hbounds)
    have hflag : Runs wsem (callRules A N) (Db.controlsEnabled : PlaneProg P D WResp Bool)
        (fun _ _ => True) s.plane :=
      runs_effect (fun s' _ => callRules_safe (hN _ s' trivial)) fun _ _ _ _ => trivial
    refine wp.bind (lift.plane hJ (runs_evolves hflag)) (fun enabled s' hs' => ?_)
      fun _ _ _ => trivial
    split
    · exact wp_own hown ((event_issues ..).bind fun _ => Prog.issues_pure _) s'
    · obtain ⟨row, hrow, hsame⟩ := hs'.2.2.rows _ _ h₀
      refine wp.attempt (wp_approveAndExecute hown hN lift hs'.1 hrow ?_ ?_)
        (fun _ _ _ => trivial) fun e s'' _ => wp_own hown (countFailure_issues ..) s''
      · exact fun row' h' => (hact' row' (hsame.trans h')).1
      · exact fun row' h' => (hact' row' (hsame.trans h')).2

/-- **One proposal.** What it inserts and executes is a row that holds what the
proposal asks for; it executes only while the policy is in auto mode and the
preview within bounds. -/
theorem wp_runProposal (lift : Lifts E (callRules A N) J) {policy : PolicyRow}
    {obj : AutomationPolicy P D WResp} {prop : Proposal P} {s : Engine P D W} {K : D → Prop}
    (hJ : J s)
    (hplan : ∀ handler, handlers prop.actionType = some handler →
      Runs wsem (callRules A N) (handler.plan prop.target prop.params).inr
        (fun out s' => Evolves (fun _ => True) s.plane s' ∧ K out.2) s.plane)
    (hinsert : ∀ row,
      Asked prop.actionType prop.target prop.params prop.mode (requester policy.policyId) row →
      ∀ s, N (.insertAction row) s)
    (hact : policy.mode = .auto → ∀ preview, K preview →
      (obj.withinBounds preview policy.bounds).1 = true → ∀ row,
      Asked prop.actionType prop.target prop.params prop.mode (requester policy.policyId) row →
      (∀ i after s, N (.updateStatus i (.executed after) row) s) ∧
        (row.mode = .live → ∀ s, N (.invoke .execute row (some true)) s)) :
    wp (engineSem wsem) E (runProposal handlers threshold policy obj prop)
      (fun _ _ => True) s := by
  unfold runProposal submit
  simp only [wp_bind, wp_attempt]
  refine (lift.plane hJ (runs_submit hN hplan hinsert)).mono fun r s₁ hr => ?_
  obtain ⟨hJ₁, hK⟩ := hr
  cases r with
  | error e =>
      -- only the refusals of the control plane are caught
      change wp _ _ (ite _ _ _) _ _
      split
      · exact wp_own hown ((event_issues ..).bind fun _ => Prog.issues_pure _) s₁
      · trivial
  | ok out =>
      obtain ⟨row, risk, preview⟩ := out
      obtain ⟨hpreview, hrow⟩ := hK _ rfl
      cases row with
      | none => trivial
      | some row =>
          obtain ⟨hstored, hasked⟩ := hrow row rfl
          dsimp only
          cases hmode : policy.mode with
          | recommend => exact wp_own hown ((event_issues ..).bind fun _ => Prog.issues_pure _) s₁
          | auto =>
              exact wp_runAuto hown hN lift hJ₁ hstored fun hbounds row' hsame =>
                hact hmode preview hpreview hbounds row' (hasked.same hsame)

end Own

/-! ### The tick -/

section Tick

variable {policies : PolicyRegistry P D WResp}
variable (hown : ∀ q, Own q → Harmless E q)

/-- The mark of a proposal, as a statement. -/
def mark (policy : PolicyRow) (prop : Proposal P) :
    AutoStmt P D ⊕ (ControlStmt P D ⊕ WStmt) :=
  .inl (.proposing true policy prop)

/-- Whenever the proposal is started, its mark and its run are proved from `K`. -/
def Proposes (E : EngineRules P D WStmt WC W)
    (wsem : WC → (q : WStmt) → W → Except Exc (WResp q) × W)
    (handlers : Registry P D WResp) (threshold : ℤ) (policy : PolicyRow)
    (obj : AutomationPolicy P D WResp) (prop : Proposal P) (K : Engine P D W → Prop) : Prop :=
  ∀ c s, K s → E.admits c (mark policy prop) s → E.needs c (mark policy prop) s ∧
    wp (engineSem wsem) E (runProposal handlers threshold policy obj prop) (fun _ _ => True)
      { s with current := some ⟨true, policy, prop, s.plane.world⟩ }

/-- What is known of the proposals of a tick, `K`, and what `E` asks for, allow
the tick to run: it goes on being known, the evaluation finds it out, and it is
enough for the proposal. -/
structure Allows (E : EngineRules P D WStmt WC W)
    (wsem : WC → (q : WStmt) → W → Except Exc (WResp q) × W)
    (handlers : Registry P D WResp) (threshold : ℤ) (policy : PolicyRow)
    (obj : AutomationPolicy P D WResp) (K : Proposal P → Engine P D W → Prop) : Prop where
  rely : ∀ prop a b, E.rely a b → K prop a → K prop b
  sem : ∀ prop c q s, K prop s → K prop (engineSem wsem c q s).2
  evaluate : ∀ s, wp (engineSem wsem) E (obj.evaluate policy)
    (fun r s' => ∀ props, r = .ok props → ∀ prop ∈ props, K prop s') s
  proposes : ∀ prop, Proposes E wsem handlers threshold policy obj prop (K prop)

section Policy

variable {policy : PolicyRow} {obj : AutomationPolicy P D WResp}
variable {K : Proposal P → Engine P D W → Prop}

/-- What is known of some proposals is still known when a program has run. -/
theorem Allows.keeps (h : Allows E wsem handlers threshold policy obj K)
    {props : List (Proposal P)} {α : Type} {p : EngineProg P D WResp α} {s : Engine P D W}
    (hs : ∀ prop ∈ props, K prop s) (hp : wp (engineSem wsem) E p (fun _ _ => True) s) :
    wp (engineSem wsem) E p (fun _ s' => ∀ prop ∈ props, K prop s') s := by
  have hkept := wp.and_kept (I := fun s => ∀ prop ∈ props, K prop s)
    (fun a b hab h' prop hprop => h.rely prop a b hab (h' prop hprop))
    (fun c q s h' prop hprop => h.sem prop c q s (h' prop hprop)) hs hp
  exact hkept.mono fun _ _ h' => h'.2

include hown in
theorem wp_runProposals (h : Allows E wsem handlers threshold policy obj K)
    {props : List (Proposal P)} {s : Engine P D W} (hs : ∀ prop ∈ props, K prop s) :
    wp (engineSem wsem) E (runProposals handlers threshold true policy obj props)
      (fun _ _ => True) s := by
  induction props generalizing s with
  | nil => trivial
  | cons prop props ih =>
      unfold runProposals
      rw [wp_bind]
      refine (wp_call _ _ _ _ _).mpr fun s₁ hs₁ c hadm => ?_
      have hs₁' : ∀ prop' ∈ prop :: props, K prop' s₁ := fun prop' hprop' =>
        h.rely prop' s s₁ hs₁ (hs prop' hprop')
      rw [List.forall_mem_cons] at hs₁'
      obtain ⟨hneeds, hrun⟩ := h.proposes prop c s₁ hs₁'.1 hadm
      refine ⟨hneeds, ?_⟩
      have hs₂ : ∀ prop' ∈ props, K prop' (engineSem wsem c (mark policy prop) s₁).2 :=
        fun prop' hprop' => h.sem prop' c _ s₁ (hs₁'.2 prop' hprop')
      -- what is known of the later proposals is kept along the way
      refine wp.bind (h.keeps hs₂ hrun) (fun outcome s₃ hs₃ => ?_) fun _ _ _ => trivial
      have hproposed : Own (.inl .proposed : AutoStmt P D ⊕ (ControlStmt P D ⊕ WStmt)) := trivial
      refine wp.bind (h.keeps hs₃ (wp_own hown ((Prog.issues_call _).mpr hproposed) s₃))
        (fun _ s₄ hs₄ => ?_) fun _ _ _ => trivial
      exact wp.bind (ih hs₄) (fun _ _ _ => trivial) fun _ _ _ => trivial

theorem mem_runnable {db : AutoDb D} {policy : PolicyRow} (h : policy ∈ db.runnable) :
    policy ∈ db.policies ∧ policy.enabled = true ∧ policy.tripped = false := by
  obtain ⟨hmem, hrun⟩ := List.mem_filter.mp ((List.mem_insertionSort _).mp h)
  rw [Bool.and_eq_true, Bool.not_eq_true'] at hrun
  exact ⟨hmem, hrun⟩

theorem cooldownActive_issues (policy : PolicyRow) :
    (cooldownActive policy : EngineProg P D WResp Bool).Issues Own := by
  unfold cooldownActive
  cases policy.lastRunAt with
  | none => exact Prog.issues_pure _
  | some since =>
      simp only
      split
      · exact Prog.issues_pure _
      · exact Prog.Issues.bind ((Prog.issues_call _).mpr trivial) fun _ => Prog.issues_pure _

include hown in
theorem wp_tickPolicy
    (hpolicy : ∀ obj, policies policy.kind = some obj →
      ∃ K, Allows E wsem handlers threshold policy obj K) (s : Engine P D W) :
    wp (engineSem wsem) E (tickPolicy handlers threshold policies true policy)
      (fun _ _ => True) s := by
  unfold tickPolicy
  cases hkind : policies policy.kind with
  | none => exact wp_own hown ((event_issues ..).bind fun _ => Prog.issues_pure _) s
  | some obj =>
      obtain ⟨K, h⟩ := hpolicy obj hkind
      simp only
      refine wp.bind (wp_own hown (cooldownActive_issues policy) s) (fun cooling s₁ _ => ?_)
        fun _ _ _ => trivial
      split
      · trivial
      · refine wp.bind (h.evaluate s₁) (fun props s₂ hr => ?_) fun _ _ _ => trivial
        have hprops : ∀ prop ∈ upTo (policy.bounds.maxPerTick.getD 1) props, K prop s₂ :=
          fun prop hprop => hr _ rfl prop (List.take_subset _ _ hprop)
        split
        · trivial
        · have hmarked : Own (.inl (.markRun policy.policyId) :
              AutoStmt P D ⊕ (ControlStmt P D ⊕ WStmt)) := trivial
          exact wp.bind (h.keeps hprops (wp_own hown ((Prog.issues_call _).mpr hmarked) s₂))
            (fun _ s₃ hs₃ => wp_runProposals hown h hs₃) fun _ _ _ => trivial

end Policy

include hown

theorem wp_tickPolicies {rows : List PolicyRow}
    (hrows : ∀ policy ∈ rows, ∀ obj, policies policy.kind = some obj →
      ∃ K, Allows E wsem handlers threshold policy obj K) (s : Engine P D W) :
    wp (engineSem wsem) E (tickPolicies handlers threshold policies true rows)
      (fun _ _ => True) s := by
  induction rows generalizing s with
  | nil => trivial
  | cons policy rows ih =>
      rw [List.forall_mem_cons] at hrows
      unfold tickPolicies
      refine wp.bind (wp_tickPolicy hown hrows.1 s) (fun _ s₁ _ => ?_) fun _ _ _ => trivial
      exact wp.bind (ih hrows.2 s₁) (fun _ _ _ => trivial) fun _ _ _ => trivial

/-- **One tick.** It starts proposals only while the master flag reads on, and
only for policies that it has read as enabled and not tripped. -/
theorem wp_tick
    (hpolicies : ∀ policy : PolicyRow, policy.enabled = true → policy.tripped = false →
      ∀ obj, policies policy.kind = some obj →
        ∃ K, Allows E wsem handlers threshold policy obj K) (s : Engine P D W) :
    wp (engineSem wsem) E (tick handlers threshold policies) (fun _ _ => True) s := by
  unfold tick
  rw [wp_bind]
  refine (wp_call _ _ _ _ _).mpr fun s₁ _ c _ =>
    ⟨hown (.inl .automationEnabled) trivial c s₁, ?_⟩
  change wp _ _ (ite _ _ _) _ s₁
  split
  · trivial
  · rename_i henabled
    rw [not_not.mp henabled, wp_bind]
    refine (wp_call _ _ _ _ _).mpr fun s₂ _ c _ =>
      ⟨hown (.inl .selectPolicies) trivial c s₂, ?_⟩
    simp only [engineSem, autoSem]
    cases AutoStmt.failure c.1 (AutoStmt.selectPolicies : AutoStmt P D) with
    | some e => trivial
    | none =>
        change wp _ _ (_ >>= _) _ _
        rw [wp_bind]
        refine (wp_tickPolicies hown (fun policy hpolicy => ?_) _).mono fun r s₃ _ => ?_
        · obtain ⟨-, henabled, htripped⟩ := mem_runnable hpolicy
          exact hpolicies policy henabled htripped
        · cases r with
          | error e => trivial
          | ok results => trivial

omit hown in
/-- What is known of a proposal may be known of it in all states. -/
theorem allows_of_returns (heval : ∀ q, Evaluates q → Harmless E q) {policy : PolicyRow}
    {obj : AutomationPolicy P D WResp} {K : Proposal P → Prop}
    (hreturns : (obj.evaluate policy).Returns fun props => ∀ prop ∈ props, K prop)
    (hproposes : ∀ prop, K prop →
      Proposes E wsem handlers threshold policy obj prop fun _ => True) :
    Allows E wsem handlers threshold policy obj fun prop _ => K prop where
  rely _ _ _ _ h := h
  sem _ _ _ _ h := h
  evaluate s := wp.of_issues_returns (fun c q s hq => heval q hq c s) (obj.evaluates policy)
    hreturns s
  proposes prop c s hK := hproposes prop hK c s trivial

end Tick

/-! ### What a tick is made of -/

section Parts

variable {policies : PolicyRegistry P D WResp}
variable {Φ : ∀ α : Type, EngineProg P D WResp α → Prop} (hΦ : Compositional Φ)
variable (hown : ∀ (α : Type) (p : EngineProg P D WResp α), p.Issues Own → Φ α p)
variable (hsubmit : ∀ actionType target params mode reason requestedBy tenant,
  Φ _ (submitAction handlers actionType target params mode reason requestedBy tenant).inr)
variable (happrove : ∀ actionId reason principal,
  Φ _ (approve actionId reason principal : PlaneProg P D WResp _).inr)
variable (hexecute : ∀ actionId principal, Φ _ (execute handlers actionId principal).inr)
include hΦ hown hsubmit happrove hexecute

theorem runProposal_parts (policy : PolicyRow) (obj : AutomationPolicy P D WResp)
    (prop : Proposal P) : Φ _ (runProposal handlers threshold policy obj prop) := by
  have event (kind : String) (decision : Decision) (actionId : Option String)
      (detail : EventDetail D) (outcome : Outcome) :
      Φ _ (event policy.policyId kind decision prop.trigger actionId detail policy.tenantId >>=
        fun _ => pure outcome) :=
    hown _ _ ((event_issues ..).bind fun _ => Prog.issues_pure _)
  refine hΦ.bind _ _ _ _ ?_ fun submitted => ?_
  · refine hΦ.attempt _ _ _ (hΦ.bind _ _ _ _ (hsubmit ..) fun _ => hΦ.pure _ _) fun exc => ?_
    split
    · exact hΦ.pure _ _
    · exact hΦ.throw _ exc
  · cases submitted with
    | error exc => exact event ..
    | ok out =>
        obtain ⟨row, risk, preview⟩ := out
        cases row with
        | none => exact hΦ.throw _ _
        | some row =>
            dsimp only
            cases policy.mode with
            | recommend => exact event ..
            | auto =>
                change Φ _ (runAuto ..)
                unfold runAuto
                split
                · exact event ..
                · refine hΦ.bind _ _ _ _ ?_ fun enabled => ?_
                  · refine hown _ _ (Prog.Issues.inr (P := fun q => q = .inl .controlsEnabled)
                      (fun _ hq => hq ▸ trivial) ((Prog.issues_call _).mpr rfl))
                  split
                  · exact event ..
                  · refine hΦ.attempt _ _ _ (hΦ.bind _ _ _ _ ?_ fun _ => ?_) fun exc =>
                      hown _ _ (countFailure_issues ..)
                    · cases risk with
                      | low => exact hΦ.pure _ _
                      | high => exact hΦ.bind _ _ _ _ (happrove ..) fun _ => hΦ.pure _ _
                    · exact hΦ.bind _ _ _ _ (hexecute ..) fun _ =>
                        hown _ _ (recordExecution_issues ..)

variable (heval : ∀ (α : Type) (p : EngineProg P D WResp α), p.Issues Evaluates → Φ α p)
variable (hmark : ∀ checked policy prop, Φ _ (Auto.proposing checked policy prop))
include heval hmark

theorem tickPolicy_parts (checked : Bool) (policy : PolicyRow) :
    Φ _ (tickPolicy handlers threshold policies checked policy) := by
  unfold tickPolicy
  cases policies policy.kind with
  | none => exact hown _ _ ((event_issues ..).bind fun _ => Prog.issues_pure _)
  | some obj =>
      refine hΦ.bind _ _ _ _ (hown _ _ (cooldownActive_issues policy)) fun cooling => ?_
      split
      · exact hΦ.pure _ _
      · refine hΦ.bind _ _ _ _ (heval _ _ (obj.evaluates policy)) fun evaluated => ?_
        simp only
        split
        · exact hΦ.pure _ _
        · refine hΦ.bind _ _ _ _ ?_ fun _ => ?_
          · exact hown _ _ ((Prog.issues_call (Sum.inl (AutoStmt.markRun _))).mpr trivial)
          induction upTo (policy.bounds.maxPerTick.getD 1) evaluated with
          | nil => exact hΦ.pure _ _
          | cons prop props ih =>
              refine hΦ.bind _ _ _ _ (hmark ..) fun _ => hΦ.bind _ _ _ _ ?_ fun _ => ?_
              · exact runProposal_parts hΦ hown hsubmit happrove hexecute policy obj prop
              refine hΦ.bind _ _ _ _ ?_ fun _ => hΦ.bind _ _ _ _ ih fun _ => hΦ.pure _ _
              exact hown _ _ ((Prog.issues_call (Sum.inl AutoStmt.proposed)).mpr trivial)

/-- A compositional property of a tick comes down to its statements and to the
three endpoints that it goes through. -/
theorem tick_parts : Φ _ (tick handlers threshold policies) := by
  refine hΦ.bind _ _ _ _ ?_ fun enabled => ?_
  · exact hown _ _ ((Prog.issues_call (Sum.inl AutoStmt.automationEnabled)).mpr trivial)
  split
  · exact hΦ.pure _ _
  · refine hΦ.bind _ _ _ _ ?_ fun rows => hΦ.bind _ _ _ _ ?_ fun _ => hΦ.pure _ _
    · exact hown _ _ ((Prog.issues_call (Sum.inl AutoStmt.selectPolicies)).mpr trivial)
    induction rows with
    | nil => exact hΦ.pure _ _
    | cons policy rows ih =>
        refine hΦ.bind _ _ _ _ ?_ fun _ => hΦ.bind _ _ _ _ ih fun _ => hΦ.pure _ _
        exact tickPolicy_parts hΦ hown hsubmit happrove hexecute heval hmark enabled policy

end Parts

/-! ### Patching a policy -/

/-- Who has requested the action that the statement executes. -/
def executedFor : AutoStmt P D ⊕ (ControlStmt P D ⊕ WStmt) → Option String
  | .inr (.inl q) => (executes q).map ActionRow.requestedBy
  | _ => none

/-- The statements of the engine itself: on its own tables, and the two reads. -/
def InTables : AutoStmt P D ⊕ (ControlStmt P D ⊕ WStmt) → Prop
  | .inl _ => True
  | .inr (.inl .currentModelVersion) => True
  | .inr (.inl .controlsEnabled) => True
  | _ => False

theorem Own.inTables {q : AutoStmt P D ⊕ (ControlStmt P D ⊕ WStmt)} (h : Own q) : InTables q := by
  rcases q with q | q | q
  · trivial
  · cases q with
    | currentModelVersion => trivial
    | controlsEnabled => trivial
    | _ => exact h.elim
  · exact h.elim

theorem InTables.executesNothing {q : AutoStmt P D ⊕ (ControlStmt P D ⊕ WStmt)}
    (h : InTables q) : executedFor q = none := by
  rcases q with q | q | q
  · rfl
  · cases q with
    | currentModelVersion => rfl
    | controlsEnabled => rfl
    | _ => exact h.elim
  · rfl

theorem evaluates_executesNothing (q : AutoStmt P D ⊕ (ControlStmt P D ⊕ WStmt))
    (h : Evaluates q) : executedFor q = none := by
  rcases q with q | q | q
  · rfl
  · exact h.elim
  · rfl

theorem patchPolicy_issues (policyId : String) (body : PolicyPatch) (principal : Principal) :
    (patchPolicy policyId body principal :
      EngineProg P D WResp (Option PolicyRow)).Issues InTables := by
  have hget : (Auto.getPolicy policyId : EngineProg P D WResp _).Issues InTables :=
    (Prog.issues_call (Sum.inl (AutoStmt.getPolicy policyId))).mpr trivial
  refine hget.bind fun row => ?_
  cases row with
  | none => trivial
  | some row =>
      refine (Prog.issues_raiseIf _ _).bind fun _ => (Prog.issues_raiseIf _ _).bind fun _ => ?_
      refine Prog.Issues.bind
        ((Prog.issues_call (Sum.inl (AutoStmt.updatePolicy ..))).mpr trivial) fun _ => ?_
      exact ((event_issues ..).mono fun _ hq => hq.inTables).bind fun _ => hget

end DiepLab.Automation
