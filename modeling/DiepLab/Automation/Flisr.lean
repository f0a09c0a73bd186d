import DiepLab.Automation.Engine
import DiepLab.Handlers.Switching

/-!
The FLISR policy, `routers/auto_flisr.py`.

For every open outage case with a node it asks whether an automated FLISR for
that node is open or recent, plans one, and proposes it if the plan restores
anything. The plan itself is not kept: the proposal names the fault node, and
`FlisrHandler` plans again when the action is submitted and when it is
executed.
-/

namespace DiepLab.Automation

namespace FlisrAuto

open StatementProgram Controls Dms

/-- Programs of the engine over the network. -/
abbrev AutoProg := EngineProg ActionParams ActionDoc GridResp

/-- The plan for a fault, if the planner makes one: an `HTTPException` means
that the fault is no candidate. -/
def candidate (fn : String) : AutoProg (Option FlisrPlan) :=
  tryCatch (do
      let p ← (planFlisr (some fn) none).inr.inr
      pure (some p))
    fun exc => if exc.isHttp then pure none else throw exc

/-- The proposal for a case: isolation alone is never proposed. -/
def proposals (caseId fn : String) : Option FlisrPlan → List (Proposal ActionParams)
  | none => []
  | some p =>
      if p.restoredEdges = [] then []
      else [{
        actionType := "flisr", target := some fn, params := { faultNode := some fn }, mode := .live
        trigger := [("case_id", .text caseId), ("fault_node", .text fn),
          ("restores_all", .flag (p.customersStillOut = 0))]
        reason := "auto-FLISR for outage at " ++ fn }]

/-- The loop of `evaluate`. -/
def evaluateCases (policyId : String) :
    List (String × String) → AutoProg (List (Proposal ActionParams))
  | [] => pure []
  | (caseId, fn) :: cases => do
      let dup ← Auto.recentAction "flisr" fn (requester policyId)
      if dup = true then evaluateCases policyId cases
      else do
        let p ← candidate fn
        let later ← evaluateCases policyId cases
        pure (proposals caseId fn p ++ later)

def evaluate (policy : PolicyRow) : AutoProg (List (Proposal ActionParams)) := do
  let cases ← (Sql.openCases : GridProg (List (String × String))).inr.inr
  evaluateCases policy.policyId cases

/-- `preview.get("restores_all")`. -/
def restoresAll : ActionDoc → Bool
  | .flisrPreview _ all => all
  | _ => false

/-- `preview.get("customers_restored") or 0`. -/
def customersRestored : ActionDoc → ℕ
  | .flisrPreview plan _ => plan.customersRestored
  | .switchPreview _ _ _ _ _ restored _ _ _ => restored
  | _ => 0

def withinBounds (preview : ActionDoc) (bounds : Bounds) : Bool × String :=
  if bounds.requireRestoresAll.getD true && !restoresAll preview then
    (false, "plan does not restore all affected customers")
  else
    match bounds.maxCustomers with
    | none => (true, "")
    | some maxc =>
        if maxc < customersRestored preview then
          (false, "customers_restored " ++ toString (customersRestored preview) ++
            " exceeds max_customers " ++ toString maxc)
        else (true, "")

/-! ### An evaluation only reads -/

theorem world_evaluates {α : Type} (p : GridProg α) :
    (p.inr.inr : AutoProg α).Issues Evaluates := by
  refine Prog.Issues.inr (P := fun q => ∃ w, q = .inr w) ?_ (Prog.issues_inr (fun q => ⟨q, rfl⟩) p)
  rintro - ⟨w, rfl⟩
  trivial

theorem candidate_evaluates (fn : String) : (candidate fn).Issues Evaluates := by
  refine Prog.Issues.attempt ((world_evaluates _).bind fun _ => Prog.issues_pure _) fun exc => ?_
  split
  · exact Prog.issues_pure _
  · exact Prog.issues_throw exc

theorem evaluateCases_evaluates (policyId : String) (cases : List (String × String)) :
    (evaluateCases policyId cases).Issues Evaluates := by
  induction cases with
  | nil => exact Prog.issues_pure _
  | cons c cases ih =>
      refine Prog.Issues.bind ((Prog.issues_call _).mpr trivial) fun dup => ?_
      split
      · exact ih
      · exact (candidate_evaluates c.2).bind fun _ => ih.bind fun _ => Prog.issues_pure _

/-- `FlisrAutoPolicy`. -/
def policy : AutomationPolicy ActionParams ActionDoc GridResp where
  kind := "flisr"
  evaluate := evaluate
  withinBounds := withinBounds
  evaluates p := (world_evaluates _).bind fun cases => evaluateCases_evaluates p.policyId cases

/-! ### What is proposed -/

theorem proposals_flisr (caseId fn : String) (plan : Option FlisrPlan) :
    ∀ prop ∈ proposals caseId fn plan, prop.actionType = "flisr" := by
  cases plan with
  | none => exact fun _ h => absurd h List.not_mem_nil
  | some p =>
      simp only [proposals]
      split
      · exact fun _ h => absurd h List.not_mem_nil
      · exact fun prop h => List.mem_singleton.mp h ▸ rfl

theorem evaluateCases_flisr (policyId : String) (cases : List (String × String)) :
    (evaluateCases policyId cases).Returns
      fun props => ∀ prop ∈ props, prop.actionType = "flisr" := by
  induction cases with
  | nil => exact fun _ h => absurd h List.not_mem_nil
  | cons c cases ih =>
      refine (Prog.returns_true _).bind fun dup _ => ?_
      split
      · exact ih
      · refine (Prog.returns_true _).bind fun p _ => ih.bind fun later hlater prop hprop => ?_
        rcases List.mem_append.mp hprop with h | h
        · exact proposals_flisr _ _ _ prop h
        · exact hlater prop h

theorem evaluate_flisr (policy : PolicyRow) :
    (evaluate policy).Returns fun props => ∀ prop ∈ props, prop.actionType = "flisr" :=
  (Prog.returns_true _).bind fun cases _ => evaluateCases_flisr policy.policyId cases

end FlisrAuto

/-- The registry with the FLISR policy, next to others. -/
def withFlisr (others : PolicyRegistry ActionParams ActionDoc GridResp) :
    PolicyRegistry ActionParams ActionDoc GridResp :=
  fun kind => if kind = "flisr" then some FlisrAuto.policy else others kind

end DiepLab.Automation
