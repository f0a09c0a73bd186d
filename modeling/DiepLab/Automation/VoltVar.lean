import DiepLab.Automation.Engine
import DiepLab.Fleet.VoltVar
import DiepLab.Library.Rounding

/-!
The Volt/VAR policy, `routers/auto_voltvar.py`.

Every voltage outside its band gives a recommendation, and for each of them
`evaluate` looks for the most capable controllable DER on the feeder of the node and
proposes to move its output by `max_step_kw`. A DER is moved once in an evaluation.

The policy moves the output first and bands the result to the rating afterwards. Banded,
a move of an output that lies outside the band can go the other way, or further than a
step; `evaluate_corrective_iff` says when.

The tables are those of one evaluation. A feeder is found by climbing at most fifty nodes.
-/

namespace DiepLab.Automation

namespace VoltVarAuto

open StatementProgram Controls Fleet

/-! ### Recommendations -/

/-- `r["direction"]`. -/
inductive Direction where
  | raise | lower
  deriving DecidableEq, Repr

def Direction.text : Direction → String
  | .raise => "raise"
  | .lower => "lower"

/-- A row of `_estimate_state`, as far as the recommendations read it. -/
structure NodeState where
  nodeId : String
  name : String
  energized : Bool
  measuredVoltage : Option ℚ := none
  estimatedVoltagePu : ℚ := 1
  deriving DecidableEq, Repr

structure Recommendation where
  nodeId : String
  name : String
  issue : String
  direction : Direction
  recommendedAction : String
  deriving DecidableEq, Repr

/-- `VV_LV_LOW`, `VV_LV_HIGH`, `VV_PU_LOW` and `VV_PU_HIGH`, and how a float is printed. -/
structure Bands where
  lvLow : ℚ := 216
  lvHigh : ℚ := 253
  puLow : ℚ := 95 / 100
  puHigh : ℚ := 105 / 100
  printed : ℚ → String := toString

section Recommendations

variable (bands : Bands)

/-- `_rec`. -/
def rec_ (n : NodeState) (issue : String) (direction : Direction) (action : String) :
    Recommendation :=
  ⟨n.nodeId, n.name, issue, direction, action⟩

/-- One of the two comparisons with a band, and what it recommends below and above. -/
def violation (n : NodeState) (what unit : String) (value low high : ℚ) (up down : String) :
    Option Recommendation :=
  let issue (sign : String) (bound : ℚ) : String :=
    what ++ " " ++ bands.printed value ++ " " ++ unit ++ " " ++ sign ++ " " ++
      bands.printed bound ++ " " ++ unit
  if value < low then some (rec_ n (issue "<" low) .raise up)
  else if high < value then some (rec_ n (issue ">" high) .lower down)
  else none

/-- The recommendation for one node: a measured voltage is preferred to the estimate. -/
def recommendationFor (n : NodeState) : Option Recommendation :=
  if n.energized = false then none
  else
    match n.measuredVoltage with
    | some mv =>
        violation bands n "measured" "V" mv bands.lvLow bands.lvHigh
          "tap up / cap bank in or DER VAR support" "tap down / curtail DER export"
    | none =>
        violation bands n "estimated" "pu" n.estimatedVoltagePu bands.puLow bands.puHigh
          "tap up / cap bank in" "tap down / curtail DER export"

/-- `voltvar_recommendations()["recommendations"]`. -/
def voltvarRecommendations (est : List NodeState) : List Recommendation :=
  est.filterMap (recommendationFor bands)

end Recommendations

/-! ### The tables -/

/-- What an evaluation reads: the nodes with their parents, the DER registry, the latest
telemetry row of each device (`power_kw` and its age), the actions with those executed in
the last ten minutes, and the estimated state. -/
structure Tables where
  nodes : List GridNode := []
  parentId : String → Option String := fun _ => none
  derAssets : List DerAsset := []
  latestPower : String → Option (Option ℚ × ℚ) := fun _ => none
  actions : List OcRow := []
  recent : List String := []
  estimates : List NodeState := []

namespace Tables

variable (t : Tables)

/-- `SELECT node_type, parent_id FROM grid_nodes WHERE node_id = nodeId`. -/
def node? (nodeId : String) : Option GridNode := t.nodes.find? fun n => n.nodeId = nodeId

/-- The loop of `_node_feeder`, with the turns that are left. -/
def climb : ℕ → Option String → Option String
  | 0, _ => none
  | guard + 1, cur =>
      match given cur with
      | none => none
      | some cur =>
          match t.node? cur with
          | none => none
          | some n =>
              if n.nodeType = .feeder then some cur else climb guard (t.parentId cur)

def nodeFeeder (nodeId : Option String) : Option String := t.climb 50 nodeId

/-- `a` is listed no later than `b` by `ORDER BY rated_kw DESC NULLS LAST`. -/
def ratedBefore (a b : DerAsset) : Bool :=
  match a.ratedKw, b.ratedKw with
  | some x, some y => y ≤ x
  | none, some _ => false
  | _, none => true

/-- `SELECT ... FROM der_assets WHERE controllable = TRUE ORDER BY rated_kw DESC NULLS LAST`. -/
def controllableDers : List DerAsset :=
  (t.derAssets.filter fun d => d.controllable).insertionSort fun a b => ratedBefore a b

/-- `_der_for_node`: the most capable controllable DER on the feeder of the node. -/
def derForNode (nodeId : String) : Option DerAsset :=
  match t.nodeFeeder (some nodeId) with
  | none => none
  | some feeder => t.controllableDers.find? fun d => t.nodeFeeder d.nodeId = some feeder

/-- `_current_kw`: a reading older than ten minutes is not trusted. -/
def currentKw (derId : String) : ℚ :=
  match t.latestPower derId with
  | some (some power, age) => if 600 < age then 0 else power
  | _ => 0

/-- Is an automated dispatch of this DER open or recent? -/
def duplicate (policyId derId : String) : Bool :=
  t.actions.any (recentlyTouched t.recent "voltvar_dispatch" derId (requester policyId))

end Tables

/-! ### Proposals -/

/-- The key of `bounds` that `evaluate` reads, next to those of the engine. -/
structure VoltVarBounds extends Bounds where
  maxStepKw : Option ℚ := none
  deriving DecidableEq, Repr

/-- `float((policy.get("bounds") or {}).get("max_step_kw", 10))`. -/
def VoltVarBounds.step (bounds : VoltVarBounds) : ℚ := bounds.maxStepKw.getD 10

/-- The `trigger` of a proposal. -/
structure Trigger where
  nodeId : String
  direction : Direction
  issue : String
  derId : String
  fromKw : ℚ
  toKw : ℚ
  deriving DecidableEq, Repr

/-- A proposal of this policy. -/
structure Dispatch where
  actionType : String := "voltvar_dispatch"
  target : String
  setpointKw : ℚ
  mode : Mode := .live
  trigger : Trigger
  reason : String
  deriving DecidableEq, Repr

/-- The output moved by a step and banded afterwards. -/
def targetKw (direction : Direction) (cur step rated : ℚ) : ℚ :=
  let target := match direction with
    | .raise => cur + step
    | .lower => cur - step
  max 0 (min target rated)

/-- The proposal for a recommendation and a DER, if there is headroom to move. -/
def proposalFor (step cur : ℚ) (r : Recommendation) (der : DerAsset) : Option Dispatch :=
  let target := targetKw r.direction cur step (der.ratedKw.getD 0)
  if |target - cur| < 1 / 100 then none
  else
    some {
      target := der.derId
      setpointKw := OcVoltVar.round2 target
      trigger := {
        nodeId := r.nodeId, direction := r.direction, issue := r.issue, derId := der.derId
        fromKw := OcVoltVar.round2 cur, toKw := OcVoltVar.round2 target }
      reason :=
        "auto Volt/VAR " ++ r.direction.text ++ " via " ++ der.derId ++ " for " ++ r.nodeId }

section Evaluate

variable (t : Tables) (policyId : String) (step : ℚ)

/-- The loop of `evaluate`. -/
def evaluateFrom (used : List String) : List Recommendation → List Dispatch
  | [] => []
  | r :: rest =>
      match t.derForNode r.nodeId with
      | none => evaluateFrom used rest
      | some der =>
          if der.derId ∈ used then evaluateFrom used rest
          else if t.duplicate policyId der.derId = true then
            evaluateFrom (der.derId :: used) rest
          else
            (proposalFor step (t.currentKw der.derId) r der).toList ++
              evaluateFrom (der.derId :: used) rest

/-- `VoltVarAutoPolicy.evaluate`. -/
def evaluate (bands : Bands) (bounds : VoltVarBounds) : List Dispatch :=
  evaluateFrom t policyId bounds.step [] (voltvarRecommendations bands t.estimates)

end Evaluate

/-- `within_bounds`: only a swing that the handler itself takes for a low risk. -/
def withinBounds (preview : OcDoc) : Bool × String :=
  match preview with
  | .voltvarPreview _ _ _ _ _ true _ _ =>
      (false, "swing exceeds OC-4 rate limit (high-risk) — needs a human")
  | _ => (true, "")

/-- What is within bounds is within the step of the handler. -/
theorem plan_withinBounds (settings : OcVoltVar.Settings) (target : Option String)
    (params : OcParams) :
    (OcVoltVar.plan settings target params).Returns fun out =>
      ∃ derId setpoint current delta rated high command parameter,
        out.2 = .voltvarPreview derId setpoint current delta rated high command parameter ∧
          ((withinBounds out.2).1 = true ↔ |setpoint - current| ≤ settings.maxStepKw) := by
  refine (Prog.returns_true _).bind fun resolved _ => (Prog.returns_true _).bind fun current _ =>
    (Prog.returns_true _).bind fun _ _ => ?_
  refine ⟨_, _, _, _, _, _, _, _, rfl, ?_⟩
  rw [← not_lt]
  by_cases h : settings.maxStepKw < |resolved.2 - current| <;> simp [withinBounds, h]

/-! ### Rounding to two decimals -/

theorem round2_eq (x : ℚ) : OcVoltVar.round2 x = Double.roundEven (x * 100) / 100 := by
  have hhalf : ∀ r : ℚ, (r < 1 / 2 ↔ 2 * r < 1) ∧ (r = 1 / 2 ↔ 2 * r = 1) := fun r =>
    ⟨by constructor <;> intro h <;> linarith, by constructor <;> intro h <;> linarith⟩
  simp only [OcVoltVar.round2, Double.roundEven, hhalf]

theorem abs_round2_sub_le (x : ℚ) : |OcVoltVar.round2 x - x| ≤ 1 / 200 := by
  have h := abs_le.mp (Double.abs_roundEven_sub_le (x * 100))
  rw [round2_eq, abs_le]
  constructor <;> linarith [h.1, h.2]

/-! ### Moves inside a band -/

section Moves

variable {cur step rated : ℚ}

/-- The band ends at the rating, or at zero without one. -/
abbrev ceiling (rated : ℚ) : ℚ := max 0 rated

theorem targetKw_raise_of_ceiling_le (hstep : 0 < step) (h : ceiling rated ≤ cur) :
    targetKw .raise cur step rated = ceiling rated := by
  have hrated : rated ≤ cur + step := ((le_max_right 0 rated).trans h).trans (by linarith)
  rw [targetKw, min_eq_right hrated]

/-- Above a step below zero a raise stays a raise, by a step at most. -/
theorem targetKw_raise_inside (hstep : 0 < step) (hcur : cur < ceiling rated)
    (hlow : 0 ≤ cur + step) :
    cur < targetKw .raise cur step rated ∧ targetKw .raise cur step rated ≤ cur + step := by
  constructor
  · rcases le_total (cur + step) rated with h | h
    · rw [targetKw, min_eq_left h]
      exact (lt_add_of_pos_right cur hstep).trans_le (le_max_right _ _)
    · rwa [targetKw, min_eq_right h]
  · exact max_le hlow (min_le_left _ _)

theorem targetKw_raise_below (hlow : cur + step < 0) : targetKw .raise cur step rated = 0 :=
  max_eq_left ((min_le_left _ _).trans hlow.le)

theorem targetKw_lower_below (h : cur - step ≤ 0) : targetKw .lower cur step rated = 0 :=
  max_eq_left ((min_le_left _ _).trans h)

theorem targetKw_lower_inside (hlow : 0 ≤ cur - step) (h : cur - step ≤ ceiling rated) :
    targetKw .lower cur step rated = cur - step := by
  rcases le_total (cur - step) rated with hle | hle
  · rw [targetKw, min_eq_left hle, max_eq_right hlow]
  · -- then the rating is negative and the move ends at zero
    rw [targetKw, min_eq_right hle]
    exact le_antisymm (max_le hlow hle) h

theorem targetKw_lower_above (h : ceiling rated < cur - step) :
    targetKw .lower cur step rated = ceiling rated := by
  rw [targetKw, min_eq_right ((le_max_right 0 rated).trans h.le)]

end Moves

/-! ### Corrections -/

/-- The setpoint goes the way that the recommendation asks for, by a step at most, up to
the rounding to two decimals. -/
def Corrective (step cur setpoint : ℚ) (direction : Direction) : Prop :=
  (match direction with
    | .raise => cur < setpoint
    | .lower => setpoint < cur) ∧
  |setpoint - cur| ≤ step + 1 / 200

instance (step cur setpoint : ℚ) (direction : Direction) :
    Decidable (Corrective step cur setpoint direction) := by
  unfold Corrective
  cases direction <;> infer_instance

/-- A proposal for a raise finds the output not above the band, one to lower finds it not
below zero; and on the far side of the band the output is no more than a step away. A
distance below 0.01 kW does not count, since then nothing is proposed. -/
def Correctable (step cur rated : ℚ) : Direction → Prop
  | .raise => cur - ceiling rated < 1 / 100 ∧ (-cur < 1 / 100 ∨ -cur ≤ step + 1 / 200)
  | .lower => -cur < 1 / 100 ∧
      (cur - ceiling rated < 1 / 100 ∨ cur - OcVoltVar.round2 (ceiling rated) ≤ step + 1 / 200)

section Corrections

variable {step cur rated target : ℚ}

theorem corrective_raise (hle : target ≤ cur + step) (hfar : 1 / 100 ≤ target - cur) :
    Corrective step cur (OcVoltVar.round2 target) .raise := by
  have hround := abs_le.mp (abs_round2_sub_le target)
  refine ⟨by linarith [hround.1], ?_⟩
  rw [abs_le]
  constructor <;> linarith [hround.1, hround.2]

theorem corrective_lower (hle : cur - step ≤ target) (hfar : 1 / 100 ≤ cur - target) :
    Corrective step cur (OcVoltVar.round2 target) .lower := by
  have hround := abs_le.mp (abs_round2_sub_le target)
  refine ⟨by linarith [hround.2], ?_⟩
  rw [abs_le]
  constructor <;> linarith [hround.1, hround.2]

theorem not_corrective_raise (hfar : 1 / 100 ≤ cur - target) :
    ¬Corrective step cur (OcVoltVar.round2 target) .raise := by
  rintro ⟨hup, -⟩
  linarith [(abs_le.mp (abs_round2_sub_le target)).2]

theorem not_corrective_lower (hfar : 1 / 100 ≤ target - cur) :
    ¬Corrective step cur (OcVoltVar.round2 target) .lower := by
  rintro ⟨hdown, -⟩
  linarith [(abs_le.mp (abs_round2_sub_le target)).1]

theorem ceiling_nonneg (rated : ℚ) : 0 ≤ ceiling rated := le_max_left 0 rated

theorem round2_zero : OcVoltVar.round2 0 = 0 := by decide +kernel

theorem raise_iff (hstep : 0 < step) :
    (1 / 100 ≤ |targetKw .raise cur step rated - cur| →
        Corrective step cur (OcVoltVar.round2 (targetKw .raise cur step rated)) .raise) ↔
      Correctable step cur rated .raise := by
  have hceil := ceiling_nonneg rated
  rcases le_or_gt (ceiling rated) cur with habove | hbelow
  · -- the move ends at the ceiling, which is the wrong way
    rw [targetKw_raise_of_ceiling_le hstep habove, abs_sub_comm,
      abs_of_nonneg (sub_nonneg.mpr habove)]
    constructor
    · intro h
      have hnear : cur - ceiling rated < 1 / 100 := by
        by_contra! hfar
        exact not_corrective_raise hfar (h hfar)
      exact ⟨hnear, Or.inl (by linarith)⟩
    · intro h hfar
      exact absurd h.1 hfar.not_gt
  · have hroom : cur - ceiling rated < 1 / 100 := by linarith
    rcases le_or_gt 0 (cur + step) with hlow | hlow
    · obtain ⟨hup, hle⟩ := targetKw_raise_inside hstep hbelow hlow
      rw [abs_of_pos (sub_pos.mpr hup)]
      exact iff_of_true (corrective_raise hle) ⟨hroom, Or.inr (by linarith)⟩
    · -- the move is cut at zero, more than a step up
      rw [targetKw_raise_below hlow, zero_sub, abs_of_pos (by linarith), round2_zero, Correctable]
      rw [and_iff_right hroom, Corrective, zero_sub, abs_of_pos (by linarith)]
      constructor
      · intro h
        exact (lt_or_ge (-cur) (1 / 100)).imp_right fun hfar => (h hfar).2
      · rintro (hnear | hstep') hfar
        · exact absurd hnear hfar.not_gt
        · exact ⟨by linarith, hstep'⟩

theorem lower_iff (hstep : 0 < step) :
    (1 / 100 ≤ |targetKw .lower cur step rated - cur| →
        Corrective step cur (OcVoltVar.round2 (targetKw .lower cur step rated)) .lower) ↔
      Correctable step cur rated .lower := by
  have hceil := ceiling_nonneg rated
  rcases lt_or_ge cur 0 with hneg | hpos
  · -- the move ends at zero, which is the wrong way
    rw [targetKw_lower_below (by linarith), zero_sub, abs_of_pos (neg_pos.mpr hneg)]
    constructor
    · intro h
      have hnear : -cur < 1 / 100 := by
        by_contra! hfar
        exact not_corrective_lower (by rwa [zero_sub]) (h hfar)
      exact ⟨hnear, Or.inl (by linarith)⟩
    · intro h hfar
      exact absurd h.1 hfar.not_gt
  · have hzero : -cur < 1 / 100 := by linarith
    rcases le_or_gt (cur - step) (ceiling rated) with hin | hout
    · have hround := abs_le.mp (abs_round2_sub_le (ceiling rated))
      refine iff_of_true (fun hfar => ?_) ⟨hzero, Or.inr (by linarith [hround.1])⟩
      rcases le_total 0 (cur - step) with hlow | hlow
      · rw [targetKw_lower_inside hlow hin] at hfar ⊢
        refine corrective_lower le_rfl ?_
        rw [sub_sub_cancel]
        rwa [abs_sub_comm, sub_sub_cancel, abs_of_pos hstep] at hfar
      · rw [targetKw_lower_below hlow] at hfar ⊢
        refine corrective_lower hlow ?_
        rwa [zero_sub, abs_neg, abs_of_nonneg hpos, ← sub_zero cur] at hfar
    · -- the move is cut at the ceiling, more than a step down
      have hdown : 0 < cur - ceiling rated := by linarith
      rw [targetKw_lower_above hout, abs_sub_comm, abs_of_pos hdown, Correctable,
        and_iff_right hzero]
      constructor
      · intro h
        refine (lt_or_ge (cur - ceiling rated) (1 / 100)).imp_right fun hfar => ?_
        have hfar := h hfar
        linarith [(abs_le.mp hfar.2).1]
      · intro h hfar
        have hround := abs_le.mp (abs_round2_sub_le (ceiling rated))
        have hlt : OcVoltVar.round2 (ceiling rated) < cur := by linarith [hround.2]
        refine ⟨hlt, ?_⟩
        rw [abs_sub_comm, abs_of_pos (sub_pos.mpr hlt)]
        exact h.resolve_left hfar.not_gt

/-- What one proposal does. -/
theorem proposalFor_corrective_iff (hstep : 0 < step) (r : Recommendation) (der : DerAsset) :
    (∀ p ∈ proposalFor step cur r der, Corrective step cur p.setpointKw p.trigger.direction) ↔
      Correctable step cur (der.ratedKw.getD 0) r.direction := by
  have hboth : (1 / 100 ≤ |targetKw r.direction cur step (der.ratedKw.getD 0) - cur| →
      Corrective step cur (OcVoltVar.round2 (targetKw r.direction cur step (der.ratedKw.getD 0)))
        r.direction) ↔ Correctable step cur (der.ratedKw.getD 0) r.direction := by
    cases r.direction with
    | raise => exact raise_iff hstep
    | lower => exact lower_iff hstep
  rw [← hboth, proposalFor]
  split
  · rename_i hnear
    exact iff_of_true (fun p hp => nomatch hp) fun hfar => absurd hnear hfar.not_gt
  · rename_i hfar
    simp only [Option.mem_some_iff, forall_eq']
    exact ⟨fun h _ => h, fun h => h (not_lt.mp hfar)⟩

end Corrections

/-! ### Whole evaluations -/

section Whole

variable (t : Tables) (policyId : String)

/-- The evaluation comes to move this DER for this recommendation: it is the lever of the
node, no recommendation before has it for its lever, and no dispatch of it is open or
recent. `used` are the DERs that have been moved before. -/
structure Lever (used : List String) (recs : List Recommendation) (r : Recommendation)
    (der : DerAsset) : Prop where
  lever : t.derForNode r.nodeId = some der
  free : ¬t.duplicate policyId der.derId = true
  unused : der.derId ∉ used
  first : ∃ before after, recs = before ++ r :: after ∧
    ∀ r' ∈ before, ∀ d, t.derForNode r'.nodeId = some d → d.derId ≠ der.derId

variable {t policyId} {used : List String} {recs : List Recommendation} {r : Recommendation}
  {der : DerAsset}

theorem not_lever_nil : ¬Lever t policyId used [] r der := by
  rintro ⟨-, -, -, before, after, h, -⟩
  exact List.append_ne_nil_of_right_ne_nil before (List.cons_ne_nil r after) h.symm

theorem lever_cons {r₀ : Recommendation} :
    Lever t policyId used (r₀ :: recs) r der ↔
      (r = r₀ ∧ t.derForNode r₀.nodeId = some der ∧ ¬t.duplicate policyId der.derId = true ∧
        der.derId ∉ used) ∨
      (Lever t policyId used recs r der ∧
        ∀ d, t.derForNode r₀.nodeId = some d → d.derId ≠ der.derId) := by
  constructor
  · rintro ⟨hlever, hfree, hunused, before, after, heq, hfirst⟩
    cases before with
    | nil =>
        injection heq with hr
        subst hr
        exact Or.inl ⟨rfl, hlever, hfree, hunused⟩
    | cons b before =>
        injection heq with hb heq
        subst hb
        exact Or.inr ⟨⟨hlever, hfree, hunused, before, after, heq,
          fun r' hr' => hfirst r' (List.mem_cons_of_mem _ hr')⟩, hfirst r₀ List.mem_cons_self⟩
  · rintro (⟨rfl, hlever, hfree, hunused⟩ |
      ⟨⟨hlever, hfree, hunused, before, after, heq, hfirst⟩, h₀⟩)
    · exact ⟨hlever, hfree, hunused, [], recs, rfl, fun _ h => absurd h List.not_mem_nil⟩
    · refine ⟨hlever, hfree, hunused, r₀ :: before, after, by rw [heq, List.cons_append], ?_⟩
      exact List.forall_mem_cons.mpr ⟨h₀, hfirst⟩

/-- A DER that has been moved is one that no later recommendation moves. -/
theorem lever_used_cons {id : String} :
    Lever t policyId (id :: used) recs r der ↔
      Lever t policyId used recs r der ∧ id ≠ der.derId := by
  constructor
  · rintro ⟨hlever, hfree, hunused, hfirst⟩
    rw [List.mem_cons, not_or] at hunused
    exact ⟨⟨hlever, hfree, hunused.2, hfirst⟩, Ne.symm hunused.1⟩
  · rintro ⟨⟨hlever, hfree, hunused, hfirst⟩, hne⟩
    exact ⟨hlever, hfree, List.not_mem_cons_of_ne_of_not_mem hne.symm hunused, hfirst⟩

variable {step : ℚ}

/-- The proposals are those of the levers. -/
theorem mem_evaluateFrom {p : Dispatch} :
    p ∈ evaluateFrom t policyId step used recs ↔
      ∃ r der, Lever t policyId used recs r der ∧
        p ∈ proposalFor step (t.currentKw der.derId) r der := by
  induction recs generalizing used with
  | nil =>
      refine iff_of_false List.not_mem_nil ?_
      rintro ⟨r, der, h, -⟩
      exact not_lever_nil h
  | cons r₀ recs ih =>
      simp only [lever_cons]
      cases hder : t.derForNode r₀.nodeId with
      | none => simp [evaluateFrom, hder, ih]
      | some d =>
          simp only [evaluateFrom, hder, Option.some.injEq, forall_eq']
          split
          · rename_i hused
            rw [ih]
            constructor
            · rintro ⟨r, der, h, hp⟩
              exact ⟨r, der, Or.inr ⟨h, fun he => h.unused (he ▸ hused)⟩, hp⟩
            · rintro ⟨r, der, ⟨rfl, rfl, -, hunused⟩ | h, hp⟩
              · exact absurd hused hunused
              · exact ⟨r, der, h.1, hp⟩
          · rename_i hunused
            split
            · rename_i hdup
              simp only [ih, lever_used_cons]
              constructor
              · rintro ⟨r, der, h, hp⟩
                exact ⟨r, der, Or.inr h, hp⟩
              · rintro ⟨r, der, ⟨rfl, rfl, hfree, -⟩ | h, hp⟩
                · exact absurd hdup hfree
                · exact ⟨r, der, h, hp⟩
            · rename_i hfree
              simp only [List.mem_append, Option.mem_toList, ih, lever_used_cons]
              constructor
              · rintro (hp | ⟨r, der, h, hp⟩)
                · exact ⟨r₀, d, Or.inl ⟨rfl, rfl, hfree, hunused⟩, hp⟩
                · exact ⟨r, der, Or.inr h, hp⟩
              · rintro ⟨r, der, ⟨rfl, rfl, -, -⟩ | h, hp⟩
                · exact Or.inl hp
                · exact Or.inr ⟨r, der, h, hp⟩

theorem target_of_proposalFor {cur : ℚ} {p : Dispatch} (h : p ∈ proposalFor step cur r der) :
    p.target = der.derId := by
  rw [proposalFor] at h
  split at h
  · exact nomatch h
  · rw [Option.mem_some_iff] at h
    exact h ▸ rfl

variable (t policyId)

/-- Every proposal of an evaluation is a correction of the output that has been read exactly
when no DER that it comes to is found on the wrong side of its band, or further than a step
beyond the other side. -/
theorem evaluate_corrective_iff (bands : Bands) (bounds : VoltVarBounds) (hstep : 0 < bounds.step) :
    (∀ p ∈ evaluate t policyId bands bounds,
        Corrective bounds.step (t.currentKw p.target) p.setpointKw p.trigger.direction) ↔
      ∀ r der, Lever t policyId [] (voltvarRecommendations bands t.estimates) r der →
        Correctable bounds.step (t.currentKw der.derId) (der.ratedKw.getD 0) r.direction := by
  constructor
  · intro h r der hlever
    refine (proposalFor_corrective_iff hstep r der).mp fun p hp => ?_
    rw [← target_of_proposalFor hp]
    exact h p (mem_evaluateFrom.mpr ⟨r, der, hlever, hp⟩)
  · intro h p hp
    obtain ⟨r, der, hlever, hp⟩ := mem_evaluateFrom.mp hp
    rw [target_of_proposalFor hp]
    exact (proposalFor_corrective_iff hstep r der).mpr (h r der hlever) p hp

end Whole

/-! ### Examples -/

def battery (rated : Option ℚ) : DerAsset :=
  { derId := "BAT001", derType := .battery, nodeId := some "ND-BAT001", ratedKw := rated }

/-- The feeder of the pilot network with its battery, and a meter below the band. -/
def pilot (rated : Option ℚ) (powerKw : ℚ) : Tables where
  nodes := [⟨"FDR-01", .feeder⟩, ⟨"BUS-01", .bus⟩, ⟨"ND-METER001", .meter⟩, ⟨"ND-BAT001", .der⟩]
  parentId nodeId :=
    if nodeId = "BUS-01" then some "FDR-01"
    else if nodeId = "FDR-01" then none else some "BUS-01"
  derAssets := [battery rated]
  latestPower _ := some (some powerKw, 5)
  estimates := [⟨"ND-METER001", "Meter METER001", true, some 210, 1⟩]

theorem pilot_recommendations (rated : Option ℚ) (powerKw : ℚ) :
    voltvarRecommendations {} (pilot rated powerKw).estimates =
      [⟨"ND-METER001", "Meter METER001", "measured 210 V < 216 V", .raise,
        "tap up / cap bank in or DER VAR support"⟩] := by
  simp only [voltvarRecommendations, recommendationFor, violation, pilot]
  decide +kernel

/-- A battery at 20 kW of 50 kW is raised to 30 kW. -/
theorem pilot_corrective :
    ((evaluate (pilot (some 50) 20) "voltvar" {} {}).map fun p => p.setpointKw) = [30] ∧
      ∀ p ∈ evaluate (pilot (some 50) 20) "voltvar" {} {},
        Corrective 10 ((pilot (some 50) 20).currentKw p.target) p.setpointKw
          p.trigger.direction := by
  have hstep : 0 < ({} : VoltVarBounds).step := by decide
  refine ⟨by decide +kernel,
    (evaluate_corrective_iff (pilot (some 50) 20) "voltvar" {} {} hstep).mpr ?_⟩
  rintro r der ⟨hlever, -, -, before, after, heq, -⟩
  have hr : r ∈ voltvarRecommendations {} (pilot (some 50) 20).estimates :=
    heq ▸ List.mem_append_right before List.mem_cons_self
  rw [pilot_recommendations, List.mem_singleton] at hr
  subst hr
  have hbattery : (pilot (some 50) 20).derForNode "ND-METER001" = some (battery (some 50)) := by
    decide +kernel
  obtain rfl := Option.some.inj (hbattery.symm.trans hlever)
  exact ⟨by decide +kernel, Or.inl (by decide +kernel)⟩

/-- Without a rating a raise takes a battery at 5 kW down to nothing. -/
theorem unrated_lowered :
    ¬∀ p ∈ evaluate (pilot none 5) "voltvar" {} {},
      Corrective 10 ((pilot none 5).currentKw p.target) p.setpointKw p.trigger.direction := by
  decide +kernel

end VoltVarAuto

end DiepLab.Automation
