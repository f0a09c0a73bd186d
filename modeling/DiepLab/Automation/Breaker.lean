import DiepLab.Automation.Flisr
import DiepLab.Automation.Runs
import DiepLab.Grid.Radial

/-!
The circuit breaker of a policy.

A failed execution is counted, and enough of them in a row write `tripped` to
the policy's row. The tick that is under way goes on with the row it has read
and with the proposals it has collected, so it executes for a policy that has
been tripped in the meantime. In a run in which every proposal of a policy in
auto mode is started while the stored policy is not tripped, no action is
executed for a tripped policy.

Ticks and patches follow one another; between any two of their statements the
surroundings may do everything that keeps action rows and trips no policy.
-/

namespace DiepLab.Automation

open StatementProgram Controls

variable {P D W WC WStmt : Type} {WResp : WStmt → Type}
variable {wsem : WC → (q : WStmt) → W → Except Exc (WResp q) × W}

/-! ### What the breaker promises -/

/-- The policy is not tripped, as the table has it. -/
def AutoDb.Untripped (policyId : String) (db : AutoDb D) : Prop :=
  ∀ row ∈ db.policies, row.policyId = policyId → row.tripped = false

instance (policyId : String) (db : AutoDb D) : Decidable (db.Untripped policyId) :=
  inferInstanceAs (Decidable (∀ row ∈ db.policies, _ → _))

/-- No action of a tripped policy is executed. -/
def HoldsBreaker (q : AutoStmt P D ⊕ (ControlStmt P D ⊕ WStmt)) (s : Engine P D W) : Prop :=
  ∀ row ∈ s.auto.policies, executedFor q = some (requester row.policyId) → row.tripped = false

/-- The condition on a step: a proposal of a policy in auto mode is started
while the policy is not tripped. -/
def StartsUntripped : AutoStmt P D ⊕ (ControlStmt P D ⊕ WStmt) → Engine P D W → Prop
  | .inl (.proposing _ policy _), s =>
      policy.mode = .auto → s.auto.Untripped policy.policyId
  | _, _ => True

instance (q : AutoStmt P D ⊕ (ControlStmt P D ⊕ WStmt)) (s : Engine P D W) :
    Decidable (HoldsBreaker q s) :=
  inferInstanceAs (Decidable (∀ row ∈ s.auto.policies, _ → _))

instance (q : AutoStmt P D ⊕ (ControlStmt P D ⊕ WStmt)) (s : Engine P D W) :
    Decidable (StartsUntripped q s) :=
  match q with
  | .inl (.proposing _ policy _) => inferInstanceAs (Decidable (policy.mode = .auto → _))
  | .inl .automationEnabled | .inl .selectPolicies | .inl (.getPolicy _) | .inl (.age _)
  | .inl (.recentAction ..) | .inl (.markRun _) | .inl (.bumpFailures _) | .inl (.resetFailures _)
  | .inl (.trip ..) | .inl (.updatePolicy ..) | .inl (.insertEvent _) | .inl .proposed
  | .inr _ => inferInstanceAs (Decidable True)

/-- What the surroundings do between two statements: rows stay, and no policy
is tripped. -/
structure LeavesBreaker (a b : Engine P D W) : Prop where
  untripped : ∀ i, a.auto.Untripped i → b.auto.Untripped i
  plane : Evolves (fun _ => True) a.plane b.plane

theorem LeavesBreaker.refl (a : Engine P D W) : LeavesBreaker a a :=
  ⟨fun _ h => h, .refl trivial⟩

def breakerRules : EngineRules P D WStmt WC W where
  rely := LeavesBreaker
  admits _ q s := StartsUntripped q s
  needs _ q s := HoldsBreaker q s

/-! ### One proposal -/

theorem requester_injective {i j : String} (h : requester i = requester j) : i = j :=
  (String.append_right_inj "automation:").mp h

theorem holdsBreaker_of_none {q : AutoStmt P D ⊕ (ControlStmt P D ⊕ WStmt)}
    (h : executedFor q = none) : Harmless (breakerRules : EngineRules P D WStmt WC W) q := by
  intro _ s row _ hrow
  rw [h] at hrow
  cases hrow

/-- The statement executes nothing but actions of this policy, and those in
auto mode. -/
def OnlyFor (policy : PolicyRow) (q : ControlStmt P D) (_ : Plane P D W) : Prop :=
  ∀ row, executes q = some row →
    policy.mode = .auto ∧ row.requestedBy = requester policy.policyId

theorem onlyFor_of_none (policy : PolicyRow) (q : ControlStmt P D) (s : Plane P D W)
    (hq : executes q = none) : OnlyFor policy q s := by
  intro row h
  rw [hq] at h
  cases h

theorem breaker_lifts (policy : PolicyRow) :
    Lifts (breakerRules : EngineRules P D WStmt WC W)
      (callRules (fun _ _ => True) (OnlyFor policy))
      (fun s => policy.mode = .auto → s.auto.Untripped policy.policyId) where
  frame _ _ hJ := hJ
  rely a b hJ hab := ⟨hab.plane, fun hmode => hab.untripped _ (hJ hmode)⟩
  admits _ _ _ _ _ _ _ := trivial
  needs c q s hJ hneeds := by
    intro row hrow hexec
    cases q with
    | inr q => cases hexec
    | inl q =>
        obtain ⟨action, haction, hby⟩ := Option.map_eq_some_iff.mp hexec
        obtain ⟨hmode, hby'⟩ := hneeds q rfl action haction
        exact hJ hmode row hrow (requester_injective (hby.symm.trans hby'))

variable {handlers : Registry P D WResp} {threshold : ℤ} {policies : PolicyRegistry P D WResp}

/-- A proposal that is started while its policy is not tripped executes for
that policy only, and before anything can trip it. -/
theorem breaker_proposes (policy : PolicyRow) (obj : AutomationPolicy P D WResp)
    (prop : Proposal P) :
    Proposes breakerRules wsem handlers threshold policy obj prop fun _ => True := by
  intro c s _ hadm
  refine ⟨holdsBreaker_of_none rfl c s, ?_⟩
  have hN := fun (q : ControlStmt P D) (s : Plane P D W) (hq : Idle q) =>
    onlyFor_of_none policy q s hq.executes
  refine wp_runProposal (K := fun _ => True)
    (fun _ hq => holdsBreaker_of_none hq.inTables.executesNothing) hN (breaker_lifts policy)
    (show policy.mode = .auto → s.auto.Untripped policy.policyId from hadm) ?_ ?_ ?_
  · intro handler hh
    exact runs_keeps ((callRules_calm_of_idle hN).plan _ _ hh _ _) (.refl trivial)
      fun _ _ h => ⟨h, trivial⟩
  · exact fun row _ s => onlyFor_of_none policy (.insertAction row) s rfl
  · intro hmode _ _ _ row hasked
    have honly (q : ControlStmt P D) (s : Plane P D W) (hq : executes q = some row) :
        OnlyFor policy q s := by
      intro row' hrow'
      rw [hq] at hrow'
      injection hrow' with hrow'
      exact ⟨hmode, hrow' ▸ hasked.requestedBy⟩
    exact ⟨fun i after s => honly _ s rfl, fun _ s => honly _ s rfl⟩

theorem breaker_tick (s : Engine P D W) :
    wp (engineSem wsem) breakerRules (tick handlers threshold policies) (fun _ _ => True) s :=
  wp_tick (fun _ hq => holdsBreaker_of_none hq.inTables.executesNothing)
    (fun policy _ _ obj _ => ⟨_, allows_of_returns (K := fun _ => True)
      (fun q hq => holdsBreaker_of_none (evaluates_executesNothing q hq))
      ((Prog.returns_true _).mono fun _ _ _ _ => trivial)
      fun prop _ => breaker_proposes policy obj prop⟩) s

/-! ### Only a patch clears the column -/

/-- The statement clears no `tripped` column. -/
def ClearsNothing : AutoStmt P D ⊕ (ControlStmt P D ⊕ WStmt) → Prop
  | .inl (.updatePolicy _ _ _ resetTrip) => resetTrip = false
  | .inl (.trip _ tripped) => tripped = true
  | _ => True

/-- A policy that has been tripped, as the table has it. -/
def AutoDb.Tripped (policyId : String) (db : AutoDb D) : Prop :=
  ∃ row ∈ db.policies, row.policyId = policyId ∧ row.tripped = true

theorem AutoDb.Tripped.update {policyId : String} {db : AutoDb D} (h : db.Tripped policyId)
    (i : String) {f : PolicyRow → PolicyRow} (hid : ∀ row, (f row).policyId = row.policyId)
    (hf : ∀ row, row.tripped = true → (f row).tripped = true) :
    (db.update i f).Tripped policyId := by
  obtain ⟨row, hmem, hrow, htripped⟩ := h
  refine ⟨_, List.mem_map_of_mem hmem, ?_⟩
  split
  · exact ⟨(hid row).trans hrow, hf row htripped⟩
  · exact ⟨hrow, htripped⟩

theorem tripped_stays {policyId : String} (c : AutoChoice × ControlChoice × WC)
    {q : AutoStmt P D ⊕ (ControlStmt P D ⊕ WStmt)} (hq : ClearsNothing q) {s : Engine P D W}
    (h : s.auto.Tripped policyId) : (engineSem wsem c q s).2.auto.Tripped policyId := by
  cases q with
  | inr q => exact h
  | inl q =>
      simp only [engineSem, autoSem]
      cases q.failure c.1 with
      | some e => exact h
      | none =>
          cases q with
          | recentAction actionType target requestedBy =>
              exact (Engine.dedup_auto s c.1.recent actionType target requestedBy).symm ▸ h
          | markRun i => exact h.update i (fun _ => rfl) fun _ ht => ht
          | bumpFailures i => exact h.update i (fun _ => rfl) fun _ ht => ht
          | resetFailures i => exact h.update i (fun _ => rfl) fun _ ht => ht
          | trip i tripped => exact h.update i (fun _ => rfl) fun _ _ => hq
          | updatePolicy i enabled mode resetTrip =>
              have hreset : resetTrip = false := hq
              exact h.update i (fun _ => rfl) fun row ht => by simp [PolicyRow.patched, hreset, ht]
          | _ => exact h

/-- No tick closes the breaker again: a policy stays tripped until it is
patched. -/
theorem tick_clears_nothing : (tick handlers threshold policies).Issues ClearsNothing := by
  have plane {α : Type} (p : PlaneProg P D WResp α) :
      (p.inr : EngineProg P D WResp α).Issues ClearsNothing :=
    Prog.issues_inr (fun _ => trivial) p
  refine tick_parts (Prog.issues_compositional ClearsNothing)
    (fun _ p hp => hp.mono fun q hq => ?_) (fun _ _ _ _ _ _ _ => plane _) (fun _ _ _ => plane _)
    (fun _ _ => plane _) (fun _ p hp => hp.mono fun q hq => ?_)
    fun _ _ _ => (Prog.issues_call _).mpr trivial
  · rcases q with q | q
    · cases q with
      | updatePolicy i enabled mode resetTrip => exact hq.elim
      | trip i tripped => exact hq
      | _ => trivial
    · trivial
  · rcases q with q | q
    · cases q with
      | recentAction actionType target requestedBy => trivial
      | _ => exact hq.elim
    · trivial

/-! ### Runs -/

/-- One call in which every proposal is started while its policy is not
tripped. -/
theorem breaker_call (call : EngineCall P D W WC)
    (hsurround : ∀ n s, LeavesBreaker s ((call.surrounding n).1 s)) (s : Engine P D W)
    (hstart : call.Throughout wsem handlers threshold policies (atState StartsUntripped) s) :
    call.Throughout wsem handlers threshold policies (atState HoldsBreaker) s := by
  have hprog : wp (engineSem wsem) breakerRules (call.prog handlers threshold policies)
      (fun _ _ => True) (call.start s).1 :=
    call.wp_prog handlers threshold policies
      (fun _ hq => holdsBreaker_of_none hq.executesNothing) breaker_tick _
  exact (throughout_of_wp (D := breakerRules) (x := call.start s)
    (fun _ _ _ _ _ _ => .refl _) (fun _ b _ => .refl b) (fun n s _ => hsurround n s) (.refl _)
    hprog hstart).1

/-- **The breaker.** In a run of ticks and patches in which every proposal of a
policy in auto mode is started while its policy is not tripped, and nobody else
trips policies, every action of a policy is executed while it is not tripped. -/
theorem breaker_holds (s : Engine P D W) (calls : List (EngineCall P D W WC))
    (hsurround : ∀ call ∈ calls, ∀ n s, LeavesBreaker s ((call.surrounding n).1 s))
    (hstart : EngineCall.AllThroughout wsem handlers threshold policies
      (atState StartsUntripped) s calls) :
    EngineCall.AllThroughout wsem handlers threshold policies (atState HoldsBreaker) s calls :=
  EngineCall.allThroughout_of_call _ _ _ _ (fun call hcall s =>
    breaker_call call (hsurround call hcall) s) hstart

/-- A policy in auto mode proposes a dry run, which is executed, and is then
patched. -/
theorem breaker_holds_for_demonstrator :
    let calls : List (EngineCall String (NoopDoc String) Unit Unit) :=
      [.tick (calmly ()), .patch "noop_auto" { resetTrip := some true } ⟨"engineer", none⟩
        (calmly ())]
    EngineCall.AllThroughout noSem (noopRegistry .low) 3 (fun _ => some (noopAutoPolicy id))
      (atState HoldsBreaker)
      { auto := {
          enabled := true
          policies :=
            [{ policyId := "noop_auto", kind := "noop", enabled := true, mode := .auto }] }
        plane := ⟨{ enabled := true }, ()⟩ } calls := by
  refine breaker_holds _ _ (fun call hcall n s => ?_) ?_
  · simp only [List.mem_cons, List.not_mem_nil, or_false] at hcall
    rcases hcall with rfl | rfl
    · exact .refl s
    · exact .refl s
  · decide +kernel

/-- Two outages that the FLISR policy can restore, and a policy that is one
failure away from tripping. The switching of the first action fails, which
trips the policy; the second action of the same tick is executed all the
same. -/
theorem tripped_policy_executes :
    let surrounding : Surrounding ActionParams ActionDoc GridDb GridChoice := fun n =>
      (id, {}, { uuid := if n < 47 then "a1" else "a2" },
        { fails := if n = 47 then some "deadlock detected" else none })
    ¬ EngineCall.AllThroughout gridSem switchingHandlers 3 (withFlisr fun _ => none)
      (atState HoldsBreaker)
      { auto := {
          enabled := true
          policies := [{
            policyId := "flisr_auto", kind := "flisr", enabled := true, mode := .auto
            bounds := { maxPerTick := some 2 }, consecutiveFailures := 2 }] }
        plane := ⟨{ enabled := true }, {
          network := pilotTwoTies
          outageCases := [⟨"OUT-1", .CONFIRMED, some "TX-01"⟩,
            ⟨"OUT-2", .CONFIRMED, some "BUS-01"⟩] }⟩ }
      [.tick surrounding] := by
  decide +kernel

end DiepLab.Automation
