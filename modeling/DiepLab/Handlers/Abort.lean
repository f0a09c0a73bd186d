import DiepLab.Dms.Moves
import DiepLab.Handlers.Writes

/-!
The transactional abort of a FLISR execution.

`execute` plans again and applies the new plan, but an abort goes back to the
states that were stored with the request. `Uncovered` collects what this
misses: a write fails behind one whose stored state is not its present state,
or a statement fails behind the switching loop, where nothing is reverted.

A sequence of switch writes is followed as a change of the network (`written`,
`reverted`) and read off edge by edge with `stateOf`.
-/

namespace DiepLab.OcFlisr

open StatementProgram Dms

/-! ### Sequences of writes -/

/-- The network after some switch writes. -/
def written (ws : List (SwitchWrite × String × Bool)) (net : Network) : Network :=
  ws.foldl (fun net w => net.setSwitch w.2.1 w.2.2) net

/-- The network after a revert. -/
def reverted (before : Dict Bool) (ids : List String) (net : Network) : Network :=
  ids.foldl (fun net eid =>
    match before.get? eid with
    | some prev => net.setSwitch eid prev
    | none => net) net

/-- Writing one value to several edges. -/
theorem stateOf_written_const (site : SwitchWrite) (b : Bool) (ids : List String) (net : Network)
    (i : String) :
    (written (ids.map fun eid => (site, eid, b)) net).stateOf i =
      if i ∈ ids then (net.stateOf i).map fun _ => b else net.stateOf i := by
  induction ids generalizing net with
  | nil => rfl
  | cons eid ids ih =>
      rw [List.map_cons, written, List.foldl_cons, ← written, ih, Network.stateOf_setSwitch]
      by_cases hid : eid = i
      · subst hid
        cases net.stateOf eid <;> simp
      · simp [hid, Ne.symm hid]

theorem stateOf_reverted (before : Dict Bool) (ids : List String) (net : Network) (i : String) :
    (reverted before ids net).stateOf i =
      match before.get? i with
      | some prev => if i ∈ ids then (net.stateOf i).map fun _ => prev else net.stateOf i
      | none => net.stateOf i := by
  induction ids generalizing net with
  | nil => cases before.get? i <;> rfl
  | cons eid ids ih =>
      rw [reverted, List.foldl_cons, ← reverted, ih]
      by_cases hid : eid = i
      · subst hid
        cases hget : before.get? eid with
        | none => rfl
        | some prev =>
            simp only [Network.stateOf_setSwitch, if_true, List.mem_cons_self]
            cases net.stateOf eid <;> simp
      · have hkeep : (match before.get? eid with
            | some prev => net.setSwitch eid prev
            | none => net).stateOf i = net.stateOf i := by
          cases before.get? eid with
          | none => rfl
          | some prev => rw [Network.stateOf_setSwitch, if_neg hid]
        rw [hkeep]
        simp [Ne.symm hid]

/-! ### The loop -/

theorem revert_run (before : Dict Bool) (ids : List String) (db : GridDb) (c : ℕ → GridChoice)
    (hfails : ∀ n, (c n).fails = none) :
    ∃ c', gridRun (revert before ids) db c =
      (.ok (), ({ db with network := reverted before ids db.network }, c')) := by
  induction ids generalizing db c with
  | nil => exact ⟨c, rfl⟩
  | cons eid ids ih =>
      simp only [gridRun, revert]
      cases hget : before.get? eid with
      | none =>
          obtain ⟨c', hrun⟩ := ih db c hfails
          refine ⟨c', hrun.trans ?_⟩
          simp only [reverted, List.foldl_cons, hget]
      | some prev =>
          have hwrite := setSwitch_run .flisrAbort eid prev db c
          rw [hfails 0] at hwrite
          simp only [gridRun] at hwrite
          rw [Prog.run_bind, hwrite]
          obtain ⟨c', hrun⟩ := ih (db.setSwitch eid prev) (fun n => c (n + 1))
            fun n => hfails (n + 1)
          refine ⟨c', hrun.trans ?_⟩
          simp only [reverted, List.foldl_cons, hget, GridDb.setSwitch]

theorem applyWrites_ok (before : Dict Bool) (ws : List (SwitchWrite × String × Bool))
    (applied : List String) (db : GridDb) (c : ℕ → GridChoice)
    (hfails : ∀ j < ws.length, (c j).fails = none) :
    gridRun (applyWrites before ws applied) db c =
      (.ok (applied ++ ws.map fun w => w.2.1),
        ({ db with network := written ws db.network }, fun n => c (n + ws.length))) := by
  induction ws generalizing applied db c with
  | nil =>
      rw [List.map_nil, List.append_nil]
      rfl
  | cons w ws ih =>
      obtain ⟨site, eid, b⟩ := w
      have hwrite := setSwitch_run site eid b db c
      rw [hfails 0 (Nat.succ_pos _)] at hwrite
      simp only [gridRun] at hwrite
      simp only [gridRun, applyWrites, Prog.run_bind, Prog.run_attempt, hwrite]
      refine (ih _ _ _ fun j hj => hfails (j + 1) (Nat.succ_lt_succ hj)).trans ?_
      rw [List.map_cons, List.append_assoc]
      rfl

/-- The `j`-th write fails, and nothing else does. -/
theorem applyWrites_fails (before : Dict Bool) (ws : List (SwitchWrite × String × Bool))
    (applied : List String) (db : GridDb) (c : ℕ → GridChoice) {j : ℕ} (hj : j < ws.length)
    (hfails : (c j).fails ≠ none) (hone : ∀ k, k ≠ j → (c k).fails = none) :
    ∃ e c', gridRun (applyWrites before ws applied) db c =
      (.error e, ({ db with
        network := reverted before (applied ++ (ws.take j).map fun w => w.2.1)
          (written (ws.take j) db.network) }, c')) := by
  induction ws generalizing applied db c j with
  | nil => exact absurd hj (Nat.not_lt_zero j)
  | cons w ws ih =>
      obtain ⟨site, eid, b⟩ := w
      have hwrite := setSwitch_run site eid b db c
      simp only [gridRun] at hwrite
      simp only [gridRun, applyWrites, Prog.run_bind, Prog.run_attempt, hwrite]
      cases j with
      | zero =>
          obtain ⟨m, hm⟩ := Option.ne_none_iff_exists'.mp hfails
          obtain ⟨c', hrun⟩ := revert_run before applied db (fun n => c (n + 1))
            fun n => hone (n + 1) (Nat.succ_ne_zero n)
          simp only [gridRun] at hrun
          simp only [hm, hrun, Prog.run_throw]
          refine ⟨.other m, c', ?_⟩
          rw [List.take_zero, List.map_nil, List.append_nil]
          rfl
      | succ j =>
          rw [hone 0 (Nat.succ_ne_zero j).symm]
          obtain ⟨e, c', hrun⟩ := ih (applied ++ [eid]) (db.setSwitch eid b)
            (fun n => c (n + 1)) (Nat.lt_of_succ_lt_succ hj) hfails
            fun k hk => hone (k + 1) fun h => hk (Nat.succ.inj h)
          refine ⟨e, c', hrun.trans ?_⟩
          rw [List.take_succ_cons, List.map_cons, List.append_assoc]
          rfl

/-! ### The handler -/

section Plan

variable {db : GridDb} {faultNodeArg faultEdgeArg : Option String} {p : FlisrPlan}
variable (hplan : planOn db faultNodeArg faultEdgeArg = .ok p)
include hplan

/-- The switch states behind the isolating switch and the first `j` ties. -/
theorem stateOf_written_take (j : ℕ) (i : String) :
    (written ((writes p).take (j + 1)) db.network).stateOf i =
      if i ∈ p.isolatedEdge :: p.restoredEdges.take j then
        (db.network.stateOf i).map not
      else db.network.stateOf i := by
  obtain ⟨hiso, hties⟩ := plan_moves hplan
  rw [writes, List.take_succ_cons, written, List.foldl_cons, ← written, ← List.map_take,
    stateOf_written_const, Network.stateOf_setSwitch]
  by_cases htie : i ∈ p.restoredEdges.take j
  · obtain ⟨hne, hopen⟩ := hties i (List.mem_of_mem_take htie)
    rw [if_pos htie, if_neg hne.symm, if_pos (List.mem_cons_of_mem _ htie), hopen]
    rfl
  · rw [if_neg htie]
    by_cases heq : p.isolatedEdge = i
    · subst heq
      rw [if_pos rfl, if_pos List.mem_cons_self, hiso]
      rfl
    · rw [if_neg heq, if_neg]
      exact fun h => (List.mem_cons.mp h).elim (fun h => heq h.symm) htie

theorem stateOf_moved {j : ℕ} {i : String} (hi : i ∈ p.isolatedEdge :: p.restoredEdges.take j) :
    ∃ b, db.network.stateOf i = some b := by
  obtain ⟨hiso, hties⟩ := plan_moves hplan
  rcases List.mem_cons.mp hi with rfl | hi
  · exact ⟨true, hiso⟩
  · exact ⟨false, (hties i (List.mem_of_mem_take hi)).2⟩

/-- A revert is right exactly when the states it goes back to are the present
ones, for every edge that has been moved. -/
theorem reverted_iff (before : Dict Bool) (j : ℕ) :
    (∀ i, (reverted before (p.isolatedEdge :: p.restoredEdges.take j)
        (written ((writes p).take (j + 1)) db.network)).stateOf i = db.network.stateOf i) ↔
      ∀ i ∈ p.isolatedEdge :: p.restoredEdges.take j, before.get? i = db.network.stateOf i := by
  simp only [stateOf_reverted, stateOf_written_take hplan]
  constructor
  · intro h i hi
    have hi' := h i
    obtain ⟨b, hb⟩ := stateOf_moved hplan hi
    simp only [if_pos hi, hb] at hi' ⊢
    cases hget : before.get? i with
    | none =>
        rw [hget] at hi'
        cases b <;> cases hi'
    | some prev =>
        rw [hget] at hi'
        exact hi'
  · intro h i
    by_cases hi : i ∈ p.isolatedEdge :: p.restoredEdges.take j
    · obtain ⟨b, hb⟩ := stateOf_moved hplan hi
      simp only [h i hi, if_pos hi, hb]
      rfl
    · simp only [if_neg hi]
      cases before.get? i <;> rfl

end Plan

theorem recordEvent_run (p : FlisrPlan) (applied : List String) (db : GridDb)
    (c : ℕ → GridChoice) :
    (gridRun (recordEvent p applied) db c).2.1.network = db.network ∧
      ((∃ e, (gridRun (recordEvent p applied) db c).1 = .error e) ↔
        (c 1).fails ≠ none ∨ (c 2).fails ≠ none) := by
  simp only [gridRun, recordEvent, Prog.run_bind, Prog.run_call, withChoices, gridSem,
    GridStmt.failure]
  cases h₁ : (c 1).fails with
  | some m => simp [gridExec]
  | none => cases h₂ : (c 2).fails <;> simp [gridExec, h₂]

/-- The statement that fails is one the abort does not make good: the model
version or the event behind the loop, or the `j`-th tie while some edge moved
before it is not in the state to which the abort goes back. -/
def Uncovered (action : ActionRecord) (db : GridDb) (c : ℕ → GridChoice) : Prop :=
  match gridRun (planFor action.target action.params) db c with
  | (.error _, _) => False
  | (.ok p, (_, c₁)) =>
      (c₁ (p.restoredEdges.length + 2)).fails ≠ none ∨
        (c₁ (p.restoredEdges.length + 3)).fails ≠ none ∨
        ∃ j < p.restoredEdges.length, (c₁ (j + 1)).fails ≠ none ∧
          ∃ i ∈ p.isolatedEdge :: p.restoredEdges.take j,
            (abortStates action p).get? i ≠ db.network.stateOf i

instance (action : ActionRecord) (db : GridDb) (c : ℕ → GridChoice) :
    Decidable (Uncovered action db c) := by
  unfold Uncovered
  split <;> infer_instance

/-- At most one statement fails. -/
def OneFailure (c : ℕ → GridChoice) : Prop :=
  ∀ j k, (c j).fails ≠ none → (c k).fails ≠ none → j = k

theorem OneFailure.others {c : ℕ → GridChoice} (hone : OneFailure c) {j m : ℕ}
    (hfails : (c j).fails ≠ none) (hm : m ≠ j) : (c m).fails = none :=
  Classical.not_not.mp fun h => hm (hone m j h hfails)

/-! ### What follows the planning -/

theorem length_writes (p : FlisrPlan) : (writes p).length = p.restoredEdges.length + 1 := by
  rw [writes, List.length_cons, List.length_map]

theorem ids_take_writes (p : FlisrPlan) (j : ℕ) :
    ((writes p).take (j + 1)).map (fun w => w.2.1) =
      p.isolatedEdge :: p.restoredEdges.take j := by
  rw [writes, List.take_succ_cons, List.map_cons, ← List.map_take, List.map_map]
  exact congrArg (p.isolatedEdge :: ·) (List.map_id _)

/-- `execute` behind its plan. -/
def applyPlan (p : FlisrPlan) (before : Dict Bool) : GridProg ActionDoc := do
  let applied ← applyWrites before (writes p) []
  recordEvent p applied

/-- `Uncovered`, for the statements behind the plan. -/
def Missed (p : FlisrPlan) (before : Dict Bool) (db : GridDb) (c : ℕ → GridChoice) : Prop :=
  (c (p.restoredEdges.length + 2)).fails ≠ none ∨
    (c (p.restoredEdges.length + 3)).fails ≠ none ∨
    ∃ j < p.restoredEdges.length, (c (j + 1)).fails ≠ none ∧
      ∃ i ∈ p.isolatedEdge :: p.restoredEdges.take j, before.get? i ≠ db.network.stateOf i

section Applied

variable {db : GridDb} {faultNodeArg faultEdgeArg : Option String} {p : FlisrPlan}
variable (hplan : planOn db faultNodeArg faultEdgeArg = .ok p)
variable {before : Dict Bool} {c : ℕ → GridChoice}
include hplan

/-- A write fails, and the writes before it are reverted. -/
theorem reverts_of_write_fails (hone : OneFailure c) {j : ℕ} (hj : j < (writes p).length)
    (hfails : (c j).fails ≠ none) :
    ((∃ e, (gridRun (applyPlan p before) db c).1 = .error e) →
        ∀ i, (gridRun (applyPlan p before) db c).2.1.network.stateOf i = db.network.stateOf i) ↔
      ¬ Missed p before db c := by
  obtain ⟨e, c', hrun⟩ := applyWrites_fails before (writes p) [] db c hj hfails
    fun m hm => hone.others hfails hm
  simp only [gridRun] at hrun
  simp only [gridRun, applyPlan, Prog.run_bind, hrun, Except.error.injEq, exists_eq',
    forall_const]
  rw [length_writes] at hj
  cases j with
  | zero =>
      -- nothing has been moved yet
      refine ⟨fun _ h => ?_, fun _ _ => rfl⟩
      rcases h with h | h | ⟨m, -, h, -⟩
      · exact absurd (hone _ _ h hfails) (by omega)
      · exact absurd (hone _ _ h hfails) (by omega)
      · exact absurd (hone _ _ h hfails) (by omega)
  | succ j =>
      rw [List.nil_append, ids_take_writes, reverted_iff hplan]
      constructor
      · rintro hall (h | h | ⟨m, -, h, i, hi, hne⟩)
        · exact absurd (hone _ _ h hfails) (by omega)
        · exact absurd (hone _ _ h hfails) (by omega)
        · obtain rfl : m = j := Nat.succ.inj (hone _ _ h hfails)
          exact hne (hall i hi)
      · intro h i hi
        by_contra hne
        exact h (Or.inr (Or.inr ⟨j, Nat.lt_of_succ_lt_succ hj, hfails, i, hi, hne⟩))

/-- Behind the switching loop the isolating switch is open. -/
theorem written_moved :
    ¬ ∀ i, (written (writes p) db.network).stateOf i = db.network.stateOf i := by
  intro hall
  have hiso := hall p.isolatedEdge
  rw [← List.take_length (l := writes p), length_writes, stateOf_written_take hplan,
    if_pos List.mem_cons_self, (plan_moves hplan).1] at hiso
  cases hiso

/-- All writes succeed, and nothing reverts them any more. -/
theorem reverts_of_writes_succeed (hcalm : ∀ j < (writes p).length, (c j).fails = none) :
    ((∃ e, (gridRun (applyPlan p before) db c).1 = .error e) →
        ∀ i, (gridRun (applyPlan p before) db c).2.1.network.stateOf i = db.network.stateOf i) ↔
      ¬ Missed p before db c := by
  have hrun := applyWrites_ok before (writes p) [] db c hcalm
  obtain ⟨hnetwork, hraises⟩ := recordEvent_run p ([] ++ (writes p).map fun w => w.2.1)
    { db with network := written (writes p) db.network } fun n => c (n + (writes p).length)
  simp only [gridRun] at hrun hnetwork hraises
  simp only [gridRun, applyPlan, Prog.run_bind, hrun, hraises, hnetwork]
  have hindex (m : ℕ) : m + (writes p).length = p.restoredEdges.length + (m + 1) := by
    rw [length_writes]
    omega
  simp only [hindex]
  constructor
  · rintro hall (h | h | ⟨j, hj, h, -⟩)
    · exact written_moved hplan (hall (Or.inl h))
    · exact written_moved hplan (hall (Or.inr h))
    · exact h (hcalm (j + 1) (by rw [length_writes]; omega))
  · rintro h (hv | he)
    · exact absurd (Or.inl hv) h
    · exact absurd (Or.inr (Or.inl he)) h

variable (before) in
theorem applyPlan_reverts_iff (hone : OneFailure c) :
    ((∃ e, (gridRun (applyPlan p before) db c).1 = .error e) →
        ∀ i, (gridRun (applyPlan p before) db c).2.1.network.stateOf i = db.network.stateOf i) ↔
      ¬ Missed p before db c := by
  by_cases hloop : ∃ j < (writes p).length, (c j).fails ≠ none
  · obtain ⟨j, hj, hfails⟩ := hloop
    exact reverts_of_write_fails hplan hone hj hfails
  · exact reverts_of_writes_succeed hplan fun j hj =>
      Classical.not_not.mp fun h => hloop ⟨j, hj, h⟩

end Applied

/-- **All or nothing.** With at most one failing statement: a FLISR execution
that raises has left every switch as it was, if and only if the failing
statement is not one that the abort leaves uncovered. -/
theorem execute_reverts_iff (action : ActionRecord) (db : GridDb) (c : ℕ → GridChoice)
    (hone : OneFailure c) :
    ((∃ e, (gridRun (execute action) db c).1 = .error e) →
        ∀ i, (gridRun (execute action) db c).2.1.network.stateOf i = db.network.stateOf i) ↔
      ¬ Uncovered action db c := by
  have hreads := gridRun_reads (planFor_reads action.target action.params) db c
  have hok := @planFlisr_ok (given action.params.faultNode <|> action.target)
    action.params.faultEdge db c
  obtain ⟨k, hshift⟩ := run_withChoices_shift gridSem (planFor action.target action.params) db c
  simp only [execute, Uncovered, gridRun, planFor, Prog.run_bind] at hreads hok hshift ⊢
  generalize Prog.run _ (planFlisr _ _) (db, c) = out at hreads hok hshift ⊢
  obtain ⟨r, db', c₁⟩ := out
  obtain rfl : db = db' := hreads.symm
  obtain rfl : c₁ = fun n => c (n + k) := hshift
  cases r with
  | error e => exact ⟨fun _ h => h, fun _ _ _ => rfl⟩
  | ok p =>
      have hbehind : OneFailure fun n => c (n + k) := fun i j hi hj =>
        Nat.add_right_cancel (hone _ _ hi hj)
      have hiff := applyPlan_reverts_iff (hok rfl) (abortStates action p) hbehind
      simp only [gridRun, applyPlan, Prog.run_bind] at hiff
      exact hiff

/-- A live action on a fault at `TX-01`, requested on the network `net`. -/
def transformerFault (net : Network) : ActionRecord where
  actionId := "a1"
  actionType := "flisr"
  target := some "TX-01"
  params := {}
  mode := .live
  risk := .high
  status := .APPROVED
  reason := none
  requestedBy := "operator"
  approvedBy := some "engineer"
  beforeState :=
    match (gridRun (plan (some "TX-01") {}) { network := net } fun _ => {}).1 with
    | .ok (before, _) => some before
    | .error _ => none
  tenantId := some "default"
  networkModelVersion := some 1

/-- One statement fails, the one with this number. -/
def failingAt (n : ℕ) : ℕ → GridChoice := fun k =>
  if k = n then { fails := some "connection lost" } else {}

theorem failingAt_oneFailure (n : ℕ) : OneFailure (failingAt n) := by
  have hn {j : ℕ} (hj : (failingAt n j).fails ≠ none) : j = n := by
    by_contra hne
    rw [failingAt, if_neg hne] at hj
    exact hj rfl
  exact fun j k hj hk => (hn hj).trans (hn hk).symm

/-- The tie cannot be closed, and the isolating switch is closed again. -/
theorem pilot_tie_failure_reverts :
    let out := gridRun (execute (transformerFault pilot)) { network := pilot } (failingAt 6)
    (∃ e, out.1 = .error e) ∧ ∀ i, out.2.1.network.stateOf i = pilot.stateOf i := by
  refine ⟨⟨_, rfl⟩, ?_⟩
  exact (execute_reverts_iff (transformerFault pilot) { network := pilot } (failingAt 6)
    (failingAt_oneFailure 6)).mpr (by decide +kernel) ⟨_, rfl⟩

/-- The event behind the loop cannot be stored: the switches stay where the
plan has put them. And when a tie was open at the request, and by the time of
the execution is one that the new plan closes, the abort leaves it closed. -/
theorem pilot_failures_not_reverted :
    (¬ ((∃ e, (gridRun (execute (transformerFault pilot)) { network := pilot }
          (failingAt 9)).1 = .error e) →
        ∀ i, (gridRun (execute (transformerFault pilot)) { network := pilot }
          (failingAt 9)).2.1.network.stateOf i = pilot.stateOf i)) ∧
      ¬ ((∃ e, (gridRun (execute (transformerFault (pilotTwoTies.setSwitch "E-TIE-01" true)))
          { network := pilotTwoTies } (failingAt 7)).1 = .error e) →
        ∀ i, (gridRun (execute (transformerFault (pilotTwoTies.setSwitch "E-TIE-01" true)))
          { network := pilotTwoTies } (failingAt 7)).2.1.network.stateOf i =
            pilotTwoTies.stateOf i) := by
  refine ⟨fun h => ?_, fun h => ?_⟩
  · exact absurd (h ⟨_, rfl⟩ "E-SW-01") (by decide +kernel)
  · exact absurd (h ⟨_, rfl⟩ "E-TIE-01") (by decide +kernel)

end DiepLab.OcFlisr
