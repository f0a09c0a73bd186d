import DiepLab.Controls.Alone
import DiepLab.Grid.Radial
import DiepLab.Handlers.Writes

/-!
The failure points of a live switch operation.

`execute` writes the model first and commands the device second. Whatever
raises before the write leaves the model alone; after it there is one path
back, the revert on an echo divergence. `Stranded` lists the other ends: the
dispatch raises, the echo verification raises, or the revert itself fails. The
governance core adds one more, the update that settles the call.
-/

namespace DiepLab.OcSwitch

open StatementProgram Controls

/-! ### The device path -/

/-- The row that was inserted is found again by its id. -/
theorem commandStatusOf_inserted {i : String} (f : Command → Command) (rows : List Command)
    (row : Command) (hid : row.commandId = i) (hf : ∀ r, (f r).commandId = r.commandId) :
    ∃ status, commandStatusOf (Command.setStatus i f (rows ++ [row])) i = some status := by
  rw [← Option.isSome_iff_exists, commandStatusOf, Option.isSome_map, List.find?_isSome]
  refine ⟨f row, ?_, by simp [hf, hid]⟩
  rw [Command.setStatus, List.map_append]
  exact List.mem_append_right _ (by simp [hid])

/-- `_dispatch_command` returns exactly when the device is registered, takes
the command, and none of the four statements that can fail does. -/
theorem dispatchCommand_ok_iff (deviceId commandType issuedBy : String) (db : GridDb)
    (c : ℕ → GridChoice) :
    (∃ commandId, (gridRun (dispatchCommand deviceId commandType issuedBy) db c).1 =
        .ok commandId) ↔
      ∃ device, (db.devices.find? fun row => row.deviceId = deviceId) = some device ∧
        ¬ Rejected device.deviceType commandType ∧ (c 0).fails = none ∧ (c 2).fails = none ∧
          (c 3).fails = none ∧ (c 4).fails = none := by
  simp only [gridRun, dispatchCommand, Prog.run_bind, Prog.run_call, withChoices, gridSem,
    GridStmt.failure]
  cases h₀ : (c 0).fails with
  | some m => simp
  | none =>
      simp only [Option.map_none, gridExec]
      cases db.devices.find? fun row => row.deviceId = deviceId with
      | none => simp
      | some device =>
          simp only [Prog.run_bind, Prog.run_raiseIf]
          by_cases hrejected : Rejected device.deviceType commandType
          · simp [hrejected]
          · simp only [hrejected, if_false, Prog.run_call, withChoices, gridSem,
              GridStmt.failure, gridExec, Prog.run_attempt]
            cases h₂ : (c 2).fails with
            | some m => simp
            | none =>
                cases h₃ : (c 3).fails with
                | some m =>
                    -- the failure is recorded, and the request ends in 502
                    simp only [h₃, Option.map_none, Option.map_some, Prog.run_bind, Prog.run_call,
                      Prog.run_throw]
                    generalize withChoices gridSem (.failCommand _ _) _ = out
                    obtain ⟨r, s'⟩ := out
                    cases r <;> simp
                | none =>
                    cases h₄ : (c 4).fails with
                    | some m => simp [h₃, h₄]
                    | none =>
                        obtain ⟨status, hstatus⟩ := commandStatusOf_inserted (i := (c 1).uuid)
                          (fun row => { row with status := row.status.sent }) db.commands
                          ⟨(c 1).uuid, deviceId, device.deviceType, commandType, issuedBy,
                            .PENDING, none⟩ rfl fun _ => rfl
                        simp [h₃, h₄, hstatus, hrejected]

/-- Behind the model write the device path raises and does not revert. -/
def FieldFails (edge : GridEdge) (wantClosed : Bool) (db : GridDb) (c : ℕ → GridChoice) : Prop :=
  match given edge.attrs.deviceId with
  | none => False
  | some deviceId =>
      match gridRun (dispatchAndWait deviceId (commandFor edge wantClosed)) db c with
      | (.error _, _) => True
      | (.ok _, (db₁, c₁)) =>
          match gridRun (echoOf deviceId wantClosed) db₁ c₁ with
          | (.error _, _) => True
          | (.ok echo, (_, c₂)) =>
              echo.bind Echo.confirmed = some false ∧ (c₂ 0).fails ≠ none

instance (edge : GridEdge) (wantClosed : Bool) (db : GridDb) (c : ℕ → GridChoice) :
    Decidable (FieldFails edge wantClosed db c) := by
  unfold FieldFails
  split
  · infer_instance
  · split
    · infer_instance
    · split <;> infer_instance

theorem moveDevice_run (edge : GridEdge) (wantClosed : Bool) (db : GridDb) (c : ℕ → GridChoice) :
    let out := gridRun (moveDevice edge wantClosed) db c
    (FieldFails edge wantClosed db c ∧ (∃ e, out.1 = .error e) ∧
        out.2.1.network = db.network) ∨
      (¬ FieldFails edge wantClosed db c ∧
        ((∃ a, out.1 = .ok a) ∧ out.2.1.network = db.network ∨
          (∃ e, out.1 = .error e) ∧
            out.2.1.network = db.network.setSwitch edge.edgeId edge.isClosed)) := by
  simp only [moveDevice, FieldFails]
  cases given edge.attrs.deviceId with
  | none => exact Or.inr ⟨id, Or.inl ⟨⟨_, rfl⟩, rfl⟩⟩
  | some deviceId =>
      have hdispatch := gridRun_keeps (dispatchAndWait_moves deviceId
        (commandFor edge wantClosed)) db c
      simp only [gridRun] at hdispatch ⊢
      rw [Prog.run_bind]
      generalize Prog.run _ (dispatchAndWait deviceId (commandFor edge wantClosed)) (db, c) = out₁
        at hdispatch ⊢
      obtain ⟨r₁, db₁, c₁⟩ := out₁
      cases r₁ with
      | error e => exact Or.inl ⟨trivial, ⟨e, rfl⟩, hdispatch⟩
      | ok ack =>
          have hecho := gridRun_keeps (echoOf_moves deviceId wantClosed) db₁ c₁
          simp only [gridRun] at hecho ⊢
          rw [Prog.run_bind]
          generalize Prog.run _ (echoOf deviceId wantClosed) (db₁, c₁) = out₂ at hecho ⊢
          obtain ⟨r₂, db₂, c₂⟩ := out₂
          have hnet : db₂.network = db.network := Eq.trans hecho hdispatch
          cases r₂ with
          | error e => exact Or.inl ⟨trivial, ⟨e, rfl⟩, hnet⟩
          | ok echo =>
              by_cases hdiverged : echo.bind Echo.confirmed = some false
              · have hrevert := setSwitch_run .switchOpRevert edge.edgeId edge.isClosed db₂ c₂
                simp only [gridRun] at hrevert
                simp only [hdiverged, if_true, true_and]
                rw [Prog.run_bind, hrevert]
                cases (c₂ 0).fails with
                | some m => exact Or.inl ⟨(fun h => by cases h), ⟨_, rfl⟩, hnet⟩
                | none =>
                    refine Or.inr ⟨fun h => h rfl, Or.inr ⟨⟨_, rfl⟩, ?_⟩⟩
                    exact congrArg (fun net => net.setSwitch edge.edgeId edge.isClosed) hnet
              · simp only [hdiverged, if_false, false_and]
                exact Or.inr ⟨id, Or.inl ⟨⟨_, rfl⟩, hnet⟩⟩

/-! ### The handler -/

/-- The call writes the model, raises after that, and does not revert. -/
def Stranded (action : ActionRecord) (db : GridDb) (c : ℕ → GridChoice) : Prop :=
  match gridRun (recheck action) db c with
  | (.error _, _) => False
  | (.ok (_, edge, wantClosed), (_, c₁)) =>
      (c₁ 0).fails = none ∧
        FieldFails edge wantClosed (db.setSwitch edge.edgeId wantClosed) (rest c₁)

instance (action : ActionRecord) (db : GridDb) (c : ℕ → GridChoice) :
    Decidable (Stranded action db c) := by
  unfold Stranded
  split <;> infer_instance

/-- The target has been moved to the requested state, which is the other one,
and nothing else has been moved. -/
def Moved (action : ActionRecord) (db db' : GridDb) : Prop :=
  ∃ edgeId b, action.target = some edgeId ∧ action.params.close = some (!b) ∧
    db.network.stateOf edgeId = some b ∧ db'.network = db.network.setSwitch edgeId (!b)

theorem Moved.stateOf_ne {action : ActionRecord} {db db' : GridDb} (h : Moved action db db') :
    ∃ edgeId, action.target = some edgeId ∧
      db'.network.stateOf edgeId ≠ db.network.stateOf edgeId := by
  obtain ⟨edgeId, b, htarget, -, hstate, hnet⟩ := h
  refine ⟨edgeId, htarget, ?_⟩
  rw [hnet, Network.stateOf_setSwitch, if_pos rfl, hstate]
  cases b <;> simp

/-- **The handler alone.** It raises with the target moved exactly when it is
stranded; otherwise it either raises with the model as it was or returns with
the target moved. -/
theorem execute_run (action : ActionRecord) (db : GridDb) (c : ℕ → GridChoice) :
    let out := gridRun (execute action) db c
    (Stranded action db c ∧ (∃ e, out.1 = .error e) ∧ Moved action db out.2.1) ∨
      (¬ Stranded action db c ∧
        ((∃ e, out.1 = .error e) ∧ (∀ i, out.2.1.network.stateOf i = db.network.stateOf i) ∨
          (∃ doc, out.1 = .ok doc) ∧ Moved action db out.2.1)) := by
  have hreads := gridRun_reads (recheck_reads action) db c
  have hok := @recheck_ok action db c
  simp only [execute, Stranded, gridRun] at hreads hok ⊢
  rw [Prog.run_bind]
  generalize Prog.run _ (recheck action) (db, c) = out₁ at hreads hok ⊢
  obtain ⟨r₁, db₁, c₁⟩ := out₁
  obtain rfl : db₁ = db := hreads
  cases r₁ with
  | error e => exact Or.inr ⟨id, Or.inl ⟨⟨e, rfl⟩, fun _ => rfl⟩⟩
  | ok found =>
      obtain ⟨reads, edge, wantClosed⟩ := found
      obtain ⟨hresolved, hne⟩ := hok rfl
      have hwant : wantClosed = !edge.isClosed := by
        cases h : edge.isClosed <;> cases hw : wantClosed <;> simp_all
      have hwrite := setSwitch_run (.switchOp action.params.override reads) edge.edgeId wantClosed
        db₁ c₁
      simp only [gridRun] at hwrite ⊢
      rw [Prog.run_bind, hwrite]
      cases hfails : (c₁ 0).fails with
      | some m =>
          exact Or.inr ⟨(fun h => by cases h.1), Or.inl ⟨⟨_, rfl⟩, fun _ => rfl⟩⟩
      | none =>
          have hmove := moveDevice_run edge wantClosed (db₁.setSwitch edge.edgeId wantClosed)
            (rest c₁)
          simp only [gridRun, true_and] at hmove ⊢
          rw [Prog.run_bind]
          have hmoved {db' : GridDb}
              (h : db'.network = (db₁.setSwitch edge.edgeId wantClosed).network) :
              Moved action db₁ db' :=
            ⟨edge.edgeId, edge.isClosed, hresolved.target, hwant ▸ hresolved.wantClosed,
              hresolved.stateOf, hwant ▸ h⟩
          rw [show (fun n => c₁ (n + 1)) = rest c₁ from rfl]
          generalize Prog.run _ (moveDevice edge wantClosed) (_, rest c₁) = out₂ at hmove ⊢
          obtain ⟨r₂, db₂, c₂⟩ := out₂
          rcases hmove with ⟨hfield, ⟨e, he⟩, hnet⟩ | ⟨hfield, ⟨⟨a, ha⟩, hnet⟩ | ⟨⟨e, he⟩, hnet⟩⟩
          · obtain rfl : r₂ = .error e := he
            exact Or.inl ⟨hfield, ⟨e, rfl⟩, hmoved hnet⟩
          · obtain rfl : r₂ = .ok a := ha
            exact Or.inr ⟨hfield, Or.inr ⟨⟨_, rfl⟩, hmoved hnet⟩⟩
          · obtain rfl : r₂ = .error e := he
            refine Or.inr ⟨hfield, Or.inl ⟨⟨e, rfl⟩, fun i => ?_⟩⟩
            -- the revert writes back what the re-check has read
            simp only at hnet ⊢
            rw [hnet]
            exact Network.stateOf_setSwitch_back hresolved.stateOf wantClosed i

/-! ### The call -/

/-- The call gets past the gates, and then either the handler is stranded or
the update that settles the call fails. -/
def LeavesMoved (s : Plane ActionParams ActionDoc GridDb) (c : ℕ → ControlChoice × GridChoice)
    (principal : Principal) (row : ActionRecord) : Prop :=
  Called s c principal row ∧
    (Stranded row s.world (fun n => (c (n + 3)).2) ∨
      ((∃ doc, (handled gridSem handler s c row).1 = .ok doc) ∧
        ((handled gridSem handler s c row).2.2 0).1.fails ≠ none))

/-- **Failure points.** Whatever fails during the execute call of a live
switch operation: an action that does not end EXECUTED has left its edge as it
was, if and only if the call does not leave the model moved. -/
theorem unexecuted_unmoved_iff (s : Plane ActionParams ActionDoc GridDb)
    (c : ℕ → ControlChoice × GridChoice) (i : String) (principal : Principal)
    {row : ActionRecord} (hrow : s.db.get i = some row) (hlive : row.mode = .live)
    (htype : row.actionType = "switch_op") :
    let out := (alone gridSem (Controls.execute switchingHandlers i principal) (s, c)).2.1
    (statusOf out i ≠ some .EXECUTED → ∀ edgeId, row.target = some edgeId →
        out.world.network.stateOf edgeId = s.world.network.stateOf edgeId) ↔
      ¬ LeavesMoved s c principal row := by
  have hh : switchingHandlers row.actionType = some handler := by rw [htype]; rfl
  have hcall := execute_live gridSem switchingHandlers s c i principal hrow hlive hh
  obtain ⟨hresult, hworld⟩ := alone_inr gridSem (execute row)
    (s.invoked .execute row (some true)) (rest (rest (rest c)))
  have hrun := execute_run row s.world fun n => (c (n + 3)).2
  intro out
  by_cases hcalled : Called s c principal row
  · rw [if_pos hcalled] at hcall
    obtain ⟨hout, hsettled⟩ := hcall
    have hfinal : out.world = (gridRun (execute row) s.world fun n => (c (n + 3)).2).2.1 :=
      hout.trans hworld
    have hmoved (h : Moved row s.world (gridRun (execute row) s.world
        fun n => (c (n + 3)).2).2.1) : ¬ ∀ edgeId, row.target = some edgeId →
          out.world.network.stateOf edgeId = s.world.network.stateOf edgeId := by
      obtain ⟨edgeId, htarget, hne⟩ := h.stateOf_ne
      rw [← hfinal] at hne
      exact fun hall => hne (hall edgeId htarget)
    have hhandled : (handled gridSem handler s c row).1 =
        (gridRun (execute row) s.world fun n => (c (n + 3)).2).1 := hresult
    rcases hrun with ⟨hstranded, ⟨e, he⟩, hmove⟩ | ⟨hnot, ⟨⟨e, he⟩, hkept⟩ | ⟨⟨doc, hdoc⟩, hmove⟩⟩
    · rw [hhandled, he] at hsettled
      exact ⟨fun h => absurd (h hsettled.2) (hmoved hmove),
        fun h => absurd ⟨hcalled, Or.inl hstranded⟩ h⟩
    · refine ⟨fun _ h => ?_, fun _ _ edgeId _ => ?_⟩
      · rcases h.2 with h | ⟨⟨doc, hdoc⟩, -⟩
        · exact hnot h
        · rw [hhandled, he] at hdoc
          exact nomatch hdoc
      · rw [hfinal]
        exact hkept edgeId
    · rw [hhandled, hdoc] at hsettled
      simp only at hsettled
      split at hsettled
      · -- the action ends EXECUTED
        rename_i hfails
        refine ⟨fun _ h => ?_, fun _ h => absurd ?_ h⟩
        · rcases h.2 with h | ⟨-, h⟩
          · exact hnot h
          · exact h hfails
        · rw [statusOf, hsettled]
          rfl
      · rename_i hfails
        refine ⟨fun h => absurd (h ?_) (hmoved hmove),
          fun h => absurd ⟨hcalled, Or.inr ⟨⟨doc, hhandled.trans hdoc⟩, hfails⟩⟩ h⟩
        rw [statusOf, hsettled.2]
        rcases hcalled.2.2.2.2 with h | h <;> simp [h]
  · rw [if_neg hcalled] at hcall
    refine ⟨fun _ h => hcalled h.1, fun _ _ edgeId _ => ?_⟩
    exact congrArg (fun db : GridDb => db.network.stateOf edgeId) hcall.2.1

/-- A live action on the breaker of the microgrid in the pilot network. -/
def breakerAction (wantClosed : Bool) : ActionRecord where
  actionId := "a1"
  actionType := "switch_op"
  target := some "E-MGD900-CB"
  params := { close := some wantClosed }
  mode := .live
  risk := .high
  status := .APPROVED
  reason := none
  requestedBy := "operator"
  approvedBy := some "engineer"
  beforeState := some (.switchBefore "E-MGD900-CB" (!wantClosed) (some "MGD900"))
  tenantId := some "default"
  networkModelVersion := some 1

def pilotPlane (row : ActionRecord) : Plane ActionParams ActionDoc GridDb where
  db := { actions := [row], enabled := true }
  world := { network := pilot, devices := [⟨"MGD900", "microgrid"⟩] }

/-- The execute call that opens the breaker. -/
abbrev breakerCall (c : ℕ → ControlChoice × GridChoice) : Plane ActionParams ActionDoc GridDb :=
  (alone gridSem (Controls.execute switchingHandlers "a1" ⟨"operator", none⟩)
    (pilotPlane (breakerAction false), c)).2.1

/-- Nothing fails, and the device keeps reporting that it is connected. -/
def stuckBreaker (n : ℕ) : ControlChoice × GridChoice :=
  ({}, { uuid := "c1", polls := 1, reported := some ⟨n, some true, none⟩ })

theorem stuckBreaker_status : statusOf (breakerCall stuckBreaker) "a1" = some .FAILED := by
  decide +kernel

/-- The breaker does not move, the echo says so, and the model is reverted. -/
theorem stuckBreaker_unmoved :
    statusOf (breakerCall stuckBreaker) "a1" = some .FAILED ∧
      (breakerCall stuckBreaker).world.network.stateOf "E-MGD900-CB" =
        pilot.stateOf "E-MGD900-CB" := by
  refine ⟨stuckBreaker_status, ?_⟩
  refine (unexecuted_unmoved_iff (pilotPlane (breakerAction false)) stuckBreaker "a1"
    ⟨"operator", none⟩ (show _ = some (breakerAction false) from rfl) rfl rfl).mpr ?_ ?_ _ rfl
  · rintro ⟨-, hstranded | ⟨-, hfails⟩⟩
    · exact absurd hstranded (by decide +kernel)
    · exact hfails (by decide +kernel)
  · exact fun h => nomatch stuckBreaker_status.symm.trans h

/-- One statement fails, the one with this number. -/
def failingAt (n : ℕ) : ℕ → ControlChoice × GridChoice := fun k =>
  if k = n then ({ fails := some "connection lost" }, { fails := some "connection lost" })
  else ({}, {})

/-- The publish of the command to Kafka fails (the 14th statement of the call):
the breaker stays closed, the action stays APPROVED, and the model says open. -/
theorem publish_failure_leaves_moved :
    ¬ (statusOf (breakerCall (failingAt 13)) "a1" ≠ some .EXECUTED →
      ∀ edgeId, some "E-MGD900-CB" = some edgeId →
        (breakerCall (failingAt 13)).world.network.stateOf edgeId = pilot.stateOf edgeId) := by
  intro h
  refine absurd (h ?_ "E-MGD900-CB" rfl) ?_
  · decide +kernel
  · decide +kernel

end DiepLab.OcSwitch
