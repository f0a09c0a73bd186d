import DiepLab.Fleet.Addressees
import DiepLab.Handlers.Recheck

/-!
Which devices the handlers of control actions send commands to.

The switch handler moves the breaker behind its edge once the re-check has
passed, and on rollback the breaker that its `before_state` names; the Volt/VAR
handler commands its target. FLISR writes the network model and speaks to no
device.
-/

namespace DiepLab

open StatementProgram Controls

/-! ### Grid programs that read, and grid programs that say nothing -/

/-- The statements that the re-check is made of. -/
def GridReads (q : GridStmt) : Prop := Fleet.Reads (.inl q)

def GridSilent (q : GridStmt) : Prop := Fleet.Silent (.inl q)

theorem gridSilent_call {q : GridStmt} (h : ∀ row, q ≠ .publish row) :
    (Prog.call q : GridProg (GridResp q)).Issues GridSilent :=
  (Prog.issues_call q).mpr fun row hq => h row (Sum.inl.inj hq)

namespace OcSwitch

theorem resolve_plain (target : Option String) (params : ActionParams) :
    (resolve target params).Plain GridReads := by
  unfold resolve
  split
  · trivial
  · refine (Prog.plain_call (q := GridStmt.loadEdges) trivial).bind fun edges => ?_
    split
    · trivial
    · refine (Prog.plain_raiseIf _ _).bind fun _ => ?_
      split <;> trivial

theorem customersIn_plain (nodes : Finset String) : (customersIn nodes).Plain GridReads := by
  unfold customersIn
  split
  · trivial
  · exact Prog.plain_call (q := GridStmt.servicePointsIn nodes) trivial

theorem interlocks_plain (edges : List GridEdge) (edge : GridEdge) (wantClosed : Bool) :
    (interlocks edges edge wantClosed).Plain GridReads := by
  refine (Prog.plain_call (q := GridStmt.substations) trivial).bind fun _ => ?_
  refine (Prog.plain_call (q := GridStmt.substations) trivial).bind fun _ => ?_
  split
  · exact (Prog.plain_call (q := GridStmt.activeOutageNodes) trivial).bind fun _ => trivial
  · exact (customersIn_plain _).bind fun _ => trivial

theorem recheck_plain (action : ActionRecord) : (recheck action).Plain GridReads := by
  refine Prog.Plain.bind ?_ fun _ => (resolve_plain _ _).bind fun _ => trivial
  refine (resolve_plain _ _).bind fun ⟨edges, edge, wantClosed⟩ => ?_
  refine (Prog.plain_raiseIf _ _).bind fun _ => ?_
  refine (interlocks_plain edges edge wantClosed).bind fun found => ?_
  refine (Prog.plain_raiseIf _ _).bind fun _ => ?_
  exact (customersIn_plain _).bind fun _ => (customersIn_plain _).bind fun _ => trivial

end OcSwitch

theorem pollAck_silent (ack : DeviceAck) (n : ℕ) : (pollAck ack n).Issues GridSilent := by
  induction n with
  | zero => trivial
  | succ n ih =>
      refine (gridSilent_call (q := .commandStatus _) fun _ h => nomatch h).bind fun status => ?_
      rcases status with _ | (_ | _ | _ | _ | _) <;> trivial

theorem pollEcho_silent (deviceId : String) (expect : List Expectation) (baseline : ℚ) (n : ℕ)
    (anyReported : Bool) (last : Option DeviceState) :
    (pollEcho deviceId expect baseline n anyReported last).Issues GridSilent := by
  induction n generalizing anyReported last with
  | zero => trivial
  | succ n ih =>
      refine (gridSilent_call (q := .telemetry _) fun _ h => nomatch h).bind fun state => ?_
      cases state with
      | none => exact ih _ _
      | some state =>
          dsimp only
          split
          · split
            · trivial
            · exact ih _ _
          · exact ih _ _

theorem verifyEcho_silent (deviceId : String) (expect : List Expectation) :
    (verifyEcho deviceId expect).Issues GridSilent := by
  refine (gridSilent_call (q := .deadline) fun _ h => nomatch h).bind fun turns => ?_
  refine (gridSilent_call (q := .telemetry _) fun _ h => nomatch h).bind fun start => ?_
  exact pollEcho_silent ..

theorem OcSwitch.echoOf_silent (deviceId : String) (wantClosed : Bool) :
    (OcSwitch.echoOf deviceId wantClosed).Issues GridSilent := by
  refine (gridSilent_call (q := .echoEnabled) fun _ h => nomatch h).bind fun enabled => ?_
  split
  · exact (verifyEcho_silent ..).bind fun _ => trivial
  · trivial

theorem setSwitch_silent (site : SwitchWrite) (edgeId : String) (b : Bool) :
    (Sql.setSwitch site edgeId b).Issues GridSilent :=
  gridSilent_call (q := .setSwitch site edgeId b) fun _ h => nomatch h

/-! ### FLISR -/

namespace OcFlisr

open Dms

theorem countServicePoints_silent (nodes : Finset String) :
    (countServicePoints nodes).Issues GridSilent := by
  unfold countServicePoints
  split
  · trivial
  · exact (gridSilent_call (q := .servicePointsIn nodes) fun _ h => nomatch h).bind fun _ => trivial

theorem planFor_silent (target : Option String) (params : ActionParams) :
    (planFor target params).Issues GridSilent := by
  refine (gridSilent_call (q := .loadNodes) fun _ h => nomatch h).bind fun nodes => ?_
  refine (gridSilent_call (q := .loadEdges) fun _ h => nomatch h).bind fun edges => ?_
  split
  · trivial
  · refine (countServicePoints_silent _).bind fun _ => ?_
    exact (countServicePoints_silent _).bind fun _ =>
      (countServicePoints_silent _).bind fun _ => trivial

theorem revert_silent (before : Dict Bool) (ids : List String) :
    (revert before ids).Issues GridSilent := by
  induction ids with
  | nil => trivial
  | cons eid ids ih =>
      rw [revert]
      cases before.get? eid with
      | none => exact ih
      | some prev => exact (setSwitch_silent ..).bind fun _ => ih

theorem applyWrites_silent (before : Dict Bool) (ws : List (SwitchWrite × String × Bool))
    (applied : List String) : (applyWrites before ws applied).Issues GridSilent := by
  induction ws generalizing applied with
  | nil => trivial
  | cons w ws ih =>
      obtain ⟨site, eid, b⟩ := w
      refine Prog.Issues.bind (Prog.Issues.attempt (setSwitch_silent ..) fun e => ?_) fun _ => ih _
      exact (revert_silent before applied).bind fun _ => trivial

theorem execute_silent (action : ActionRecord) : (execute action).Issues GridSilent := by
  refine (planFor_silent _ _).bind fun p => (applyWrites_silent _ _ _).bind fun applied => ?_
  refine (gridSilent_call (q := .uuid4) fun _ h => nomatch h).bind fun eventId => ?_
  refine (gridSilent_call (q := .currentModelVersion) fun _ h => nomatch h).bind fun version => ?_
  exact (gridSilent_call (q := .insertFlisrEvent _) fun _ h => nomatch h).bind fun _ => trivial

theorem restoreSwitches_silent (states : Dict Bool) :
    (restoreSwitches states).Issues GridSilent := by
  induction states with
  | nil => trivial
  | cons s states ih => exact (setSwitch_silent ..).bind fun _ => ih

theorem rollback_silent (action : ActionRecord) : (rollback action).Issues GridSilent :=
  (Prog.issues_raiseIf _ _).bind fun _ => (restoreSwitches_silent _).bind fun _ => trivial

end OcFlisr

namespace Fleet

variable {own : String → Prop} {db : FleetDb}

/-! ### Switch operations -/

/-- A switch write on the way says nothing, and no device changes with it. -/
theorem addressesOnly_setSwitch {site : SwitchWrite} {edgeId deviceId commandType : String}
    {b : Bool} {β : Type} {f : Unit → FleetProg β}
    (hf : ∀ db : FleetDb, AddressesOnly own (f ()) db ↔
      (db.Takes deviceId commandType → own deviceId)) :
    AddressesOnly own ((Sql.setSwitch site edgeId b).inl >>= f) db ↔
      (db.Takes deviceId commandType → own deviceId) := by
  rw [Prog.inl_call]
  refine publishesOnly_write (q := .inl (.setSwitch site edgeId b)) (fun _ h => nomatch h)
    ⟨(), rfl⟩ fun c _ => (hf _).trans ?_
  rw [takes_sem]

theorem addressesOnly_dispatchAndWait {deviceId commandType : String} {β : Type}
    {f : DeviceAck → GridProg β} (hf : ∀ ack, (f ack).Issues GridSilent) (db : FleetDb) :
    AddressesOnly own ((dispatchAndWait deviceId commandType >>= f).inl) db ↔
      (db.Takes deviceId commandType → own deviceId) := by
  rw [Prog.inl_bind, dispatchAndWait, Prog.inl_bind, Prog.bind_assoc]
  refine (publishesOnly_bind_silent fun commandId => ?_).trans addressesOnly_dispatch
  rw [← Prog.inl_bind]
  refine Prog.Issues.inl (P := GridSilent) (fun _ hq => hq) (Prog.Issues.bind ?_ hf)
  split
  · trivial
  · exact (gridSilent_call (q := .deadline) fun _ h => nomatch h).bind fun _ => pollAck_silent _ _

theorem moveDevice_addresses {edge : GridEdge} {wantClosed : Bool} {deviceId : String}
    (h : given edge.attrs.deviceId = some deviceId) (db : FleetDb) :
    AddressesOnly own (OcSwitch.moveDevice edge wantClosed).inl db ↔
      (db.Takes deviceId (OcSwitch.commandFor edge wantClosed) → own deviceId) := by
  rw [OcSwitch.moveDevice, h]
  refine addressesOnly_dispatchAndWait (fun ack => ?_) db
  refine (OcSwitch.echoOf_silent _ _).bind fun echo => ?_
  split
  · exact (setSwitch_silent ..).bind fun _ => trivial
  · trivial

theorem switchExecute_addresses {action : ActionRecord} :
    AddressesOnly own (OcSwitch.execute action).inl db ↔
      ∀ edge wantClosed, OcSwitch.Operates db.grid action edge wantClosed →
        ∀ deviceId, given edge.attrs.deviceId = some deviceId →
          db.Takes deviceId (OcSwitch.commandFor edge wantClosed) → own deviceId := by
  have hmove (reads : InterlockReads) (edge : GridEdge) (wantClosed : Bool) :
      AddressesOnly own ((do
          Sql.setSwitch (.switchOp action.params.override reads) edge.edgeId wantClosed
          let out ← OcSwitch.moveDevice edge wantClosed
          pure (ActionDoc.switchAfter edge.edgeId wantClosed out.1 out.2) : GridProg _).inl) db ↔
        ∀ deviceId, given edge.attrs.deviceId = some deviceId →
          db.Takes deviceId (OcSwitch.commandFor edge wantClosed) → own deviceId := by
    cases hdevice : given edge.attrs.deviceId with
    | none =>
        refine iff_of_true (publishesOnly_silent ?_) fun _ h => by cases h
        refine Prog.Issues.inl (P := GridSilent) (fun _ hq => hq) ?_
        refine (setSwitch_silent ..).bind fun _ => ?_
        rw [OcSwitch.moveDevice, hdevice]
        trivial
    | some deviceId =>
        rw [Prog.inl_bind]
        simp only [Option.some.injEq, forall_eq']
        refine addressesOnly_setSwitch fun db => ?_
        rw [Prog.inl_bind]
        refine (publishesOnly_bind_silent fun _ => ?_).trans (moveDevice_addresses hdevice db)
        trivial
  have hrun : (((OcSwitch.recheck action).inl : FleetProg _).run (fleetSem {}) db).1 =
      ((OcSwitch.recheck action).run (gridSem {}) db.grid).1 :=
    Prog.run_inl FleetDb.grid (fun _ _ => rfl) (fun _ _ => rfl) _ db
  rw [OcSwitch.execute, Prog.inl_bind]
  refine (publishesOnly_reads ((OcSwitch.recheck_plain action).inl fun _ hq => hq)).trans ?_
  rw [hrun]
  constructor
  · intro h edge wantClosed hoperates
    obtain ⟨reads, hreads⟩ := OcSwitch.recheck_run_iff.mpr hoperates
    exact (hmove reads edge wantClosed).mp (h _ hreads)
  · rintro h ⟨reads, edge, wantClosed⟩ hreads
    exact (hmove reads edge wantClosed).mpr
      (h edge wantClosed (OcSwitch.recheck_run_iff.mp ⟨reads, hreads⟩))

theorem switchRollback_addresses {action : ActionRecord} :
    AddressesOnly own (OcSwitch.rollback action).inl db ↔
      ∀ prev, action.beforeState.bind ActionDoc.isClosed? = some prev →
        ∀ deviceId, given (action.beforeState.bind ActionDoc.deviceId?) = some deviceId →
          db.Takes deviceId (if prev then "grid_connect" else "island") → own deviceId := by
  rw [OcSwitch.rollback]
  cases action.beforeState.bind ActionDoc.isClosed? with
  | none => exact iff_of_true trivial fun _ h => by cases h
  | some prev =>
      simp only [Option.some.injEq, forall_eq']
      generalize hedge : (given (action.beforeState.bind ActionDoc.edgeId?) <|> action.target) =
        edgeId
      cases hdevice : given (action.beforeState.bind ActionDoc.deviceId?) with
      | none =>
          refine iff_of_true (publishesOnly_silent ?_) fun _ h => by cases h
          refine Prog.Issues.inl (P := GridSilent) (fun _ hq => hq) ?_
          cases edgeId with
          | none => trivial
          | some edgeId => exact (setSwitch_silent ..).bind fun _ => trivial
      | some deviceId =>
          simp only [Option.some.injEq, forall_eq']
          have hrest (db : FleetDb) :
              AddressesOnly own ((do
                  let ack ← dispatchAndWait deviceId (if prev then "grid_connect" else "island")
                  let echo ← OcSwitch.echoOf deviceId prev
                  pure (ActionDoc.switchRestored edgeId prev (some ack) echo) :
                    GridProg _).inl) db ↔
                (db.Takes deviceId (if prev then "grid_connect" else "island") → own deviceId) :=
            addressesOnly_dispatchAndWait
              (fun ack => (OcSwitch.echoOf_silent _ _).bind fun _ => Prog.issues_pure _) db
          cases edgeId with
          | none => exact hrest db
          | some edgeId =>
              dsimp only
              rw [Prog.inl_bind]
              exact addressesOnly_setSwitch hrest

/-! ### Volt/VAR -/

namespace OcVoltVar

variable (settings : Settings)

theorem curtailMap_total (derType : DerType) : curtailMap.get? derType.text ≠ none := by
  cases derType <;> decide

/-- The DER that a Volt/VAR action commands. -/
structure Resolves (db : FleetDb) (action : OcRow) (der : DerAsset) : Prop where
  target : ∃ derId, given action.target = some derId ∧ db.der? derId = some der
  controllable : der.controllable = true
  setpoint : action.params.setpointKw.isSome = true

theorem resolve_addresses {action : OcRow} {β : Type} {f : DerAsset × ℚ → FleetProg β}
    {P : DerAsset → Prop} (hf : ∀ der setpoint, AddressesOnly own (f (der, setpoint)) db ↔ P der) :
    AddressesOnly own (resolve action.target action.params >>= f) db ↔
      ∀ der, Resolves db action der → P der := by
  unfold resolve
  cases htarget : given action.target with
  | none =>
      refine iff_of_true trivial fun der h => ?_
      obtain ⟨derId, hderId, -⟩ := h.target
      rw [htarget] at hderId
      cases hderId
  | some derId =>
      dsimp only
      rw [Prog.bind_assoc]
      refine (publishesOnly_query (q := .inr (.der derId)) trivial rfl).trans ?_
      cases hder : db.der? derId with
      | none =>
          simp only [fleetExec, hder]
          refine iff_of_true trivial fun der h => ?_
          obtain ⟨derId', hderId, hfound⟩ := h.target
          obtain rfl : derId = derId' := Option.some.inj (htarget.symm.trans hderId)
          rw [hder] at hfound
          cases hfound
      | some der =>
          simp only [fleetExec, hder]
          rw [Prog.bind_assoc]
          refine publishesOnly_raiseIf.trans ?_
          have hunique {der' : DerAsset} (h : Resolves db action der') : der' = der := by
            obtain ⟨derId', hderId, hfound⟩ := h.target
            obtain rfl : derId = derId' := Option.some.inj (htarget.symm.trans hderId)
            exact Option.some.inj (hfound.symm.trans hder)
          by_cases hcontrollable : der.controllable = true
          · rw [Prog.bind_assoc]
            refine (imp_iff_right (by simp [hcontrollable])).trans (publishesOnly_raiseIf.trans
              ((imp_iff_right (curtailMap_total der.derType)).trans ?_))
            cases hsetpoint : action.params.setpointKw with
            | none =>
                refine iff_of_true trivial fun der' h => ?_
                have hsome := h.setpoint
                rw [hsetpoint] at hsome
                cases hsome
            | some setpoint =>
                refine (hf der setpoint).trans ⟨fun hP der' h => hunique h ▸ hP, fun h => h der ?_⟩
                exact ⟨⟨derId, htarget, hder⟩, hcontrollable, by rw [hsetpoint]; rfl⟩
          · refine iff_of_true (fun h => absurd (by simpa using hcontrollable) h) fun der' h => ?_
            exact absurd (hunique h ▸ h.controllable) hcontrollable

theorem execute_addresses {action : OcRow} :
    AddressesOnly own (execute settings action) db ↔
      ∀ der, Resolves db action der →
        db.Takes der.derId (commandFor der.derType).1 → own der.derId := by
  refine resolve_addresses fun der setpoint => ?_
  refine (publishesOnly_bind_silent fun commandId => ?_).trans addressesOnly_dispatch
  refine Prog.Issues.bind ?_ fun _ => trivial
  refine Prog.Issues.bind (Prog.Issues.inl (P := GridSilent) (fun _ hq => hq)
    (gridSilent_call (q := .echoEnabled) fun _ h => nomatch h)) fun enabled => ?_
  split
  · refine Prog.Issues.bind (Prog.Issues.inl (P := GridSilent) (fun _ hq => hq)
      (verifyEcho_silent ..)) fun echo => ?_
    exact (Prog.issues_raiseIf _ _).bind fun _ => trivial
  · trivial

theorem rollback_addresses {action : OcRow} :
    AddressesOnly own (rollback action) db ↔
      ∀ derId prev derType,
        action.beforeState.bind OcDoc.voltvarBefore? = some (derId, prev, derType) →
          db.Takes derId (commandFor derType).1 → own derId := by
  rw [rollback]
  cases action.beforeState.bind OcDoc.voltvarBefore? with
  | none => exact iff_of_true trivial fun _ _ _ h => nomatch h
  | some before =>
      obtain ⟨derId, prev, derType⟩ := before
      refine (publishesOnly_bind_silent fun commandId => ?_).trans (addressesOnly_dispatch.trans ?_)
      · trivial
      · simp only [Option.some.injEq, Prod.mk.injEq]
        exact ⟨fun hown _ _ _ hbefore => hbefore.1 ▸ hbefore.2.2 ▸ hown,
          fun hown => hown _ _ _ ⟨rfl, rfl, rfl⟩⟩

end OcVoltVar

end Fleet

end DiepLab
