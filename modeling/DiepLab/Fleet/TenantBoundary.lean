import DiepLab.Controls.Output
import DiepLab.Fleet.HandlerAddressees
import DiepLab.Grid.Radial

/-!
Whether a caller of one tenant commands devices of that tenant only.

`DispatchRequest` lists the requests that end in `_dispatch_command`, and `Aims`
the devices and commands that a request of a tenant-scoped caller gets through
to, as far as the rows it reads say. `dispatches_within_tenant_iff` says that no
decision of the surroundings adds to these and none of them can be left out; the
commands endpoint alone never crosses the boundary.
-/

namespace DiepLab.Fleet

open StatementProgram Controls

/-- The control plane over the fleet. -/
abbrev FleetPlane := Plane OcParams OcDoc FleetDb

inductive DispatchRequest where
  /-- `POST /commands`. -/
  | createCommand (deviceId commandType issuedBy : String)
  /-- `POST /der/dispatch`. -/
  | derDispatch (derId commandType : String)
  /-- `POST /der/curtailment`. -/
  | curtailment (derId : String)
  /-- `POST /derms/battery_dispatch`. -/
  | batteryDispatch (deviceId siteName : Option String) (targetSoc : ℚ)
  /-- `POST /derms/peak_shaving`. -/
  | peakShaving (siteName : Option String)
  /-- `POST /derms/demand_response`. -/
  | demandResponse (siteName : Option String)
  /-- `POST /derms/load_optimization`. -/
  | loadOptimization (siteName : Option String) (objective : String)
  /-- `POST /controls/actions/{id}/execute`. -/
  | execute (actionId : String)
  /-- `POST /controls/actions/{id}/rollback`. -/
  | rollback (actionId : String)

/-- The program of an endpoint outside the governance core. -/
def fleetRequest (p : FleetProg String) : PlaneProg OcParams OcDoc FleetResp Unit :=
  Prog.inr do
    let _ ← p
    pure ()

def serve (settings : OcVoltVar.Settings) (principal : Principal) :
    DispatchRequest → PlaneProg OcParams OcDoc FleetResp Unit
  | .createCommand d ct issuedBy => fleetRequest (createCommand d ct issuedBy principal)
  | .derDispatch derId ct => fleetRequest (derDispatch derId ct principal)
  | .curtailment derId => fleetRequest (curtailment derId principal)
  | .batteryDispatch d site soc => fleetRequest (batteryDispatch d site soc)
  | .peakShaving site => fleetRequest (peakShaving site)
  | .demandResponse site => fleetRequest (demandResponse site)
  | .loadOptimization site objective => fleetRequest (loadOptimization site objective)
  | .execute i => do
      let _ ← Controls.execute (ocHandlers settings) i principal
      pure ()
  | .rollback i => do
      let _ ← Controls.rollback (ocHandlers settings) i principal
      pure ()

/-- The commands that a request publishes when it runs alone. -/
def dispatched (settings : OcVoltVar.Settings) (s : FleetPlane) (principal : Principal)
    (request : DispatchRequest) (choices : ℕ → ControlChoice × FleetChoice) : List Command :=
  (((serve settings principal request).run (withChoices (planeSem fleetSem))
    (s, choices)).2.1.world.topic).drop s.world.topic.length

/-! ### What a request aims at -/

/-- What the handler of an action commands when it is executed live. -/
def ExecuteAims (db : FleetDb) (row : OcRow) (deviceId commandType : String) : Prop :=
  (row.actionType = "switch_op" ∧ ∃ edge wantClosed,
    OcSwitch.Operates db.grid (switchingRow row) edge wantClosed ∧
      given edge.attrs.deviceId = some deviceId ∧
        commandType = OcSwitch.commandFor edge wantClosed) ∨
  (row.actionType = "voltvar_dispatch" ∧ ∃ der, OcVoltVar.Resolves db row der ∧
    deviceId = der.derId ∧ commandType = (OcVoltVar.commandFor der.derType).1)

/-- What the handler of an action commands when it is rolled back. -/
def RollbackAims (row : OcRow) (deviceId commandType : String) : Prop :=
  (row.actionType = "switch_op" ∧ ∃ prev,
    (switchingRow row).beforeState.bind ActionDoc.isClosed? = some prev ∧
      given ((switchingRow row).beforeState.bind ActionDoc.deviceId?) = some deviceId ∧
        commandType = if prev then "grid_connect" else "island") ∨
  (row.actionType = "voltvar_dispatch" ∧ ∃ prev derType,
    row.beforeState.bind OcDoc.voltvarBefore? = some (deviceId, prev, derType) ∧
      commandType = (OcVoltVar.commandFor derType).1)

/-- The devices and commands that a request of a caller of `tenant` gets
through to. -/
def Aims (s : FleetPlane) (principal : Principal) (tenant : String) :
    DispatchRequest → String → String → Prop
  | .createCommand d ct _, deviceId, commandType =>
      deviceId = d ∧ commandType = ct ∧
        ∀ row, s.world.device? d = some row → row.tenantId = tenant
  | .derDispatch derId ct, deviceId, commandType =>
      deviceId = derId ∧ commandType = ct ∧ ∃ der, s.world.der? derId = some der ∧
        der.controllable = true ∧ der.tenantId = tenant
  | .curtailment derId, deviceId, commandType =>
      deviceId = derId ∧ ∃ der parameter, s.world.der? derId = some der ∧
        curtailMap.get? der.derType.text = some (commandType, parameter) ∧ der.tenantId = tenant
  | .batteryDispatch d site _, deviceId, commandType =>
      commandType ∈ batteryCommands ∧ ∃ battery, s.world.batteryFor d site = some battery ∧
        deviceId = battery.deviceId
  | .peakShaving site, deviceId, commandType =>
      commandType = "discharge" ∧ ∃ battery, s.world.newestOnline "battery" site = some battery ∧
        deviceId = battery.deviceId
  | .demandResponse site, deviceId, commandType =>
      (commandType = "discharge" ∧ ∃ battery,
        s.world.newestOnline "battery" site = some battery ∧ deviceId = battery.deviceId) ∨
      (commandType = "stop_charging" ∧ s.world.newestOnline "battery" site = none ∧ ∃ charger,
        s.world.newestOnline "ev_charger" site = some charger ∧ deviceId = charger.deviceId)
  | .loadOptimization site _, deviceId, commandType =>
      commandType ∈ batteryCommands ∧ ∃ battery,
        s.world.newestOnline "battery" site = some battery ∧ deviceId = battery.deviceId
  | .execute i, deviceId, commandType =>
      ∃ row, s.db.get i = some row ∧ tenantOk principal row ∧ row.mode = .live ∧
        GatesOpen s row ∧ ExecuteAims s.world row deviceId commandType
  | .rollback i, deviceId, commandType =>
      ∃ row, s.db.get i = some row ∧ tenantOk principal row ∧ row.status = .EXECUTED ∧
        RollbackAims row deviceId commandType

/-! ### The handlers -/

section Handlers

variable {own : String → Prop} {db : FleetDb} {settings : OcVoltVar.Settings}

/-- The registry, name by name. -/
theorem ocHandlers_cases {name : String} {handler : ControlHandler OcParams OcDoc FleetResp}
    (h : ocHandlers settings name = some handler) :
    (name = "noop" ∧ handler = noop) ∨
      (name = "switch_op" ∧ handler = switchingHandler OcSwitch.handler) ∨
      (name = "flisr" ∧ handler = switchingHandler OcFlisr.handler) ∨
      (name = "voltvar_dispatch" ∧ handler = OcVoltVar.handler settings) := by
  unfold ocHandlers at h
  split_ifs at h with hnoop hswitch hflisr hvoltvar
  · exact Or.inl ⟨hnoop, (Option.some.inj h).symm⟩
  · exact Or.inr (Or.inl ⟨hswitch, (Option.some.inj h).symm⟩)
  · exact Or.inr (Or.inr (Or.inl ⟨hflisr, (Option.some.inj h).symm⟩))
  · exact Or.inr (Or.inr (Or.inr ⟨hvoltvar, (Option.some.inj h).symm⟩))

theorem ExecuteAims.handler {row : OcRow} {d ct : String} (h : ExecuteAims db row d ct)
    (settings : OcVoltVar.Settings) :
    ∃ handler, ocHandlers settings row.actionType = some handler := by
  rcases h with ⟨hname, -⟩ | ⟨hname, -⟩
  · exact ⟨_, by rw [hname]; rfl⟩
  · exact ⟨_, by rw [hname]; rfl⟩

theorem RollbackAims.handler {row : OcRow} {d ct : String} (h : RollbackAims row d ct)
    (settings : OcVoltVar.Settings) :
    ∃ handler, ocHandlers settings row.actionType = some handler := by
  rcases h with ⟨hname, -⟩ | ⟨hname, -⟩
  · exact ⟨_, by rw [hname]; rfl⟩
  · exact ⟨_, by rw [hname]; rfl⟩

theorem handlerExecute_addresses {row : OcRow}
    {handler : ControlHandler OcParams OcDoc FleetResp}
    (h : ocHandlers settings row.actionType = some handler) :
    AddressesOnly own (handler.execute row) db ↔
      ∀ d ct, ExecuteAims db row d ct → db.Takes d ct → own d := by
  rcases ocHandlers_cases h with ⟨hname, rfl⟩ | ⟨hname, rfl⟩ | ⟨hname, rfl⟩ | ⟨hname, rfl⟩
  · refine iff_of_true trivial fun d ct haims => ?_
    simp [ExecuteAims, hname] at haims
  · refine (publishesOnly_bind_silent fun _ => ?_).trans (switchExecute_addresses.trans ?_)
    · trivial
    · simp only [ExecuteAims, hname, true_and, String.reduceEq, false_and, or_false]
      constructor
      · rintro hown d _ ⟨edge, wantClosed, hoperates, hdevice, rfl⟩
        exact hown edge wantClosed hoperates d hdevice
      · intro hown edge wantClosed hoperates d hdevice
        exact hown d _ ⟨edge, wantClosed, hoperates, hdevice, rfl⟩
  · refine iff_of_true (publishesOnly_silent ?_) fun d ct haims => ?_
    · refine Prog.Issues.bind ?_ fun _ => trivial
      exact Prog.Issues.inl (P := GridSilent) (fun _ hq => hq) (OcFlisr.execute_silent _)
    · simp [ExecuteAims, hname] at haims
  · refine (OcVoltVar.execute_addresses settings).trans ?_
    simp only [ExecuteAims, hname, true_and, String.reduceEq, false_and, false_or]
    constructor
    · rintro hown _ _ ⟨der, hresolves, rfl, rfl⟩
      exact hown der hresolves
    · intro hown der hresolves
      exact hown _ _ ⟨der, hresolves, rfl, rfl⟩

theorem handlerRollback_addresses {row : OcRow}
    {handler : ControlHandler OcParams OcDoc FleetResp}
    (h : ocHandlers settings row.actionType = some handler) :
    AddressesOnly own (handler.rollback row) db ↔
      ∀ d ct, RollbackAims row d ct → db.Takes d ct → own d := by
  rcases ocHandlers_cases h with ⟨hname, rfl⟩ | ⟨hname, rfl⟩ | ⟨hname, rfl⟩ | ⟨hname, rfl⟩
  · refine iff_of_true trivial fun d ct haims => ?_
    simp [RollbackAims, hname] at haims
  · refine (publishesOnly_bind_silent fun _ => ?_).trans (switchRollback_addresses.trans ?_)
    · trivial
    · simp only [RollbackAims, hname, true_and, String.reduceEq, false_and, or_false]
      constructor
      · rintro hown d _ ⟨prev, hprev, hdevice, rfl⟩
        exact hown prev hprev d hdevice
      · intro hown prev hprev d hdevice
        exact hown d _ ⟨prev, hprev, hdevice, rfl⟩
  · refine iff_of_true (publishesOnly_silent ?_) fun d ct haims => ?_
    · refine Prog.Issues.bind ?_ fun _ => trivial
      exact Prog.Issues.inl (P := GridSilent) (fun _ hq => hq) (OcFlisr.rollback_silent _)
    · simp [RollbackAims, hname] at haims
  · refine OcVoltVar.rollback_addresses.trans ?_
    simp only [RollbackAims, hname, true_and, String.reduceEq, false_and, false_or]
    constructor
    · rintro hown derId _ ⟨prev, derType, hbefore, rfl⟩
      exact hown derId prev derType hbefore
    · intro hown derId prev derType hbefore
      exact hown derId _ ⟨prev, derType, hbefore, rfl⟩

end Handlers

/-! ### The boundary -/

section Boundary

variable {s : FleetPlane}

theorem fleetRequest_addresses {own : String → Prop} {p : FleetProg String} :
    SaysOnly (planeOutput fleetOutput) (fun msg => own msg.deviceId) (fleetRequest p) s ↔
      AddressesOnly own p s.world :=
  (saysOnly_inr _ s).trans (publishesOnly_bind_silent fun _ => trivial)

/-- A request sends commands to `own` only, exactly when it aims at `own` only. -/
theorem serve_addresses (settings : OcVoltVar.Settings) (own : String → Prop)
    {principal : Principal} {tenant : String} (h : principal.tenant = some tenant)
    (request : DispatchRequest) :
    SaysOnly (planeOutput fleetOutput) (fun msg => own msg.deviceId)
        (serve settings principal request) s ↔
      ∀ d ct, Aims s principal tenant request d ct → s.world.Takes d ct → own d := by
  cases request with
  | createCommand deviceId commandType issuedBy =>
      refine fleetRequest_addresses.trans ((createCommand_addresses h).trans ?_)
      constructor
      · rintro hown _ _ ⟨rfl, rfl, htenant⟩
        exact hown htenant
      · exact fun hown htenant => hown _ _ ⟨rfl, rfl, htenant⟩
  | derDispatch derId commandType =>
      refine fleetRequest_addresses.trans ((derDispatch_addresses h).trans ?_)
      constructor
      · rintro hown _ _ ⟨rfl, rfl, der, hder, hcontrollable, htenant⟩
        exact hown der hder hcontrollable htenant
      · exact fun hown der hder hcontrollable htenant =>
          hown _ _ ⟨rfl, rfl, der, hder, hcontrollable, htenant⟩
  | curtailment derId =>
      refine fleetRequest_addresses.trans ((curtailment_addresses h).trans ?_)
      constructor
      · rintro hown _ ct ⟨rfl, der, parameter, hder, hmap, htenant⟩
        exact hown der hder ct parameter hmap htenant
      · exact fun hown der hder ct parameter hmap htenant =>
          hown _ ct ⟨rfl, der, parameter, hder, hmap, htenant⟩
  | batteryDispatch deviceId siteName targetSoc =>
      refine fleetRequest_addresses.trans (batteryDispatch_addresses.trans ?_)
      constructor
      · rintro hown _ ct ⟨hct, battery, hbattery, rfl⟩ htakes
        exact hown battery hbattery ((takes_battery hct).mp htakes)
      · exact fun hown battery hbattery =>
          hown _ "discharge" ⟨by simp [batteryCommands], battery, hbattery, rfl⟩
  | peakShaving siteName =>
      refine fleetRequest_addresses.trans (peakShaving_addresses.trans ?_)
      constructor
      · rintro hown _ _ ⟨rfl, battery, hbattery, rfl⟩
        exact hown battery hbattery
      · exact fun hown battery hbattery => hown _ _ ⟨rfl, battery, hbattery, rfl⟩
  | demandResponse siteName =>
      refine fleetRequest_addresses.trans (demandResponse_addresses.trans ?_)
      constructor
      · rintro ⟨hbatteries, hchargers⟩ _ _
          (⟨rfl, battery, hbattery, rfl⟩ | ⟨rfl, hnone, charger, hcharger, rfl⟩)
        · exact hbatteries battery hbattery
        · exact hchargers hnone charger hcharger
      · intro hown
        exact ⟨fun battery hbattery => hown _ _ (Or.inl ⟨rfl, battery, hbattery, rfl⟩),
          fun hnone charger hcharger => hown _ _ (Or.inr ⟨rfl, hnone, charger, hcharger, rfl⟩)⟩
  | loadOptimization siteName objective =>
      refine fleetRequest_addresses.trans (loadOptimization_addresses.trans ?_)
      constructor
      · rintro hown _ ct ⟨hct, battery, hbattery, rfl⟩ htakes
        exact hown battery hbattery ((takes_battery hct).mp htakes)
      · exact fun hown battery hbattery =>
          hown _ "discharge" ⟨by simp [batteryCommands], battery, hbattery, rfl⟩
  | execute actionId =>
      refine (saysOnly_bind_silent fun _ => Prog.issues_pure _).trans (execute_output.trans ?_)
      constructor
      · rintro hown d ct ⟨row, hrow, htenant, hlive, hgates, haims⟩
        obtain ⟨handler, hhandler⟩ := haims.handler settings
        exact (handlerExecute_addresses hhandler).mp
          (hown row hrow htenant hlive hgates handler hhandler) d ct haims
      · intro hown row hrow htenant hlive hgates handler hhandler
        exact (handlerExecute_addresses hhandler).mpr fun d ct haims =>
          hown d ct ⟨row, hrow, htenant, hlive, hgates, haims⟩
  | rollback actionId =>
      refine (saysOnly_bind_silent fun _ => Prog.issues_pure _).trans (rollback_output.trans ?_)
      constructor
      · rintro hown d ct ⟨row, hrow, htenant, hstatus, haims⟩
        obtain ⟨handler, hhandler⟩ := haims.handler settings
        exact (handlerRollback_addresses hhandler).mp
          (hown row hrow htenant hstatus handler hhandler) d ct haims
      · intro hown row hrow htenant hstatus handler hhandler
        exact (handlerRollback_addresses hhandler).mpr fun d ct haims =>
          hown d ct ⟨row, hrow, htenant, hstatus, haims⟩

theorem dispatched_iff (settings : OcVoltVar.Settings) (own : String → Prop)
    {principal : Principal} {tenant : String} (h : principal.tenant = some tenant)
    (request : DispatchRequest) :
    (∀ choices, ∀ msg ∈ dispatched settings s principal request choices, own msg.deviceId) ↔
      ∀ d ct, Aims s principal tenant request d ct → s.world.Takes d ct → own d := by
  rw [← serve_addresses settings own h request, saysOnly_iff]
  rfl

end Boundary

/-- **The devices that a caller of one tenant commands.** Whatever fails on the
way, a request commands devices of the tenant of the caller only, if and only if
the devices that it aims at, and that take its command, are of that tenant. -/
theorem dispatches_within_tenant_iff (settings : OcVoltVar.Settings) (s : FleetPlane)
    (name tenant : String) (request : DispatchRequest) :
    (∀ choices, ∀ msg ∈ dispatched settings s ⟨name, some tenant⟩ request choices,
        s.world.tenantOf msg.deviceId = some tenant) ↔
      ∀ deviceId commandType, Aims s ⟨name, some tenant⟩ tenant request deviceId commandType →
        s.world.Takes deviceId commandType → s.world.tenantOf deviceId = some tenant :=
  dispatched_iff settings (fun d => s.world.tenantOf d = some tenant) rfl request

/-- The commands endpoint asks for the tenant of the device itself, and never
crosses the boundary. -/
theorem createCommand_within_tenant (settings : OcVoltVar.Settings) (s : FleetPlane)
    (name tenant deviceId commandType issuedBy : String) :
    ∀ choices, ∀ msg ∈ dispatched settings s ⟨name, some tenant⟩
      (.createCommand deviceId commandType issuedBy) choices,
        s.world.tenantOf msg.deviceId = some tenant := by
  refine (dispatched_iff settings (fun d => s.world.tenantOf d = some tenant) rfl _).mpr ?_
  rintro d ct ⟨rfl, rfl, htenant⟩ ⟨device, hdevice, -⟩
  have hrow : s.world.device? d = some (s.world.deviceRow device) := by
    rw [FleetDb.device?, hdevice]
    rfl
  rw [FleetDb.tenantOf, hrow]
  exact congrArg some (htenant _ hrow)

/-- One battery, of another tenant. -/
def globexBattery : FleetPlane where
  db := {}
  world := {
    grid := { network := pilot, devices := [⟨"bat-1", "battery"⟩] }
    columns := fun _ => { status := "ONLINE", tenantId := "globex" } }

/-- An operator of one tenant discharges the battery of another to shave a
peak. -/
theorem acme_discharges_globex :
    ¬ ∀ choices, ∀ msg ∈ dispatched {} globexBattery ⟨"ann", some "acme"⟩
        (.peakShaving none) choices,
      globexBattery.world.tenantOf msg.deviceId = some "acme" := by
  intro h
  have hmsg := h (fun _ => ({}, {})) ⟨"", "bat-1", "battery", "discharge", "derms", .PENDING, none⟩
    (by decide +kernel)
  revert hmsg
  decide +kernel

end DiepLab.Fleet
