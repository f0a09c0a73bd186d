import DiepLab.Fleet.VoltVar

/-!
Which devices an endpoint sends commands to.

`AddressesOnly own p db` says that `p`, running alone, publishes commands to
devices in `own` only. All commands go through `_dispatch_command`, which lets
one out when the device is known and takes it (`FleetDb.Takes`); what comes
before only reads, and what comes after says nothing.
-/

namespace DiepLab.Fleet

open StatementProgram Controls

instance : Inhabited FleetChoice := ⟨{}⟩

variable {α β : Type} {own : String → Prop} {good : Command → Prop} {db : FleetDb}

/-- Only devices in `own` are sent commands. -/
abbrev AddressesOnly (own : String → Prop) (p : FleetProg α) (db : FleetDb) : Prop :=
  SaysOnly fleetOutput (fun msg => own msg.deviceId) p db

/-- Only good commands are published. -/
abbrev PublishesOnly (good : Command → Prop) (p : FleetProg α) (db : FleetDb) : Prop :=
  SaysOnly fleetOutput good p db

/-! ### Rules -/

theorem publishesOnly_reads {p : FleetProg α} {f : α → FleetProg β} (hp : p.Plain Reads) :
    PublishesOnly good (p >>= f) db ↔
      ∀ a, (p.run (fleetSem {}) db).1 = .ok a → PublishesOnly good (f a) db := by
  refine (wp_bind ..).trans (wp_plain {} (fun c q s hq msg hmsg => ?_)
    (fun c q s hq => fleetSem_steady c hq s) (fun q s hq => fleetSem_calm hq s) hp
    fun _ _ => trivial)
  change msg ∈ published c q at hmsg
  rw [published_silent hq.silent c] at hmsg
  exact absurd hmsg List.not_mem_nil

theorem publishesOnly_query {q : GridStmt ⊕ FleetStmt} (hq : Reads q) {a : FleetResp q}
    (ha : (fleetSem {} q db).1 = .ok a) {f : FleetResp q → FleetProg β} :
    PublishesOnly good ((Prog.call q : FleetProg (FleetResp q)) >>= f) db ↔
      PublishesOnly good (f a) db := by
  refine (publishesOnly_reads (Prog.plain_call hq)).trans ⟨fun h => h a ?_, fun h a' ha' => ?_⟩
  · rw [Prog.run_call, ha]
  · rw [Prog.run_call, ha] at ha'
    exact Except.ok.inj ha' ▸ h

theorem publishesOnly_raiseIf {c : Prop} [Decidable c] {e : Exc} {f : Unit → FleetProg β} :
    PublishesOnly good (Prog.raiseIf c e >>= f) db ↔ (¬ c → PublishesOnly good (f ()) db) := by
  refine (wp_bind ..).trans ((wp_raiseIf ..).trans ?_)
  exact and_iff_right fun _ => trivial

@[simp] theorem publishesOnly_throw (e : Exc) :
    PublishesOnly good (throw e : FleetProg α) db := trivial

theorem silent_said (q : GridStmt ⊕ FleetStmt) (hq : Silent q) :
    ∀ c db, fleetOutput.said c q db = [] := fun c _ => published_silent hq c

theorem publishesOnly_silent {p : FleetProg α} (hp : p.Issues Silent) : PublishesOnly good p db :=
  saysOnly_silent (hp.mono silent_said)

theorem publishesOnly_bind_silent {p : FleetProg α} {f : α → FleetProg β}
    (hf : ∀ a, (f a).Issues Silent) :
    PublishesOnly good (p >>= f) db ↔ PublishesOnly good p db :=
  saysOnly_bind_silent fun a => (hf a).mono silent_said

theorem publishesOnly_attempt_silent {p : FleetProg α} {h : Exc → FleetProg α}
    (hh : ∀ e, (h e).Issues Silent) :
    PublishesOnly good (tryCatch p h) db ↔ PublishesOnly good p db :=
  saysOnly_attempt_silent fun e => (hh e).mono silent_said

/-- A write that says nothing, when what follows does not depend on it. -/
theorem publishesOnly_write {q : GridStmt ⊕ FleetStmt} (hq : Silent q) {P : Prop}
    {f : FleetResp q → FleetProg β}
    (hok : ∃ a, (fleetSem {} q db).1 = .ok a)
    (hf : ∀ c a, PublishesOnly good (f a) (fleetSem c q db).2 ↔ P) :
    PublishesOnly good ((Prog.call q : FleetProg (FleetResp q)) >>= f) db ↔ P := by
  refine (wp_bind ..).trans ((wp_silent_call (fun c msg hmsg => ?_) fun _ _ => trivial).trans ?_)
  · change msg ∈ published c q at hmsg
    rw [published_silent hq c] at hmsg
    exact absurd hmsg List.not_mem_nil
  · obtain ⟨a, ha⟩ := hok
    exact ⟨fun h => (hf {} a).mp (h {} a ha), fun h c a _ => (hf c a).mpr h⟩

/-! ### Dispatch -/

/-- The device is known, and takes the command. -/
def FleetDb.Takes (db : FleetDb) (deviceId commandType : String) : Prop :=
  ∃ device, db.grid.devices.find? (fun row => row.deviceId = deviceId) = some device ∧
    ¬ Rejected device.deviceType commandType

instance (db : FleetDb) (deviceId commandType : String) :
    Decidable (db.Takes deviceId commandType) :=
  match h : db.grid.devices.find? fun row => row.deviceId = deviceId with
  | none => isFalse fun ⟨_, hd, _⟩ => nomatch h.symm.trans hd
  | some device =>
      decidable_of_iff (¬ Rejected device.deviceType commandType)
        ⟨fun hc => ⟨device, h, hc⟩, fun ⟨_, hd, hc⟩ => Option.some.inj (h.symm.trans hd) ▸ hc⟩

/-- The statements that publish to one device at most. -/
def PublishesTo (deviceId : String) (q : GridStmt) : Prop :=
  ∀ row, q = .publish row → row.deviceId = deviceId

theorem good_published {q : GridStmt} (hq : ∀ row, q = .publish row → good row) (c : FleetChoice) :
    ∀ row ∈ published c (.inl q), good row := by
  intro row hrow
  cases q with
  | publish row' =>
      simp only [published] at hrow
      split at hrow
      · exact List.mem_singleton.mp hrow ▸ hq row' rfl
      · exact absurd hrow List.not_mem_nil
  | _ => exact absurd hrow List.not_mem_nil

/-- One command is published at most, to the device and of the type that were
asked for. -/
theorem dispatchCommand_publishes (deviceId commandType issuedBy : String) :
    (dispatchCommand deviceId commandType issuedBy).Issues fun q =>
      PublishesTo deviceId q ∧ ∀ row, q = .publish row → row.commandType = commandType := by
  have hother {q : GridStmt} (hq : ∀ row, q ≠ .publish row) :
      (Prog.call q : GridProg (GridResp q)).Issues fun q =>
        PublishesTo deviceId q ∧ ∀ row, q = .publish row → row.commandType = commandType :=
    (Prog.issues_call _).mpr
      ⟨fun row h => absurd h (hq row), fun row h => absurd h (hq row)⟩
  refine Prog.Issues.bind (hother fun _ h => nomatch h) fun device => ?_
  cases device with
  | none => trivial
  | some device =>
      refine (Prog.issues_raiseIf _ _).bind fun _ => ?_
      refine Prog.Issues.bind (hother fun _ h => nomatch h) fun commandId => ?_
      refine Prog.Issues.bind (hother fun _ h => nomatch h) fun _ => ?_
      refine Prog.Issues.bind (Prog.Issues.attempt ?publish fun e => ?_) fun _ => ?_
      case publish =>
        refine (Prog.issues_call _).mpr ⟨fun row hrow => ?_, fun row hrow => ?_⟩
        · injection hrow with hrow
          rw [← hrow]
        · injection hrow with hrow
          rw [← hrow]
      · cases e with
        | kafka m => exact Prog.Issues.bind (hother fun _ h => nomatch h) fun _ => trivial
        | _ => trivial
      · refine Prog.Issues.bind (hother fun _ h => nomatch h) fun status => ?_
        cases status <;> trivial

/-- A command is let out to a device that is known and takes it. -/
theorem publishesOnly_dispatch {deviceId commandType issuedBy : String} {P : Prop}
    (hgood : ∀ msg : Command, msg.deviceId = deviceId → msg.commandType = commandType →
      (good msg ↔ P)) :
    PublishesOnly good (dispatch deviceId commandType issuedBy) db ↔
      (db.Takes deviceId commandType → P) := by
  constructor
  · rintro h ⟨device, hfind, htakes⟩
    rw [dispatch, dispatchCommand, Prog.inl_bind, Prog.inl_call] at h
    replace h := (publishesOnly_query (q := .inl (.selectDevice deviceId)) trivial rfl).mp h
    simp only [gridExec, hfind, Prog.raiseIf, if_neg htakes] at h
    -- the calm decisions lead to the publish
    have hinsert := (h db rfl {} trivial).2
    have hpublish := (hinsert _ rfl {} trivial).2
    have hmsg := (hpublish _ rfl {} trivial).1 _ (List.mem_singleton_self _)
    exact (hgood _ rfl rfl).mp hmsg
  · intro hP
    by_cases htakes : db.Takes deviceId commandType
    · have hinl : (dispatch deviceId commandType issuedBy).Issues fun q =>
          ∀ c, ∀ row ∈ published c q, good row :=
        (dispatchCommand_publishes ..).inl fun q hq =>
          good_published fun row hrow =>
            (hgood row (hq.1 row hrow) (hq.2 row hrow)).mpr (hP htakes)
      exact wp.of_issues_needs (fun c q s hq => hq c) hinl db
    · rw [dispatch, dispatchCommand, Prog.inl_bind, Prog.inl_call]
      refine (publishesOnly_query (q := .inl (.selectDevice deviceId)) trivial rfl).mpr ?_
      cases hfind : db.grid.devices.find? fun row => row.deviceId = deviceId with
      | none =>
          simp only [gridExec, hfind]
          trivial
      | some device =>
          have hrejected : Rejected device.deviceType commandType := by
            by_contra hnot
            exact htakes ⟨device, hfind, hnot⟩
          simp only [gridExec, hfind, Prog.raiseIf, if_pos hrejected]
          trivial

theorem addressesOnly_dispatch {deviceId commandType issuedBy : String} :
    AddressesOnly own (dispatch deviceId commandType issuedBy) db ↔
      (db.Takes deviceId commandType → own deviceId) :=
  publishesOnly_dispatch fun _ hid _ => by rw [hid]

/-- No statement touches `devices`. -/
theorem fleetSem_devices (c : FleetChoice) (q : GridStmt ⊕ FleetStmt) (db : FleetDb) :
    (fleetSem c q db).2.grid.devices = db.grid.devices := by
  rcases q with q | q
  · simp only [fleetSem, gridSem]
    cases q.failure c.toGridChoice with
    | some e => rfl
    | none => cases q <;> rfl
  · rw [fleetSem]
    cases c.fails with
    | some m => rfl
    | none => cases q <;> rfl

theorem takes_sem {c : FleetChoice} {q : GridStmt ⊕ FleetStmt} {deviceId commandType : String} :
    (fleetSem c q db).2.Takes deviceId commandType ↔ db.Takes deviceId commandType := by
  rw [FleetDb.Takes, FleetDb.Takes, fleetSem_devices]

/-! ### Commands, and the DER endpoints -/

theorem assertTenantAccess_addresses {deviceId tenant : String} {principal : Principal}
    (h : principal.tenant = some tenant) {f : Unit → FleetProg β} :
    AddressesOnly own (assertTenantAccess principal deviceId >>= f) db ↔
      ((∀ row, db.device? deviceId = some row → row.tenantId = tenant) →
        AddressesOnly own (f ()) db) := by
  rw [assertTenantAccess, h, Prog.bind_assoc]
  refine (publishesOnly_query (q := .inr (.device deviceId)) trivial rfl).trans ?_
  refine publishesOnly_raiseIf.trans ?_
  change (¬ (db.device? deviceId).any (fun r => r.tenantId ≠ tenant) = true → _) ↔ _
  cases hrow : db.device? deviceId with
  | none => simp
  | some row => simp

theorem createCommand_addresses {deviceId commandType issuedBy tenant : String}
    {principal : Principal} (h : principal.tenant = some tenant) :
    AddressesOnly own (createCommand deviceId commandType issuedBy principal) db ↔
      ((∀ row, db.device? deviceId = some row → row.tenantId = tenant) →
        db.Takes deviceId commandType → own deviceId) :=
  (assertTenantAccess_addresses h).trans (imp_congr_right fun _ => addressesOnly_dispatch)

theorem assertTenant_addresses {derId tenant : String} {principal : Principal}
    (h : principal.tenant = some tenant) {f : Unit → FleetProg β} :
    AddressesOnly own (assertTenant principal derId >>= f) db ↔
      ((∀ der, db.der? derId = some der → der.tenantId = tenant) →
        AddressesOnly own (f ()) db) := by
  rw [assertTenant, h, Prog.bind_assoc]
  refine (publishesOnly_query (q := .inr (.der derId)) trivial rfl).trans ?_
  refine publishesOnly_raiseIf.trans ?_
  change (¬ (db.der? derId).any (fun r => r.tenantId ≠ tenant) = true → _) ↔ _
  cases hder : db.der? derId with
  | none => simp
  | some der => simp

theorem derDispatch_addresses {derId commandType tenant : String} {principal : Principal}
    (h : principal.tenant = some tenant) :
    AddressesOnly own (derDispatch derId commandType principal) db ↔
      ∀ der, db.der? derId = some der → der.controllable = true → der.tenantId = tenant →
        db.Takes derId commandType → own derId := by
  refine (publishesOnly_query (q := .inr (.der derId)) trivial rfl).trans ?_
  cases hder : db.der? derId with
  | none => simp [fleetExec, hder]
  | some der =>
      simp only [fleetExec, hder, Option.some.injEq, forall_eq', ← Bool.not_eq_false]
      refine publishesOnly_raiseIf.trans (imp_congr_right fun _ => ?_)
      refine (assertTenant_addresses h).trans ?_
      simp only [hder, Option.some.injEq, forall_eq', addressesOnly_dispatch]

theorem curtailment_addresses {derId tenant : String} {principal : Principal}
    (h : principal.tenant = some tenant) :
    AddressesOnly own (curtailment derId principal) db ↔
      ∀ der, db.der? derId = some der → ∀ commandType parameter,
        curtailMap.get? der.derType.text = some (commandType, parameter) →
          der.tenantId = tenant → db.Takes derId commandType → own derId := by
  refine (publishesOnly_query (q := .inr (.der derId)) trivial rfl).trans ?_
  cases hder : db.der? derId with
  | none => simp [fleetExec, hder]
  | some der =>
      simp only [fleetExec, hder, Option.some.injEq, forall_eq']
      cases hmap : curtailMap.get? der.derType.text with
      | none => simp
      | some entry =>
          obtain ⟨commandType, parameter⟩ := entry
          refine (assertTenant_addresses h).trans ?_
          simp only [hder, Option.some.injEq, forall_eq', addressesOnly_dispatch, Prod.mk.injEq]
          exact ⟨fun hown _ _ hentry => hentry.1 ▸ hown, fun hown => hown _ _ ⟨rfl, rfl⟩⟩

/-! ### DERMS operations -/

/-- A cache that fails, then no state of charge, is always possible. -/
theorem addressesOnly_batterySoc {deviceId : String} {f : Option ℚ → FleetProg β} {P : Prop}
    (hall : ∀ soc, P → AddressesOnly own (f soc) db)
    (hnone : AddressesOnly own (f none) db → P) :
    AddressesOnly own (batterySoc deviceId >>= f) db ↔ P := by
  constructor
  · intro h
    rw [batterySoc, Prog.bind_assoc] at h
    have hstate := (h db rfl { fails := some "" } trivial).2
    exact hnone (hstate _ rfl {} trivial).2
  · intro hP
    rw [batterySoc, Prog.bind_assoc]
    have hmissed :
        AddressesOnly own ((Sql.stateFromDb deviceId >>= fun _ => pure none) >>= f) db := by
      rw [Prog.bind_assoc]
      exact (publishesOnly_query (q := .inr (.stateFromDb deviceId)) trivial rfl).mpr (hall none hP)
    rintro _ rfl c -
    refine ⟨fun _ hmsg => absurd hmsg List.not_mem_nil, ?_⟩
    rw [fleetSem]
    cases c.fails with
    | some m => exact hmissed
    | none =>
        dsimp only [fleetExec]
        cases db.cachedStates.get? deviceId with
        | some soc => exact hall soc hP
        | none => exact hmissed

theorem executeDermsCommand_publishes {requestType commandType : String} {device : DeviceRow}
    {P : Prop} (hgood : ∀ msg : Command, msg.deviceId = device.deviceId →
      msg.commandType = commandType → (good msg ↔ P)) :
    PublishesOnly good (executeDermsCommand requestType device commandType) db ↔
      (db.Takes device.deviceId commandType → P) := by
  have hsilent (q : FleetStmt) : Silent (.inr q) := fun _ h => nomatch h
  rw [executeDermsCommand, Prog.inl_call]
  refine publishesOnly_write (q := .inl .uuid4) (fun _ h => nomatch h) ⟨_, rfl⟩
    fun c requestId => ?_
  refine publishesOnly_write (hsilent _) ⟨_, rfl⟩ fun c' _ => ?_
  refine (publishesOnly_attempt_silent fun e => ?_).trans
    ((publishesOnly_bind_silent fun _ => ?_).trans ((publishesOnly_dispatch hgood).trans ?_))
  · split
    · exact ((Prog.issues_call _).mpr (hsilent _)).bind fun _ => trivial
    · trivial
  · exact ((Prog.issues_call _).mpr (hsilent _)).bind fun _ => trivial
  · rw [takes_sem, takes_sem]

theorem executeDermsCommand_addresses {requestType commandType : String} {device : DeviceRow} :
    AddressesOnly own (executeDermsCommand requestType device commandType) db ↔
      (db.Takes device.deviceId commandType → own device.deviceId) :=
  executeDermsCommand_publishes fun _ hid _ => by rw [hid]

/-- The commands that are a battery's own. -/
def batteryCommands : List String := ["charge", "discharge", "idle"]

theorem rejected_battery {deviceType commandType : String} (h : commandType ∈ batteryCommands) :
    Rejected deviceType commandType ↔ Rejected deviceType "discharge" := by
  have htable : ∀ entry ∈ allowedCommands, ∀ command ∈ batteryCommands,
      (command ∈ entry.2 ↔ "discharge" ∈ entry.2) := by
    decide
  refine exists_congr fun allowed => and_congr_right fun hallowed => ?_
  exact not_congr (htable _ (Dict.mem_of_get? hallowed) commandType h)

theorem takes_battery {deviceId commandType : String} (h : commandType ∈ batteryCommands) :
    db.Takes deviceId commandType ↔ db.Takes deviceId "discharge" :=
  exists_congr fun _ => and_congr_right fun _ => not_congr (rejected_battery h)

/-- The battery of a dispatch, as far as the request names one. -/
def FleetDb.batteryFor (db : FleetDb) (deviceId siteName : Option String) : Option DeviceRow :=
  match given deviceId with
  | some d => (db.device? d).filter fun device => device.deviceType = "battery"
  | none => db.newestOnline "battery" siteName

/-- Whatever the state of charge says, a battery is sent one of its own
commands. -/
theorem batteryCommand_addresses {requestType : String} {battery : DeviceRow}
    {command : Option ℚ → String} (h : ∀ soc, command soc ∈ batteryCommands) :
    AddressesOnly own (batterySoc battery.deviceId >>= fun soc =>
        executeDermsCommand requestType battery (command soc)) db ↔
      (db.Takes battery.deviceId "discharge" → own battery.deviceId) := by
  have hsoc (soc : Option ℚ) :
      AddressesOnly own (executeDermsCommand requestType battery (command soc)) db ↔
        (db.Takes battery.deviceId "discharge" → own battery.deviceId) := by
    rw [executeDermsCommand_addresses, takes_battery (h soc)]
  exact addressesOnly_batterySoc (fun soc => (hsoc soc).mpr) (hsoc none).mp

theorem dispatchedBattery_plain (deviceId siteName : Option String) :
    (dispatchedBattery deviceId siteName).Plain Reads := by
  unfold dispatchedBattery
  split
  · refine (Prog.plain_call trivial).bind fun found => ?_
    cases found with
    | none => trivial
    | some device => exact (Prog.plain_raiseIf _ _).bind fun _ => trivial
  · refine (Prog.plain_call trivial).bind fun found => ?_
    cases found <;> trivial

theorem dispatchedBattery_run {deviceId siteName : Option String} {battery : DeviceRow} :
    ((dispatchedBattery deviceId siteName).run (fleetSem {}) db).1 = .ok battery ↔
      db.batteryFor deviceId siteName = some battery := by
  rw [dispatchedBattery, FleetDb.batteryFor]
  cases given deviceId with
  | some d =>
      have hanswer : (Sql.device d).run (fleetSem {}) db = (.ok (db.device? d), db) := rfl
      rw [Prog.run_bind, hanswer]
      dsimp only
      cases db.device? d with
      | none => simp
      | some device =>
          simp only [Prog.run_bind, Prog.run_raiseIf, Option.filter_some, decide_eq_true_eq, ne_eq]
          split_ifs <;> simp
  | none =>
      have hanswer : (Sql.newestOnline "battery" siteName).run (fleetSem {}) db =
        (.ok (db.newestOnline "battery" siteName), db) := rfl
      rw [Prog.run_bind, hanswer]
      cases db.newestOnline "battery" siteName <;> simp

theorem batteryDispatch_addresses {deviceId siteName : Option String} {targetSoc : ℚ} :
    AddressesOnly own (batteryDispatch deviceId siteName targetSoc) db ↔
      ∀ battery, db.batteryFor deviceId siteName = some battery →
        db.Takes battery.deviceId "discharge" → own battery.deviceId := by
  refine (publishesOnly_reads (dispatchedBattery_plain ..)).trans (forall_congr' fun battery => ?_)
  refine imp_congr dispatchedBattery_run (batteryCommand_addresses fun soc => ?_)
  split_ifs <;> simp [batteryCommands]

theorem dischargeAbove25_addresses {requestType detail : String} {battery : DeviceRow}
    {current : Option ℚ → ℚ} (h : current none = 50) :
    AddressesOnly own (dischargeAbove25 requestType detail battery current) db ↔
      (db.Takes battery.deviceId "discharge" → own battery.deviceId) := by
  refine addressesOnly_batterySoc (fun soc hown => ?_) fun hnone => ?_
  · exact publishesOnly_raiseIf.mpr fun _ => executeDermsCommand_addresses.mpr hown
  · refine executeDermsCommand_addresses.mp (publishesOnly_raiseIf.mp hnone ?_)
    rw [h]
    norm_num

theorem peakShaving_addresses {siteName : Option String} :
    AddressesOnly own (peakShaving siteName) db ↔
      ∀ battery, db.newestOnline "battery" siteName = some battery →
        db.Takes battery.deviceId "discharge" → own battery.deviceId := by
  refine (publishesOnly_query (q := .inr (.newestOnline "battery" siteName)) trivial rfl).trans ?_
  cases hbattery : db.newestOnline "battery" siteName with
  | none => simp [fleetExec, hbattery]
  | some battery =>
      simp only [fleetExec, hbattery, Option.some.injEq, forall_eq']
      exact dischargeAbove25_addresses rfl

theorem demandResponse_addresses {siteName : Option String} :
    AddressesOnly own (demandResponse siteName) db ↔
      (∀ battery, db.newestOnline "battery" siteName = some battery →
        db.Takes battery.deviceId "discharge" → own battery.deviceId) ∧
      (db.newestOnline "battery" siteName = none →
        ∀ charger, db.newestOnline "ev_charger" siteName = some charger →
          db.Takes charger.deviceId "stop_charging" → own charger.deviceId) := by
  refine (publishesOnly_query (q := .inr (.newestOnline "battery" siteName)) trivial rfl).trans ?_
  cases hbattery : db.newestOnline "battery" siteName with
  | some battery =>
      simp only [fleetExec, hbattery, Option.some.injEq, forall_eq', reduceCtorEq, false_implies,
        and_true]
      exact dischargeAbove25_addresses rfl
  | none =>
      simp only [fleetExec, hbattery, reduceCtorEq, false_implies, implies_true, forall_const,
        true_and]
      refine (publishesOnly_query (q := .inr (.newestOnline "ev_charger" siteName)) trivial
        rfl).trans ?_
      cases hcharger : db.newestOnline "ev_charger" siteName with
      | none => simp [fleetExec, hcharger]
      | some charger =>
          simp only [fleetExec, hcharger, Option.some.injEq, forall_eq']
          exact executeDermsCommand_addresses

theorem loadOptimization_addresses {siteName : Option String} {objective : String} :
    AddressesOnly own (loadOptimization siteName objective) db ↔
      ∀ battery, db.newestOnline "battery" siteName = some battery →
        db.Takes battery.deviceId "discharge" → own battery.deviceId := by
  refine (publishesOnly_query (q := .inr (.newestOnline "battery" siteName)) trivial rfl).trans ?_
  cases hbattery : db.newestOnline "battery" siteName with
  | none => simp [fleetExec, hbattery]
  | some battery =>
      simp only [fleetExec, hbattery, Option.some.injEq, forall_eq']
      refine batteryCommand_addresses fun soc => ?_
      unfold optimizationCommand
      split_ifs <;> simp [batteryCommands]

end DiepLab.Fleet
