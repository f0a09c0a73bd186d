import DiepLab.Fleet.Addressees
import DiepLab.Grid.Radial

/-!
Which batteries are discharged.

The four DERMS operations that can discharge a battery read its state of charge
from the twin in Redis or, where Redis holds none, from `_state_from_db`. Each
has its own idea of the least charge. A state of charge that is not found counts
as half full; so does, for demand response and load optimisation, one of zero,
and so does every one in the database, where the operations look in the wrong
place (`get?_stateFromDb`).

`discharges_within_iff` says that a battery whose state of charge is known is
discharged within the limits unless it is taken for half full and half full is
too much.
-/

namespace DiepLab.Fleet

open StatementProgram

/-! ### Where the state of charge is -/

/-- A row of `telemetry`, as far as the operations are concerned. -/
structure LatestTelemetry where
  batterySoc : Option ℚ
  deriving DecidableEq, Repr

inductive StateValue where
  | text (s : Option String)
  | telemetry (row : Option LatestTelemetry)
  | command (commandType : Option String)
  deriving DecidableEq, Repr

/-- `_state_from_db`. -/
def stateFromDb (deviceId : String) (device : DeviceRow) (location : Option String)
    (telemetry : Option LatestTelemetry) (command : Option String) : Dict StateValue := [
  ("device_id", .text (some deviceId)),
  ("device_type", .text (some device.deviceType)),
  ("status", .text (some device.status)),
  ("site_name", .text device.siteName),
  ("location", .text location),
  ("last_telemetry", .telemetry telemetry),
  ("last_command", .command command)]

/-- The reading is there, but not under the key that the operations ask for. -/
theorem get?_stateFromDb (deviceId : String) (device : DeviceRow) (location : Option String)
    (telemetry : Option LatestTelemetry) (command : Option String) :
    (stateFromDb deviceId device location telemetry command).get? "battery_soc" = none ∧
      (stateFromDb deviceId device location telemetry command).get? "last_telemetry" =
        some (.telemetry telemetry) :=
  ⟨rfl, rfl⟩

/-- The twin that Redis holds of a device, if Redis answers. -/
def FleetDb.twin (redis : Bool) (db : FleetDb) (deviceId : String) : Option (Option ℚ) :=
  if redis then db.cachedStates.get? deviceId else none

/-- The state of charge that the twin or else the latest reading of a device
says. -/
def knownSoc (redis : Bool) (db : FleetDb) (telemetry : String → Option LatestTelemetry)
    (deviceId : String) : Option ℚ :=
  match db.twin redis deviceId with
  | some soc => soc
  | none => (telemetry deviceId).bind LatestTelemetry.batterySoc

/-! ### The operations -/

inductive BatteryRequest where
  /-- `POST /derms/battery_dispatch`. -/
  | batteryDispatch (deviceId siteName : Option String) (targetSoc : ℚ)
  /-- `POST /derms/peak_shaving`. -/
  | peakShaving (siteName : Option String)
  /-- `POST /derms/demand_response`. -/
  | demandResponse (siteName : Option String)
  /-- `POST /derms/load_optimization`. -/
  | loadOptimization (siteName : Option String) (objective : String)

namespace BatteryRequest

def serve : BatteryRequest → FleetProg String
  | .batteryDispatch d site targetSoc => Fleet.batteryDispatch d site targetSoc
  | .peakShaving site => Fleet.peakShaving site
  | .demandResponse site => Fleet.demandResponse site
  | .loadOptimization site objective => Fleet.loadOptimization site objective

/-- The battery that a request commands. -/
def battery (db : FleetDb) : BatteryRequest → Option DeviceRow
  | .batteryDispatch d site _ => db.batteryFor d site
  | .peakShaving site => db.newestOnline "battery" site
  | .demandResponse site => db.newestOnline "battery" site
  | .loadOptimization site _ => db.newestOnline "battery" site

/-- The states of charge at which a request may discharge. -/
def Allows (soc : ℚ) : BatteryRequest → Prop
  | .batteryDispatch _ _ targetSoc => targetSoc < soc
  | .peakShaving _ => 25 ≤ soc
  | .demandResponse _ => 25 ≤ soc
  | .loadOptimization _ objective => if objective.toLower = "min_cost" then 50 ≤ soc else 60 ≤ soc

instance (soc : ℚ) (request : BatteryRequest) : Decidable (request.Allows soc) := by
  cases request <;> unfold Allows <;> infer_instance

/-- The two operations that write `or` for a value that is not there. -/
def MissesZero : BatteryRequest → Prop
  | .demandResponse _ => True
  | .loadOptimization .. => True
  | _ => False

/-- The battery is taken for half full: its state comes from the database, or
it is empty and the request takes zero for nothing. -/
def TakesForHalfFull (twin : Option (Option ℚ)) (soc : ℚ) (request : BatteryRequest) : Prop :=
  twin = none ∨ soc = 0 ∧ request.MissesZero

/-- To take a battery for half full does not discharge it below the limit. -/
def HalfFullHarmless (soc : ℚ) : BatteryRequest → Prop
  | .batteryDispatch _ _ targetSoc => targetSoc < 50 → targetSoc < soc
  | .peakShaving _ => 25 ≤ soc
  | .demandResponse _ => 25 ≤ soc
  | .loadOptimization _ objective => objective.toLower = "min_cost" → 50 ≤ soc

end BatteryRequest

/-! ### Runs -/

/-- The fleet, with a cache that answers every request or none. A request asks
it once. -/
def twinSem (redis : Bool) (c : FleetChoice) :
    (q : GridStmt ⊕ FleetStmt) → FleetDb → Except Exc (FleetResp q) × FleetDb
  | .inr (.cachedState d), db =>
      (if redis then .ok (db.cachedStates.get? d) else .error (.other "redis"), db)
  | q, db => fleetSem c q db

def twinOutput (redis : Bool) : Output (twinSem redis) Command where
  log := FleetDb.topic
  said c q _ := published c q
  log_sem := by
    intro c q db
    unfold twinSem
    split
    · exact (List.append_nil _).symm
    · exact fleetOutput.log_sem c _ db

/-- The commands that a request publishes when it runs alone. -/
def BatteryRequest.commands (redis : Bool) (db : FleetDb) (request : BatteryRequest)
    (choices : ℕ → FleetChoice) : List Command :=
  ((request.serve.run (withChoices (twinSem redis)) (db, choices)).2.1.topic).drop db.topic.length

/-- Every other statement is as it was. -/
def AsksNoCache (q : GridStmt ⊕ FleetStmt) : Prop := ∀ d, q ≠ .inr (.cachedState d)

theorem twinSem_eq {q : GridStmt ⊕ FleetStmt} (hq : AsksNoCache q) (redis : Bool)
    (c : FleetChoice) (db : FleetDb) : twinSem redis c q db = fleetSem c q db := by
  unfold twinSem
  split
  · rename_i d
    exact absurd rfl (hq d)
  · rfl

theorem Reads.asksNoCache {q : GridStmt ⊕ FleetStmt} (hq : Reads q) : AsksNoCache q := by
  rintro d rfl
  exact hq

/-! ### Rules -/

section Rules

variable {α β : Type} {redis : Bool} {good : Command → Prop} {db : FleetDb}

theorem twin_reads {p : FleetProg α} {f : α → FleetProg β} (hp : p.Plain Reads) :
    SaysOnly (twinOutput redis) good (p >>= f) db ↔
      ∀ a, (p.run (fleetSem {}) db).1 = .ok a → SaysOnly (twinOutput redis) good (f a) db := by
  rw [← hp.run_congr fun q s hq => twinSem_eq hq.asksNoCache redis {} s]
  refine (wp_bind ..).trans (wp_plain ({} : FleetChoice) (fun c q s hq msg hmsg => ?_)
    (fun c q s hq => ?_) (fun q s hq => ?_) hp fun _ _ => trivial)
  · change msg ∈ published c q at hmsg
    rw [published_silent hq.silent c] at hmsg
    exact absurd hmsg List.not_mem_nil
  · rw [twinSem_eq hq.asksNoCache, twinSem_eq hq.asksNoCache]
    exact fleetSem_steady c hq s
  · rw [twinSem_eq hq.asksNoCache]
    exact fleetSem_calm hq s

theorem twin_query {q : GridStmt ⊕ FleetStmt} (hq : Reads q) {a : FleetResp q}
    (ha : (fleetSem {} q db).1 = .ok a) {f : FleetResp q → FleetProg β} :
    SaysOnly (twinOutput redis) good ((Prog.call q : FleetProg (FleetResp q)) >>= f) db ↔
      SaysOnly (twinOutput redis) good (f a) db := by
  refine (twin_reads (Prog.plain_call hq)).trans ?_
  rw [Prog.run_call, ha]
  simp only [Except.ok.injEq, forall_eq']

theorem twin_raiseIf {c : Prop} [Decidable c] {e : Exc} {f : Unit → FleetProg β} :
    SaysOnly (twinOutput redis) good (Prog.raiseIf c e >>= f) db ↔
      (¬ c → SaysOnly (twinOutput redis) good (f ()) db) := by
  refine (wp_bind ..).trans ((wp_raiseIf ..).trans ?_)
  exact and_iff_right fun _ => trivial

/-- The cache answers or it does not; in the database nothing is found. -/
theorem twin_batterySoc {deviceId : String} {f : Option ℚ → FleetProg β} :
    SaysOnly (twinOutput redis) good (batterySoc deviceId >>= f) db ↔
      SaysOnly (twinOutput redis) good (f (db.twin redis deviceId).join) db := by
  have hrest (cached : Option (Option ℚ)) :
      SaysOnly (twinOutput redis) good ((match cached with
        | some soc => pure soc
        | none => Sql.stateFromDb deviceId >>= fun _ => pure none) >>= f) db ↔
        SaysOnly (twinOutput redis) good (f cached.join) db := by
    cases cached with
    | some soc => exact Iff.rfl
    | none =>
        rw [Prog.bind_assoc]
        exact twin_query (q := .inr (.stateFromDb deviceId)) trivial rfl
  rw [batterySoc, Prog.bind_assoc, ← hrest]
  refine (wp_bind ..).trans ((wp_attempt ..).trans (wp_alone_call.trans ?_))
  have hsilent (c : FleetChoice) :
      (twinOutput redis).needs good c (.inr (.cachedState deviceId)) db :=
    fun _ hmsg => absurd hmsg List.not_mem_nil
  refine ⟨fun h => ?_, fun h c => ⟨hsilent c, ?_⟩⟩
  · have hthis := (h {}).2
    cases redis <;> exact hthis
  · cases redis <;> exact h

theorem executeDermsCommand_asksNoCache (requestType commandType : String) (device : DeviceRow) :
    (executeDermsCommand requestType device commandType).Issues AsksNoCache := by
  have hcall {q : GridStmt ⊕ FleetStmt} (hq : AsksNoCache q) :
      (Prog.call q : FleetProg (FleetResp q)).Issues AsksNoCache := (Prog.issues_call _).mpr hq
  have hdispatch : (dispatch device.deviceId commandType "derms").Issues AsksNoCache :=
    (dispatchCommand_publishes ..).inl fun _ _ _ h => by cases h
  rw [executeDermsCommand, Prog.inl_call]
  refine Prog.Issues.bind (hcall (q := .inl .uuid4) fun _ h => by cases h) fun requestId => ?_
  refine Prog.Issues.bind (hcall fun _ h => by cases h) fun _ => ?_
  refine Prog.Issues.attempt ?_ fun e => ?_
  · exact hdispatch.bind fun _ => Prog.Issues.bind (hcall fun _ h => by cases h) fun _ => trivial
  · split
    · exact Prog.Issues.bind (hcall fun _ h => by cases h) fun _ => trivial
    · trivial

variable {P : Prop}

/-- Only a command to discharge has to meet the limit. -/
theorem executeDermsCommand_discharges {requestType commandType : String} {device : DeviceRow} :
    SaysOnly (twinOutput redis) (fun msg => msg.commandType = "discharge" → P)
        (executeDermsCommand requestType device commandType) db ↔
      (commandType = "discharge" → db.Takes device.deviceId "discharge" → P) := by
  have hcongr := (executeDermsCommand_asksNoCache requestType commandType device).mono
    fun q hq c db => (⟨twinSem_eq hq redis c db, rfl⟩ :
      twinSem redis c q db = fleetSem c q db ∧
        (twinOutput redis).said c q db = fleetOutput.said c q db)
  refine (saysOnly_congr hcongr).trans ?_
  refine (executeDermsCommand_publishes (P := commandType = "discharge" → P)
    fun msg _ htype => by rw [htype]).trans ?_
  constructor
  · rintro h rfl htakes
    exact h htakes rfl
  · rintro h htakes rfl
    exact h rfl htakes

end Rules

/-! ### When a battery is discharged -/

namespace BatteryRequest

/-- The request discharges a battery whose state says this. -/
def Discharges (said : Option ℚ) : BatteryRequest → Prop
  | .batteryDispatch _ _ targetSoc => targetSoc < said.getD 50
  | .peakShaving _ => 25 ≤ said.getD 50
  | .demandResponse _ => 25 ≤ socOr50 said
  | .loadOptimization _ objective => optimizationCommand objective (socOr50 said) = "discharge"

variable {redis : Bool} {db : FleetDb} {request : BatteryRequest} {P : Prop}

theorem dischargeAbove25_discharges {requestType detail : String} {battery : DeviceRow}
    {current : Option ℚ → ℚ} :
    SaysOnly (twinOutput redis) (fun msg => msg.commandType = "discharge" → P)
        (dischargeAbove25 requestType detail battery current) db ↔
      (25 ≤ current (db.twin redis battery.deviceId).join →
        db.Takes battery.deviceId "discharge" → P) := by
  refine twin_batterySoc.trans (twin_raiseIf.trans ?_)
  rw [executeDermsCommand_discharges, not_lt]
  exact imp_congr_right fun _ => imp_iff_right rfl

theorem batteryDispatch_discharges {deviceId siteName : Option String} {targetSoc : ℚ} :
    SaysOnly (twinOutput redis) (fun msg => msg.commandType = "discharge" → P)
        (Fleet.batteryDispatch deviceId siteName targetSoc) db ↔
      ∀ battery, db.batteryFor deviceId siteName = some battery →
        targetSoc < (db.twin redis battery.deviceId).join.getD 50 →
          db.Takes battery.deviceId "discharge" → P := by
  refine (twin_reads (dispatchedBattery_plain ..)).trans (forall_congr' fun battery => ?_)
  refine imp_congr dispatchedBattery_run (twin_batterySoc.trans ?_)
  refine executeDermsCommand_discharges.trans (imp_congr_left ?_)
  generalize (db.twin redis battery.deviceId).join.getD 50 = current
  split_ifs with hlow hhigh
  · exact iff_of_false (by decide) hlow.not_gt
  · exact iff_of_true rfl hhigh
  · exact iff_of_false (by decide) hhigh

/-- What a request publishes, battery by battery. -/
theorem serve_discharges :
    SaysOnly (twinOutput redis) (fun msg => msg.commandType = "discharge" → P) request.serve db ↔
      ∀ battery, request.battery db = some battery →
        request.Discharges (db.twin redis battery.deviceId).join →
          db.Takes battery.deviceId "discharge" → P := by
  cases request with
  | batteryDispatch deviceId siteName targetSoc => exact batteryDispatch_discharges
  | peakShaving siteName =>
      refine (twin_query (q := .inr (.newestOnline "battery" siteName)) trivial rfl).trans ?_
      cases hbattery : db.newestOnline "battery" siteName with
      | none => simp [fleetExec, hbattery, battery, SaysOnly]
      | some battery =>
          simp only [fleetExec, hbattery, BatteryRequest.battery, Option.some.injEq, forall_eq']
          exact dischargeAbove25_discharges
  | demandResponse siteName =>
      refine (twin_query (q := .inr (.newestOnline "battery" siteName)) trivial rfl).trans ?_
      cases hbattery : db.newestOnline "battery" siteName with
      | some battery =>
          simp only [fleetExec, hbattery, BatteryRequest.battery, Option.some.injEq, forall_eq']
          exact dischargeAbove25_discharges
      | none =>
          simp only [fleetExec, hbattery, BatteryRequest.battery]
          refine iff_of_true ?_ fun _ h => by cases h
          refine (twin_query (q := .inr (.newestOnline "ev_charger" siteName)) trivial rfl).mpr ?_
          cases hcharger : db.newestOnline "ev_charger" siteName with
          | none =>
              simp only [fleetExec, hcharger]
              trivial
          | some charger =>
              simp only [fleetExec, hcharger]
              exact executeDermsCommand_discharges.mpr fun h => absurd h (by decide)
  | loadOptimization siteName objective =>
      refine (twin_query (q := .inr (.newestOnline "battery" siteName)) trivial rfl).trans ?_
      cases hbattery : db.newestOnline "battery" siteName with
      | none => simp [fleetExec, hbattery, battery, SaysOnly]
      | some battery =>
          simp only [fleetExec, hbattery, BatteryRequest.battery, Option.some.injEq, forall_eq']
          exact twin_batterySoc.trans executeDermsCommand_discharges

theorem optimizationCommand_eq_discharge {objective : String} {current : ℚ} :
    optimizationCommand objective current = "discharge" ↔
      objective.toLower ≠ "maximize_solar" ∧
        if objective.toLower = "min_cost" then 50 ≤ current else 60 ≤ current := by
  unfold optimizationCommand
  split_ifs with hsolar hcost hlow hlow <;> simp_all

/-- What a request does with a battery of which it is told nothing. -/
theorem discharges_none {soc : ℚ} :
    (request.Discharges none → request.Allows soc) ↔ request.HalfFullHarmless soc := by
  cases request with
  | batteryDispatch deviceId siteName targetSoc => exact Iff.rfl
  | peakShaving siteName => exact imp_iff_right (by norm_num [Discharges])
  | demandResponse siteName => exact imp_iff_right (by norm_num [Discharges, socOr50])
  | loadOptimization siteName objective =>
      simp only [Discharges, Allows, HalfFullHarmless, socOr50, optimizationCommand_eq_discharge]
      by_cases hcost : objective.toLower = "min_cost"
      · simp [hcost]
      · norm_num [hcost]

/-- A state of charge that is taken for what it is meets the limit. -/
theorem allows_of_discharges {soc : ℚ} (h : ¬ (soc = 0 ∧ request.MissesZero))
    (hdischarges : request.Discharges (some soc)) : request.Allows soc := by
  have hsoc (hmisses : request.MissesZero) : socOr50 (some soc) = soc := by
    have hne : soc ≠ 0 := fun h0 => h ⟨h0, hmisses⟩
    simp [socOr50, Option.filter_some, hne]
  cases request with
  | batteryDispatch deviceId siteName targetSoc => exact hdischarges
  | peakShaving siteName => exact hdischarges
  | demandResponse siteName =>
      rw [Discharges, hsoc trivial] at hdischarges
      exact hdischarges
  | loadOptimization siteName objective =>
      rw [Discharges, hsoc trivial, optimizationCommand_eq_discharge] at hdischarges
      exact hdischarges.2

/-- An empty battery is taken for half full. -/
theorem discharges_zero (h : request.MissesZero) :
    request.Discharges (some 0) ↔ request.Discharges none := by
  cases request with
  | demandResponse siteName => exact Iff.rfl
  | loadOptimization siteName objective => exact Iff.rfl
  | _ => exact h.elim

end BatteryRequest

/-- **Discharges within the limits.** Whatever fails on the way, a battery whose
state of charge is known from the twin or the database is sent a command to
discharge within the limit of the request only, if and only if, when it takes
the command, it is not taken for half full where that exceeds the limit. -/
theorem discharges_within_iff (redis : Bool) (db : FleetDb)
    (telemetry : String → Option LatestTelemetry) (request : BatteryRequest)
    (battery : DeviceRow) (soc : ℚ) (hbattery : request.battery db = some battery)
    (hknown : knownSoc redis db telemetry battery.deviceId = some soc) :
    (∀ choices, ∀ msg ∈ request.commands redis db choices,
        msg.commandType = "discharge" → request.Allows soc) ↔
      (db.Takes battery.deviceId "discharge" →
        request.TakesForHalfFull (db.twin redis battery.deviceId) soc →
          request.HalfFullHarmless soc) := by
  have hpublished : SaysOnly (twinOutput redis)
      (fun msg => msg.commandType = "discharge" → request.Allows soc) request.serve db ↔ _ :=
    saysOnly_iff request.serve db
  refine hpublished.symm.trans (BatteryRequest.serve_discharges.trans ?_)
  simp only [hbattery, Option.some.injEq, forall_eq']
  rw [← BatteryRequest.discharges_none]
  cases htwin : db.twin redis battery.deviceId with
  | none => exact ⟨fun h ht _ hd => h hd ht, fun h hd ht => h ht (Or.inl rfl) hd⟩
  | some said =>
      rw [knownSoc, htwin] at hknown
      obtain rfl : said = some soc := hknown
      constructor
      · rintro h htakes (hnone | ⟨rfl, hmisses⟩) hdischarges
        · exact nomatch hnone
        · exact h ((BatteryRequest.discharges_zero hmisses).mpr hdischarges) htakes
      · intro h hdischarges htakes
        by_cases hzero : soc = 0 ∧ request.MissesZero
        · refine h htakes (Or.inr hzero) ?_
          obtain ⟨rfl, hmisses⟩ := hzero
          exact (BatteryRequest.discharges_zero hmisses).mp hdischarges
        · exact BatteryRequest.allows_of_discharges hzero hdischarges

/-- One battery that is online, and what Redis holds of it. -/
def oneBattery (cachedStates : Dict (Option ℚ)) : FleetDb where
  grid := { network := pilot, devices := [⟨"bat-1", "battery"⟩] }
  columns := fun _ => { status := "ONLINE" }
  cachedStates := cachedStates

/-- A battery at 80 percent. -/
theorem discharged_at_80 :
    (∀ choices, ∀ msg ∈ (BatteryRequest.peakShaving none).commands true
        (oneBattery [("bat-1", some 80)]) choices,
      msg.commandType = "discharge" → (BatteryRequest.peakShaving none).Allows 80) ↔
      ((oneBattery [("bat-1", some 80)]).Takes "bat-1" "discharge" →
        (BatteryRequest.peakShaving none).TakesForHalfFull
          ((oneBattery [("bat-1", some 80)]).twin true "bat-1") 80 →
          (BatteryRequest.peakShaving none).HalfFullHarmless 80) :=
  discharges_within_iff true (oneBattery [("bat-1", some 80)]) (fun _ => none) (.peakShaving none)
    ⟨⟨"bat-1", "battery"⟩, { status := "ONLINE" }⟩ 80 (by decide +kernel) (by decide +kernel)

/-- Demand response discharges a battery that the twin says is empty, and peak
shaving one that the database says is at 10 percent. -/
theorem empty_battery_discharged :
    (knownSoc true (oneBattery [("bat-1", some 0)]) (fun _ => none) "bat-1" = some 0 ∧
      ¬ ∀ choices, ∀ msg ∈ (BatteryRequest.demandResponse none).commands true
          (oneBattery [("bat-1", some 0)]) choices,
        msg.commandType = "discharge" → (BatteryRequest.demandResponse none).Allows 0) ∧
    (knownSoc true (oneBattery []) (fun _ => some ⟨some 10⟩) "bat-1" = some 10 ∧
      ¬ ∀ choices, ∀ msg ∈ (BatteryRequest.peakShaving none).commands true
          (oneBattery []) choices,
        msg.commandType = "discharge" → (BatteryRequest.peakShaving none).Allows 10) := by
  refine ⟨⟨by decide +kernel, fun h => ?_⟩, ⟨by decide +kernel, fun h => ?_⟩⟩
  · have hmsg := h (fun _ => {}) ⟨"", "bat-1", "battery", "discharge", "derms", .PENDING, none⟩
      (by decide +kernel) rfl
    revert hmsg
    decide +kernel
  · have hmsg := h (fun _ => {}) ⟨"", "bat-1", "battery", "discharge", "derms", .PENDING, none⟩
      (by decide +kernel) rfl
    revert hmsg
    decide +kernel

end DiepLab.Fleet
