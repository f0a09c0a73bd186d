import DiepLab.Oms.Detection

/-!
What a sweep reads.

The network model, the devices and their telemetry do not change during a
sweep, so every read is a function of the model. `run_*` says so for each of the
reading routines, run alone without faults; `OmsDb.signals` lists what a sweep
finds to be out, and `get?_groups` describes the groups made of it.
-/

namespace DiepLab.Oms

open StatementProgram

/-- What the surroundings contribute to a sweep that runs alone: identifiers that
are fresh and the time. -/
structure Moment where
  uuid4 : OmsDb → String
  fresh : ∀ db, uuid4 db ∉ db.caseIds
  now : ℕ

/-- Execution without faults and without interference. -/
def alone (w : Moment) (q : OmsStmt) (db : OmsDb) : Except Exc (OmsResp q) × OmsDb :=
  omsSem { uuid := w.uuid4 db, now := w.now } q db

attribute [local simp] omsExec

theorem alone_eq (w : Moment) (q : OmsStmt) (db : OmsDb) :
    alone w q db = omsExec { uuid := w.uuid4 db, now := w.now } q db := by
  rw [alone, omsSem]
  cases q <;> rfl

/-! ### The walk to the section root -/

/-- The keys of the dictionary that the walk has not seen. -/
def unseen (parent : Dict (Option String)) (seen : List String) : List String :=
  (parent.map Prod.fst).filter fun k => k ∉ seen

theorem unseen_cons_lt {parent : Dict (Option String)} {seen : List String} {cur : String}
    (hkey : cur ∈ parent.map Prod.fst) (hseen : cur ∉ seen) :
    (unseen parent (cur :: seen)).length < (unseen parent seen).length := by
  have hsplit : unseen parent (cur :: seen) = (unseen parent seen).filter fun k => k ≠ cur := by
    rw [unseen, unseen, List.filter_filter]
    exact List.filter_congr fun k _ => by simp
  rw [hsplit]
  have hcur : cur ∈ unseen parent seen := List.mem_filter.mpr ⟨hkey, by simpa using hseen⟩
  refine List.length_filter_lt_length_iff_exists.mpr ⟨cur, hcur, by simp⟩

theorem climb_ends (parent : Dict (Option String)) (switchFed : List String) (fuel : ℕ)
    (seen : List String) (cur : Option String)
    (hfuel : (unseen parent seen).length + 2 ≤ fuel) :
    (climb parent switchFed fuel seen cur).isSome = true := by
  induction fuel generalizing seen cur with
  | zero => omega
  | succ fuel ih =>
      cases cur with
      | none => rfl
      | some cur =>
          rw [climb]
          by_cases hseen : cur ∈ seen
          · rw [if_pos hseen]
            rfl
          · rw [if_neg hseen]
            by_cases hfed : cur ∈ switchFed
            · rw [if_pos hfed]
              rfl
            · rw [if_neg hfed]
              by_cases hkey : cur ∈ parent.map Prod.fst
              · have hless := unseen_cons_lt hkey hseen
                exact ih _ _ (by omega)
              · rw [Dict.get?_eq_none hkey]
                cases fuel with
                | zero => omega
                | succ fuel => rfl

/-- The keys of a dictionary are among those that were written. -/
theorem length_update_le (d : Dict (Option String)) (items : List (String × Option String)) :
    (d.update items).length ≤ d.length + items.length := by
  induction items generalizing d with
  | nil => exact le_refl _
  | cons kv items ih =>
      have hset : (d.set kv.1 kv.2).length ≤ d.length + 1 := by
        have hkeys := congrArg List.length (Dict.map_fst_set d kv.1 kv.2)
        rw [List.length_map] at hkeys
        rw [hkeys]
        split
        · rw [List.length_map]
          omega
        · rw [List.length_append, List.length_map, List.length_singleton]
      have hrest := ih (d.set kv.1 kv.2)
      rw [List.length_cons]
      refine le_trans (b := (d.set kv.1 kv.2).length + items.length) hrest ?_
      omega

/-- The fuel of `sectionRootOf` lasts to the end of the walk. -/
theorem sectionRoot_ends (parents : List (String × Option String)) (switchFed : List String)
    (nodeId : String) :
    (climb (Dict.update [] parents) switchFed (parents.length + 2) [] (some nodeId)).isSome =
      true := by
  refine climb_ends _ _ _ _ _ ?_
  have hle : (unseen (Dict.update [] parents) []).length ≤ (Dict.update [] parents).length :=
    (List.length_filter_le _ _).trans (List.length_map _).le
  have hupdate := length_update_le [] parents
  rw [List.length_nil] at hupdate
  omega

theorem climb_mem {parent : Dict (Option String)} {switchFed : List String} {fuel : ℕ}
    {seen : List String} {cur : Option String} {root : String}
    (h : climb parent switchFed fuel seen cur = some (some root)) : root ∈ switchFed := by
  induction fuel generalizing seen cur with
  | zero => exact nomatch h
  | succ fuel ih =>
      cases cur with
      | none => exact nomatch h
      | some cur =>
          rw [climb] at h
          split at h
          · exact nomatch h
          · split at h
            · rename_i hfed
              injection h with h
              injection h with h
              exact h ▸ hfed
            · exact ih h

/-! ### Reads of the model -/

namespace Model

variable (m : Model) (timeout : Timeout)

def meterNode (meterDeviceId : String) : Option String :=
  match (m.nodes.find? fun n => n.deviceId = some meterDeviceId && n.nodeType = .meter).map
      NodeRow.nodeId with
  | some nodeId => some nodeId
  | none => ((m.servicePoints.find? fun sp => sp.meterDeviceId = some meterDeviceId).map
      ServicePointRow.nodeId).join

def sectionRoot (nodeId : String) : String :=
  sectionRootOf (m.nodes.map fun n => (n.nodeId, n.parentId))
    ((m.edges.filter GridEdge.isSwitchable).map GridEdge.toNode) nodeId

def sectionServicePoints (nodeId : String) : List ServicePointRow :=
  m.servicePoints.filter fun sp =>
    sp.nodeId.any (· ∈ Topology.downstreamNodeIds m.edges nodeId false)

abbrev customersAffected (nodeId : String) : ℕ := (m.sectionServicePoints nodeId).length

def namedNode (r : ReportRow) : Option String :=
  match given r.nodeId with
  | some nodeId => some nodeId
  | none => (given r.meterDeviceId).bind m.meterNode

def reportNode (r : ReportRow) : Option String :=
  match m.namedNode r, given r.customerId with
  | none, some customerId => ((m.servicePoints.find? fun sp =>
      sp.customerId = some customerId).map ServicePointRow.nodeId).join
  | mnode, _ => mnode

def rootOr (mnode : Option String) (key : String) : String :=
  match given mnode with
  | some nodeId => m.sectionRoot nodeId
  | none => key

/-- The section of a report. -/
def reportRoot (r : ReportRow) : Option String := (given (m.reportNode r)).map m.sectionRoot

def isBack (meterDeviceId : String) : Bool :=
  match m.latest meterDeviceId with
  | none => false
  | some latest => decide (upper (latest.state.getD "") ≠ "LAST_GASP" ∧ latest.age ≤ timeout)

/-- What a meter signals at the moment. -/
def outage (meterDeviceId : String) : Option Cause :=
  (m.latest meterDeviceId).bind (outageSignal timeout)

def smartMeters : List String :=
  (m.devices.filter fun d => d.deviceType = "smartmeter").map Device.deviceId

/-- `_meters_out`, from the meters that remain. -/
def metersOutFrom (meters : List String) (out : Dict Cause) : Dict Cause :=
  meters.foldl (fun out dev =>
    match m.outage timeout dev with
    | some cause => out.set dev cause
    | none => out) out

def metersOut : Dict Cause := m.metersOutFrom timeout m.smartMeters []

/-- A dark meter is not back. -/
theorem isBack_eq_false {timeout : Timeout} {dev : String} {cause : Cause}
    (h : m.outage timeout dev = some cause) : m.isBack timeout dev = false := by
  rw [outage] at h
  rw [isBack]
  cases hlatest : m.latest dev with
  | none => rfl
  | some latest =>
      rw [hlatest, Option.bind_some, outageSignal] at h
      simp only [decide_eq_false_iff_not, not_and, not_le]
      intro hgasp
      rw [if_neg hgasp] at h
      split at h
      · assumption
      · exact nomatch h

theorem get?_metersOutFrom (meters : List String) (out : Dict Cause) (dev : String) :
    (m.metersOutFrom timeout meters out).get? dev =
      if dev ∈ meters then (m.outage timeout dev).or (out.get? dev) else out.get? dev := by
  induction meters generalizing out with
  | nil => rfl
  | cons d meters ih =>
      rw [metersOutFrom, List.foldl_cons]
      refine (ih _).trans ?_
      by_cases hd : d = dev
      · subst hd
        cases hout : m.outage timeout d with
        | none => simp
        | some cause => simp [Dict.get?_set]
      · have hne : ¬ dev = d := fun h => hd h.symm
        cases hout : m.outage timeout d with
        | none => simp [hne]
        | some cause => simp [Dict.get?_set, hd, hne]

theorem nodup_metersOutFrom (meters : List String) {out : Dict Cause}
    (h : (out.map Prod.fst).Nodup) :
    ((m.metersOutFrom timeout meters out).map Prod.fst).Nodup := by
  induction meters generalizing out with
  | nil => exact h
  | cons d meters ih =>
      rw [metersOutFrom, List.foldl_cons]
      refine ih ?_
      cases m.outage timeout d with
      | none => exact h
      | some cause => exact Dict.nodup_update h [(d, cause)]

/-- The dark meters are the smart meters with a signal. -/
theorem mem_metersOut {dev : String} {cause : Cause} :
    (dev, cause) ∈ m.metersOut timeout ↔
      dev ∈ m.smartMeters ∧ m.outage timeout dev = some cause := by
  have hget := m.get?_metersOutFrom timeout m.smartMeters [] dev
  rw [Dict.get?_nil, Option.or_none] at hget
  constructor
  · intro h
    have hnodup : ((m.metersOut timeout).map Prod.fst).Nodup :=
      m.nodup_metersOutFrom timeout m.smartMeters List.nodup_nil
    have hsome := Dict.get?_of_mem hnodup h
    rw [metersOut, hget] at hsome
    split at hsome
    · exact ⟨‹_›, hsome⟩
    · exact nomatch hsome
  · rintro ⟨hdev, hout⟩
    rw [if_pos hdev, hout] at hget
    exact Dict.mem_of_get? hget

theorem meterNode_mem {dev nodeId : String} (h : m.meterNode dev = some nodeId) :
    nodeId ∈ m.nodeIds := by
  rw [meterNode] at h
  split at h
  · rename_i n hn
    injection h with h
    subst h
    obtain ⟨row, hrow, rfl⟩ := Option.map_eq_some_iff.mp hn
    exact List.mem_map_of_mem (List.mem_of_find?_eq_some hrow)
  · obtain ⟨sp, hsp, hnode⟩ := Option.map_eq_some_iff.mp (Option.join_eq_some_iff.mp h)
    exact m.servicePoint_mem sp (List.mem_of_find?_eq_some hsp) nodeId hnode

theorem reportNode_mem {r : ReportRow} (hr : m.Knows r) {nodeId : String}
    (h : m.reportNode r = some nodeId) : nodeId ∈ m.nodeIds := by
  have hnamed : ∀ n, m.namedNode r = some n → n ∈ m.nodeIds := by
    intro n hn
    rw [namedNode] at hn
    split at hn
    · rename_i own hown
      injection hn with hn
      exact hr.2 n (hn ▸ (given_eq_some hown).1)
    · obtain ⟨dev, -, hdev⟩ := Option.bind_eq_some_iff.mp hn
      exact m.meterNode_mem hdev
  rw [reportNode] at h
  split at h
  · obtain ⟨sp, hsp, hnode⟩ := Option.map_eq_some_iff.mp (Option.join_eq_some_iff.mp h)
    exact m.servicePoint_mem sp (List.mem_of_find?_eq_some hsp) nodeId hnode
  · exact hnamed nodeId h

/-- The section root of a node of the model is one. -/
theorem sectionRoot_mem {nodeId : String} (h : nodeId ∈ m.nodeIds) :
    m.sectionRoot nodeId ∈ m.nodeIds := by
  rw [sectionRoot, sectionRootOf]
  split
  · rename_i root hroot
    obtain ⟨e, he, rfl⟩ := List.mem_map.mp (climb_mem hroot)
    exact m.toNode_mem e (List.mem_filter.mp he).1
  · exact h

end Model

/-! ### The reading routines -/

section Run

variable (w : Moment) (timeout : Timeout) (db : OmsDb)

theorem run_meterNode (dev : String) :
    (meterNode dev).run (alone w) db = (.ok (db.model.meterNode dev), db) := by
  rw [meterNode, Prog.run_bind, Prog.run_call, alone_eq, Model.meterNode]
  simp only [omsExec]
  cases (db.model.nodes.find? fun n => n.deviceId = some dev && n.nodeType = .meter) with
  | some n => rfl
  | none =>
      simp only [Option.map_none, Prog.run_bind, Prog.run_call, alone_eq, omsExec]
      cases (db.model.servicePoints.find? fun sp => sp.meterDeviceId = some dev) <;> rfl

theorem run_sectionRoot (nodeId : String) :
    (sectionRoot nodeId).run (alone w) db = (.ok (db.model.sectionRoot nodeId), db) := by
  simp only [sectionRoot, Prog.run_bind, Prog.run_call, alone_eq, omsExec]
  rfl

theorem run_sectionServicePoints (nodeId : String) :
    (sectionServicePoints nodeId).run (alone w) db =
      (.ok (db.model.sectionServicePoints nodeId), db) := by
  simp only [sectionServicePoints, Prog.run_bind, Prog.run_call, alone_eq, omsExec]
  rfl

theorem run_metersOutLoop (meters : List String) (out : Dict Cause) :
    (metersOutLoop timeout meters out).run (alone w) db =
      (.ok (db.model.metersOutFrom timeout meters out), db) := by
  induction meters generalizing out with
  | nil => rfl
  | cons dev meters ih =>
      rw [metersOutLoop, Prog.run_bind, Prog.run_call, alone_eq, Model.metersOutFrom,
        List.foldl_cons, Model.outage]
      simp only [omsExec]
      cases db.model.latest dev with
      | none => exact ih out
      | some latest =>
          simp only [Option.bind_some]
          cases outageSignal timeout latest with
          | none => exact ih out
          | some cause => exact ih _

theorem run_metersOut :
    (metersOut timeout).run (alone w) db = (.ok (db.model.metersOut timeout), db) := by
  rw [metersOut, Prog.run_bind, Prog.run_call, alone_eq]
  simp only [omsExec]
  exact run_metersOutLoop w timeout db _ []

theorem run_meterIsBack (dev : String) :
    (meterIsBack timeout dev).run (alone w) db = (.ok (db.model.isBack timeout dev), db) := by
  rw [meterIsBack, Prog.run_bind, Prog.run_call, alone_eq, Model.isBack]
  simp only [omsExec]
  cases db.model.latest dev <;> rfl

theorem run_namedNode (r : ReportRow) :
    (namedNode r).run (alone w) db = (.ok (db.model.namedNode r), db) := by
  rw [namedNode, Model.namedNode]
  cases given r.nodeId with
  | some nodeId => rfl
  | none =>
      cases given r.meterDeviceId with
      | none => rfl
      | some dev => exact run_meterNode w db dev

theorem run_reportNode (r : ReportRow) :
    (reportNode r).run (alone w) db = (.ok (db.model.reportNode r), db) := by
  rw [reportNode, Prog.run_bind, run_namedNode, Model.reportNode]
  dsimp only
  cases db.model.namedNode r with
  | some nodeId => rfl
  | none =>
      cases given r.customerId with
      | none => rfl
      | some customerId =>
          simp only [customerNode, Prog.run_bind, Prog.run_call, alone_eq, omsExec]
          cases (db.model.servicePoints.find? fun sp => sp.customerId = some customerId) <;> rfl

theorem run_rootOr (mnode : Option String) (key : String) :
    (rootOr mnode key).run (alone w) db = (.ok (db.model.rootOr mnode key), db) := by
  rw [rootOr, Model.rootOr]
  cases given mnode with
  | none => rfl
  | some nodeId => exact run_sectionRoot w db nodeId

theorem run_reportRoot (r : ReportRow) :
    (reportRoot r).run (alone w) db = (.ok (db.model.reportRoot r), db) := by
  rw [reportRoot, Prog.run_bind, run_reportNode, Model.reportRoot]
  dsimp only
  cases given (db.model.reportNode r) with
  | none => rfl
  | some nodeId =>
      simp only [Prog.run_bind, run_sectionRoot, Prog.run_pure, Option.map_some]

end Run

/-! ### Groups -/

/-- What one call of `_add` is given. -/
structure Signal where
  key : String
  dev : Option String
  mnode : Option String
  cause : Cause
  deriving DecidableEq, Repr

def Model.meterSignal (m : Model) (s : String × Cause) : Signal where
  key := m.rootOr (m.meterNode s.1) s.1
  dev := some s.1
  mnode := m.meterNode s.1
  cause := s.2

def Model.reportSignal (m : Model) (r : ReportRow) : Signal where
  key := m.rootOr (m.reportNode r) ((given r.nodeId).getD "UNKNOWN")
  dev := r.meterDeviceId
  mnode := m.reportNode r
  cause := .manual

def addSignals (groups : Dict Group) (signals : List Signal) : Dict Group :=
  signals.foldl (fun groups s => addSignal groups s.key s.dev s.mnode s.cause) groups

/-- The group of some signals. -/
def Group.addAll (g : Group) (signals : List Signal) : Group :=
  signals.foldl (fun g s => g.add s.dev s.mnode s.cause) g

namespace OmsDb

def newReports (db : OmsDb) : List ReportRow := db.reports.filter fun r => r.status = .NEW

/-- All that a sweep finds to be out. -/
def signals (timeout : Timeout) (db : OmsDb) : List Signal :=
  (db.model.metersOut timeout).map db.model.meterSignal ++ db.newReports.map db.model.reportSignal

/-- Its signals for one section. -/
def signalsAt (timeout : Timeout) (db : OmsDb) (key : String) : List Signal :=
  (db.signals timeout).filter fun s => s.key = key

def groups (timeout : Timeout) (db : OmsDb) : Dict Group := addSignals [] (db.signals timeout)

end OmsDb

theorem run_groupMeters (w : Moment) (db : OmsDb) (out : List (String × Cause))
    (groups : Dict Group) :
    (groupMeters out groups).run (alone w) db =
      (.ok (addSignals groups (out.map db.model.meterSignal)), db) := by
  induction out generalizing groups with
  | nil => rfl
  | cons s out ih =>
      rw [groupMeters, Prog.run_bind, run_meterNode]
      dsimp only
      rw [Prog.run_bind, run_rootOr]
      exact ih _

theorem run_groupReports (w : Moment) (db : OmsDb) (reports : List ReportRow)
    (groups : Dict Group) :
    (groupReports reports groups).run (alone w) db =
      (.ok (addSignals groups (reports.map db.model.reportSignal)), db) := by
  induction reports generalizing groups with
  | nil => rfl
  | cons r reports ih =>
      rw [groupReports, Prog.run_bind, run_reportNode]
      dsimp only
      rw [Prog.run_bind, run_rootOr]
      exact ih _

/-- The group of a section holds the signals of the section. -/
theorem get?_addSignals (groups : Dict Group) (signals : List Signal) (key : String) :
    (addSignals groups signals).get? key =
      if (signals.filter fun s => s.key = key) = [] then groups.get? key
      else some (((groups.get? key).getD {}).addAll (signals.filter fun s => s.key = key)) := by
  induction signals generalizing groups with
  | nil => rfl
  | cons s signals ih =>
      rw [addSignals, List.foldl_cons]
      refine (ih _).trans ?_
      rw [addSignal, Dict.get?_set]
      by_cases hkey : s.key = key
      · rw [List.filter_cons_of_pos (by simpa using hkey), if_pos hkey,
          if_neg (List.cons_ne_nil _ _),
          Option.getD_some, hkey]
        split
        · rename_i hnil
          rw [hnil]
          rfl
        · rfl
      · rw [List.filter_cons_of_neg (by simpa using hkey), if_neg hkey]

theorem nodup_addSignals {groups : Dict Group} (h : (groups.map Prod.fst).Nodup)
    (signals : List Signal) : ((addSignals groups signals).map Prod.fst).Nodup := by
  induction signals generalizing groups with
  | nil => exact h
  | cons s signals ih =>
      rw [addSignals, List.foldl_cons]
      exact ih (Dict.nodup_update h [(s.key, _)])

theorem nodup_groups (timeout : Timeout) (db : OmsDb) :
    ((db.groups timeout).map Prod.fst).Nodup := by
  have hnil : (([] : Dict Group).map Prod.fst).Nodup := List.nodup_nil
  exact nodup_addSignals hnil _

theorem mem_groups {timeout : Timeout} {db : OmsDb} {key : String} {g : Group} :
    (key, g) ∈ db.groups timeout ↔
      db.signalsAt timeout key ≠ [] ∧ g = Group.addAll {} (db.signalsAt timeout key) := by
  have hget := get?_addSignals [] (db.signals timeout) key
  constructor
  · intro h
    have hsome := Dict.get?_of_mem (nodup_groups timeout db) h
    rw [OmsDb.groups, hget, Dict.get?_nil] at hsome
    split at hsome
    · exact nomatch hsome
    · injection hsome with hsome
      exact ⟨‹_›, hsome.symm⟩
  · rintro ⟨hne, rfl⟩
    refine Dict.mem_of_get? ?_
    rw [OmsDb.groups, hget]
    exact if_neg hne

namespace Group

/-- The devices of a group. -/
def devices (g : Group) : List String := g.meters.map Prod.fst

theorem mem_causes_addAll (g : Group) (signals : List Signal) (c : Cause) :
    c ∈ (g.addAll signals).causes ↔ c ∈ g.causes ∨ ∃ s ∈ signals, s.cause = c := by
  induction signals generalizing g with
  | nil => simp [addAll]
  | cons s signals ih =>
      rw [addAll, List.foldl_cons]
      refine (ih _).trans ?_
      have hadd : c ∈ (g.add s.dev s.mnode s.cause).causes ↔ c ∈ g.causes ∨ s.cause = c := by
        unfold add
        dsimp only
        split
        · refine ⟨Or.inl, fun h => h.elim id fun h => h ▸ ‹_›⟩
        · rw [List.mem_append, List.mem_singleton, eq_comm (a := c)]
      rw [hadd, List.exists_mem_cons_iff, or_assoc]

theorem mem_set {d : Dict (Option String)} {key k : String} {value v : Option String}
    (h : (k, v) ∈ d.set key value) : (k, v) ∈ d ∨ k = key ∧ v = value := by
  induction d with
  | nil => exact Or.inr (by simpa [Dict.set] using h)
  | cons kv rest ih =>
      rw [Dict.set] at h
      split at h
      · rcases List.mem_cons.mp h with h | h
        · injection h with hk hv
          exact Or.inr ⟨hk.trans ‹_›, hv⟩
        · exact Or.inl (List.mem_cons_of_mem _ h)
      · rcases List.mem_cons.mp h with h | h
        · exact Or.inl (h ▸ List.mem_cons_self)
        · exact (ih h).imp_left (List.mem_cons_of_mem _)

theorem mem_meters_addAll {g : Group} {signals : List Signal} {dev : String}
    {mnode : Option String} (h : (dev, mnode) ∈ (g.addAll signals).meters) :
    (dev, mnode) ∈ g.meters ∨ ∃ s ∈ signals, given s.dev = some dev ∧ s.mnode = mnode := by
  induction signals generalizing g with
  | nil => exact Or.inl h
  | cons s signals ih =>
      rw [addAll, List.foldl_cons] at h
      rcases ih h with h | ⟨s', hs', hdev⟩
      · unfold add at h
        dsimp only at h
        split at h
        · rename_i d hd
          rcases mem_set h with h | ⟨rfl, rfl⟩
          · exact Or.inl h
          · exact Or.inr ⟨s, List.mem_cons_self, hd, rfl⟩
        · exact Or.inl h
      · exact Or.inr ⟨s', List.mem_cons_of_mem _ hs', hdev⟩

theorem mem_devices_addAll (g : Group) (signals : List Signal) (dev : String) :
    dev ∈ (g.addAll signals).devices ↔
      dev ∈ g.devices ∨ ∃ s ∈ signals, given s.dev = some dev := by
  induction signals generalizing g with
  | nil => simp [addAll]
  | cons s signals ih =>
      rw [addAll, List.foldl_cons]
      refine (ih _).trans ?_
      have hadd : dev ∈ (g.add s.dev s.mnode s.cause).devices ↔
          dev ∈ g.devices ∨ given s.dev = some dev := by
        unfold devices add
        dsimp only
        cases given s.dev with
        | none => simp
        | some d =>
            dsimp only
            rw [Dict.map_fst_set, Option.some.injEq]
            split
            · refine ⟨Or.inl, fun h => h.elim id fun h => h ▸ ‹_›⟩
            · rw [List.mem_append, List.mem_singleton, eq_comm (a := dev)]
      rw [hadd, List.exists_mem_cons_iff, or_assoc]

end Group

/-- Two different causes make a mixed one. -/
theorem groupCause_mixed {causes : List Cause} {a b : Cause} (ha : a ∈ causes) (hb : b ∈ causes)
    (hne : a ≠ b) : groupCause causes = .mixed := by
  cases causes with
  | nil => exact absurd ha List.not_mem_nil
  | cons c rest =>
      cases rest with
      | nil => exact absurd ((List.mem_singleton.mp ha).trans (List.mem_singleton.mp hb).symm) hne
      | cons d rest => rfl

end DiepLab.Oms
