import DiepLab.Grid.Network
import DiepLab.Common
import DiepLab.Library.Interleaving

/-!
The current version of the network model.

A version is published in two places. The import retires the current row and
inserts the new one in one transaction; `POST /topology/versions` commits in
between. A statement here is a transaction. `NoHalf` says that none of the two
halves takes effect; it is exactly what keeps one current version at all times.
-/

namespace DiepLab.Topology

open StatementProgram

/-! ### The tables -/

/-- A row of `network_model_versions`. -/
structure ModelVersion where
  version : ℕ
  label : String
  description : Option String
  createdBy : String
  isCurrent : Bool
  deriving DecidableEq, Repr

structure VersionTable where
  rows : List ModelVersion
  key : (rows.map ModelVersion.version).Nodup

namespace VersionTable

variable (table : VersionTable)

/-- `UPDATE network_model_versions SET is_current = FALSE WHERE is_current = TRUE`. -/
def retire : VersionTable where
  rows := table.rows.map fun row => { row with isCurrent := false }
  key := by
    rw [List.map_map]
    exact table.key

/-- `INSERT INTO network_model_versions`, or none on a conflict. -/
def insert (row : ModelVersion) : Option VersionTable :=
  if h : row.version ∈ table.rows.map ModelVersion.version then none
  else some {
    rows := table.rows ++ [row]
    key := by
      rw [List.map_append]
      exact List.nodup_append.mpr ⟨table.key, List.nodup_singleton _, fun a ha b hb hab =>
        h ((List.mem_singleton.mp hb).symm.trans hab.symm ▸ ha)⟩ }

/-- The number of rows with `is_current = TRUE`. -/
def current : ℕ := table.rows.countP ModelVersion.isCurrent

end VersionTable

structure VersionStore where
  versions : VersionTable
  /-- The last value of `network_model_versions_version_seq`. -/
  sequence : ℕ
  sites : List String := []
  /-- `grid_nodes` and `grid_edges`, each row with its `model_version`. -/
  nodes : Dict (GridNode × ℕ) := []
  edges : Dict (GridEdge × ℕ) := []

/-! ### Transactions -/

inductive VersionStmt where
  | retire
  /-- `INSERT ... VALUES (label, description, created_by, TRUE) RETURNING ...`. -/
  | insertCurrent (label : String) (description : Option String) (createdBy : String)
  /-- The update and the insert in one transaction. -/
  | republish (label : String) (description : Option String) (createdBy : String)
  | ensureSite (siteName : String)
  | upsertNodes (nodes : List GridNode) (version : ℕ)
  | upsertEdges (edges : List GridEdge) (version : ℕ)

@[reducible] def VersionResp : VersionStmt → Type
  | .retire => Unit
  | .insertCurrent .. => ModelVersion
  | .republish .. => ModelVersion
  | .ensureSite _ => Unit
  | .upsertNodes .. => ℕ
  | .upsertEdges .. => ℕ

abbrev VersionProg := Prog VersionResp Exc

/-- The insert of a current version into a table. A value drawn from the
sequence stays drawn. -/
def VersionStore.insertCurrent (s : VersionStore) (table : VersionTable) (label : String)
    (description : Option String) (createdBy : String) :
    Except Exc ModelVersion × VersionStore :=
  -- `label` and `created_by` are VARCHAR(100)
  if 100 < label.length ∨ 100 < createdBy.length then (.error (.other "value too long"), s)
  else
    let row : ModelVersion := ⟨s.sequence + 1, label, description, createdBy, true⟩
    match table.insert row with
    | none => (.error (.other "duplicate key"), { s with sequence := s.sequence + 1 })
    | some versions => (.ok row, { s with versions := versions, sequence := s.sequence + 1 })

def versionExec : (q : VersionStmt) → VersionStore → Except Exc (VersionResp q) × VersionStore
  | .retire, s => (.ok (), { s with versions := s.versions.retire })
  | .insertCurrent label description createdBy, s =>
      s.insertCurrent s.versions label description createdBy
  | .republish label description createdBy, s =>
      s.insertCurrent s.versions.retire label description createdBy
  | .ensureSite siteName, s =>
      (.ok (), if siteName ∈ s.sites then s else { s with sites := s.sites ++ [siteName] })
  | .upsertNodes nodes version, s =>
      (.ok nodes.length,
        { s with nodes := nodes.foldl (fun d n => d.set n.nodeId (n, version)) s.nodes })
  | .upsertEdges edges version, s =>
      -- `from_node` and `to_node` are foreign keys
      if edges.any fun e => s.nodes.get? e.fromNode = none ∨ s.nodes.get? e.toNode = none then
        (.error (.other "foreign key violation"), s)
      else
        (.ok edges.length,
          { s with edges := edges.foldl (fun d e => d.set e.edgeId (e, version)) s.edges })

/-- A transaction that fails changes nothing. -/
def versionSem (fails : Option String) (q : VersionStmt) (s : VersionStore) :
    Except Exc (VersionResp q) × VersionStore :=
  match fails with
  | none => versionExec q s
  | some m => (.error (.other m), s)

/-! ### The two publishers -/

/-- `POST /topology/versions`. -/
def publishVersion (label : String) (description : Option String) (name : String) :
    VersionProg ModelVersion := do
  Prog.call VersionStmt.retire
  Prog.call (VersionStmt.insertCurrent label description name)

/-- What `import_parsed` is given. -/
structure Import where
  nodes : List GridNode
  edges : List GridEdge
  label : String
  createdBy : String := "topology-importer"
  description : Option String := none
  siteName : Option String := none

def ensureSite : Option String → VersionProg Unit
  | some siteName => Prog.call (VersionStmt.ensureSite siteName)
  | none => pure ()

/-- `import_parsed`. -/
def importParsed (i : Import) : VersionProg ModelVersion := do
  ensureSite (given i.siteName)
  let version ← Prog.call (VersionStmt.republish i.label i.description i.createdBy)
  let _ ← Prog.call (VersionStmt.upsertNodes i.nodes version.version)
  let _ ← Prog.call (VersionStmt.upsertEdges i.edges version.version)
  pure version

inductive PublishCall where
  | post (label : String) (description : Option String) (name : String)
  | importParsed (i : Import)

def PublishCall.serve : PublishCall → VersionProg ModelVersion
  | .post label description name => publishVersion label description name
  | .importParsed i => Topology.importParsed i

/-! ### The current version -/

def OneCurrent (s : VersionStore) : Prop := s.versions.current = 1

instance (s : VersionStore) : Decidable (OneCurrent s) := inferInstanceAs (Decidable (_ = _))

/-- The insert would succeed. -/
def CanInsert (s : VersionStore) (label createdBy : String) : Prop :=
  label.length ≤ 100 ∧ createdBy.length ≤ 100 ∧
    s.sequence + 1 ∉ s.versions.rows.map ModelVersion.version

instance (s : VersionStore) (label createdBy : String) : Decidable (CanInsert s label createdBy) :=
  inferInstanceAs (Decidable (_ ∧ _ ∧ _))

/-- The condition on a transaction: it is not one half of a publish that takes
effect. -/
def NoHalf (fails : Option String) : VersionStmt → VersionStore → Prop
  | .retire, _ => fails ≠ none
  | .insertCurrent label _ createdBy, s => fails = none → ¬ CanInsert s label createdBy
  | _, _ => True

instance (fails : Option String) (q : VersionStmt) (s : VersionStore) :
    Decidable (NoHalf fails q s) := by
  cases q <;> simp only [NoHalf] <;> infer_instance

namespace VersionTable

@[simp] theorem current_retire (table : VersionTable) : table.retire.current = 0 := by
  simp [current, retire, List.countP_map, Function.comp_def]

@[simp] theorem versions_retire (table : VersionTable) :
    table.retire.rows.map ModelVersion.version = table.rows.map ModelVersion.version := by
  simp [retire, Function.comp_def]

theorem current_insert {table table' : VersionTable} {row : ModelVersion}
    (h : table.insert row = some table') (hrow : row.isCurrent = true) :
    table'.current = table.current + 1 := by
  unfold insert at h
  split at h
  · exact nomatch h
  · injection h with h
    rw [← h, current, List.countP_append, List.countP_singleton, if_pos hrow, current]

end VersionTable

/-- The insert fails and leaves the table, or adds a current row to it. -/
theorem insertCurrent_cases (s : VersionStore) (table : VersionTable) (label : String)
    (description : Option String) (createdBy : String)
    (hkey : table.rows.map ModelVersion.version = s.versions.rows.map ModelVersion.version) :
    (¬ CanInsert s label createdBy ∧
      (s.insertCurrent table label description createdBy).2.versions = s.versions) ∨
    (CanInsert s label createdBy ∧
      (s.insertCurrent table label description createdBy).2.versions.current =
        table.current + 1) := by
  unfold VersionStore.insertCurrent
  split
  · rename_i hlong
    refine Or.inl ⟨fun h => ?_, rfl⟩
    obtain ⟨hlabel, hcreatedBy, -⟩ := h
    omega
  · rename_i hshort
    cases hinsert : table.insert ⟨s.sequence + 1, label, description, createdBy, true⟩ with
    | none =>
        refine Or.inl ⟨fun h => ?_, by simp only [hinsert]⟩
        rw [VersionTable.insert, dif_neg (hkey ▸ h.2.2)] at hinsert
        exact nomatch hinsert
    | some table' =>
        refine Or.inr ⟨⟨by omega, by omega, fun hmem => ?_⟩, ?_⟩
        · rw [VersionTable.insert, dif_pos (hkey ▸ hmem)] at hinsert
          exact nomatch hinsert
        · simp only [hinsert]
          exact VersionTable.current_insert hinsert rfl

/-- A transaction keeps one current version exactly if it meets the condition. -/
theorem oneCurrent_step (fails : Option String) (q : VersionStmt) (s : VersionStore)
    (hone : OneCurrent s) : OneCurrent (versionSem fails q s).2 ↔ NoHalf fails q s := by
  cases fails with
  | some m =>
      refine iff_of_true hone ?_
      cases q with
      | retire => exact Option.some_ne_none m
      | insertCurrent => exact fun h => absurd h (Option.some_ne_none m)
      | _ => trivial
  | none =>
      cases q with
      | retire =>
          refine iff_of_false ?_ (fun h => h rfl)
          simp [versionSem, versionExec, OneCurrent]
      | insertCurrent label description createdBy =>
          simp only [versionSem, versionExec, NoHalf, forall_const]
          rw [OneCurrent] at hone
          rcases insertCurrent_cases s s.versions label description createdBy rfl with
            ⟨hcannot, hsame⟩ | ⟨hcan, hcurrent⟩
          · exact iff_of_true ((congrArg VersionTable.current hsame).trans hone) hcannot
          · refine iff_of_false ?_ (fun h => h hcan)
            rw [OneCurrent, hcurrent]
            omega
      | republish label description createdBy =>
          refine iff_of_true ?_ trivial
          rcases insertCurrent_cases s s.versions.retire label description createdBy
            (VersionTable.versions_retire _) with ⟨-, hsame⟩ | ⟨-, hcurrent⟩
          · exact (congrArg VersionTable.current hsame).trans hone
          · exact hcurrent.trans (by simp)
      | ensureSite siteName =>
          refine iff_of_true ?_ trivial
          simp only [versionSem, versionExec]
          split <;> exact hone
      | upsertNodes nodes version => exact iff_of_true hone trivial
      | upsertEdges edges version =>
          refine iff_of_true ?_ trivial
          simp only [versionSem, versionExec]
          split <;> exact hone

/-! ### Runs -/

/-- Nothing but requests touches the tables. -/
def noEnv : Empty → VersionStore → VersionStore := nofun

/-- Before the first request. -/
def noRequests (s : VersionStore) : Config VersionResp Exc ModelVersion VersionStore := ⟨s, []⟩

/-- **One current version.** Whatever is published, and however the transactions
interleave, every state has exactly one current version if and only if no half
of a publish takes effect. -/
theorem one_current_iff (s : VersionStore) (hone : OneCurrent s)
    (schedule : List (Event (Option String) PublishCall Empty)) :
    (∀ n, OneCurrent
      ((noRequests s).run versionSem PublishCall.serve noEnv (schedule.take n)).state) ↔
      (noRequests s).AllSteps versionSem PublishCall.serve noEnv NoHalf schedule :=
  Config.always_iff_allSteps versionSem PublishCall.serve noEnv oneCurrent_step nofun hone schedule

/-- An import has no halves. -/
theorem importParsed_noHalf (i : Import) :
    (importParsed i).Issues fun q => ∀ fails s, NoHalf fails q s := by
  rw [importParsed]
  refine Prog.Issues.bind ?_ fun _ => ?_
  · cases given i.siteName with
    | none => exact trivial
    | some site => exact (Prog.issues_call _).mpr fun _ _ => trivial
  · refine Prog.Issues.bind ((Prog.issues_call _).mpr fun _ _ => trivial) fun version => ?_
    refine Prog.Issues.bind ((Prog.issues_call _).mpr fun _ _ => trivial) fun _ => ?_
    exact Prog.Issues.bind ((Prog.issues_call _).mpr fun _ _ => trivial) fun _ => trivial

/-- Among imports alone there is always one current version. -/
theorem imports_keep_current (s : VersionStore) (hone : OneCurrent s)
    (schedule : List (Event (Option String) Import Empty)) (n : ℕ) :
    OneCurrent ((noRequests s).run versionSem importParsed noEnv (schedule.take n)).state := by
  refine (Config.always_iff_allSteps versionSem importParsed noEnv oneCurrent_step nofun hone
    schedule).mpr ?_ n
  refine (Config.allSteps_congr versionSem importParsed noEnv
    (fun fails q s hq => iff_true_intro (hq fails s)) importParsed_noHalf
    (fun p hp => absurd hp List.not_mem_nil) schedule).mpr ?_
  exact Config.allSteps_of_forall _ _ _ (fun _ _ _ => trivial) _ _

/-- A post that nothing interrupts ends with one current version if its insert
is possible, and with none otherwise. -/
theorem publishVersion_alone (s : VersionStore) (label : String) (description : Option String)
    (name : String) :
    ((publishVersion label description name).run versionExec s).2.versions.current =
      if CanInsert s label name then 1 else 0 := by
  have hretired : CanInsert { s with versions := s.versions.retire } label name ↔
      CanInsert s label name := by
    simp only [CanInsert, VersionTable.versions_retire]
  rw [publishVersion, Prog.run_bind, Prog.run_call]
  simp only [versionExec, Prog.run_call]
  rcases insertCurrent_cases { s with versions := s.versions.retire } s.versions.retire label
    description name rfl with ⟨hcannot, hsame⟩ | ⟨hcan, hcurrent⟩
  · rw [if_neg (hretired.not.mp hcannot), hsame, VersionTable.current_retire]
  · rw [if_pos (hretired.mp hcan), hcurrent, VersionTable.current_retire]

/-! ### The seeded table -/

def seeded : VersionStore where
  versions := {
    rows := [⟨1, "initial", none, "system", true⟩]
    key := by decide }
  sequence := 1

/-- The next transactions of some requests. -/
def acts (requests : List ℕ) : List (Event (Option String) PublishCall Empty) :=
  requests.map fun i => .act i none

/-- The import of one bus. -/
def importBus (nodeId : String) (siteName : Option String) :
    Event (Option String) PublishCall Empty :=
  .spawn (.importParsed {
    nodes := [⟨nodeId, .bus⟩]
    edges := []
    label := "import"
    siteName := siteName })

def post (label : String) : Event (Option String) PublishCall Empty :=
  .spawn (.post label none "operator")

/-- Two imports at once. -/
theorem two_imports_one_current :
    OneCurrent ((noRequests seeded).run versionSem PublishCall.serve noEnv
      (([importBus "N1" none, importBus "N2" (some "site-b")] ++
        acts [0, 1, 1, 0, 1, 0, 1]).take 9)).state :=
  (one_current_iff seeded (by decide) _).mpr (by decide +kernel) 9

/-- Between the halves of a post no version is current; and after two posts at
once there are two. -/
theorem posts_break_current :
    OneCurrent seeded ∧
      ((noRequests seeded).run versionSem PublishCall.serve noEnv
        ([post "a", post "b"] ++ acts [0])).state.versions.current = 0 ∧
      ((noRequests seeded).run versionSem PublishCall.serve noEnv
        ([post "a", post "b"] ++ acts [0, 1, 0, 1])).state.versions.current = 2 := by
  decide +kernel

end DiepLab.Topology
