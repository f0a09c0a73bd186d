import DiepLab.Topology.Records
import DiepLab.Topology.Versions
import DiepLab.Library.Interchange
import DiepLab.Library.Table

/-!
The loader of the topology importer.

Nodes and edges are upserted row by row: a row that is there has every imported
column overwritten and the others left. The parent of a node is written in a
second pass, and only where the model has one, so a parent that a row had before
stays (`NoStaleParent`). Of two edges with one id the later is what the row
carries (`EdgesAgree`).

The types of the columns are parameters, except for texts: what a column takes
is its own, and what it does not take fails the transaction.
-/

namespace DiepLab.Topology.Loader

open StatementProgram

/-! ### Columns -/

/-- What a column makes of a value. -/
structure ColumnTypes (R C J : Type) where
  /-- `REAL`. -/
  real : Double → Except Exc R
  /-- `NUMERIC(9,6)`. -/
  coordinate : PyValue → Except Exc C
  /-- `json.dumps`, and `JSONB`. -/
  jsonb : Dict PyValue → Except Exc J
  /-- A value that is no text, as one. -/
  text : PyValue → Except Exc String

/-- `VARCHAR(width)`. Blanks that are too many are cut off. -/
def varchar (width : ℕ) (s : String) : Except Exc String :=
  if '\x00' ∈ s.toList then
    .error (.other "A string literal cannot contain NUL (0x00) characters.")
  else if s.toList.length ≤ width then .ok s
  else if (s.toList.drop width).all (· = ' ') then .ok (String.ofList (s.toList.take width))
  else .error (.other ("value too long for type character varying(" ++ toString width ++ ")"))

/-- A column that may be `NULL`. -/
def nullable {α β : Type} (column : α → Except Exc β) : Option α → Except Exc (Option β)
  | none => .ok none
  | some a => (column a).map some

variable {R C J : Type}

def ColumnTypes.name (types : ColumnTypes R C J) (width : ℕ) : PyValue → Except Exc String
  | .str s => varchar width s
  | v => do varchar width (← types.text v)

/-! ### Rows -/

/-- The columns of `grid_nodes` that an import writes at once. -/
structure NodeValues (R C J : Type) where
  nodeType : NodeType
  name : Option String
  siteName : Option String
  latitude : Option C
  longitude : Option C
  nominalKv : Option R
  phases : String
  baseLoadKw : R
  baseLoadKvar : R
  attrs : J
  modelVersion : Option ℕ

structure NodeRow (R C J : Type) extends NodeValues R C J where
  nodeId : String
  parentId : Option String := none
  deviceId : Option String := none
  tenantId : String := "default"
  loadClass : Option String := none

structure EdgeValues (R J : Type) where
  fromNode : String
  toNode : String
  edgeType : EdgeType
  isSwitchable : Bool
  normallyClosed : Bool
  isClosed : Bool
  resistanceROhm : Option R
  reactanceXOhm : Option R
  lengthKm : Option R
  ampacityA : Option R
  phases : String
  attrs : J
  modelVersion : Option ℕ

structure EdgeRow (R J : Type) extends EdgeValues R J where
  edgeId : String
  ratingKw : Option R := none
  tenantId : String := "default"

/-- The row that is inserted where there is none. -/
def nodeRow (types : ColumnTypes R C J) (version : ℕ) (siteName : Option String)
    (n : NodeRecord) : Except Exc (NodeRow R C J) := do
  let nodeId ← varchar 64 n.nodeId
  let name ← nullable (varchar 128) n.name
  let siteName ← nullable (varchar 100) siteName
  let latitude ← nullable types.coordinate n.latitude
  let longitude ← nullable types.coordinate n.longitude
  let nominalKv ← nullable types.real n.nominalKv
  let phases ← varchar 3 n.phases
  let baseLoadKw ← types.real n.baseLoadKw
  let baseLoadKvar ← types.real n.baseLoadKvar
  let attrs ← types.jsonb n.attrs
  pure {
    nodeId := nodeId
    nodeType := n.nodeType
    name := name
    siteName := siteName
    latitude := latitude
    longitude := longitude
    nominalKv := nominalKv
    phases := phases
    baseLoadKw := baseLoadKw
    baseLoadKvar := baseLoadKvar
    attrs := attrs
    modelVersion := some version }

def edgeRow (types : ColumnTypes R C J) (version : ℕ) (e : EdgeRecord) :
    Except Exc (EdgeRow R J) := do
  let edgeId ← types.name 64 e.edgeId
  let fromNode ← varchar 64 e.fromNode
  let toNode ← varchar 64 e.toNode
  let resistanceROhm ← nullable types.real e.resistanceROhm
  let reactanceXOhm ← nullable types.real e.reactanceXOhm
  let lengthKm ← nullable types.real e.lengthKm
  let ampacityA ← nullable types.real e.ampacityA
  let phases ← varchar 3 e.phases
  let attrs ← types.jsonb e.attrs
  pure {
    edgeId := edgeId
    fromNode := fromNode
    toNode := toNode
    edgeType := e.edgeType
    isSwitchable := e.isSwitchable
    normallyClosed := e.normallyClosed
    isClosed := e.isClosed
    resistanceROhm := resistanceROhm
    reactanceXOhm := reactanceXOhm
    lengthKm := lengthKm
    ampacityA := ampacityA
    phases := phases
    attrs := attrs
    modelVersion := some version }

/-- `ON CONFLICT (node_id) DO UPDATE SET ...`. -/
def NodeRow.overwrite (new old : NodeRow R C J) : NodeRow R C J :=
  { old with toNodeValues := new.toNodeValues }

def EdgeRow.overwrite (new old : EdgeRow R J) : EdgeRow R J :=
  { old with toEdgeValues := new.toEdgeValues }

theorem NodeRow.nodeId_overwrite (new old : NodeRow R C J) :
    (new.overwrite old).nodeId = old.nodeId := rfl

theorem EdgeRow.edgeId_overwrite (new old : EdgeRow R J) :
    (new.overwrite old).edgeId = old.edgeId := rfl

/-! ### Transactions -/

structure NetworkStore (R C J : Type) where
  versions : VersionTable
  /-- The last value of `network_model_versions_version_seq`. -/
  sequence : ℕ
  sites : List String := []
  nodes : Table (NodeRow.nodeId : NodeRow R C J → String) := ⟨[], List.nodup_nil⟩
  edges : Table (EdgeRow.edgeId : EdgeRow R J → String) := ⟨[], List.nodup_nil⟩

/-- `site_name` is a foreign key. -/
def insertNode (types : ColumnTypes R C J) (version : ℕ) (siteName : Option String)
    (s : NetworkStore R C J) (n : NodeRecord) : Except Exc (NetworkStore R C J) := do
  let row ← nodeRow types version siteName n
  if row.siteName.any fun site => site ∉ s.sites then
    .error (.other "violates foreign key constraint on site_name")
  else pure { s with nodes := s.nodes.upsert NodeRow.nodeId_overwrite row }

/-- The second pass. `parent_id` is a foreign key. -/
def writeParent (s : NetworkStore R C J) (n : NodeRecord) : Except Exc (NetworkStore R C J) :=
  match given n.parentId with
  | none => pure s
  | some parentId => do
      let parent ← varchar 64 parentId
      if (s.nodes.row? n.nodeId).isSome ∧ (s.nodes.row? parent).isNone then
        .error (.other "violates foreign key constraint on parent_id")
      else
        let nodes := s.nodes.update n.nodeId (fun row => { row with parentId := some parent })
          fun _ => rfl
        pure { s with nodes := nodes }

/-- `upsert_nodes`. -/
def upsertNodes (types : ColumnTypes R C J) (nodes : List NodeRecord) (version : ℕ)
    (siteName : Option String) (s : NetworkStore R C J) : Except Exc (NetworkStore R C J) := do
  let s ← nodes.foldlM (insertNode types version siteName) s
  nodes.foldlM writeParent s

/-- `from_node` and `to_node` are foreign keys. -/
def insertEdge (types : ColumnTypes R C J) (version : ℕ) (s : NetworkStore R C J)
    (e : EdgeRecord) : Except Exc (NetworkStore R C J) := do
  let row ← edgeRow types version e
  if (s.nodes.row? row.fromNode).isNone ∨ (s.nodes.row? row.toNode).isNone then
    .error (.other "violates foreign key constraint on from_node, to_node")
  else pure { s with edges := s.edges.upsert EdgeRow.edgeId_overwrite row }

/-- `upsert_edges`. -/
def upsertEdges (types : ColumnTypes R C J) (edges : List EdgeRecord) (version : ℕ)
    (s : NetworkStore R C J) : Except Exc (NetworkStore R C J) :=
  edges.foldlM (insertEdge types version) s

inductive LoaderStmt where
  /-- `INSERT INTO sites ... ON CONFLICT DO NOTHING`. -/
  | ensureSite (siteName : String)
  | publishVersion (label : String) (description : Option String) (createdBy : String)
  | upsertNodes (nodes : List NodeRecord) (version : ℕ) (siteName : Option String)
  | upsertEdges (edges : List EdgeRecord) (version : ℕ)

@[reducible] def LoaderResp : LoaderStmt → Type
  | .ensureSite _ => Unit
  | .publishVersion .. => ModelVersion
  | .upsertNodes .. => ℕ
  | .upsertEdges .. => ℕ

abbrev LoaderProg := Prog LoaderResp Exc

/-- What the versions need of the store. -/
def NetworkStore.versionStore (s : NetworkStore R C J) : VersionStore where
  versions := s.versions
  sequence := s.sequence
  sites := s.sites
  nodes := s.nodes.rows.map fun row => (row.nodeId, ⟨row.nodeId, row.nodeType⟩,
    row.modelVersion.getD 0)

/-- A transaction that raises leaves the tables as they are. -/
def loaderExec (types : ColumnTypes R C J) :
    (q : LoaderStmt) → NetworkStore R C J → Except Exc (LoaderResp q) × NetworkStore R C J
  | .ensureSite siteName, s =>
      match varchar 100 siteName with
      | .error exc => (.error exc, s)
      | .ok site => (.ok (), if site ∈ s.sites then s else { s with sites := s.sites ++ [site] })
  | .publishVersion label description createdBy, s =>
      let out := s.versionStore.insertCurrent s.versions.retire label description createdBy
      (out.1, { s with versions := out.2.versions, sequence := out.2.sequence })
  | .upsertNodes nodes version siteName, s =>
      match upsertNodes types nodes version siteName s with
      | .error exc => (.error exc, s)
      | .ok s' => (.ok nodes.length, s')
  | .upsertEdges edges version, s =>
      match upsertEdges types edges version s with
      | .error exc => (.error exc, s)
      | .ok s' => (.ok edges.length, s')

/-! ### The import -/

/-- A parsed model. An id is stripped and names one node, and a parent is a node
of the model. -/
structure ParsedModel where
  nodes : List NodeRecord
  edges : List EdgeRecord
  key : (nodes.map NodeRecord.nodeId).Nodup
  stripped : ∀ n ∈ nodes, n.nodeId ≠ "" ∧ n.nodeId.toList.getLast? ≠ some ' '
  parents : ∀ n ∈ nodes, ∀ p, n.parentId = some p → p ∈ nodes.map NodeRecord.nodeId

/-- What is published. -/
structure Publication where
  label : String
  createdBy : String := "topology-importer"
  description : Option String := none

structure ImportResult where
  version : ModelVersion
  nodesWritten : ℕ
  edgesWritten : ℕ
  deriving DecidableEq

/-- `ensure_site`, if there is one. -/
def ensureSite : Option String → LoaderProg Unit
  | some siteName => Prog.call (LoaderStmt.ensureSite siteName)
  | none => pure ()

/-- `import_parsed`. -/
def importParsed (nodes : List NodeRecord) (edges : List EdgeRecord) (p : Publication)
    (siteName : Option String) : LoaderProg ImportResult := do
  ensureSite (given siteName)
  let version ← Prog.call (LoaderStmt.publishVersion p.label p.description p.createdBy)
  let nCount ← Prog.call (LoaderStmt.upsertNodes nodes version.version siteName)
  let eCount ← Prog.call (LoaderStmt.upsertEdges edges version.version)
  pure ⟨version, nCount, eCount⟩

/-- The import of a model succeeds, with this result and these tables. -/
def Imports (types : ColumnTypes R C J) (m : ParsedModel) (p : Publication)
    (siteName : Option String) (s : NetworkStore R C J) (r : ImportResult)
    (s' : NetworkStore R C J) : Prop :=
  (importParsed m.nodes m.edges p siteName).run (loaderExec types) s = (.ok r, s')

/-! ### One row -/

theorem varchar_eq {width : ℕ} {s t : String} (hlast : s.toList.getLast? ≠ some ' ')
    (h : varchar width s = .ok t) : t = s := by
  unfold varchar at h
  split at h
  · exact nomatch h
  · split at h
    · exact (Except.ok.inj h).symm
    · rename_i hlong
      split at h
      · rename_i hblank
        -- what is cut off would end with the last character
        have hne : s.toList.drop width ≠ [] := fun hnil =>
          hlong (List.drop_eq_nil_iff.mp hnil)
        have hend := List.all_eq_true.mp hblank _ (List.getLast_mem hne)
        rw [List.getLast_drop] at hend
        refine absurd ?_ hlast
        rw [List.getLast?_eq_getLast_of_ne_nil (List.ne_nil_of_drop_ne_nil hne)]
        exact congrArg some (of_decide_eq_true hend)
      · exact nomatch h

section Row

variable {types : ColumnTypes R C J} {version : ℕ} {siteName : Option String}

/-- What an import does not write. -/
def NodeRow.kept (row : NodeRow R C J) : String × Option String × Option String × String ×
    Option String :=
  (row.nodeId, row.parentId, row.deviceId, row.tenantId, row.loadClass)

def EdgeRow.kept (row : EdgeRow R J) : String × Option R × String :=
  (row.edgeId, row.ratingKw, row.tenantId)

/-- The row but for its version. -/
def NodeRow.unversioned (row : NodeRow R C J) : NodeRow R C J := { row with modelVersion := none }

def EdgeRow.unversioned (row : EdgeRow R J) : EdgeRow R J := { row with modelVersion := none }

theorem nodeId_of_nodeRow {n : NodeRecord} {row : NodeRow R C J}
    (h : nodeRow types version siteName n = .ok row) :
    varchar 64 n.nodeId = .ok row.nodeId ∧ row.parentId = none := by
  unfold nodeRow at h
  obtain ⟨nodeId, hid, h⟩ := bind_eq_ok.mp h
  iterate 9 obtain ⟨_, -, h⟩ := bind_eq_ok.mp h
  injection h with h
  subst h
  exact ⟨hid, rfl⟩

theorem edgeId_of_edgeRow {e : EdgeRecord} {row : EdgeRow R J}
    (h : edgeRow types version e = .ok row) :
    types.name 64 e.edgeId = .ok row.edgeId ∧ row.kept = (row.edgeId, none, "default") := by
  unfold edgeRow at h
  obtain ⟨edgeId, hid, h⟩ := bind_eq_ok.mp h
  iterate 8 obtain ⟨_, -, h⟩ := bind_eq_ok.mp h
  injection h with h
  subst h
  exact ⟨hid, rfl⟩

/-- Another version makes no other row. -/
theorem nodeRow_version {n : NodeRecord} {row : NodeRow R C J}
    (h : nodeRow types version siteName n = .ok row) (version' : ℕ) :
    nodeRow types version' siteName n = .ok { row with modelVersion := some version' } := by
  have hmap : nodeRow types version' siteName n =
      (fun row : NodeRow R C J => { row with modelVersion := some version' }) <$>
        nodeRow types version siteName n := by
    simp only [nodeRow, map_bind, map_pure]
  rw [hmap, h]
  rfl

theorem edgeRow_version {e : EdgeRecord} {row : EdgeRow R J}
    (h : edgeRow types version e = .ok row) (version' : ℕ) :
    edgeRow types version' e = .ok { row with modelVersion := some version' } := by
  have hmap : edgeRow types version' e =
      (fun row : EdgeRow R J => { row with modelVersion := some version' }) <$>
        edgeRow types version e := by
    simp only [edgeRow, map_bind, map_pure]
  rw [hmap, h]
  rfl

end Row

/-! ### The two passes over the nodes -/

section Nodes

variable {types : ColumnTypes R C J} {version : ℕ} {siteName : Option String}

theorem foldl_upsert_nodes (rows : List (NodeRow R C J)) (s : NetworkStore R C J) :
    rows.foldl (fun s row => { s with nodes := s.nodes.upsert NodeRow.nodeId_overwrite row }) s =
      { s with nodes := s.nodes.upserts NodeRow.nodeId_overwrite rows } := by
  induction rows generalizing s with
  | nil => rfl
  | cons row rows ih =>
      rw [List.foldl_cons, ih]
      rfl

theorem insertNodes_ok {nodes : List NodeRecord} {s s' : NetworkStore R C J}
    (h : nodes.foldlM (insertNode types version siteName) s = .ok s') :
    ∃ rows, nodes.mapM (nodeRow types version siteName) = .ok rows ∧
      s' = { s with nodes := s.nodes.upserts NodeRow.nodeId_overwrite rows } := by
  have hturn : ∀ (s : NetworkStore R C J) n s', insertNode types version siteName s n = .ok s' →
      ∃ row, nodeRow types version siteName n = .ok row ∧
        s' = { s with nodes := s.nodes.upsert NodeRow.nodeId_overwrite row } := by
    intro s n s' hturn
    obtain ⟨row, hrow, hturn⟩ := bind_eq_ok.mp hturn
    split at hturn
    · exact nomatch hturn
    · exact ⟨row, hrow, (Except.ok.inj hturn).symm⟩
  obtain ⟨rows, hrows, rfl⟩ := mapM_of_foldlM hturn h
  exact ⟨rows, hrows, foldl_upsert_nodes rows s⟩

/-- The parent that a model has for a node. -/
def parentOf (nodes : List NodeRecord) (id : String) : Option String :=
  (nodes.find? fun n => n.nodeId = id).bind NodeRecord.parentId

/-- What the second pass makes of a row. -/
def NodeRow.adopt (parent : Option String) (row : NodeRow R C J) : NodeRow R C J :=
  { row with parentId := parent.or row.parentId }

theorem adopt_none : (NodeRow.adopt none : NodeRow R C J → NodeRow R C J) = id := rfl

theorem writeParent_ok {s s' : NetworkStore R C J} {n : NodeRecord}
    (hparent : ∀ p, n.parentId = some p → p ≠ "" ∧ p.toList.getLast? ≠ some ' ')
    (h : writeParent s n = .ok s') :
    { s' with nodes := s.nodes } = s ∧
      ∀ j, s'.nodes.row? j =
        if n.nodeId = j then (s.nodes.row? j).map (NodeRow.adopt n.parentId)
        else s.nodes.row? j := by
  unfold writeParent at h
  cases hp : n.parentId with
  | none =>
      rw [hp] at h
      injection h with h
      subst h
      refine ⟨rfl, fun j => ?_⟩
      rw [adopt_none, Option.map_id_fun, id, ite_self]
  | some p =>
      obtain ⟨hne, hlast⟩ := hparent p hp
      have hgiven : given n.parentId = some p := by
        rw [hp]
        exact if_neg hne
      rw [hgiven] at h
      dsimp only at h
      obtain ⟨parent, hvarchar, hwrite⟩ := bind_eq_ok.mp h
      obtain rfl := varchar_eq hlast hvarchar
      split at hwrite
      · exact nomatch hwrite
      · injection hwrite with hwrite
        subst hwrite
        exact ⟨rfl, fun j =>
          Table.row?_update s.nodes n.nodeId j (NodeRow.adopt (some parent)) fun _ => rfl⟩

theorem parentOf_cons (n : NodeRecord) (rest : List NodeRecord) (j : String) :
    parentOf (n :: rest) j = if n.nodeId = j then n.parentId else parentOf rest j := by
  rw [parentOf, List.find?_cons]
  by_cases hj : n.nodeId = j
  · rw [if_pos hj, decide_eq_true hj]
    rfl
  · rw [if_neg hj, decide_eq_false hj]
    rfl

theorem parentOf_eq_none {nodes : List NodeRecord} {j : String}
    (h : j ∉ nodes.map NodeRecord.nodeId) : parentOf nodes j = none := by
  have hfind : nodes.find? (fun n => n.nodeId = j) = none := by
    rw [List.find?_eq_none]
    exact fun n hn hj => h (List.mem_map.mpr ⟨n, hn, of_decide_eq_true hj⟩)
  rw [parentOf, hfind]
  rfl

theorem parentOf_of_mem {nodes : List NodeRecord} (hkey : (nodes.map NodeRecord.nodeId).Nodup)
    {n : NodeRecord} (hn : n ∈ nodes) : parentOf nodes n.nodeId = n.parentId := by
  induction nodes with
  | nil => exact nomatch hn
  | cons first rest ih =>
      rw [List.map_cons, List.nodup_cons] at hkey
      rw [parentOf_cons]
      rcases List.mem_cons.mp hn with rfl | hn
      · exact if_pos rfl
      · have hne : first.nodeId ≠ n.nodeId := fun heq => hkey.1 (heq ▸ List.mem_map_of_mem hn)
        rw [if_neg hne, ih hkey.2 hn]

theorem writeParents_ok {nodes : List NodeRecord} (hkey : (nodes.map NodeRecord.nodeId).Nodup)
    (hparent : ∀ n ∈ nodes, ∀ p, n.parentId = some p → p ≠ "" ∧ p.toList.getLast? ≠ some ' ')
    {s s' : NetworkStore R C J} (h : nodes.foldlM writeParent s = .ok s') :
    { s' with nodes := s.nodes } = s ∧
      ∀ j, s'.nodes.row? j = (s.nodes.row? j).map (NodeRow.adopt (parentOf nodes j)) := by
  induction nodes generalizing s with
  | nil =>
      injection h with h
      subst h
      exact ⟨rfl, fun j => (Option.map_id_apply ..).symm⟩
  | cons n rest ih =>
      rw [List.map_cons, List.nodup_cons] at hkey
      rw [List.foldlM_cons] at h
      obtain ⟨next, hnext, h⟩ := bind_eq_ok.mp h
      obtain ⟨hother, hrow⟩ := writeParent_ok (hparent n List.mem_cons_self) hnext
      obtain ⟨hother', hrow'⟩ := ih hkey.2 (fun m hm => hparent m (List.mem_cons_of_mem _ hm)) h
      refine ⟨?_, fun j => ?_⟩
      · rw [← hother, ← hother']
      · rw [hrow', hrow, parentOf_cons]
        by_cases hj : n.nodeId = j
        · rw [if_pos hj, if_pos hj, parentOf_eq_none (hj ▸ hkey.1), adopt_none, Option.map_id_fun,
            id]
        · rw [if_neg hj, if_neg hj]

/-- What an import makes of the row of a node. -/
def writtenRow (n : NodeRecord) (fresh : NodeRow R C J) (old : Option (NodeRow R C J)) :
    NodeRow R C J :=
  NodeRow.adopt n.parentId ((old.map fresh.overwrite).getD fresh)

theorem upsertNodes_ok {m : ParsedModel} {s s' : NetworkStore R C J}
    (h : upsertNodes types m.nodes version siteName s = .ok s') :
    { s' with nodes := s.nodes } = s ∧
      (∀ n ∈ m.nodes, ∃ fresh, nodeRow types version siteName n = .ok fresh ∧
        s'.nodes.row? n.nodeId = some (writtenRow n fresh (s.nodes.row? n.nodeId))) ∧
      ∀ j, j ∉ m.nodes.map NodeRecord.nodeId → s'.nodes.row? j = s.nodes.row? j := by
  obtain ⟨inserted, hinsert, h⟩ := bind_eq_ok.mp h
  obtain ⟨rows, hrows, rfl⟩ := insertNodes_ok hinsert
  have hlast : ∀ n ∈ m.nodes, ∀ t, varchar 64 n.nodeId = .ok t → t = n.nodeId :=
    fun n hn t => varchar_eq (m.stripped n hn).2
  have hids : rows.map NodeRow.nodeId = m.nodes.map NodeRecord.nodeId :=
    map_of_mapM (fun n hn row hrow => hlast n hn _ (nodeId_of_nodeRow hrow).1) hrows
  have hparent : ∀ n ∈ m.nodes, ∀ p, n.parentId = some p →
      p ≠ "" ∧ p.toList.getLast? ≠ some ' ' := by
    intro n hn p hp
    obtain ⟨parent, hparent, rfl⟩ := List.mem_map.mp (m.parents n hn p hp)
    exact m.stripped parent hparent
  obtain ⟨hother, hrow⟩ := writeParents_ok m.key hparent h
  refine ⟨?_, fun n hn => ?_, fun j hj => ?_⟩
  · exact congrArg (fun t : NetworkStore R C J => { t with nodes := s.nodes }) hother
  · obtain ⟨fresh, hfresh⟩ := mapM_isOk.mp ⟨rows, hrows⟩ n hn
    have hid : fresh.nodeId = n.nodeId := hlast n hn _ (nodeId_of_nodeRow hfresh).1
    have hmem : fresh ∈ rows := (mem_of_mapM hrows fresh).mpr ⟨n, hn, hfresh⟩
    refine ⟨fresh, hfresh, ?_⟩
    rw [hrow, parentOf_of_mem m.key hn, ← hid]
    exact congrArg _ (Table.row?_upserts_of_mem _ (hids ▸ m.key) hmem s.nodes)
  · rw [hrow, parentOf_eq_none hj, adopt_none, Option.map_id_fun, id]
    exact Table.row?_upserts_of_notMem _ (hids ▸ hj) _

end Nodes

/-! ### The edges -/

section Edges

variable {types : ColumnTypes R C J} {version : ℕ}

theorem foldl_upsert_edges (rows : List (EdgeRow R J)) (s : NetworkStore R C J) :
    rows.foldl (fun s row => { s with edges := s.edges.upsert EdgeRow.edgeId_overwrite row }) s =
      { s with edges := s.edges.upserts EdgeRow.edgeId_overwrite rows } := by
  induction rows generalizing s with
  | nil => rfl
  | cons row rows ih =>
      rw [List.foldl_cons, ih]
      rfl

theorem upsertEdges_ok {edges : List EdgeRecord} {s s' : NetworkStore R C J}
    (h : upsertEdges types edges version s = .ok s') :
    ∃ rows, edges.mapM (edgeRow types version) = .ok rows ∧
      s' = { s with edges := s.edges.upserts EdgeRow.edgeId_overwrite rows } := by
  have hturn : ∀ (s : NetworkStore R C J) e s', insertEdge types version s e = .ok s' →
      ∃ row, edgeRow types version e = .ok row ∧
        s' = { s with edges := s.edges.upsert EdgeRow.edgeId_overwrite row } := by
    intro s e s' hturn
    obtain ⟨row, hrow, hturn⟩ := bind_eq_ok.mp hturn
    split at hturn
    · exact nomatch hturn
    · exact ⟨row, hrow, (Except.ok.inj hturn).symm⟩
  obtain ⟨rows, hrows, rfl⟩ := mapM_of_foldlM hturn h
  exact ⟨rows, hrows, foldl_upsert_edges rows s⟩

end Edges

/-! ### A run -/

section Run

variable {types : ColumnTypes R C J} {m : ParsedModel} {p : Publication} {siteName : Option String}
  {s s' : NetworkStore R C J} {r : ImportResult}

/-- A site or a version touches neither nodes nor edges. -/
theorem ensureSite_tables (types : ColumnTypes R C J) (site : Option String)
    (s : NetworkStore R C J) :
    ((ensureSite site).run (loaderExec types) s).2.nodes = s.nodes ∧
      ((ensureSite site).run (loaderExec types) s).2.edges = s.edges := by
  cases site with
  | none => exact ⟨rfl, rfl⟩
  | some site =>
      rw [ensureSite, Prog.run_call, loaderExec]
      split
      · exact ⟨rfl, rfl⟩
      · dsimp only
        split <;> exact ⟨rfl, rfl⟩

/-- An import that succeeds has upserted its nodes, and then its edges. -/
theorem importParsed_ok (h : Imports types m p siteName s r s') :
    ∃ s₀ s₁, s₀.nodes = s.nodes ∧ s₀.edges = s.edges ∧
      upsertNodes types m.nodes r.version.version siteName s₀ = .ok s₁ ∧
      upsertEdges types m.edges r.version.version s₁ = .ok s' := by
  obtain ⟨_, sited, hsite, h⟩ := Prog.run_bind_eq_ok _ h
  obtain ⟨version, published, hpublish, h⟩ := Prog.run_bind_eq_ok _ h
  obtain ⟨nCount, noded, hnodes, h⟩ := Prog.run_bind_eq_ok _ h
  obtain ⟨eCount, edged, hedges, h⟩ := Prog.run_bind_eq_ok _ h
  rw [Prog.run_call] at hpublish hnodes hedges
  obtain ⟨rfl, rfl⟩ : ⟨version, nCount, eCount⟩ = r ∧ edged = s' := by
    injection h with hr hs
    exact ⟨Except.ok.inj hr, hs⟩
  obtain ⟨hnodes₀, hedges₀⟩ := ensureSite_tables types (given siteName) s
  rw [hsite] at hnodes₀ hedges₀
  have hpublished : published.nodes = sited.nodes ∧ published.edges = sited.edges := by
    injection hpublish with _ hpublish
    subst hpublish
    exact ⟨rfl, rfl⟩
  refine ⟨published, noded, hpublished.1.trans hnodes₀, hpublished.2.trans hedges₀, ?_, ?_⟩
  · unfold loaderExec at hnodes
    dsimp only at hnodes
    split at hnodes
    · exact nomatch hnodes
    · rename_i hupsert
      injection hnodes with _ hnoded
      exact hnoded ▸ hupsert
  · unfold loaderExec at hedges
    dsimp only at hedges
    split at hedges
    · exact nomatch hedges
    · rename_i hupsert
      injection hedges with _ hedged
      exact hedged ▸ hupsert

end Run

/-! ### What the rows carry -/

/-- What is imported into a row, but for the version. -/
def NodeRow.imported (row : NodeRow R C J) : NodeValues R C J × Option String :=
  ({ row.toNodeValues with modelVersion := none }, row.parentId)

def EdgeRow.imported (row : EdgeRow R J) : EdgeValues R J :=
  { row.toEdgeValues with modelVersion := none }

/-- The rows carry what the model has, the parent included. -/
structure CarriesModel (types : ColumnTypes R C J) (m : ParsedModel) (version : ℕ)
    (siteName : Option String) (s : NetworkStore R C J) : Prop where
  nodes : ∀ n ∈ m.nodes, ∃ fresh row, nodeRow types version siteName n = .ok fresh ∧
    s.nodes.row? n.nodeId = some row ∧ row.toNodeValues = fresh.toNodeValues ∧
      row.parentId = n.parentId
  edges : ∀ e ∈ m.edges, ∃ fresh row, edgeRow types version e = .ok fresh ∧
    s.edges.row? fresh.edgeId = some row ∧ row.toEdgeValues = fresh.toEdgeValues

/-- Two databases have the same imported values in the rows of the model. -/
structure SameRows (types : ColumnTypes R C J) (m : ParsedModel) (s t : NetworkStore R C J) :
    Prop where
  nodes : ∀ n ∈ m.nodes,
    (s.nodes.row? n.nodeId).map NodeRow.imported = (t.nodes.row? n.nodeId).map NodeRow.imported
  edges : ∀ e ∈ m.edges, ∀ id, types.name 64 e.edgeId = .ok id →
    (s.edges.row? id).map EdgeRow.imported = (t.edges.row? id).map EdgeRow.imported

/-- The same rows in every column but the version. -/
structure SameButVersion (s t : NetworkStore R C J) : Prop where
  nodes : ∀ id,
    (s.nodes.row? id).map NodeRow.unversioned = (t.nodes.row? id).map NodeRow.unversioned
  edges : ∀ id,
    (s.edges.row? id).map EdgeRow.unversioned = (t.edges.row? id).map EdgeRow.unversioned

/-- No node without a parent has one in its row. -/
def NoStaleParent (m : ParsedModel) (s : NetworkStore R C J) : Prop :=
  ∀ n ∈ m.nodes, n.parentId = none → ∀ row, s.nodes.row? n.nodeId = some row → row.parentId = none

instance (m : ParsedModel) (s : NetworkStore R C J) : Decidable (NoStaleParent m s) :=
  decidable_of_iff (∀ n ∈ m.nodes, n.parentId = none →
      (s.nodes.row? n.nodeId).bind NodeRow.parentId = none) <| by
    refine forall₂_congr fun n _ => forall_congr' fun _ => ⟨fun h row hrow => ?_, fun h => ?_⟩
    · rw [hrow] at h
      exact h
    · cases hrow : s.nodes.row? n.nodeId with
      | none => rfl
      | some row => exact h row hrow

/-- Edges of one id are one row. -/
def EdgesAgree (types : ColumnTypes R C J) (m : ParsedModel) : Prop :=
  ∀ e ∈ m.edges, ∀ f ∈ m.edges, types.name 64 e.edgeId = types.name 64 f.edgeId →
    ∀ version, edgeRow types version e = edgeRow types version f

section Imported

variable {types : ColumnTypes R C J} {m : ParsedModel} {p : Publication} {siteName : Option String}
  {s s' : NetworkStore R C J} {r : ImportResult}

theorem values_writtenRow (n : NodeRecord) (fresh : NodeRow R C J)
    (old : Option (NodeRow R C J)) :
    (writtenRow n fresh old).toNodeValues = fresh.toNodeValues := by
  cases old <;> rfl

theorem parentId_writtenRow (n : NodeRecord) (fresh : NodeRow R C J)
    (old : Option (NodeRow R C J)) :
    (writtenRow n fresh old).parentId =
      n.parentId.or ((old.map NodeRow.parentId).getD fresh.parentId) := by
  cases old <;> rfl

/-- The row of a node after an import. -/
theorem row?_node (h : Imports types m p siteName s r s')
    {n : NodeRecord} (hn : n ∈ m.nodes) :
    ∃ fresh, nodeRow types r.version.version siteName n = .ok fresh ∧
      s'.nodes.row? n.nodeId = some (writtenRow n fresh (s.nodes.row? n.nodeId)) := by
  obtain ⟨s₀, s₁, hnodes₀, -, hnodes, hedges⟩ := importParsed_ok h
  obtain ⟨-, hrow, -⟩ := upsertNodes_ok hnodes
  obtain ⟨rows, -, rfl⟩ := upsertEdges_ok hedges
  rw [← hnodes₀]
  exact hrow n hn

theorem row?_otherNode (h : Imports types m p siteName s r s')
    {id : String} (hid : id ∉ m.nodes.map NodeRecord.nodeId) :
    s'.nodes.row? id = s.nodes.row? id := by
  obtain ⟨s₀, s₁, hnodes₀, -, hnodes, hedges⟩ := importParsed_ok h
  obtain ⟨-, -, hother⟩ := upsertNodes_ok hnodes
  obtain ⟨rows, -, rfl⟩ := upsertEdges_ok hedges
  rw [← hnodes₀]
  exact hother id hid

/-- The rows of the edges after an import. -/
theorem edges_imported (h : Imports types m p siteName s r s') :
    ∃ rows, m.edges.mapM (edgeRow types r.version.version) = .ok rows ∧
      s'.edges = s.edges.upserts EdgeRow.edgeId_overwrite rows := by
  obtain ⟨s₀, s₁, -, hedges₀, hnodes, hedges⟩ := importParsed_ok h
  obtain ⟨hother, -, -⟩ := upsertNodes_ok hnodes
  obtain ⟨rows, hrows, rfl⟩ := upsertEdges_ok hedges
  have hsame : NetworkStore.edges { s₁ with nodes := s₀.nodes } = s₀.edges :=
    congrArg NetworkStore.edges hother
  exact ⟨rows, hrows, by rw [← hedges₀, ← hsame]⟩

/-- The row of an edge id has the values of the last edge for it. -/
theorem row?_edge (h : Imports types m p siteName s r s')
    {e : EdgeRecord} (he : e ∈ m.edges) :
    ∃ fresh, edgeRow types r.version.version e = .ok fresh ∧
      ∃ f ∈ m.edges, ∃ last row, edgeRow types r.version.version f = .ok last ∧
        last.edgeId = fresh.edgeId ∧ s'.edges.row? fresh.edgeId = some row ∧
          row.toEdgeValues = last.toEdgeValues := by
  obtain ⟨rows, hrows, hedges⟩ := edges_imported h
  obtain ⟨fresh, hfresh⟩ := mapM_isOk.mp ⟨rows, hrows⟩ e he
  have hmem : fresh ∈ rows := (mem_of_mapM hrows fresh).mpr ⟨e, he, hfresh⟩
  have hview : ∀ new old : EdgeRow R J, (new.overwrite old).toEdgeValues = new.toEdgeValues :=
    fun _ _ => rfl
  have hvalues := Table.map_row?_upserts_new EdgeRow.edgeId_overwrite hview rows s.edges
    fresh.edgeId
  rw [← hedges] at hvalues
  cases hlast : rows.reverse.find? fun row => decide (row.edgeId = fresh.edgeId) with
  | none =>
      have hnot := List.find?_eq_none.mp hlast fresh (List.mem_reverse.mpr hmem)
      exact absurd (decide_eq_true rfl) hnot
  | some last =>
      rw [hlast, Option.map_some, Option.some_or] at hvalues
      obtain ⟨row, hrow, hsame⟩ := Option.map_eq_some_iff.mp hvalues
      have hin := List.mem_reverse.mp (List.mem_of_find?_eq_some hlast)
      obtain ⟨f, hf, hfrow⟩ := (mem_of_mapM hrows last).mp hin
      have hid : last.edgeId = fresh.edgeId := by simpa using List.find?_some hlast
      exact ⟨fresh, hfresh, f, hf, last, row, hfrow, hid, hrow, hsame⟩

/-- Fresh rows of one id and of the same values are one row. -/
theorem edgeRow_eq {version : ℕ} {e f : EdgeRecord} {row row' : EdgeRow R J}
    (he : edgeRow types version e = .ok row) (hf : edgeRow types version f = .ok row')
    (hid : row.edgeId = row'.edgeId) (hvalues : row.toEdgeValues = row'.toEdgeValues) :
    row = row' := by
  have hkept : row.kept = row'.kept := by
    rw [(edgeId_of_edgeRow he).2, (edgeId_of_edgeRow hf).2, hid]
  obtain ⟨values, id, rating, tenant⟩ := row
  obtain ⟨values', id', rating', tenant'⟩ := row'
  simp only [EdgeRow.kept, Prod.mk.injEq] at hkept
  obtain ⟨rfl, rfl, rfl⟩ := hkept
  exact congrArg (fun v => EdgeRow.mk v id rating tenant) hvalues

theorem carriesModel_iff (h : Imports types m p siteName s r s') :
    CarriesModel types m r.version.version siteName s' ↔
      NoStaleParent m s ∧ EdgesAgree types m := by
  constructor
  · intro hcarries
    constructor
    · intro n hn hnone old hold
      obtain ⟨fresh, -, hrow⟩ := row?_node h hn
      obtain ⟨-, row, -, hrow', -, hparent⟩ := hcarries.nodes n hn
      rw [hrow, Option.some.injEq] at hrow'
      rw [← hrow', parentId_writtenRow, hnone, hold, Option.none_or] at hparent
      exact hparent
    · intro e he f hf hname version
      obtain ⟨fresh, row, hfresh, hrow, hvalues⟩ := hcarries.edges e he
      obtain ⟨fresh', row', hfresh', hrow', hvalues'⟩ := hcarries.edges f hf
      have hid : fresh.edgeId = fresh'.edgeId := by
        rw [(edgeId_of_edgeRow hfresh).1, (edgeId_of_edgeRow hfresh').1] at hname
        exact Except.ok.inj hname
      rw [hid, hrow', Option.some.injEq] at hrow
      have hsame := edgeRow_eq hfresh hfresh' hid (hvalues.symm.trans (hrow ▸ hvalues'))
      rw [edgeRow_version hfresh version, edgeRow_version hfresh' version, hsame]
  · rintro ⟨hstale, hagree⟩
    constructor
    · intro n hn
      obtain ⟨fresh, hfresh, hrow⟩ := row?_node h hn
      refine ⟨fresh, _, hfresh, hrow, values_writtenRow .., ?_⟩
      rw [parentId_writtenRow]
      cases hparent : n.parentId with
      | some parent => rfl
      | none =>
          rw [Option.none_or]
          cases hold : s.nodes.row? n.nodeId with
          | none => exact (nodeId_of_nodeRow hfresh).2
          | some old => exact hstale n hn hparent old hold
    · intro e he
      obtain ⟨fresh, hfresh, f, hf, last, row, hlast, hid, hrow, hvalues⟩ := row?_edge h he
      have hname : types.name 64 e.edgeId = types.name 64 f.edgeId := by
        rw [(edgeId_of_edgeRow hfresh).1, (edgeId_of_edgeRow hlast).1, hid]
      have hsame := hagree e he f hf hname r.version.version
      rw [hfresh, hlast, Except.ok.injEq] at hsame
      exact ⟨fresh, row, hfresh, hrow, hsame ▸ hvalues⟩

theorem sameRows_of_carries {t' : NetworkStore R C J} {v w : ℕ}
    (hs : CarriesModel types m v siteName s') (ht : CarriesModel types m w siteName t') :
    SameRows types m s' t' := by
  constructor
  · intro n hn
    obtain ⟨fresh, row, hfresh, hrow, hvalues, hparent⟩ := hs.nodes n hn
    obtain ⟨fresh', row', hfresh', hrow', hvalues', hparent'⟩ := ht.nodes n hn
    obtain rfl := Except.ok.inj ((nodeRow_version hfresh w).symm.trans hfresh')
    rw [hrow, hrow', Option.map_some, Option.map_some, NodeRow.imported, NodeRow.imported, hvalues,
      hvalues', hparent, hparent']
  · intro e he id hid
    obtain ⟨fresh, row, hfresh, hrow, hvalues⟩ := hs.edges e he
    obtain ⟨fresh', row', hfresh', hrow', hvalues'⟩ := ht.edges e he
    obtain rfl := Except.ok.inj ((edgeRow_version hfresh w).symm.trans hfresh')
    obtain rfl := Except.ok.inj ((edgeId_of_edgeRow hfresh).1.symm.trans hid)
    rw [hrow, hrow', Option.map_some, Option.map_some, EdgeRow.imported, EdgeRow.imported, hvalues,
      hvalues']

theorem unversioned_writtenRow (n : NodeRecord) (fresh : NodeRow R C J) (version : Option ℕ)
    (old : Option (NodeRow R C J)) :
    (writtenRow n { fresh with modelVersion := version }
      (some (writtenRow n fresh old))).unversioned = (writtenRow n fresh old).unversioned := by
  simp only [writtenRow, NodeRow.adopt]
  cases old <;> cases n.parentId <;> rfl

/-- The rows of two imports differ in their version only. -/
theorem map_unversioned_rows {edges : List EdgeRecord} {v w : ℕ} {rows rows' : List (EdgeRow R J)}
    (h : edges.mapM (edgeRow types v) = .ok rows) (h' : edges.mapM (edgeRow types w) = .ok rows') :
    rows.map EdgeRow.unversioned = rows'.map EdgeRow.unversioned := by
  have hview {version : ℕ} {made : List (EdgeRow R J)}
      (hmade : edges.mapM (edgeRow types version) = .ok made) :
      (made.map EdgeRow.unversioned).map Except.ok =
        edges.map fun e => (edgeRow types 0 e).map EdgeRow.unversioned := by
    rw [List.map_map]
    refine map_of_mapM (fun e _ row hrow => ?_) hmade
    rw [edgeRow_version hrow 0]
    rfl
  exact List.map_injective_iff.mpr (fun _ _ => Except.ok.inj) ((hview h).trans (hview h').symm)

theorem map_find?_unversioned {β : Type} {view : EdgeRow R J → β}
    (hview : ∀ row, view row.unversioned = view row) {rows rows' : List (EdgeRow R J)}
    (h : rows.map EdgeRow.unversioned = rows'.map EdgeRow.unversioned) (id : String) :
    (rows.find? fun row => row.edgeId = id).map view =
      (rows'.find? fun row => row.edgeId = id).map view := by
  have hfind (l : List (EdgeRow R J)) : (l.find? fun row => row.edgeId = id).map view =
      ((l.map EdgeRow.unversioned).find? fun row => row.edgeId = id).map view := by
    rw [List.find?_map, Option.map_map]
    exact congrArg (fun g => Option.map g _) (funext fun row => (hview row).symm)
  rw [hfind rows, h, ← hfind rows']

theorem imported_upserts (rows : List (EdgeRow R J)) (s : NetworkStore R C J) (id : String) :
    ((s.edges.upserts EdgeRow.edgeId_overwrite rows).row? id).map EdgeRow.imported =
      ((rows.reverse.find? fun row => row.edgeId = id).map EdgeRow.imported).or
        ((s.edges.row? id).map EdgeRow.imported) := by
  have hview : ∀ new old : EdgeRow R J, (new.overwrite old).imported = new.imported :=
    fun _ _ => rfl
  exact Table.map_row?_upserts_new _ hview rows s.edges id

theorem kept_upserts (rows : List (EdgeRow R J)) (s : NetworkStore R C J) (id : String) :
    ((s.edges.upserts EdgeRow.edgeId_overwrite rows).row? id).map EdgeRow.kept =
      ((s.edges.row? id).map EdgeRow.kept).or
        ((rows.find? fun row => row.edgeId = id).map EdgeRow.kept) := by
  have hview : ∀ new old : EdgeRow R J, (new.overwrite old).kept = old.kept := fun _ _ => rfl
  exact Table.map_row?_upserts_old _ hview rows s.edges id

theorem map_unversioned_eq {row row' : Option (EdgeRow R J)}
    (himported : row.map EdgeRow.imported = row'.map EdgeRow.imported)
    (hkept : row.map EdgeRow.kept = row'.map EdgeRow.kept) :
    row.map EdgeRow.unversioned = row'.map EdgeRow.unversioned := by
  cases row with
  | none =>
      cases row' with
      | none => rfl
      | some row' => exact nomatch hkept
  | some row =>
      cases row' with
      | none => exact nomatch hkept
      | some row' =>
          obtain ⟨values, id, rating, tenant⟩ := row
          obtain ⟨values', id', rating', tenant'⟩ := row'
          simp only [Option.map_some, Option.some.injEq, EdgeRow.kept, Prod.mk.injEq] at hkept
          obtain ⟨rfl, rfl, rfl⟩ := hkept
          exact congrArg (Option.map fun v => EdgeRow.mk v id rating tenant) himported

theorem sameButVersion_twice {q : Publication} {s'' : NetworkStore R C J} {r' : ImportResult}
    (h : Imports types m p siteName s r s')
    (h' : Imports types m q siteName s' r' s'') :
    SameButVersion s'' s' := by
  constructor
  · intro id
    by_cases hid : id ∈ m.nodes.map NodeRecord.nodeId
    · obtain ⟨n, hn, rfl⟩ := List.mem_map.mp hid
      obtain ⟨fresh, hfresh, hrow⟩ := row?_node h hn
      obtain ⟨fresh', hfresh', hrow'⟩ := row?_node h' hn
      obtain rfl := Except.ok.inj ((nodeRow_version hfresh _).symm.trans hfresh')
      rw [hrow', hrow, Option.map_some, unversioned_writtenRow]
      rfl
    · rw [row?_otherNode h' hid]
  · intro id
    obtain ⟨rows, hrows, hedges⟩ := edges_imported h
    obtain ⟨rows', hrows', hedges'⟩ := edges_imported h'
    have hsame := map_unversioned_rows hrows' hrows
    have hreverse :
        rows'.reverse.map EdgeRow.unversioned = rows.reverse.map EdgeRow.unversioned := by
      rw [List.map_reverse, hsame, List.map_reverse]
    refine map_unversioned_eq ?_ ?_
    · -- the last edge for an id counts, both times the same
      rw [hedges', imported_upserts, map_find?_unversioned (fun _ => rfl) hreverse, hedges,
        imported_upserts]
      cases (rows.reverse.find? fun row => decide (row.edgeId = id)).map EdgeRow.imported <;> rfl
    · rw [hedges', kept_upserts, map_find?_unversioned (fun _ => rfl) hsame, hedges, kept_upserts]
      cases (s.edges.row? id).map EdgeRow.kept with
      | some _ => rfl
      | none => cases (rows.find? fun row => decide (row.edgeId = id)).map EdgeRow.kept <;> rfl

/-- **What an import leaves.** When a model has been imported into two databases,
the rows of both carry what the model has, so that they are the same, and
importing it once more changes nothing but the version, if and only if in both
no node without a parent had one in its row and edges of one id are one row. -/
theorem import_carries_iff {p' : Publication} {t t' : NetworkStore R C J} {r' : ImportResult}
    (hs : Imports types m p siteName s r s')
    (ht : Imports types m p' siteName t r' t') :
    (CarriesModel types m r.version.version siteName s' ∧
        CarriesModel types m r'.version.version siteName t' ∧ SameRows types m s' t' ∧
          ∀ q r'' s'', Imports types m q siteName s' r'' s'' →
            SameButVersion s'' s') ↔
      NoStaleParent m s ∧ NoStaleParent m t ∧ EdgesAgree types m := by
  rw [carriesModel_iff hs, carriesModel_iff ht]
  constructor
  · rintro ⟨⟨hstale, hagree⟩, ⟨hstale', -⟩, -⟩
    exact ⟨hstale, hstale', hagree⟩
  · rintro ⟨hstale, hstale', hagree⟩
    have hcarries := (carriesModel_iff hs).mpr ⟨hstale, hagree⟩
    have hcarries' := (carriesModel_iff ht).mpr ⟨hstale', hagree⟩
    exact ⟨⟨hstale, hagree⟩, ⟨hstale', hagree⟩, sameRows_of_carries hcarries hcarries',
      fun q r'' s'' hagain => sameButVersion_twice hs hagain⟩

end Imported

/-! ### Two buses -/

/-- The columns as PostgreSQL has them, for the values of the two buses. -/
def postgres : ColumnTypes Double ℚ (Dict PyValue) where
  real x :=
    match x, binary32.convert x with
    | .finite _, .inf _ => .error (.other "value out of range: overflow")
    | _, single => .ok single
  coordinate v :=
    match v with
    | .num (.int n) => if |n| < 1000 then .ok n else .error (.other "numeric field overflow")
    | _ => .error (.other "not modelled")
  jsonb attrs := .ok attrs
  text _ := .error (.other "not modelled")

/-- A line between two buses, fed from the first. -/
def fedFrom (root other : String) (hne : root ≠ other)
    (hstripped : ∀ id ∈ [root, other], id ≠ "" ∧ id.toList.getLast? ≠ some ' ') : ParsedModel where
  nodes := [{ nodeId := root, name := some root },
    { nodeId := other, name := some other, baseLoadKw := .finite 3, parentId := some root }]
  edges := [{ edgeId := .str "L1", fromNode := root, toNode := other,
              lengthKm := some (.finite 2) }]
  key := by simpa using hne
  stripped := by simpa using hstripped
  parents := by simp

def fromNorth : ParsedModel := fedFrom "north" "south" (by decide) (by decide)

def fromSouth : ParsedModel := fedFrom "south" "north" (by decide) (by decide)

def emptyNetwork : NetworkStore Double ℚ (Dict PyValue) where
  versions := seeded.versions
  sequence := 1

/-- The feeder, imported into a database. -/
def imported (m : ParsedModel) (s : NetworkStore Double ℚ (Dict PyValue)) :
    Except Exc ImportResult × NetworkStore Double ℚ (Dict PyValue) :=
  (importParsed m.nodes m.edges { label := "feeder" } none).run (loaderExec postgres) s

/-- Imported once, and once more. -/
theorem fromNorth_carried :
    CarriesModel postgres fromNorth 2 none (imported fromNorth emptyNetwork).2 ∧
      CarriesModel postgres fromNorth 3 none
        (imported fromNorth (imported fromNorth emptyNetwork).2).2 := by
  have honce : Imports postgres fromNorth { label := "feeder" } none emptyNetwork
      ⟨⟨2, "feeder", none, "topology-importer", true⟩, 2, 1⟩
      (imported fromNorth emptyNetwork).2 := Prod.ext (by decide +kernel) rfl
  have htwice : Imports postgres fromNorth { label := "feeder" } none
      (imported fromNorth emptyNetwork).2
      ⟨⟨3, "feeder", none, "topology-importer", true⟩, 2, 1⟩
      (imported fromNorth (imported fromNorth emptyNetwork).2).2 :=
    Prod.ext (by decide +kernel) rfl
  have hagree : EdgesAgree postgres fromNorth := by
    intro e he f hf _ version
    rw [List.mem_singleton.mp he, List.mem_singleton.mp hf]
  have hcarried := (import_carries_iff honce htwice).mpr
    ⟨by decide +kernel, by decide +kernel, hagree⟩
  exact ⟨hcarried.1, hcarried.2.1⟩

/-- The feeder was fed from the other side before: its new root keeps a parent,
and each of the two buses is above the other. -/
theorem fromSouth_keeps_parent :
    (imported fromSouth (imported fromNorth emptyNetwork).2).1 =
        .ok ⟨⟨3, "feeder", none, "topology-importer", true⟩, 2, 1⟩ ∧
      ¬ CarriesModel postgres fromSouth 3 none
        (imported fromSouth (imported fromNorth emptyNetwork).2).2 := by
  refine ⟨by decide +kernel, fun hcarries => ?_⟩
  have hkept : ((imported fromSouth (imported fromNorth emptyNetwork).2).2.nodes.row? "south").bind
      NodeRow.parentId = some "north" := by decide +kernel
  obtain ⟨-, row, -, hrow, -, hparent⟩ := hcarries.nodes _ List.mem_cons_self
  have hroot : (imported fromSouth (imported fromNorth emptyNetwork).2).2.nodes.row? "south" =
      some row := hrow
  rw [hroot] at hkept
  exact nomatch hparent.symm.trans hkept

end DiepLab.Topology.Loader
