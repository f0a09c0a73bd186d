import DiepLab.Library.Numerals
import DiepLab.Topology.Geojson
import DiepLab.Topology.Records

/-!
The parser of the topology importer, on the JSON that it is given.

`parse_feature_collection` goes over the features four times. The points that
are neither loads nor transformers become nodes, and the node at each coordinate
is noted (`collect`). Then every load, every transformer and every line is
handled by itself, from what has been noted: `handleLoad`, `handleTransformer`
and `handleLine` say what becomes of it (`Outcome`), and `Progress.put` puts it
away. Only the name of an edge that has none depends on what came before.

What the functions raise is `ParseError`, and a feature collection is accepted
if nothing is.
-/

namespace DiepLab.Topology.Features

inductive ParseError where
  | attributeError | keyError | indexError | typeError | valueError | overflowError
  deriving DecidableEq, Repr

/-! ### Operations on values -/

/-- `v.get(name, default)`. -/
def getOr (v : PyValue) (name : String) (default : PyValue) : Except ParseError PyValue :=
  match v with
  | .dict fields => .ok ((Dict.get? fields name).getD default)
  | _ => .error .attributeError

/-- `v[name]`. -/
def field (v : PyValue) (name : String) : Except ParseError PyValue :=
  match v with
  | .dict fields =>
      match Dict.get? fields name with
      | some x => .ok x
      | none => .error .keyError
  | _ => .error .typeError

/-- `v or other`. -/
def orElse (v other : PyValue) : PyValue := if v.truthy then v else other

/-- `v == text`. -/
def isText (v : PyValue) (text : String) : Bool :=
  match v with
  | .str s => s = text
  | _ => false

def characters (s : String) : List PyValue := s.toList.map fun c => .str (String.ofList [c])

/-- What a loop over the value goes through. -/
def iterate : PyValue → Except ParseError (List PyValue)
  | .list items => .ok items
  | .str s => .ok (characters s)
  | .dict fields => .ok (fields.map fun field => .str field.1)
  | _ => .error .typeError

/-- What the value has at its places; no number is a key of an object. -/
def places : PyValue → Except ParseError (List PyValue)
  | .list items => .ok items
  | .str s => .ok (characters s)
  | .dict _ => .error .keyError
  | _ => .error .typeError

/-- `float(v)`. -/
def toFloat : PyValue → Except ParseError Double
  | .bool b => .ok (.finite (if b then 1 else 0))
  | .num x =>
      match x.toDouble? with
      | some x => .ok x
      | none => .error .overflowError
  | .str s =>
      match Numerals.float? s.toList with
      | some x => .ok x
      | none => .error .valueError
  | _ => .error .typeError

/-- `float(v or 0)`. -/
def floatOrZero (v : PyValue) : Except ParseError Double :=
  if v.truthy then toFloat v else .ok (.finite 0)

/-- `str(v)`; `repr` is the text of a list or an object. -/
def textOf (repr : PyValue → Except ParseError String) : PyValue → Except ParseError String
  | .none => .ok "None"
  | .bool b => .ok (if b then "True" else "False")
  | .num (.int n) =>
      match Numerals.intText? n with
      | some t => .ok (String.ofList t)
      | none => .error .valueError
  | .num (.float x) => .ok (String.ofList (Numerals.floatText x))
  | .str s => .ok s
  | v => repr v

/-! ### Features -/

/-- `f.get("properties") or {}`. -/
def properties (f : PyValue) : Except ParseError PyValue := do
  pure (orElse (← getOr f "properties" .none) (.dict []))

/-- `(f.get("geometry") or {}).get("type")`. -/
def geometryType (f : PyValue) : Except ParseError PyValue := do
  getOr (orElse (← getOr f "geometry" .none) (.dict [])) "type" .none

/-- `props.get("type", "Node")`. -/
def sourceType (f : PyValue) : Except ParseError PyValue := do
  getOr (← properties f) "type" (.str "Node")

/-- `props.get("name") or ""`. -/
def rawName (f : PyValue) : Except ParseError PyValue := do
  pure (orElse (← getOr (← properties f) "name" .none) (.str ""))

/-- `f["geometry"]["coordinates"]`. -/
def coordinates (f : PyValue) : Except ParseError PyValue := do
  field (← field f "geometry") "coordinates"

/-- The features of one geometry. -/
def ofGeometry (kind : String) : List PyValue → Except ParseError (List PyValue)
  | [] => .ok []
  | f :: rest => do
      let type ← geometryType f
      let others ← ofGeometry kind rest
      pure (if isText type kind then f :: others else others)

/-! ### Coordinates -/

def keyOf : Double → Key
  | .finite q => .num q
  | .inf negative => .inf negative
  | .nan => .nan

/-- `round(v, 6)`, for a key. -/
def roundNumber : PyValue → Except ParseError Key
  | .bool b => .ok (.num (if b then 1 else 0))
  | .num (.int n) => .ok (.num n)
  | .num (.float (.finite q)) => .ok (keyOf (Double.ofRat (roundTo coordPrecision q)))
  | .num (.float x) => .ok (keyOf x)
  | _ => .error .typeError

def roundCoord (lon lat : PyValue) : Except ParseError (Key × Key) := do
  pure (← roundNumber lon, ← roundNumber lat)

/-- `lon, lat = v[:2]`. A slice can be hashed, and is no key. -/
def unpackPair (v : PyValue) : Except ParseError (PyValue × PyValue) := do
  match ← places v with
  | lon :: lat :: _ => .ok (lon, lat)
  | _ => .error .valueError

/-- `_round_coord(*v[:2])`. -/
def pointKey (v : PyValue) : Except ParseError (Key × Key) := do
  match ← places v with
  | lon :: lat :: _ => roundCoord lon lat
  | _ => .error .typeError

/-- `v[0]` and `v[-1]`. -/
def endItems (v : PyValue) : Except ParseError (PyValue × PyValue) := do
  match ← places v with
  | [] => .error .indexError
  | first :: rest => .ok (first, (first :: rest).getLast nofun)

/-! ### Nodes -/

/-- The features by what they are handled as, and the nodes. -/
structure Collected where
  features : List PyValue
  lineFeats : List PyValue
  loadFeats : List PyValue := []
  transformerFeats : List PyValue := []
  nodes : List NodeRecord := []
  /-- `coord_index`; the entry of a coordinate is the last one written. -/
  coords : List ((Key × Key) × String) := []

def Collected.ids (c : Collected) : List String := c.nodes.map NodeRecord.nodeId

/-- `coord_index.get(...)`. Rounding makes a new `NaN`, which equals no other. -/
def Collected.at (c : Collected) (key : Key × Key) : Option String :=
  if key.1 = .nan ∨ key.2 = .nan then none else c.coords.lookup key

/-- The node that a point is, and the key of its coordinate. -/
def nodeAt (nodeId : String) (srcType f : PyValue) :
    Except ParseError (NodeRecord × Key × Key) := do
  let (lon, lat) ← unpackPair (← coordinates f)
  -- `NODE_TYPE_MAP.get(src_type, "bus")` hashes the type, and is "bus" for any
  if srcType.key? = none then .error .typeError
  else do
    let key ← roundCoord lon lat
    let node : NodeRecord := {
      nodeId := nodeId
      name := some nodeId
      latitude := some lat
      longitude := some lon
      attrs := [("source", .str "smart-ds"), ("source_type", srcType)] }
    pure (node, key)

/-- A turn of the loop over the points. -/
def addPoint (repr : PyValue → Except ParseError String) (c : Collected) (f : PyValue) :
    Except ParseError Collected := do
  let srcType ← sourceType f
  if isText srcType "Load" then
    pure { c with loadFeats := c.loadFeats ++ [f] }
  else if isText srcType "Transformer" then
    pure { c with transformerFeats := c.transformerFeats ++ [f] }
  else do
    let name ← textOf repr (← rawName f)
    if strip name = "" ∨ strip name ∈ c.ids then pure c
    else do
      let (node, key) ← nodeAt (strip name) srcType f
      pure { c with nodes := c.nodes ++ [node], coords := (key, strip name) :: c.coords }

/-- The features and the loop over the points. -/
def collect (repr : PyValue → Except ParseError String) (fc : Dict PyValue) :
    Except ParseError Collected := do
  let features ← iterate ((Dict.get? fc "features").getD (.list []))
  let points ← ofGeometry "Point" features
  let lines ← ofGeometry "LineString" features
  points.foldlM (addPoint repr) { features := features, lineFeats := lines }

/-! ### Loads, transformers and lines -/

structure Unresolved where
  kind : UnresolvedKind
  name : PyValue
  reason : String

/-- What becomes of a feature. -/
inductive Outcome where
  | load (nodeId : String) (kw kvar : Double) (attrs : PyValue)
  | transformer (edge : EdgeRecord) (kvs : List (String × Double))
  | line (edge : EdgeRecord)
  | unresolved (entry : Unresolved)

def handleLoad (c : Collected) (f : PyValue) : Except ParseError Outcome := do
  let props ← properties f
  let (lon, lat) ← unpackPair (← coordinates f)
  let target := c.at (← roundCoord lon lat)
  let name ← getOr props "name" .none
  match target with
  | none => .ok (.unresolved ⟨.load, name, "no Node at this coordinate"⟩)
  | some targetId => do
      let kw ← floatOrZero (← getOr props "max_kw" .none)
      let kvar ← floatOrZero (← getOr props "max_kvar" .none)
      let ratedKv ← getOr props "rated_kv" .none
      let isCt ← getOr props "is_ct" .none
      pure (.load targetId kw kvar
        (.dict [("name", name), ("rated_kv", ratedKv), ("is_ct", .bool isCt.truthy)]))

/-- The nominal voltages that a transformer writes. Where the second one is no
number, the first has been written. -/
def nominalKvs (fromId toId : String) (kvs : PyValue) :
    Except ParseError (List (String × Double)) :=
  match orElse kvs (.list []) with
  | .dict fields => if fields.length < 2 then .ok [] else .error .keyError
  | kvs => do
      match ← places kvs with
      | high :: low :: _ =>
          match toFloat high with
          | .error .overflowError => .error .overflowError
          | .error _ => .ok []
          | .ok highKv =>
              match toFloat low with
              | .error .overflowError => .error .overflowError
              | .error _ => .ok [(fromId, highKv)]
              | .ok lowKv => .ok [(fromId, highKv), (toId, lowKv)]
      | _ => .ok []

/-- The ends that the name of a transformer says. -/
def pairOf (ids : List String) (name : String) : Option (String × String) :=
  (transformerName name).bind fun text => splitPair text ids

def handleTransformer (c : Collected) (f : PyValue) : Except ParseError Outcome := do
  let props ← properties f
  let name ← rawName f
  match name with
  | .str text =>
      match pairOf c.ids text with
      | none => .ok (.unresolved
          ⟨.transformer, name, "could not resolve primary/secondary node ids"⟩)
      | some (fromId, toId) => do
          let kva ← getOr props "kva" .none
          let kvs ← getOr props "kvs" .none
          let written ← nominalKvs fromId toId kvs
          let edge : EdgeRecord := {
            edgeId := name
            fromNode := fromId
            toNode := toId
            edgeType := .transformer
            lengthKm := some (.finite 0)
            attrs := [("source", .str "smart-ds"), ("source_name", name), ("kva", kva),
              ("kvs", kvs)] }
          pure (.transformer edge written)
  | _ => .error .typeError

/-- `_phases`. -/
def phasesOf (raw : PyValue) : Except ParseError String := do
  if ! raw.truthy then pure "ABC"
  else do
    let items ← iterate raw
    let letters := items.filterMap fun item => ["A", "B", "C"].find? (isText item)
    pure (if letters = [] then "A" else String.join letters)

/-- The two nodes that a line joins. -/
def lineEnds (c : Collected) (f : PyValue) : Except ParseError (Option String × Option String) := do
  let (first, last) ← endItems (← coordinates f)
  pure (c.at (← pointKey first), c.at (← pointKey last))

/-- The edge of a line still has the name of its feature. -/
def handleLine (c : Collected) (f : PyValue) : Except ParseError Outcome := do
  let props ← properties f
  let name ← rawName f
  match ← lineEnds c f with
  | (some startId, some endId) => do
      let isSwitch ← getOr props "is_switch" .none
      let isOpen ← getOr props "is_open" .none
      let lengthKm ← floatOrZero (← getOr props "length (km)" .none)
      let ampacity ← floatOrZero (← getOr props "ampacity" .none)
      let phases ← phasesOf (← getOr props "phases" .none)
      let isFuse ← getOr props "is_fuse" .none
      let isCt ← getOr props "is_ct" .none
      pure (.line {
        edgeId := name
        fromNode := startId
        toNode := endId
        edgeType := if isSwitch.truthy then .switch else .line
        isSwitchable := isSwitch.truthy
        normallyClosed := ! isOpen.truthy
        isClosed := ! isOpen.truthy
        lengthKm := some lengthKm
        ampacityA := if ampacity = .finite 0 then none else some ampacity
        phases := phases
        attrs := [("source", .str "smart-ds"), ("source_name", name),
          ("is_fuse", .bool isFuse.truthy), ("is_ct", .bool isCt.truthy)] })
  | (start, end_) => .ok (.unresolved ⟨.line, name,
      "endpoint unresolved (start=" ++ endText start ++ ", end=" ++ endText end_ ++ ")"⟩)

/-- The edge that a feature becomes; a line without a name has none yet. -/
def Outcome.branch? : Outcome → Option EdgeRecord
  | .transformer edge _ => some edge
  | .line edge => some edge
  | _ => none

def Outcome.unresolved? : Outcome → Option Unresolved
  | .unresolved entry => some entry
  | _ => none

/-- What a feature adds to the base load of a node. -/
def Outcome.loadOn? (id : String) : Outcome → Option (Double × Double)
  | .load nodeId kw kvar _ => if id = nodeId then some (kw, kvar) else none
  | _ => none

/-! ### Putting the outcomes away -/

/-- What the loops add to. -/
structure Progress where
  nodes : List NodeRecord
  edges : List EdgeRecord := []
  unresolved : List Unresolved := []

/-- A write to `by_id[id]`. -/
def updateNode (id : String) (u : NodeRecord → NodeRecord) (nodes : List NodeRecord) :
    List NodeRecord :=
  nodes.map fun n => if n.nodeId = id then u n else n

def setKv (id : String) (kv : Double) : List NodeRecord → List NodeRecord :=
  updateNode id fun n => { n with nominalKv := some kv }

/-- `attrs.setdefault("loads", []).append(load)`. -/
def appendLoad (attrs : Dict PyValue) (load : PyValue) : Dict PyValue :=
  match attrs.get? "loads" with
  | some (.list loads) => attrs.set "loads" (.list (loads ++ [load]))
  | _ => attrs.set "loads" (.list [load])

def addLoad (kw kvar : Double) (load : PyValue) (n : NodeRecord) : NodeRecord :=
  { n with
    baseLoadKw := n.baseLoadKw.add kw
    baseLoadKvar := n.baseLoadKvar.add kvar
    attrs := appendLoad n.attrs load }

/-- `raw_name or f"edge-{len(edges)}"`. -/
def edgeName (count : ℕ) (name : PyValue) : PyValue :=
  orElse name (.str ("edge-" ++ toString count))

def Progress.put (p : Progress) : Outcome → Progress
  | .load nodeId kw kvar attrs =>
      { p with nodes := updateNode nodeId (addLoad kw kvar attrs) p.nodes }
  | .transformer edge kvs =>
      { p with
        nodes := kvs.foldl (fun nodes kv => setKv kv.1 kv.2 nodes) p.nodes
        edges := p.edges ++ [edge] }
  | .line edge =>
      { p with edges := p.edges ++ [{ edge with edgeId := edgeName p.edges.length edge.edgeId }] }
  | .unresolved entry => { p with unresolved := p.unresolved ++ [entry] }

/-- One of the three loops. -/
def handleAll (handle : PyValue → Except ParseError Outcome) (features : List PyValue)
    (p : Progress) : Except ParseError Progress :=
  features.foldlM (fun p f => do pure (p.put (← handle f))) p

/-! ### Nominal voltages -/

/-- `by_id[id].get("nominal_kv")`. -/
def nominalKv (nodes : List NodeRecord) (id : String) : Except ParseError (Option Double) :=
  match byId nodes id with
  | some n => .ok n.nominalKv
  | none => .error .keyError

/-- A turn over the edges; the flag is `changed`. -/
def carryKv (state : List NodeRecord × Bool) (e : EdgeRecord) :
    Except ParseError (List NodeRecord × Bool) :=
  if e.edgeType = .transformer then .ok state
  else do
    match ← nominalKv state.1 e.fromNode, ← nominalKv state.1 e.toNode with
    | some kv, none => .ok (setKv e.toNode kv state.1, true)
    | none, some kv => .ok (setKv e.fromNode kv state.1, true)
    | _, _ => .ok state

/-- The loop while something changes; every round but the last names the voltage
of a node. -/
def propagateRounds (edges : List EdgeRecord) : ℕ → List NodeRecord →
    Except ParseError (List NodeRecord)
  | 0, nodes => .ok nodes
  | fuel + 1, nodes => do
      let (nodes, changed) ← edges.foldlM carryKv (nodes, false)
      if changed then propagateRounds edges fuel nodes else pure nodes

/-- `_propagate_nominal_kv`. -/
def propagateNominalKv (nodes : List NodeRecord) (edges : List EdgeRecord) :
    Except ParseError (List NodeRecord) :=
  propagateRounds edges (nodes.length + 1) nodes

/-! ### The parser -/

structure Parsed where
  nodes : List NodeRecord
  edges : List EdgeRecord
  unresolved : List Unresolved

/-- The loops over the loads, the transformers and the lines. -/
def handleFeatures (c : Collected) : Except ParseError Progress := do
  let p ← handleAll (handleLoad c) c.loadFeats { nodes := c.nodes }
  let p ← handleAll (handleTransformer c) c.transformerFeats p
  handleAll (handleLine c) c.lineFeats p

def parseFeatureCollection (repr : PyValue → Except ParseError String) (fc : Dict PyValue) :
    Except ParseError Parsed := do
  let p ← handleFeatures (← collect repr fc)
  let nodes ← propagateNominalKv p.nodes p.edges
  pure ⟨nodes, p.edges, p.unresolved⟩

/-! ### What the features say -/

def hasGeometry (kind : String) (f : PyValue) : Bool :=
  match geometryType f with
  | .ok type => isText type kind
  | .error _ => false

def hasType (kind : String) (f : PyValue) : Bool :=
  match sourceType f with
  | .ok type => isText type kind
  | .error _ => false

theorem eq_str_of_isText {v : PyValue} {text : String} (h : isText v text = true) :
    v = .str text := by
  cases v with
  | str s => exact congrArg PyValue.str (of_decide_eq_true h)
  | _ => exact nomatch h

theorem hasGeometry_inj {kind kind' : String} {f : PyValue} (h : hasGeometry kind f = true)
    (h' : hasGeometry kind' f = true) : kind = kind' := by
  unfold hasGeometry at h h'
  cases htype : geometryType f with
  | error _ =>
      rw [htype] at h
      exact nomatch h
  | ok type =>
      rw [htype] at h h'
      have heq := (eq_str_of_isText h).symm.trans (eq_str_of_isText h')
      injection heq

theorem hasType_inj {kind kind' : String} {f : PyValue} (h : hasType kind f = true)
    (h' : hasType kind' f = true) : kind = kind' := by
  unfold hasType at h h'
  cases htype : sourceType f with
  | error _ =>
      rw [htype] at h
      exact nomatch h
  | ok type =>
      rw [htype] at h h'
      have heq := (eq_str_of_isText h).symm.trans (eq_str_of_isText h')
      injection heq

theorem ofGeometry_ok {kind : String} {features found : List PyValue}
    (h : ofGeometry kind features = .ok found) : found = features.filter (hasGeometry kind) := by
  induction features generalizing found with
  | nil =>
      injection h with h
      exact h.symm
  | cons f rest ih =>
      obtain ⟨type, htype, h⟩ := bind_eq_ok.mp h
      obtain ⟨others, hothers, h⟩ := bind_eq_ok.mp h
      injection h with h
      have hf : hasGeometry kind f = isText type kind := by rw [hasGeometry, htype]
      rw [← h, ih hothers, List.filter_cons, hf]

/-! ### What is collected -/

/-- A node as the parser makes it. -/
def Unloaded (n : NodeRecord) : Prop :=
  n.parentId = none ∧ n.baseLoadKw = .finite 0 ∧ n.baseLoadKvar = .finite 0

/-- Ids are stripped and name one node, and the nodes are as they were made. -/
structure Collected.Ok (c : Collected) : Prop where
  key : c.ids.Nodup
  stripped : ∀ id ∈ c.ids, id ≠ "" ∧ id.toList.getLast? ≠ some ' '
  unloaded : ∀ n ∈ c.nodes, Unloaded n
  coords : ∀ entry ∈ c.coords, entry.2 ∈ c.ids

theorem getLast?_strip (s : String) : (strip s).toList.getLast? ≠ some ' ' := by
  rw [strip, String.toList_ofList, List.getLast?_reverse]
  intro h
  have hspace := List.head?_dropWhile_not isSpace (s.toList.dropWhile isSpace).reverse
  rw [h] at hspace
  exact absurd hspace (by decide)

theorem nodeAt_ok {nodeId : String} {srcType f : PyValue} {node : NodeRecord} {key : Key × Key}
    (h : nodeAt nodeId srcType f = .ok (node, key)) : node.nodeId = nodeId ∧ Unloaded node := by
  obtain ⟨coords, -, h⟩ := bind_eq_ok.mp h
  obtain ⟨⟨lon, lat⟩, -, h⟩ := bind_eq_ok.mp h
  dsimp only at h
  split at h
  · exact nomatch h
  · obtain ⟨key, -, h⟩ := bind_eq_ok.mp h
    injection h with h
    injection h with h
    subst h
    exact ⟨rfl, rfl, rfl, rfl⟩

/-- What a turn over the points can do. -/
theorem addPoint_cases {repr : PyValue → Except ParseError String} {c c' : Collected} {f : PyValue}
    (h : addPoint repr c f = .ok c') :
    (hasType "Load" f = true ∧ c' = { c with loadFeats := c.loadFeats ++ [f] }) ∨
      (hasType "Transformer" f = true ∧
        c' = { c with transformerFeats := c.transformerFeats ++ [f] }) ∨
      (hasType "Load" f = false ∧ hasType "Transformer" f = false ∧ (c' = c ∨
        ∃ node key, node.nodeId ∉ c.ids ∧ node.nodeId ≠ "" ∧
          node.nodeId.toList.getLast? ≠ some ' ' ∧ Unloaded node ∧
            c' = { c with
              nodes := c.nodes ++ [node], coords := (key, node.nodeId) :: c.coords })) := by
  obtain ⟨srcType, htype, h⟩ := bind_eq_ok.mp h
  have hkind (kind : String) : hasType kind f = isText srcType kind := by rw [hasType, htype]
  rw [hkind, hkind]
  cases hload : isText srcType "Load" with
  | true =>
      rw [if_pos hload] at h
      injection h with h
      exact Or.inl ⟨rfl, h.symm⟩
  | false =>
      rw [if_neg (Bool.not_eq_true _ ▸ hload)] at h
      refine Or.inr ?_
      cases htransformer : isText srcType "Transformer" with
      | true =>
          rw [if_pos htransformer] at h
          injection h with h
          exact Or.inl ⟨rfl, h.symm⟩
      | false =>
          rw [if_neg (Bool.not_eq_true _ ▸ htransformer)] at h
          refine Or.inr ⟨rfl, rfl, ?_⟩
          obtain ⟨name, -, h⟩ := bind_eq_ok.mp h
          obtain ⟨text, -, h⟩ := bind_eq_ok.mp h
          split at h
          · injection h with h
            exact Or.inl h.symm
          · rename_i hnew
            rw [not_or] at hnew
            obtain ⟨⟨node, key⟩, hnode, h⟩ := bind_eq_ok.mp h
            obtain ⟨hid, hunloaded⟩ := nodeAt_ok hnode
            injection h with h
            rw [← hid] at hnew h
            exact Or.inr ⟨node, key, hnew.2, hnew.1, hid ▸ getLast?_strip text, hunloaded, h.symm⟩

theorem addPoint_ok {repr : PyValue → Except ParseError String} {c c' : Collected} {f : PyValue}
    (h : addPoint repr c f = .ok c') (hok : c.Ok) : c'.Ok := by
  rcases addPoint_cases h with ⟨-, rfl⟩ | ⟨-, rfl⟩ |
    ⟨-, -, rfl | ⟨node, key, hnew, hne, hlast, hunloaded, rfl⟩⟩
  · exact ⟨hok.key, hok.stripped, hok.unloaded, hok.coords⟩
  · exact ⟨hok.key, hok.stripped, hok.unloaded, hok.coords⟩
  · exact hok
  · have hids : Collected.ids { c with
        nodes := c.nodes ++ [node], coords := (key, node.nodeId) :: c.coords } =
        c.ids ++ [node.nodeId] := List.map_append
    constructor
    case key =>
      rw [hids]
      refine List.nodup_append.mpr ⟨hok.key, List.nodup_singleton _, ?_⟩
      rintro a ha b hb rfl
      exact hnew (List.mem_singleton.mp hb ▸ ha)
    case stripped =>
      rw [hids, List.forall_mem_append, List.forall_mem_singleton]
      exact ⟨hok.stripped, hne, hlast⟩
    case unloaded =>
      rw [List.forall_mem_append, List.forall_mem_singleton]
      exact ⟨hok.unloaded, hunloaded⟩
    case coords =>
      rw [hids, List.forall_mem_cons]
      refine ⟨List.mem_append_right _ List.mem_cons_self, fun entry hentry => ?_⟩
      exact List.mem_append_left _ (hok.coords entry hentry)

/-- What a turn leaves, and where it puts a load or a transformer. -/
theorem addPoint_feats {repr : PyValue → Except ParseError String} {c c' : Collected} {f : PyValue}
    (h : addPoint repr c f = .ok c') :
    c'.features = c.features ∧ c'.lineFeats = c.lineFeats ∧
      c'.loadFeats = c.loadFeats ++ [f].filter (hasType "Load") ∧
      c'.transformerFeats = c.transformerFeats ++ [f].filter (hasType "Transformer") := by
  rcases addPoint_cases h with ⟨hload, rfl⟩ | ⟨htransformer, rfl⟩ | ⟨hload, htransformer, hc⟩
  · have hother : hasType "Transformer" f = false := by
      rw [Bool.eq_false_iff]
      exact fun h => absurd (hasType_inj hload h) (by decide)
    simp [hload, hother]
  · have hother : hasType "Load" f = false := by
      rw [Bool.eq_false_iff]
      exact fun h => absurd (hasType_inj htransformer h) (by decide)
    simp [htransformer, hother]
  · rcases hc with rfl | ⟨node, key, -, -, -, -, rfl⟩ <;> simp [hload, htransformer]

theorem addPoints_feats {repr : PyValue → Except ParseError String} {points : List PyValue}
    {c c' : Collected} (h : points.foldlM (addPoint repr) c = .ok c') :
    c'.features = c.features ∧ c'.lineFeats = c.lineFeats ∧
      c'.loadFeats = c.loadFeats ++ points.filter (hasType "Load") ∧
      c'.transformerFeats = c.transformerFeats ++ points.filter (hasType "Transformer") := by
  induction points generalizing c with
  | nil =>
      injection h with h
      subst h
      simp
  | cons f rest ih =>
      rw [List.foldlM_cons] at h
      obtain ⟨next, hnext, h⟩ := bind_eq_ok.mp h
      obtain ⟨hfeatures, hlines, hloads, htransformers⟩ := addPoint_feats hnext
      obtain ⟨hfeatures', hlines', hloads', htransformers'⟩ := ih h
      refine ⟨hfeatures'.trans hfeatures, hlines'.trans hlines, ?_, ?_⟩
      · rw [hloads', hloads, List.append_assoc, ← List.filter_append, List.singleton_append]
      · rw [htransformers', htransformers, List.append_assoc, ← List.filter_append,
          List.singleton_append]

/-- How the features are shared out. -/
structure Collected.Sorted (c : Collected) : Prop where
  lines : c.lineFeats = c.features.filter (hasGeometry "LineString")
  loads : c.loadFeats = (c.features.filter (hasGeometry "Point")).filter (hasType "Load")
  transformers : c.transformerFeats =
    (c.features.filter (hasGeometry "Point")).filter (hasType "Transformer")

theorem collect_ok {repr : PyValue → Except ParseError String} {fc : Dict PyValue} {c : Collected}
    (h : collect repr fc = .ok c) : c.Ok ∧ c.Sorted := by
  obtain ⟨features, -, h⟩ := bind_eq_ok.mp h
  obtain ⟨points, hpoints, h⟩ := bind_eq_ok.mp h
  obtain ⟨lines, hlines, h⟩ := bind_eq_ok.mp h
  have hstart : Collected.Ok { features := features, lineFeats := lines } :=
    ⟨List.nodup_nil, List.forall_mem_nil _, List.forall_mem_nil _, List.forall_mem_nil _⟩
  have hkept : c.Ok := foldlM_kept (I := Collected.Ok) (fun _ _ _ => addPoint_ok) h hstart
  obtain ⟨hfeatures, hlineFeats, hloads, htransformers⟩ := addPoints_feats h
  refine ⟨hkept, ?_, ?_, ?_⟩
  · rw [hlineFeats, hfeatures]
    exact ofGeometry_ok hlines
  · rw [hloads, hfeatures, ofGeometry_ok hpoints, List.nil_append]
  · rw [htransformers, hfeatures, ofGeometry_ok hpoints, List.nil_append]

/-! ### What becomes of a feature -/

/-- The name of a feature, empty if it has none. -/
def nameOf (f : PyValue) : PyValue :=
  match rawName f with
  | .ok name => name
  | .error _ => .str ""

/-- The name of the transformer is that of two nodes. -/
def namesPair (c : Collected) (f : PyValue) : Bool :=
  match nameOf f with
  | .str text => (pairOf c.ids text).isSome
  | _ => false

/-- The line joins two nodes. -/
def joinsNodes (c : Collected) (f : PyValue) : Bool :=
  match lineEnds c f with
  | .ok (some _, some _) => true
  | _ => false

theorem Collected.Ok.at_mem {c : Collected} (h : c.Ok) {key : Key × Key} {id : String}
    (hid : c.at key = some id) : id ∈ c.ids := by
  unfold Collected.at at hid
  split at hid
  · exact nomatch hid
  · obtain ⟨entry, hentry, rfl⟩ := exists_of_lookup hid
    exact h.coords entry hentry

theorem handleLoad_ok {c : Collected} (hc : c.Ok) {f : PyValue} {o : Outcome}
    (h : handleLoad c f = .ok o) :
    (∃ nodeId kw kvar attrs, o = .load nodeId kw kvar attrs ∧ nodeId ∈ c.ids) ∨
      ∃ entry, o = .unresolved entry := by
  obtain ⟨props, -, h⟩ := bind_eq_ok.mp h
  obtain ⟨coords, -, h⟩ := bind_eq_ok.mp h
  obtain ⟨⟨lon, lat⟩, -, h⟩ := bind_eq_ok.mp h
  obtain ⟨key, -, h⟩ := bind_eq_ok.mp h
  obtain ⟨name, -, h⟩ := bind_eq_ok.mp h
  cases htarget : c.at key with
  | none =>
      rw [htarget] at h
      injection h with h
      exact Or.inr ⟨_, h.symm⟩
  | some targetId =>
      rw [htarget] at h
      iterate 6 obtain ⟨_, -, h⟩ := bind_eq_ok.mp h
      injection h with h
      exact Or.inl ⟨targetId, _, _, _, h.symm, hc.at_mem htarget⟩

theorem handleTransformer_ok {c : Collected} {f : PyValue} {o : Outcome}
    (h : handleTransformer c f = .ok o) :
    (namesPair c f = true ∧ ∃ edge kvs, o = .transformer edge kvs ∧ edge.edgeId = nameOf f) ∨
      (namesPair c f = false ∧ ∃ entry, o = .unresolved entry) := by
  obtain ⟨props, -, h⟩ := bind_eq_ok.mp h
  obtain ⟨name, hname, h⟩ := bind_eq_ok.mp h
  have hnameOf : nameOf f = name := by rw [nameOf, hname]
  rw [namesPair, hnameOf]
  cases name with
  | str text =>
      dsimp only at h ⊢
      cases hpair : pairOf c.ids text with
      | none =>
          rw [hpair] at h
          injection h with h
          exact Or.inr ⟨rfl, _, h.symm⟩
      | some ends =>
          rw [hpair] at h
          iterate 3 obtain ⟨_, -, h⟩ := bind_eq_ok.mp h
          injection h with h
          exact Or.inl ⟨rfl, _, _, h.symm, rfl⟩
  | _ => exact nomatch h

theorem handleLine_ok {c : Collected} {f : PyValue} {o : Outcome} (h : handleLine c f = .ok o) :
    (joinsNodes c f = true ∧ ∃ edge, o = .line edge ∧ edge.edgeId = nameOf f) ∨
      (joinsNodes c f = false ∧ ∃ entry, o = .unresolved entry) := by
  obtain ⟨props, -, h⟩ := bind_eq_ok.mp h
  obtain ⟨name, hname, h⟩ := bind_eq_ok.mp h
  obtain ⟨⟨start, end_⟩, hends, h⟩ := bind_eq_ok.mp h
  have hnameOf : nameOf f = name := by rw [nameOf, hname]
  rw [joinsNodes, hends, hnameOf]
  cases start with
  | none =>
      injection h with h
      exact Or.inr ⟨rfl, _, h.symm⟩
  | some startId =>
      cases end_ with
      | none =>
          injection h with h
          exact Or.inr ⟨rfl, _, h.symm⟩
      | some endId =>
          iterate 10 obtain ⟨_, -, h⟩ := bind_eq_ok.mp h
          injection h with h
          exact Or.inl ⟨rfl, _, h.symm, rfl⟩

/-- A transformer that is resolved has a name. -/
theorem truthy_of_namesPair {c : Collected} {f : PyValue} (h : namesPair c f = true) :
    (nameOf f).truthy = true := by
  unfold namesPair at h
  split at h
  · rename_i text hname
    rw [hname, PyValue.truthy, decide_eq_true_iff]
    rintro rfl
    obtain ⟨ends, hends⟩ := Option.isSome_iff_exists.mp h
    obtain ⟨group, hgroup, -⟩ := Option.bind_eq_some_iff.mp hends
    have hempty : transformerName "" = none := by decide
    exact nomatch hempty.symm.trans hgroup
  · exact nomatch h

/-! ### What the loops put together -/

/-- The features that a loop goes over, and what becomes of each. -/
def outcomes (handle : PyValue → Except ParseError Outcome) (features : List PyValue) :
    Except ParseError (List (PyValue × Outcome)) :=
  features.mapM fun f => do pure (f, ← handle f)

/-- The features that are handled, in order, and what becomes of each. -/
def journal (c : Collected) : Except ParseError (List (PyValue × Outcome)) := do
  let loads ← outcomes (handleLoad c) c.loadFeats
  let transformers ← outcomes (handleTransformer c) c.transformerFeats
  let lines ← outcomes (handleLine c) c.lineFeats
  pure (loads ++ transformers ++ lines)

def putAll (p : Progress) (entries : List (PyValue × Outcome)) : Progress :=
  entries.foldl (fun p entry => p.put entry.2) p

theorem handleAll_ok {handle : PyValue → Except ParseError Outcome} {features : List PyValue}
    {p p' : Progress} (h : handleAll handle features p = .ok p') :
    ∃ entries, outcomes handle features = .ok entries ∧ p' = putAll p entries := by
  have hturn : ∀ (p : Progress) f p', (do pure (p.put (← handle f))) = Except.ok p' →
      ∃ entry, (do pure (f, ← handle f) : Except ParseError (PyValue × Outcome)) = .ok entry ∧
        p' = p.put entry.2 := by
    intro p f p' hturn
    obtain ⟨o, ho, hturn⟩ := bind_eq_ok.mp hturn
    injection hturn with hturn
    exact ⟨(f, o), by rw [ho]; rfl, hturn.symm⟩
  exact mapM_of_foldlM hturn h

/-- The loops put away what stands in the journal. -/
theorem handleFeatures_ok {c : Collected} {p : Progress} (h : handleFeatures c = .ok p) :
    ∃ entries, journal c = .ok entries ∧ p = putAll { nodes := c.nodes } entries := by
  obtain ⟨p₁, h₁, h⟩ := bind_eq_ok.mp h
  obtain ⟨p₂, h₂, h₃⟩ := bind_eq_ok.mp h
  obtain ⟨loads, hloads, rfl⟩ := handleAll_ok h₁
  obtain ⟨transformers, htransformers, rfl⟩ := handleAll_ok h₂
  obtain ⟨lines, hlines, rfl⟩ := handleAll_ok h₃
  refine ⟨loads ++ transformers ++ lines, ?_, ?_⟩
  · rw [journal, hloads, htransformers, hlines]
    rfl
  · rw [putAll, putAll, putAll, putAll, List.foldl_append, List.foldl_append]

theorem mem_outcomes {handle : PyValue → Except ParseError Outcome} {features : List PyValue}
    {entries : List (PyValue × Outcome)} (h : outcomes handle features = .ok entries)
    {entry : PyValue × Outcome} (hentry : entry ∈ entries) :
    entry.1 ∈ features ∧ handle entry.1 = .ok entry.2 := by
  obtain ⟨f, hf, hmade⟩ := (mem_of_mapM h entry).mp hentry
  obtain ⟨o, ho, hmade⟩ := bind_eq_ok.mp hmade
  injection hmade with hmade
  subst hmade
  exact ⟨hf, ho⟩

theorem map_fst_outcomes {handle : PyValue → Except ParseError Outcome} {features : List PyValue}
    {entries : List (PyValue × Outcome)} (h : outcomes handle features = .ok entries) :
    entries.map Prod.fst = features := by
  have hfst : entries.map Prod.fst = features.map id := by
    refine map_of_mapM (fun f _ entry hmade => ?_) h
    obtain ⟨o, -, hmade⟩ := bind_eq_ok.mp hmade
    injection hmade with hmade
    rw [← hmade]
    rfl
  rw [hfst, List.map_id]

/-- The names of the edges, once those that have none are numbered. -/
def named (edges : List EdgeRecord) : List EdgeRecord :=
  edges.mapIdx fun k e => { e with edgeId := edgeName k e.edgeId }

theorem named_append (edges : List EdgeRecord) (e : EdgeRecord) :
    named (edges ++ [e]) = named edges ++ [{ e with edgeId := edgeName edges.length e.edgeId }] :=
  List.mapIdx_concat

theorem length_named (edges : List EdgeRecord) : (named edges).length = edges.length :=
  List.length_mapIdx

theorem unresolved_putAll (p : Progress) (entries : List (PyValue × Outcome)) :
    (putAll p entries).unresolved =
      p.unresolved ++ entries.filterMap fun entry => entry.2.unresolved? := by
  induction entries generalizing p with
  | nil => exact (List.append_nil _).symm
  | cons entry rest ih =>
      rw [putAll, List.foldl_cons]
      refine (ih _).trans ?_
      obtain ⟨f, o⟩ := entry
      cases o with
      | unresolved u => simp [Progress.put, Outcome.unresolved?]
      | _ => rfl

/-- The edges are those of the outcomes; the name of a transformer counts. -/
theorem edges_putAll (nodes : List NodeRecord) {entries : List (PyValue × Outcome)}
    (h : ∀ entry ∈ entries, ∀ edge kvs, entry.2 = .transformer edge kvs →
      edge.edgeId.truthy = true) :
    (putAll { nodes := nodes } entries).edges =
      named (entries.filterMap fun entry => entry.2.branch?) := by
  induction entries using List.reverseRecOn with
  | nil => rfl
  | append_singleton entries entry ih =>
      rw [List.forall_mem_append, List.forall_mem_singleton] at h
      rw [putAll, List.foldl_append, List.filterMap_append]
      have hbefore := ih h.1
      obtain ⟨f, o⟩ := entry
      cases o with
      | transformer edge kvs =>
          have hname (k : ℕ) : edgeName k edge.edgeId = edge.edgeId :=
            if_pos (h.2 edge kvs rfl)
          refine (congrArg (fun edges => edges ++ [edge]) hbefore).trans ?_
          refine ((named_append _ _).trans ?_).symm
          rw [hname]
      | line edge =>
          refine Eq.trans ?_ (named_append _ _).symm
          rw [← length_named, ← hbefore]
          rfl
      | load nodeId kw kvar attrs => exact hbefore.trans (congrArg named (List.append_nil _).symm)
      | unresolved entry => exact hbefore.trans (congrArg named (List.append_nil _).symm)

/-! ### Putting away and carrying voltages -/

/-- What is told of a node apart from its voltage and attributes. -/
structure NodeView where
  nodeId : String
  parentId : Option String
  baseLoadKw : Double
  baseLoadKvar : Double

def view (n : NodeRecord) : NodeView := ⟨n.nodeId, n.parentId, n.baseLoadKw, n.baseLoadKvar⟩

/-- What a load adds to its node. -/
def Outcome.onView (o : Outcome) (v : NodeView) : NodeView :=
  match o with
  | .load nodeId kw kvar _ =>
      if v.nodeId = nodeId then
        { v with baseLoadKw := v.baseLoadKw.add kw, baseLoadKvar := v.baseLoadKvar.add kvar }
      else v
  | _ => v

theorem map_view_setKv (id : String) (kv : Double) (nodes : List NodeRecord) :
    (setKv id kv nodes).map view = nodes.map view := by
  rw [setKv, updateNode, List.map_map]
  refine List.map_congr_left fun n _ => ?_
  rw [Function.comp_apply]
  split <;> rfl

theorem map_view_setKvs (kvs : List (String × Double)) (nodes : List NodeRecord) :
    (kvs.foldl (fun nodes kv => setKv kv.1 kv.2 nodes) nodes).map view = nodes.map view := by
  induction kvs generalizing nodes with
  | nil => rfl
  | cons kv rest ih => rw [List.foldl_cons, ih, map_view_setKv]

theorem map_view_put (p : Progress) (o : Outcome) :
    (p.put o).nodes.map view = (p.nodes.map view).map o.onView := by
  cases o with
  | load nodeId kw kvar attrs =>
      rw [Progress.put, updateNode, List.map_map, List.map_map]
      refine List.map_congr_left fun n _ => ?_
      rw [Function.comp_apply, Function.comp_apply]
      by_cases hid : n.nodeId = nodeId
      · rw [if_pos hid]
        exact (if_pos hid).symm
      · rw [if_neg hid]
        exact (if_neg hid).symm
  | transformer edge kvs =>
      refine (map_view_setKvs kvs p.nodes).trans ?_
      exact (List.map_id _).symm
  | line edge => exact (List.map_id _).symm
  | unresolved entry => exact (List.map_id _).symm

theorem carryKv_view {e : EdgeRecord} {state state' : List NodeRecord × Bool}
    (h : carryKv state e = .ok state') : state'.1.map view = state.1.map view := by
  unfold carryKv at h
  split at h
  · injection h with h
    rw [h]
  · obtain ⟨a, -, h⟩ := bind_eq_ok.mp h
    obtain ⟨b, -, h⟩ := bind_eq_ok.mp h
    cases a <;> cases b <;> injection h with h <;> rw [← h]
    · exact map_view_setKv ..
    · exact map_view_setKv ..

theorem propagateRounds_view {edges : List EdgeRecord} {fuel : ℕ} {nodes nodes' : List NodeRecord}
    (h : propagateRounds edges fuel nodes = .ok nodes') : nodes'.map view = nodes.map view := by
  induction fuel generalizing nodes with
  | zero =>
      injection h with h
      rw [h]
  | succ fuel ih =>
      obtain ⟨⟨next, changed⟩, hround, h⟩ := bind_eq_ok.mp h
      have hnext : next.map view = nodes.map view :=
        foldlM_kept (I := fun state => state.1.map view = nodes.map view)
          (fun _ _ _ hturn hI => (carryKv_view hturn).trans hI) hround rfl
      cases changed with
      | true => exact (ih h).trans hnext
      | false =>
          injection h with h
          rw [← h]
          exact hnext

theorem map_view_putAll (p : Progress) (entries : List (PyValue × Outcome)) :
    (putAll p entries).nodes.map view =
      p.nodes.map fun n => entries.foldl (fun v entry => entry.2.onView v) (view n) := by
  induction entries generalizing p with
  | nil => rfl
  | cons entry rest ih =>
      rw [putAll, List.foldl_cons]
      refine (ih _).trans ?_
      have hstep := congrArg
        (List.map fun v => rest.foldl (fun v entry => entry.2.onView v) v) (map_view_put p entry.2)
      rw [List.map_map, List.map_map, List.map_map] at hstep
      exact hstep

/-- What a run of outcomes makes of a node: the loads on it are added up. -/
theorem foldl_onView (entries : List (PyValue × Outcome)) (v : NodeView) :
    entries.foldl (fun v entry => entry.2.onView v) v =
      { v with
        baseLoadKw := (entries.filterMap fun entry => entry.2.loadOn? v.nodeId).foldl
          (fun sum load => sum.add load.1) v.baseLoadKw
        baseLoadKvar := (entries.filterMap fun entry => entry.2.loadOn? v.nodeId).foldl
          (fun sum load => sum.add load.2) v.baseLoadKvar } := by
  induction entries generalizing v with
  | nil => rfl
  | cons entry rest ih =>
      obtain ⟨f, o⟩ := entry
      rw [List.foldl_cons, ih]
      cases o with
      | load nodeId kw kvar attrs =>
          by_cases hid : v.nodeId = nodeId
          · simp [Outcome.onView, Outcome.loadOn?, hid]
          · simp [Outcome.onView, Outcome.loadOn?, hid]
      | _ => rfl

end DiepLab.Topology.Features
