import DiepLab.Dms.PowerFlow
import Mathlib.Data.List.Sort
import Mathlib.Data.String.Basic

/-!
The GeoJSON import: from a feature collection to nodes and edges.

Node points become nodes. A line takes its ends from the nodes at the
coordinates of its first and last point, a transformer from the two node ids
in its name; what cannot be resolved is listed and left out. So an edge of the
result always has its two ends among the nodes (`parse_wellFormed`), but its
id is whatever the feature was called and may occur twice.
-/

namespace DiepLab.Topology

/-- A point of the map: longitude and latitude. -/
abbrev Coord := ℚ × ℚ

/-- A feature as far as the import reads it. A property that is absent is
`none`. -/
inductive Feature where
  | point (type name : Option String) (at_ : Coord)
  | lineString (name : Option String) (isSwitch isOpen : Bool) (first last : Coord)
  | other

inductive UnresolvedKind where
  | load | transformer | line
  deriving DecidableEq

structure Unresolved where
  kind : UnresolvedKind
  name : Option String
  reason : String
  deriving DecidableEq

structure Parsed where
  nodes : List GridNode
  edges : List GridEdge
  unresolved : List Unresolved

/-! ### Names and coordinates -/

def coordPrecision : ℕ := 6

def roundCoord (c : Coord) : Coord := (roundTo coordPrecision c.1, roundTo coordPrecision c.2)

/-- The code points that `str.strip` removes. -/
def isSpace (c : Char) : Bool :=
  let n := c.toNat
  decide (9 ≤ n ∧ n ≤ 13 ∨ 28 ≤ n ∧ n ≤ 32 ∨ n = 133 ∨ n = 160 ∨ n = 5760 ∨ 8192 ≤ n ∧ n ≤ 8202 ∨
    n = 8232 ∨ n = 8233 ∨ n = 8239 ∨ n = 8287 ∨ n = 12288)

def strip (s : String) : String :=
  String.ofList ((s.toList.dropWhile isSpace).reverse.dropWhile isSpace).reverse

/-- The group of `^tr\(r:(.+)\)$`; the end of the text may be a line break. -/
def transformerName (s : String) : Option (List Char) :=
  let chars := if s.toList.getLast? = some '\n' then s.toList.dropLast else s.toList
  let body := (chars.drop 5).dropLast
  if chars.take 5 = ['t', 'r', '(', 'r', ':'] ∧ (chars.drop 5).getLast? = some ')' ∧
      body ≠ [] ∧ '\n' ∉ body then some body
  else none

/-- Split `A-B` into `(A, B)` when both halves are known node ids, trying every
hyphen in turn. -/
def splitPair (text : List Char) (knownIds : List String) : Option (String × String) :=
  (List.range text.length).findSome? fun i =>
    if text[i]? = some '-' then
      let a := String.ofList (text.take i)
      let b := String.ofList (text.drop (i + 1))
      if a ∈ knownIds ∧ b ∈ knownIds then some (a, b) else none
    else none

/-! ### Nodes -/

/-- The nodes so far and the node at each rounded coordinate; the entry of a
coordinate is the last one written. -/
structure Index where
  nodes : List GridNode
  coords : List (Coord × String)

def Index.ids (idx : Index) : List String := idx.nodes.map GridNode.nodeId

/-- A Node point; unnamed and repeated ones are skipped. -/
def addNode (idx : Index) (f : Feature) : Index :=
  match f with
  | .point type name c =>
      if type = some "Load" ∨ type = some "Transformer" then idx
      else
        let nodeId := strip (name.getD "")
        if nodeId = "" ∨ nodeId ∈ idx.ids then idx
        else ⟨idx.nodes ++ [⟨nodeId, .bus⟩], (roundCoord c, nodeId) :: idx.coords⟩
  | _ => idx

def Index.at (idx : Index) (c : Coord) : Option String := idx.coords.lookup (roundCoord c)

/-! ### Edges -/

/-- Loads become an attribute of the node they sit on; here only those without
a node show. -/
def addLoad (idx : Index) (unresolved : List Unresolved) (f : Feature) : List Unresolved :=
  match f with
  | .point (some "Load") name c =>
      match idx.at c with
      | none => unresolved ++ [⟨.load, name, "no Node at this coordinate"⟩]
      | some _ => unresolved
  | _ => unresolved

def addTransformer (ids : List String) (state : List GridEdge × List Unresolved) (f : Feature) :
    List GridEdge × List Unresolved :=
  match f with
  | .point (some "Transformer") name _ =>
      let rawName := name.getD ""
      match (transformerName rawName).bind fun text => splitPair text ids with
      | none => (state.1, state.2 ++
          [⟨.transformer, some rawName, "could not resolve primary/secondary node ids"⟩])
      | some (a, b) => (state.1 ++
          [{ edgeId := rawName, fromNode := a, toNode := b, edgeType := .transformer }], state.2)
  | _ => state

def endText (end_ : Option String) : String := end_.getD "None"

/-- A line, with the open switches left open. -/
def addLine (idx : Index) (state : List GridEdge × List Unresolved) (f : Feature) :
    List GridEdge × List Unresolved :=
  match f with
  | .lineString name isSwitch isOpen first last =>
      let rawName := name.getD ""
      match idx.at first, idx.at last with
      | some a, some b => (state.1 ++
          [{ edgeId := if rawName = "" then "edge-" ++ toString state.1.length else rawName
             fromNode := a
             toNode := b
             edgeType := if isSwitch then .switch else .line
             isSwitchable := isSwitch
             normallyClosed := !isOpen
             isClosed := !isOpen }], state.2)
      | a, b => (state.1, state.2 ++ [⟨.line, some rawName,
          "endpoint unresolved (start=" ++ endText a ++ ", end=" ++ endText b ++ ")"⟩])
  | _ => state

def parseFeatureCollection (features : List Feature) : Parsed :=
  let idx := features.foldl addNode ⟨[], []⟩
  let loads := features.foldl (addLoad idx) []
  let withTransformers := features.foldl (addTransformer idx.ids) ([], loads)
  let withLines := features.foldl (addLine idx) withTransformers
  ⟨idx.nodes, withLines.1, withLines.2⟩

/-! ### What is parsed is well formed -/

/-- Node ids are unique and edges end at nodes. -/
structure WellFormed (nodes : List GridNode) (edges : List GridEdge) : Prop where
  nodeKey : (nodes.map GridNode.nodeId).Nodup
  ends : ∀ e ∈ edges, e.fromNode ∈ nodes.map GridNode.nodeId ∧
    e.toNode ∈ nodes.map GridNode.nodeId

/-- Every coordinate entry names a node, and no id is used twice. -/
structure Index.Ok (idx : Index) : Prop where
  nodup : idx.ids.Nodup
  coords_mem : ∀ kv ∈ idx.coords, kv.2 ∈ idx.ids

theorem Index.Ok.start : Index.Ok ⟨[], []⟩ :=
  ⟨List.nodup_nil, fun _ hkv => absurd hkv List.not_mem_nil⟩

theorem Index.Ok.insert {idx : Index} (h : idx.Ok) {nodeId : String} (hnew : nodeId ∉ idx.ids)
    (c : Coord) : Index.Ok ⟨idx.nodes ++ [⟨nodeId, .bus⟩], (c, nodeId) :: idx.coords⟩ := by
  have hids : Index.ids ⟨idx.nodes ++ [⟨nodeId, .bus⟩], (c, nodeId) :: idx.coords⟩ =
      idx.ids ++ [nodeId] := List.map_append
  refine ⟨?_, ?_⟩
  · rw [hids]
    refine List.nodup_append.mpr ⟨h.nodup, List.nodup_singleton _, ?_⟩
    intro a ha b hb hab
    rw [hab, List.mem_singleton.mp hb] at ha
    exact hnew ha
  · rw [hids]
    intro kv hkv
    rcases List.mem_cons.mp hkv with rfl | hkv
    · exact List.mem_append_right _ (List.mem_singleton.mpr rfl)
    · exact List.mem_append_left _ (h.coords_mem kv hkv)

theorem Index.Ok.addNode {idx : Index} (h : idx.Ok) (f : Feature) : (addNode idx f).Ok := by
  unfold Topology.addNode
  split
  · split
    · exact h
    · dsimp only
      split
      · exact h
      · rename_i hnew
        exact h.insert (not_or.mp hnew).2 _
  · exact h

theorem Index.Ok.foldl {idx : Index} (h : idx.Ok) (fs : List Feature) :
    (fs.foldl Topology.addNode idx).Ok := by
  induction fs generalizing idx with
  | nil => exact h
  | cons f fs ih => exact ih (h.addNode f)

theorem exists_of_lookup {κ ν : Type} [BEq κ] {c : κ} {coords : List (κ × ν)} {n : ν}
    (h : coords.lookup c = some n) : ∃ kv ∈ coords, kv.2 = n := by
  induction coords with
  | nil => exact nomatch h
  | cons kv rest ih =>
      rw [List.lookup_cons] at h
      split at h
      · exact ⟨kv, List.mem_cons_self, Option.some.inj h⟩
      · obtain ⟨kv', hkv', heq⟩ := ih h
        exact ⟨kv', List.mem_cons_of_mem kv hkv', heq⟩

theorem Index.Ok.at_mem {idx : Index} (h : idx.Ok) {c : Coord} {n : String}
    (hn : idx.at c = some n) : n ∈ idx.ids := by
  obtain ⟨kv, hkv, rfl⟩ := exists_of_lookup hn
  exact h.coords_mem kv hkv

theorem splitPair_mem {text : List Char} {ids : List String} {a b : String}
    (h : splitPair text ids = some (a, b)) : a ∈ ids ∧ b ∈ ids := by
  obtain ⟨i, -, hi⟩ := List.exists_of_findSome?_eq_some h
  split at hi
  · dsimp only at hi
    split at hi
    · rename_i hmem
      obtain ⟨rfl, rfl⟩ := Prod.mk.inj (Option.some.inj hi)
      exact hmem
    · exact nomatch hi
  · exact nomatch hi

/-- The edges so far end at nodes. -/
def EndsIn (ids : List String) (edges : List GridEdge) : Prop :=
  ∀ e ∈ edges, e.fromNode ∈ ids ∧ e.toNode ∈ ids

theorem EndsIn.append {ids : List String} {edges : List GridEdge} (h : EndsIn ids edges)
    {e : GridEdge} (hf : e.fromNode ∈ ids) (ht : e.toNode ∈ ids) : EndsIn ids (edges ++ [e]) := by
  intro f hmem
  rcases List.mem_append.mp hmem with hmem | hmem
  · exact h f hmem
  · rw [List.mem_singleton.mp hmem]
    exact ⟨hf, ht⟩

theorem EndsIn.addTransformer {ids : List String} {state : List GridEdge × List Unresolved}
    (h : EndsIn ids state.1) (f : Feature) : EndsIn ids (addTransformer ids state f).1 := by
  unfold Topology.addTransformer
  split
  · dsimp only
    split
    · exact h
    · rename_i hpair
      obtain ⟨text, -, hsplit⟩ := Option.bind_eq_some_iff.mp hpair
      obtain ⟨ha, hb⟩ := splitPair_mem hsplit
      exact h.append ha hb
  · exact h

theorem EndsIn.addLine {idx : Index} (hidx : idx.Ok) {state : List GridEdge × List Unresolved}
    (h : EndsIn idx.ids state.1) (f : Feature) : EndsIn idx.ids (addLine idx state f).1 := by
  unfold Topology.addLine
  split
  · dsimp only
    split
    · rename_i ha hb
      exact h.append (hidx.at_mem ha) (hidx.at_mem hb)
    · exact h
  · exact h

theorem EndsIn.foldl {ids : List String}
    {step : List GridEdge × List Unresolved → Feature → List GridEdge × List Unresolved}
    (hstep : ∀ state f, EndsIn ids state.1 → EndsIn ids (step state f).1)
    {state : List GridEdge × List Unresolved} (h : EndsIn ids state.1) (fs : List Feature) :
    EndsIn ids (fs.foldl step state).1 := by
  induction fs generalizing state with
  | nil => exact h
  | cons f fs ih => exact ih (hstep state f h)

/-- **What is parsed is well formed.** -/
theorem parse_wellFormed (features : List Feature) :
    WellFormed (parseFeatureCollection features).nodes (parseFeatureCollection features).edges := by
  have hidx : (features.foldl addNode ⟨[], []⟩).Ok := Index.Ok.start.foldl features
  refine ⟨hidx.nodup, ?_⟩
  refine EndsIn.foldl (fun state f h => h.addLine hidx f) ?_ features
  refine EndsIn.foldl (fun state f h => h.addTransformer f) ?_ features
  exact fun e he => absurd he List.not_mem_nil

end DiepLab.Topology
