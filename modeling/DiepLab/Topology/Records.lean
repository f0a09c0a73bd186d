import DiepLab.Grid.Network
import DiepLab.PyValue

/-!
The records that the topology importer passes on.

The parser makes them, the orientation turns them and the loader writes them
to the tables. In the source they are plain dictionaries: a key that may be
missing is an `Option` here, or has the default that the loader puts in its
place. An edge may be called anything that JSON can say; a node id is a text.
-/

namespace DiepLab.Topology

structure NodeRecord where
  nodeId : String
  nodeType : NodeType := .bus
  name : Option String := none
  latitude : Option PyValue := none
  longitude : Option PyValue := none
  nominalKv : Option Double := none
  phases : String := "ABC"
  baseLoadKw : Double := .finite 0
  baseLoadKvar : Double := .finite 0
  attrs : Dict PyValue := []
  parentId : Option String := none

structure EdgeRecord where
  edgeId : PyValue
  fromNode : String
  toNode : String
  edgeType : EdgeType := .line
  isSwitchable : Bool := false
  normallyClosed : Bool := true
  isClosed : Bool := true
  resistanceROhm : Option Double := none
  reactanceXOhm : Option Double := none
  lengthKm : Option Double := none
  ampacityA : Option Double := none
  phases : String := "ABC"
  attrs : Dict PyValue := []

def NodeRecord.gridNode (n : NodeRecord) : GridNode := ⟨n.nodeId, n.nodeType⟩

/-- What the network model keeps of the record; `text` is the text of a name. -/
def EdgeRecord.gridEdge (text : PyValue → String) (e : EdgeRecord) : GridEdge where
  edgeId := text e.edgeId
  fromNode := e.fromNode
  toNode := e.toNode
  edgeType := e.edgeType
  isSwitchable := e.isSwitchable
  normallyClosed := e.normallyClosed
  isClosed := e.isClosed

/-- The records as a multigraph. -/
def wires : Multigraph String EdgeRecord where
  src := EdgeRecord.fromNode
  tgt := EdgeRecord.toNode

/-- `by_id`: of two records with one id the later. -/
def byId : List NodeRecord → String → Option NodeRecord
  | [], _ => none
  | n :: rest, id => (byId rest id).or (if n.nodeId = id then some n else none)

theorem byId_eq_none {nodes : List NodeRecord} {id : String} :
    byId nodes id = none ↔ id ∉ nodes.map NodeRecord.nodeId := by
  induction nodes with
  | nil => simp [byId]
  | cons n rest ih =>
      rw [byId, Option.or_eq_none_iff, ih, List.map_cons, List.mem_cons, not_or, and_comm]
      refine and_congr_left fun _ => ?_
      by_cases hid : n.nodeId = id
      · simp [hid]
      · simp [hid, Ne.symm hid]

theorem nodeId_of_byId {nodes : List NodeRecord} {id : String} {n : NodeRecord}
    (h : byId nodes id = some n) : n.nodeId = id := by
  induction nodes with
  | nil => exact nomatch h
  | cons m rest ih =>
      rw [byId, Option.or_eq_some_iff] at h
      rcases h with h | ⟨-, h⟩
      · exact ih h
      · split at h
        · injection h with h
          exact h ▸ ‹_›
        · exact nomatch h

theorem mem_of_byId {nodes : List NodeRecord} {id : String} {n : NodeRecord}
    (h : byId nodes id = some n) : n ∈ nodes := by
  induction nodes with
  | nil => exact nomatch h
  | cons m rest ih =>
      rw [byId, Option.or_eq_some_iff] at h
      rcases h with h | ⟨-, h⟩
      · exact List.mem_cons_of_mem m (ih h)
      · split at h
        · injection h with h
          exact h ▸ List.mem_cons_self
        · exact nomatch h

theorem exists_byId {nodes : List NodeRecord} {id : String}
    (h : id ∈ nodes.map NodeRecord.nodeId) : ∃ n, byId nodes id = some n := by
  cases hid : byId nodes id with
  | none => exact absurd h (byId_eq_none.mp hid)
  | some n => exact ⟨n, rfl⟩

theorem byId_map {u : NodeRecord → NodeRecord} (hu : ∀ n, (u n).nodeId = n.nodeId)
    (nodes : List NodeRecord) (id : String) : byId (nodes.map u) id = (byId nodes id).map u := by
  induction nodes with
  | nil => rfl
  | cons n rest ih =>
      rw [List.map_cons, byId, byId, ih, hu, Option.map_or]
      split <;> rfl

end DiepLab.Topology
