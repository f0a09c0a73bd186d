import DiepLab.Cim.Metering
import Mathlib.Logic.Equiv.Basic

/-!
Terminals.

Every edge has two terminals and every node without an edge one. Their names are
made of the ids of the edges and the nodes, which are ids of two tables: the
terminal of a node and the first terminal of an edge have one name if the node
and the edge have one id.
-/

namespace DiepLab.Cim

structure Terminal where
  mRID : String
  name : String
  sequenceNumber : ℕ
  connectivityNodeMRID : String
  conductingEquipmentRef : String
  tenantId : String
  deriving DecidableEq, Repr

section Queries

variable (uuid5 : String → String) (collate : String → String → Bool) (db : CimDb)
  (tenant : Option String)

def edgeTerminal (e : GridEdge) (sequenceNumber : ℕ) (node : String) : Terminal where
  mRID := mridFor uuid5 ["Terminal", terminalId e.edgeId sequenceNumber]
  name := terminalId e.edgeId sequenceNumber
  sequenceNumber := sequenceNumber
  connectivityNodeMRID := mridFor uuid5 ["ConnectivityNode", node]
  conductingEquipmentRef := e.edgeId
  tenantId := e.tenantId

def leafTerminal (n : GridNode) : Terminal where
  mRID := mridFor uuid5 ["Terminal", leafTerminalId n.nodeId]
  name := leafTerminalId n.nodeId
  sequenceNumber := 1
  connectivityNodeMRID := mridFor uuid5 ["ConnectivityNode", n.nodeId]
  conductingEquipmentRef := n.nodeId
  tenantId := n.tenantId

/-- The edges that are asked for. -/
def listedEdges (edgeId : Option String) : List GridEdge :=
  orderBy collate GridEdge.edgeId
    (db.gridEdges.rows.filter fun e => passes tenant e.tenantId && passes edgeId e.edgeId)

/-- The nodes that are asked for and are the end of no edge, of whatever tenant. -/
def listedLeaves (nodeId : Option String) : List GridNode :=
  orderBy collate GridNode.nodeId (db.gridNodes.rows.filter fun n =>
    (db.gridEdges.rows.all fun e => ¬(e.fromNode = n.nodeId ∨ e.toNode = n.nodeId)) &&
      (passes tenant n.tenantId && passes nodeId n.nodeId))

/-- `terminals`, before the page is cut out. -/
def terminals (edgeId nodeId : Option String) : List Terminal :=
  let ofEdges := (listedEdges collate db tenant edgeId).flatMap fun e =>
    [edgeTerminal uuid5 e 1 e.fromNode, edgeTerminal uuid5 e 2 e.toNode]
  match given edgeId, given nodeId with
  | some _, _ => ofEdges
  | none, none => ofEdges ++ (listedLeaves collate db tenant nodeId).map (leafTerminal uuid5)
  | none, some node =>
      (ofEdges ++ (listedLeaves collate db tenant nodeId).map (leafTerminal uuid5)).filter fun t =>
        t.conductingEquipmentRef = node ∨
          t.connectivityNodeMRID = mridFor uuid5 ["ConnectivityNode", node]

def listTerminals (edgeId nodeId : Option String) (limit offset : ℕ) : List Terminal :=
  page limit offset (terminals uuid5 collate db tenant edgeId nodeId)

end Queries

/-- The ids of the nodes without an edge and those of the edges are different. -/
def EndsApart (collate : String → String → Bool) (db : CimDb) (tenant : Option String) : Prop :=
  ∀ n ∈ listedLeaves collate db tenant none, ∀ e ∈ listedEdges collate db tenant none,
    n.nodeId ≠ e.edgeId

section Names

variable {uuid5 : String → String} {collate : String → String → Bool} {db : CimDb}
  {tenant : Option String}

/-- The names of the terminals of all edges and of all nodes without one. -/
def terminalNames (edges : List GridEdge) (leaves : List GridNode) : List String :=
  (edges.flatMap fun e => [terminalId e.edgeId 1, terminalId e.edgeId 2]) ++
    leaves.map fun n => leafTerminalId n.nodeId

theorem nodup_terminalNames_iff {edges : List GridEdge} {leaves : List GridNode}
    (hedges : (edges.map GridEdge.edgeId).Nodup) (hleaves : (leaves.map GridNode.nodeId).Nodup) :
    (terminalNames edges leaves).Nodup ↔ ∀ n ∈ leaves, ∀ e ∈ edges, n.nodeId ≠ e.edgeId := by
  have hofEdges :
      (edges.flatMap fun e => [terminalId e.edgeId 1, terminalId e.edgeId 2]).Nodup := by
    refine List.nodup_flatMap.mpr ⟨fun e _ => ?_, ?_⟩
    · exact List.nodup_cons.mpr
        ⟨fun h => terminalId_ne (List.mem_singleton.mp h), List.nodup_singleton _⟩
    · refine (List.pairwise_map.mp hedges).imp fun {e e'} hne => ?_
      intro name hname hname'
      rcases List.mem_pair.mp hname with rfl | rfl
      · rcases List.mem_pair.mp hname' with h | h
        · exact hne (terminalId_first_inj.mp h)
        · exact terminalId_ne h
      · rcases List.mem_pair.mp hname' with h | h
        · exact terminalId_ne h.symm
        · exact hne (terminalId_second_inj.mp h)
  have hofLeaves : (leaves.map fun n => leafTerminalId n.nodeId).Nodup := by
    refine (List.nodup_map_iff_inj_on (hleaves.of_map _)).mpr fun n hn n' hn' h => ?_
    rw [leafTerminalId_eq, leafTerminalId_eq] at h
    exact List.inj_on_of_nodup_map hleaves hn hn' (terminalId_first_inj.mp h)
  rw [terminalNames, List.nodup_append]
  constructor
  · rintro ⟨-, -, happart⟩ n hn e he heq
    refine happart (terminalId e.edgeId 1) ?_ (leafTerminalId n.nodeId) ?_ ?_
    · exact List.mem_flatMap.mpr ⟨e, he, List.mem_cons_self⟩
    · exact List.mem_map_of_mem hn
    · rw [leafTerminalId_eq, heq]
  · refine fun happart => ⟨hofEdges, hofLeaves, fun name hname name' hname' heq => ?_⟩
    obtain ⟨e, he, hname⟩ := List.mem_flatMap.mp hname
    obtain ⟨n, hn, rfl⟩ := List.mem_map.mp hname'
    rw [heq, leafTerminalId_eq] at hname
    rcases List.mem_pair.mp hname with h | h
    · exact happart n hn e he (terminalId_first_inj.mp h)
    · exact terminalId_ne h

theorem terminals_all :
    terminals uuid5 collate db tenant none none =
      ((listedEdges collate db tenant none).flatMap fun e =>
        [edgeTerminal uuid5 e 1 e.fromNode, edgeTerminal uuid5 e 2 e.toNode]) ++
        (listedLeaves collate db tenant none).map (leafTerminal uuid5) := rfl

theorem map_mRID_terminals :
    (terminals uuid5 collate db tenant none none).map Terminal.mRID =
      (terminalNames (listedEdges collate db tenant none)
        (listedLeaves collate db tenant none)).map fun name =>
          mridFor uuid5 ["Terminal", name] := by
  rw [terminals_all, terminalNames, List.map_append, List.map_append, List.map_flatMap,
    List.map_flatMap, List.map_map, List.map_map]
  rfl

theorem nodup_terminals (huuid : Function.Injective uuid5) (h : EndsApart collate db tenant)
    (edgeId nodeId : Option String) :
    ((terminals uuid5 collate db tenant edgeId nodeId).map Terminal.mRID).Nodup := by
  have hnames : (terminalNames (listedEdges collate db tenant edgeId)
      (listedLeaves collate db tenant nodeId)).Nodup := by
    refine (nodup_terminalNames_iff ?_ ?_).mpr fun n hn e he => h n ?_ e ?_
    · exact nodup_map_orderBy (db.gridEdges.unique.sublist (List.filter_sublist.map _))
    · exact nodup_map_orderBy (db.gridNodes.unique.sublist (List.filter_sublist.map _))
    · have hlisted := List.mem_filter.mp (mem_orderBy.mp hn)
      simp only [Bool.and_eq_true] at hlisted
      refine mem_orderBy.mpr (List.mem_filter.mpr ⟨hlisted.1, ?_⟩)
      rw [hlisted.2.1, hlisted.2.2.1]
      rfl
    · have hlisted := List.mem_filter.mp (mem_orderBy.mp he)
      simp only [Bool.and_eq_true] at hlisted
      refine mem_orderBy.mpr (List.mem_filter.mpr ⟨hlisted.1, ?_⟩)
      rw [hlisted.2.1]
      rfl
  have hall : ((((listedEdges collate db tenant edgeId).flatMap fun e =>
      [edgeTerminal uuid5 e 1 e.fromNode, edgeTerminal uuid5 e 2 e.toNode]) ++
        (listedLeaves collate db tenant nodeId).map (leafTerminal uuid5)).map
          Terminal.mRID).Nodup := by
    have hmrids := (nodup_mrids_iff huuid "Terminal" _).mpr hnames
    rw [terminalNames, List.map_append, List.map_flatMap, List.map_map] at hmrids
    rw [List.map_append, List.map_flatMap, List.map_map]
    exact hmrids
  unfold terminals
  split
  · exact hall.sublist ((List.sublist_append_left _ _).map _)
  · exact hall
  · exact hall.sublist (List.filter_sublist.map _)

theorem nodup_terminals_iff (huuid : Function.Injective uuid5) :
    (∀ edgeId nodeId, ((terminals uuid5 collate db tenant edgeId nodeId).map
      Terminal.mRID).Nodup) ↔ EndsApart collate db tenant := by
  refine ⟨fun h => ?_, nodup_terminals huuid⟩
  have hall := h none none
  rw [map_mRID_terminals, nodup_mrids_iff huuid, nodup_terminalNames_iff] at hall
  · exact hall
  · exact nodup_map_orderBy (db.gridEdges.unique.sublist (List.filter_sublist.map _))
  · exact nodup_map_orderBy (db.gridNodes.unique.sublist (List.filter_sublist.map _))

end Names

/-! ### The identifiers of a tenant -/

/-- The service points of the part, at least one, have become the usage point. -/
structure Collects (uuid5 : String → String) (part : List ServicePoint) (point : UsagePoint) :
    Prop where
  nonempty : part ≠ []
  customers : point.customerIds = (part.filterMap fun sp => given sp.customerId).map fun customer =>
    mridFor uuid5 ["Customer", customer]

/-- On every page the usage points have different mRIDs, and so have the terminals,
and each service point of the tenant is part of exactly one usage point. -/
structure DistinctMrids (uuid5 : String → String) (collate : String → String → Bool) (db : CimDb)
    (tenant : Option String) : Prop where
  usagePages : ∀ limit offset,
    ((listUsagePoints uuid5 collate db tenant limit offset).map UsagePoint.mRID).Nodup
  shares : ∃ parts : List (List ServicePoint),
    parts.flatten.Perm (db.servicePoints.rows.filter fun sp => passes tenant sp.tenantId) ∧
      List.Forall₂ (Collects uuid5) parts
        ((usagePoints uuid5 collate db tenant).filter fun point => !point.synthesized)
  terminalPages : ∀ edgeId nodeId limit offset,
    ((listTerminals uuid5 collate db tenant edgeId nodeId limit offset).map Terminal.mRID).Nodup

theorem exists_parts (uuid5 : String → String) (collate : String → String → Bool) (db : CimDb)
    (tenant : Option String) :
    ∃ parts : List (List ServicePoint),
      parts.flatten.Perm (db.servicePoints.rows.filter fun sp => passes tenant sp.tenantId) ∧
        List.Forall₂ (Collects uuid5) parts
          ((usagePoints uuid5 collate db tenant).filter fun point => !point.synthesized) := by
  refine ⟨(firstServicePoints collate db tenant).map (members collate db tenant), ?_, ?_⟩
  · exact flatten_members.trans (List.perm_insertionSort ..)
  · have hgroups : (usagePoints uuid5 collate db tenant).filter (fun point => !point.synthesized) =
        (groupServicePoints collate db tenant).map (usagePointFromGroup uuid5) := by
      rw [usagePoints, List.filter_append, List.filter_eq_self.mpr, List.filter_eq_nil_iff.mpr,
        List.append_nil]
      · intro point hpoint
        obtain ⟨d, -, rfl⟩ := List.mem_map.mp hpoint
        exact Bool.not_eq_true _ ▸ rfl
      · intro point hpoint
        obtain ⟨g, -, rfl⟩ := List.mem_map.mp hpoint
        rfl
    rw [hgroups, groupServicePoints_eq, List.map_map, List.forall₂_map_left_iff,
      List.forall₂_map_right_iff]
    refine List.forall₂_same.mpr fun first hfirst => ⟨?_, rfl⟩
    exact List.ne_nil_of_mem (mem_members_self hfirst)

/-- **What keeps the mRIDs of a tenant distinct.** With an injective `uuid5` they
are exactly if its groups and devices are told apart by their words, and its
nodes without an edge by their ids from its edges. -/
theorem distinctMrids_iff {uuid5 : String → String} (huuid : Function.Injective uuid5)
    (collate : String → String → Bool) (db : CimDb) (tenant : Option String) :
    DistinctMrids uuid5 collate db tenant ↔
      TellsApart collate db tenant ∧ EndsApart collate db tenant := by
  have hpoints := nodup_pages_iff UsagePoint.mRID (usagePoints uuid5 collate db tenant)
  have hterminals (edgeId nodeId : Option String) :=
    nodup_pages_iff Terminal.mRID (terminals uuid5 collate db tenant edgeId nodeId)
  constructor
  · intro h
    constructor
    · exact (nodup_usagePoints_iff huuid).mp (hpoints.mp h.usagePages)
    · exact (nodup_terminals_iff huuid).mp fun edgeId nodeId =>
        (hterminals edgeId nodeId).mp (h.terminalPages edgeId nodeId)
  · rintro ⟨hgroups, hends⟩
    constructor
    · exact hpoints.mpr ((nodup_usagePoints_iff huuid).mpr hgroups)
    · exact exists_parts uuid5 collate db tenant
    · exact fun edgeId nodeId => (hterminals edgeId nodeId).mpr
        ((nodup_terminals_iff huuid).mpr hends edgeId nodeId)

/-- One customer at a node with a meter. -/
def oneMeter : CimDb where
  servicePoints := { rows := [{ servicePointId := "SP-001", customerId := some "CUST-001"
                                nodeId := some "ND-METER001", meterDeviceId := some "METER001" }] }
  devices := { rows := [{ deviceId := "METER001" }] }
  gridNodes := { rows := [{ nodeId := "ND-METER001" }] }

/-- `uuid5` at the keys of `oneMeter`. -/
def oneMeterUuid5 : Equiv.Perm String :=
  (Equiv.swap "UsagePoint/UP-METER001" "96267eb3-f440-55f9-be39-3cc062a8a3e0").trans <|
    (Equiv.swap "Customer/CUST-001" "f11d6d7f-f502-59aa-b66f-cf41986d4995").trans <|
      (Equiv.swap "Terminal/ND-METER001-T1" "6160d694-200d-5b6f-a1f6-df25906b5da3").trans <|
        Equiv.swap "ConnectivityNode/ND-METER001" "d044fb4e-6022-51d2-94b9-4a9a48a8a574"

theorem oneMeter_distinct :
    DistinctMrids oneMeterUuid5 (fun a b => decide (a ≤ b)) oneMeter (some "default") := by
  refine (distinctMrids_iff oneMeterUuid5.injective _ _ _).mpr ⟨⟨?_, ?_, ?_⟩, ?_⟩
  · decide
  · decide
  · decide
  · unfold EndsApart
    decide

/-- Two service points with neither node nor meter. -/
def unmetered : CimDb where
  servicePoints := { rows := [{ servicePointId := "SP-1" }, { servicePointId := "SP-2" }] }

/-- They are two usage points of one name. -/
theorem unmetered_same :
    ∃ (db : CimDb) (tenant : Option String) (collate : String → String → Bool),
      ∀ uuid5, ¬DistinctMrids uuid5 collate db tenant := by
  refine ⟨unmetered, some "default", fun a b => decide (a ≤ b), fun uuid5 h => ?_⟩
  have hall := (nodup_pages_iff _ _).mp h.usagePages
  have hwords : words (fun a b => decide (a ≤ b)) unmetered (some "default") = [none, none] := by
    decide
  rw [map_mRID_usagePoints, hwords] at hall
  exact (List.nodup_cons.mp hall).1 List.mem_cons_self

end DiepLab.Cim
