import DiepLab.Dms.Contingency
import DiepLab.Dms.StateEstimation
import Mathlib.Data.List.MinMax

/-!
Outage inference and its validation.

`infer` groups the dark meters by feeding transformer, takes the deepest node
above all meters of a group and blames the device that feeds it; everything
behind that device counts as affected. `cross_check` compares the count with
the one that the contingency analysis has for the outage of the device.

The two counts are taken over different sets: the nodes behind an edge of the
radial tree, and the nodes that lose supply when the edge is opened.
`below_iff_lost` is their equality where the energised edges form a tree.
-/

namespace DiepLab.OutageInference

open SpanningTree StateEstimation

/-! ### The engine -/

/-- The parent of every node, read off its parent edge. -/
def parentNodeMap (net : RadialTree) : Dict String :=
  net.parentEdge.map fun entry =>
    (entry.1, if entry.2.toNode = entry.1 then entry.2.fromNode else entry.2.toNode)

/-- The loop of `_ancestors`, with the turns that its guard leaves. -/
def chainFrom (parentNode : Dict String) (root : String) : ℕ → Option String → List String
  | 0, _ => []
  | _ + 1, none => []
  | guard + 1, some cur =>
      cur :: if cur = root then [] else chainFrom parentNode root guard (parentNode.get? cur)

/-- Path nid → root inclusive (deepest first). -/
def ancestors (parentNode : Dict String) (root nid : String) : List String :=
  chainFrom parentNode root 1000 (some nid)

/-- The nodes above all of `dark`. -/
def commonAncestors (parentNode : Dict String) (root : String) : List String → Finset String
  | [] => ∅
  | d :: dark => dark.foldl (fun common d => common ∩ (ancestors parentNode root d).toFinset)
      (ancestors parentNode root d).toFinset

/-- Deepest common ancestor of the dark nodes. `iter` is the order in which a
set is gone through. -/
def lca (iter : Finset String → List String) (parentNode : Dict String) (root : String)
    (dark : List String) : Except Exc String :=
  if dark = [] then .ok root
  else
    match (iter (commonAncestors parentNode root dark)).argmax
        fun n => (ancestors parentNode root n).length with
    | some n => .ok n
    | none => .error (.other "max() iterable argument is empty")

def nearestTransformer (byId : Dict GridNode) (parentNode : Dict String) (root nid : String) :
    Option String :=
  (ancestors parentNode root nid).find? fun n =>
    (byId.get? n).map GridNode.nodeType = some .transformer

/-- Walk the structural path from `cur` to the root; return the first open
protective edge. None when the walk has not ended after `fuel` turns. -/
def isolatingOpenEdge (parentEdge : Dict GridEdge) (parentNode : Dict String) (root : String)
    (openEdgeIds : Finset String) : ℕ → Option String → Option (Option GridEdge)
  | _, none => some none
  | fuel, some cur =>
      if cur = root then some none
      else
        match fuel with
        | 0 => none
        | fuel + 1 =>
            match parentEdge.get? cur with
            | none => some none
            | some e =>
                if e.edgeId ∈ openEdgeIds then some (some e)
                else isolatingOpenEdge parentEdge parentNode root openEdgeIds fuel
                  (parentNode.get? cur)

inductive Source where
  | energized | structural
  deriving DecidableEq, Repr

structure ProbableDevice where
  edgeId : String
  edgeType : EdgeType
  fromNode : String
  toNode : String
  deviceId : Option String
  isSwitchable : Bool
  deriving DecidableEq, Repr

def deviceOf (e : GridEdge) : ProbableDevice where
  edgeId := e.edgeId
  edgeType := e.edgeType
  fromNode := e.fromNode
  toNode := e.toNode
  deviceId := e.attrs.deviceId
  isSwitchable := e.isSwitchable

/-- One entry of `inferred_outages`, the name of the section apart. -/
structure Outage where
  probableDevice : Option ProbableDevice
  sectionNode : String
  feedingTransformer : Option String
  estimatedCustomersAffected : ℕ
  reportedCustomers : ℕ
  darkMeters : List String
  sectionMetersTotal : ℕ
  confidence : ℚ
  source : Source
  corroboratedBySe : Bool
  deriving DecidableEq

/-- What an inference is asked about besides the network. -/
structure Signals where
  meterNodes : Finset String
  customersByNode : Dict ℕ
  seDead : Finset String

/-- `customers_in`. -/
def Signals.customersIn (sig : Signals) (nodes : Finset String) : ℕ :=
  nodes.sum fun n => (sig.customersByNode.get? n).getD 0

/-- The dark meters by feeding transformer. -/
def clusters (net : RadialTree) (dark : List String) : Dict (List String) :=
  let parentNode := parentNodeMap net
  dark.foldl (fun groups d =>
    let tx := (given (nearestTransformer net.byId parentNode net.root d)).getD "ROOT"
    groups.set tx ((groups.get? tx).getD [] ++ [d])) []

/-- The device that feeds the section. -/
def deviceEdge (iter : Finset String → List String) (fuel : ℕ) (net : RadialTree)
    (source : Source) (openEdgeIds : Finset String) (members : List String) :
    Looping (Option GridEdge) := do
  let parentNode := parentNodeMap net
  let below ← lca iter parentNode net.root members
  let isolating ← (if source = .structural ∧ openEdgeIds ≠ ∅ then
      isolatingOpenEdge net.parentEdge parentNode net.root openEdgeIds fuel (some below)
    else some none : Option (Option GridEdge))
  match isolating with
  | some e => pure (some e)
  | none =>
      if below = net.root then pure none
      else do
        let e ← lookup net.parentEdge below
        pure (some e)

/-- What is reported of a section. -/
def outageOf (sig : Signals) (source : Source) (tx : String) (members : List String)
    (device : Option GridEdge) (sectionNode : String) (sectionSubtree : Finset String) : Outage :=
  let sectionMeters := sectionSubtree ∩ sig.meterNodes
  let conf : ℚ := if sectionMeters.card = 0 then 1 / 2
    else (members.toFinset ∩ sectionMeters).card / sectionMeters.card
  { probableDevice := device.map deviceOf
    sectionNode := sectionNode
    feedingTransformer := if tx = "ROOT" then none else some tx
    estimatedCustomersAffected := sig.customersIn sectionSubtree
    reportedCustomers := sig.customersIn members.toFinset
    darkMeters := members.insertionSort (· ≤ ·)
    sectionMetersTotal := sectionMeters.card
    confidence := roundTo 3 conf
    source := source
    corroboratedBySe := decide (members.toFinset ∩ sig.seDead ≠ ∅) }

/-- One turn of the loop over the clusters. -/
def inferCluster (iter : Finset String → List String) (fuel : ℕ) (net : RadialTree)
    (sig : Signals) (source : Source) (openEdgeIds : Finset String)
    (cluster : String × List String) : Looping Outage := do
  let device ← deviceEdge iter fuel net source openEdgeIds cluster.2
  match device with
  | some e => do
      let sectionSubtree ← lookup net.subtree e.edgeId
      pure (outageOf sig source cluster.1 cluster.2 (some e) e.toNode sectionSubtree)
  | none => pure (outageOf sig source cluster.1 cluster.2 none net.root net.energized)

/-- One inference pass over a tree. -/
def inferPass (iter : Finset String → List String) (fuel : ℕ) (dark : List String)
    (net : RadialTree) (sig : Signals) (source : Source) (openEdgeIds : Finset String) :
    Looping (List Outage) :=
  if dark = [] then pure []
  else (clusters net dark).mapM (inferCluster iter fuel net sig source openEdgeIds)

structure Inference where
  method : String
  darkMeterCount : ℕ
  inferredOutages : List Outage
  outageCount : ℕ
  silentFailureSuspected : Bool
  silentFailureNodes : List String

/-- The normally closed network with every edge closed. -/
def structuralEdges (edges : List GridEdge) : List GridEdge :=
  (edges.filter GridEdge.normallyClosed).map fun e => { e with isClosed := true }

/-- The normally closed edges that are open. -/
def openEdges (edges : List GridEdge) : Finset String :=
  ((edges.filter fun e => !e.isClosed && e.normallyClosed).map GridEdge.edgeId).toFinset

def infer (iter : Finset String → List String) (fuel : ℕ) (nodes : List GridNode)
    (edges : List GridEdge) (darkMeterNodes : List String) (customersByNode : Dict ℕ)
    (seDeadNodes : List String) : Looping Inference := do
  let sig : Signals := {
    meterNodes := ((nodes.filter fun n => n.nodeType = .meter).map GridNode.nodeId).toFinset
    customersByNode := customersByNode
    seDead := seDeadNodes.toFinset }
  let enet ← buildRadial fuel nodes edges
  let snet ← buildRadial fuel nodes (structuralEdges edges)
  let darkPrimary := darkMeterNodes.filter fun d => d ∈ enet.energized
  let darkFallback := darkMeterNodes.filter fun d => d ∉ enet.energized ∧ d ∈ snet.energized
  let primary ← inferPass iter fuel darkPrimary enet sig .energized ∅
  let fallback ← inferPass iter fuel darkFallback snet sig .structural (openEdges edges)
  let inferred := (primary ++ fallback).insertionSort fun o o' =>
    o'.estimatedCustomersAffected ≤ o.estimatedCustomersAffected
  let darkLocated := darkPrimary.toFinset ∪ darkFallback.toFinset
  let silentNodes := ((sig.seDead ∩ sig.meterNodes) \ darkLocated).sort (· ≤ ·)
  pure {
    method := "AMI last-gasp + topology LCA per feeding transformer; energized " ++
      "tree primary, structural graph fallback for topology-reflected " ++
      "outages; affected = all downstream customers (AMI coverage is partial)"
    darkMeterCount := darkLocated.card
    inferredOutages := inferred
    outageCount := inferred.length
    silentFailureSuspected := decide (silentNodes ≠ [])
    silentFailureNodes := silentNodes }

/-! ### The cross-check -/

inductive Flag where
  | wholeFeederOutageNoSingleElement
  | inferredDeviceNotInN1Model
  | customerCountMismatch
  | restorableViaTie
  | n1ConfirmsUnserved
  | postContingencyViolation
  deriving DecidableEq, Repr

/-- One entry of `checks`. -/
structure Check where
  sectionNode : String
  inferredDevice : Option String
  inferredCustomers : ℕ
  inferenceConfidence : ℚ
  n1ElementFound : Bool
  n1LostCustomers : Option ℕ
  n1Classification : Option Contingency.Classification
  n1RestorableBy : Option (List String)
  flags : List Flag
  mismatch : Bool

structure CrossCheck where
  method : String
  checks : List Check
  consistent : Bool
  mismatchCount : ℕ
  mismatches : List Check

/-- The flags of one inferred outage against the element of its device. -/
def flagsFor (tol : ℤ) (infCust : ℕ) (eid : Option String) (n1 : Option Contingency.Outcome) :
    List Flag :=
  match eid, n1 with
  | none, _ => [.wholeFeederOutageNoSingleElement]
  | some _, none => [.inferredDeviceNotInN1Model]
  | some _, some n1 =>
      (if tol < |(infCust : ℤ) - n1.lostCustomers| then [.customerCountMismatch] else []) ++
      (if n1.restoredBy ≠ [] then [.restorableViaTie] else []) ++
      (if n1.classification = .unserved ∨ n1.classification = .partlyServed then
        [.n1ConfirmsUnserved] else []) ++
      (if 0 < n1.postViolations then [.postContingencyViolation] else [])

def checkOne (tol : ℤ) (byElem : Dict Contingency.Outcome) (o : Outage) : Check :=
  let eid := o.probableDevice.map ProbableDevice.edgeId
  let n1 := eid.bind fun eid => byElem.get? eid
  let flags := flagsFor tol o.estimatedCustomersAffected eid n1
  { sectionNode := o.sectionNode
    inferredDevice := eid
    inferredCustomers := o.estimatedCustomersAffected
    inferenceConfidence := o.confidence
    n1ElementFound := n1.isSome
    n1LostCustomers := n1.map Contingency.Outcome.lostCustomers
    n1Classification := n1.map Contingency.Outcome.classification
    n1RestorableBy := n1.map Contingency.Outcome.restoredBy
    flags := flags
    mismatch := flags.any fun f =>
      f = .customerCountMismatch || f = .inferredDeviceNotInN1Model }

/-- `by_elem`. -/
def byElement (contingencies : List Contingency.Outcome) : Dict Contingency.Outcome :=
  Dict.update [] (contingencies.map fun c => (c.element, c))

/-- `customerTolerance` is the option `customer_tolerance`. -/
def crossCheck (customerTolerance : Option ℤ) (inferredOutages : List Outage)
    (contingencies : List Contingency.Outcome) : CrossCheck :=
  let checks := inferredOutages.map
    (checkOne (customerTolerance.getD 0) (byElement contingencies))
  let mismatches := checks.filter Check.mismatch
  { method := "cross-check M7 outage inference vs M5 N-1 contingency; flag only"
    checks := checks
    consistent := mismatches.isEmpty
    mismatchCount := mismatches.length
    mismatches := mismatches }

/-! ### What lies behind an edge of the tree -/

section Behind

variable {net : Network} {t : RadialTree} {found : List (Found String GridEdge)}
  (h : Represents net t found)
include h

/-- A way that does not use the discovery `f` does without its edge. -/
theorem conn_without {f : Found String GridEdge} (hf : f ∈ found) {x : String}
    {path : List (Found String GridEdge)} (hp : PathTo t.root found x path) (hnot : f ∉ path) :
    grid.Conn (closed net.edges \ {f.edge.branch}) t.root x := by
  induction hp with
  | root => exact .refl
  | @step g path hg _ ih =>
      rw [List.mem_append, List.mem_singleton, not_or] at hnot
      refine (ih hnot.1).tail ?_
      obtain ⟨hge, hgc, hends⟩ := mem_adjacency.mp (h.tree.linked g hg)
      have hmem : g.edge.branch ∈ closed net.edges \ {f.edge.branch} := by
        refine ⟨⟨g.edge, hge, hgc, rfl⟩, fun heq => hnot.2 ?_⟩
        have hid : g.edge.branch = f.edge.branch := heq
        exact (found_eq_of_edgeId net h.tree hg hf (congrArg Branch.edgeId hid)).symm
      rcases hends with ⟨hs, ht⟩ | ⟨ht, hs⟩
      · exact Or.inl ⟨g.edge.branch, hmem, hs, ht⟩
      · exact Or.inr ⟨g.edge.branch, hmem, hs, ht⟩

/-- What descends from a node is connected to it without the edge over which
the node was found. -/
theorem conn_below {f : Found String GridEdge} (hf : f ∈ found) {x : String}
    (hd : Descends found f.node x) :
    grid.Conn (closed net.edges \ {f.edge.branch}) f.node x := by
  induction hd with
  | refl => exact .refl
  | tail hd hchild ih =>
      obtain ⟨g, hg, rfl, rfl⟩ := hchild
      obtain ⟨hge, hgc, hends⟩ := mem_adjacency.mp (h.tree.linked g hg)
      have hmem : g.edge.branch ∈ closed net.edges \ {f.edge.branch} := by
        refine ⟨⟨g.edge, hge, hgc, rfl⟩, fun heq => ?_⟩
        have hid : g.edge.branch = f.edge.branch := heq
        obtain rfl := found_eq_of_edgeId net h.tree hg hf (congrArg Branch.edgeId hid)
        -- a node does not descend from its child
        have hle := h.tree.idxOf_le_of_descends hd
        exact absurd (h.tree.ordered g hg) (not_lt.mpr hle)
      refine ih.tail ?_
      rcases hends with ⟨hs, ht⟩ | ⟨ht, hs⟩
      · exact Or.inl ⟨g.edge.branch, hmem, hs, ht⟩
      · exact Or.inr ⟨g.edge.branch, hmem, hs, ht⟩

/-- **The two sets.** Where the energised edges form a tree, what lies behind
an edge of the radial tree is what is cut off from the root when the edge is
taken out. -/
theorem below_iff_lost
    (hforest : grid.Forest (inside net.edges (Contingency.energized net.nodes net.edges)))
    {f : Found String GridEdge} (hf : f ∈ found) {x : String} :
    Descends found f.node x ↔ grid.Conn (closed net.edges) t.root x ∧
      ¬ grid.Conn (closed net.edges \ {f.edge.branch}) t.root x := by
  obtain ⟨hfe, hfc, hends⟩ := mem_adjacency.mp (h.tree.linked f hf)
  have hbranch : f.edge.branch ∈ closed net.edges := ⟨f.edge, hfe, hfc, rfl⟩
  constructor
  · intro hd
    refine ⟨h.mem_order.mp (h.tree.mem_of_descends hd (h.tree.node_mem hf)), fun hx => ?_⟩
    obtain ⟨path, hp⟩ := h.tree.exists_path (h.tree.parent_mem hf)
    have hnot : f ∉ path := fun hmem =>
      absurd (h.tree.ordered f hf)
        (not_lt.mpr (h.tree.idxOf_le_of_descends ((h.tree.mem_path_iff hf hp).mp hmem)))
    -- then the ends of the edge would be connected without it
    have hjoin : grid.Conn (closed net.edges \ {f.edge.branch}) f.parent f.node :=
      (conn_without h hf hp hnot).symm.trans (hx.trans (conn_below h hf hd).symm)
    have hparent : f.parent ∈ Contingency.energized net.nodes net.edges :=
      Contingency.mem_energized.mpr ⟨t.root, h.root_mem, h.mem_order.mp (h.tree.parent_mem hf)⟩
    obtain ⟨hnode, hinside⟩ := hjoin.within (fun b hb => energized_ends net hb.1) hparent
    have hsub : { b | b ∈ closed net.edges \ {f.edge.branch} ∧
          grid.src b ∈ Contingency.energized net.nodes net.edges ∧
          grid.tgt b ∈ Contingency.energized net.nodes net.edges } ⊆
        inside net.edges (Contingency.energized net.nodes net.edges) \ {f.edge.branch} :=
      fun b hb => ⟨⟨hb.1.1, hb.2⟩, hb.1.2⟩
    rcases hends with ⟨hs, ht⟩ | ⟨ht, hs⟩
    · have hmem : f.edge.fromNode ∈ Contingency.energized net.nodes net.edges ∧
          f.edge.toNode ∈ Contingency.energized net.nodes net.edges := by
        rw [hs, ht]
        exact ⟨hparent, hnode⟩
      refine hforest f.edge.branch ⟨hbranch, hmem⟩ ?_
      rw [grid_src, grid_tgt, hs, ht]
      exact hinside.mono hsub
    · have hmem : f.edge.fromNode ∈ Contingency.energized net.nodes net.edges ∧
          f.edge.toNode ∈ Contingency.energized net.nodes net.edges := by
        rw [hs, ht]
        exact ⟨hnode, hparent⟩
      refine hforest f.edge.branch ⟨hbranch, hmem⟩ ?_
      rw [grid_src, grid_tgt, hs, ht]
      exact (hinside.mono hsub).symm
  · rintro ⟨hx, hnot⟩
    obtain ⟨path, hp⟩ := h.tree.exists_path (h.mem_order.mpr hx)
    rw [← h.tree.mem_path_iff hf hp]
    by_contra hmem
    exact hnot (conn_without h hf hp hmem)

/-- The customers behind an edge are those that the contingency analysis counts
as lost. -/
theorem customers_below {source : String} (hone : net.substations = [source])
    (hforest : grid.Forest (inside net.edges (Contingency.energized net.nodes net.edges)))
    {f : Found String GridEdge} (hf : f ∈ found) {below : Finset String}
    (hbelow : ∀ k, k ∈ below ↔ Descends found f.node k) (solve : Solver)
    (inp : Contingency.Inputs) :
    (Contingency.outcome solve net.nodes net.edges inp f.edge).lostCustomers =
      inp.customers below := by
  have hroot : t.root = source := by
    obtain ⟨others, hothers⟩ := h.sources
    exact (List.cons_eq_cons.mp (hothers.symm.trans hone)).1
  have hfe := (mem_adjacency.mp (h.tree.linked f hf)).1
  have hlost : Contingency.energized net.nodes net.edges \
      Contingency.energized net.nodes (setClosed f.edge.edgeId false net.edges) = below := by
    have hsources : Contingency.sources net.nodes = [t.root] := hroot ▸ hone
    ext x
    rw [hbelow, below_iff_lost h hforest hf, Finset.mem_sdiff, Contingency.mem_energized,
      Contingency.mem_energized, hsources,
      closed_setClosed_false net.edgeKey (List.mem_map_of_mem hfe)]
    simp
  simp only [Contingency.outcome, hlost]

end Behind

/-! ### The loops end -/

/-- The structural graph is a network. -/
def structural (net : Network) : Network where
  nodes := net.nodes
  edges := structuralEdges net.edges
  nodeKey := net.nodeKey
  edgeKey := by
    have hids : (structuralEdges net.edges).map GridEdge.edgeId =
        (net.edges.filter GridEdge.normallyClosed).map GridEdge.edgeId := by
      rw [structuralEdges, List.map_map]
      rfl
    rw [EdgeKey, hids]
    exact net.edgeKey.sublist (List.filter_sublist.map _)
  fromNode_mem e he := by
    obtain ⟨f, hf, rfl⟩ := List.mem_map.mp he
    exact net.fromNode_mem f (List.mem_of_mem_filter hf)
  toNode_mem e he := by
    obtain ⟨f, hf, rfl⟩ := List.mem_map.mp he
    exact net.toNode_mem f (List.mem_of_mem_filter hf)

section Ends

variable {net : Network} {t : RadialTree} {found : List (Found String GridEdge)}
  (h : Represents net t found)
include h

theorem parentNodeMap_get? {f : Found String GridEdge} (hf : f ∈ found) :
    (parentNodeMap t).get? f.node = some f.parent := by
  have hother : (if f.edge.toNode = f.node then f.edge.fromNode else f.edge.toNode) =
      f.parent := by
    obtain ⟨-, -, ⟨hs, ht⟩ | ⟨ht, -⟩⟩ := mem_adjacency.mp (h.tree.linked f hf)
    · rw [if_pos ht, hs]
    · have hne : f.parent ≠ f.node := fun heq => by
        have hlt := h.tree.ordered f hf
        rw [heq] at hlt
        exact lt_irrefl _ hlt
      rw [ht, if_neg hne]
  rw [← hother, parentNodeMap, h.parentEdge, List.map_map]
  refine Dict.get?_of_mem ?_ (List.mem_map_of_mem hf)
  rw [List.map_map]
  exact (List.nodup_cons.mp h.tree.fresh).2

/-- Every turn goes on with a node further ahead in the order. -/
theorem isolatingOpenEdge_ends (openEdgeIds : Finset String) {fuel : ℕ} {cur : String}
    (hfuel : t.order.idxOf cur < fuel) :
    ∃ e, isolatingOpenEdge t.parentEdge (parentNodeMap t) t.root openEdgeIds fuel (some cur) =
      some e := by
  induction fuel generalizing cur with
  | zero => exact absurd hfuel (Nat.not_lt_zero _)
  | succ fuel ih =>
      rw [isolatingOpenEdge]
      split
      · exact ⟨none, rfl⟩
      · cases hget : t.parentEdge.get? cur with
        | none => exact ⟨none, rfl⟩
        | some e =>
            by_cases hopen : e.edgeId ∈ openEdgeIds
            · exact ⟨some e, if_pos hopen⟩
            · have hmem := Dict.mem_of_get? hget
              rw [h.parentEdge] at hmem
              obtain ⟨f, hf, heq⟩ := List.mem_map.mp hmem
              injection heq with hnode _
              subst hnode
              simp only [if_neg hopen, parentNodeMap_get? h hf]
              exact ih ((h.tree.ordered f hf).trans_le (Nat.le_of_lt_succ hfuel))

theorem inferPass_ends (iter : Finset String → List String) {fuel : ℕ}
    (hfuel : net.nodes.length < fuel) (dark : List String) (sig : Signals) (source : Source)
    (openEdgeIds : Finset String) :
    Ends (inferPass iter fuel dark t sig source openEdgeIds) := by
  have horder := length_order_le net h.tree (substation_mem_nodes net h.root_mem)
  rw [inferPass]
  split
  · exact ends_pure []
  · refine ends_mapM fun cluster _ => Ends.bind ?_ fun device _ => ?_
    · refine (ends_lift _).bind fun below _ => (ends_lift_some ?_).bind fun isolating _ => ?_
      · split
        · exact isolatingOpenEdge_ends h openEdgeIds
            (List.idxOf_le_length.trans_lt (horder.trans_lt hfuel))
        · exact ⟨none, rfl⟩
      · cases isolating with
        | some e => exact ends_pure (some e)
        | none =>
            dsimp only
            split
            · exact ends_pure none
            · exact (ends_lift _).bind fun e _ => ends_pure (some e)
    · cases device with
      | some e => exact (ends_lift _).bind fun sub _ => ends_pure _
      | none => exact ends_pure _

end Ends

/-- **The inference ends.** -/
theorem infer_ends (net : Network) (iter : Finset String → List String) {fuel : ℕ}
    (hfuel : net.nodes.length < fuel) (dark : List String) (customersByNode : Dict ℕ)
    (seDeadNodes : List String) :
    Ends (infer iter fuel net.nodes net.edges dark customersByNode seDeadNodes) := by
  refine (buildRadial_ends net hfuel.le).bind fun enet henet => ?_
  refine (buildRadial_ends (structural net) hfuel.le).bind fun snet hsnet => ?_
  obtain ⟨found, hrep⟩ := represents_of_buildRadial net hfuel.le henet
  obtain ⟨sfound, hsrep⟩ := represents_of_buildRadial (structural net) hfuel.le hsnet
  refine (inferPass_ends hrep iter hfuel _ _ _ _).bind fun primary _ => ?_
  refine (inferPass_ends hsrep iter hfuel _ _ _ _).bind fun fallback _ => ?_
  exact ends_pure _

/-! ### The counts agree -/

theorem lookup_eq_ok {ν : Type} {d : Dict ν} {key : String} {v : ν} :
    lookup d key = .ok v ↔ d.get? key = some v := by
  rw [lookup]
  cases d.get? key with
  | none => exact iff_of_false (fun h => by cases h) (fun h => by cases h)
  | some w => simp

section Pass

variable {iter : Finset String → List String} {fuel : ℕ} {t : RadialTree} {sig : Signals}

theorem source_of_inferPass {source : Source} {openEdgeIds : Finset String} {dark : List String}
    {outages : List Outage} (hpass : inferPass iter fuel dark t sig source openEdgeIds =
      pure outages) {o : Outage} (ho : o ∈ outages) : o.source = source := by
  rw [inferPass] at hpass
  split at hpass
  · exact absurd (pure_inj.mp hpass ▸ ho) List.not_mem_nil
  · obtain ⟨cluster, -, hcluster⟩ := mem_of_mapM hpass ho
    obtain ⟨device, -, hcluster⟩ := bind_eq_pure.mp hcluster
    cases device with
    | some e =>
        obtain ⟨sub, -, hout⟩ := bind_eq_pure.mp hcluster
        rw [← pure_inj.mp hout, outageOf]
    | none =>
        rw [← pure_inj.mp hcluster, outageOf]

/-- The energised pass blames a parent edge. -/
theorem parentEdge_of_deviceEdge {members : List String} {e : GridEdge}
    (hdevice : deviceEdge iter fuel t .energized ∅ members = pure (some e)) :
    ∃ below, t.parentEdge.get? below = some e := by
  obtain ⟨below, -, hdevice⟩ := bind_eq_pure.mp hdevice
  obtain ⟨isolating, hisolating, hdevice⟩ := bind_eq_pure.mp hdevice
  rw [if_neg fun h => nomatch h.1] at hisolating
  obtain rfl := Option.some_inj.mp (lift_some_eq_pure.mp hisolating)
  dsimp only at hdevice
  split at hdevice
  · exact nomatch pure_inj.mp hdevice
  · obtain ⟨e', he', hdevice⟩ := bind_eq_pure.mp hdevice
    obtain rfl : e' = e := Option.some_inj.mp (pure_inj.mp hdevice)
    exact ⟨below, lookup_eq_ok.mp (lift_ok_eq_pure.mp he')⟩

/-- What the energised pass says of a device: it is an edge of the tree, and
the customers are those behind it. -/
theorem outage_of_inferPass {net : Network} {found : List (Found String GridEdge)}
    (h : Represents net t found) {dark : List String} {outages : List Outage}
    (hpass : inferPass iter fuel dark t sig .energized ∅ = pure outages) {o : Outage}
    (ho : o ∈ outages) {d : ProbableDevice} (hd : o.probableDevice = some d) :
    ∃ f ∈ found, ∃ below : Finset String, d = deviceOf f.edge ∧
      (∀ k, k ∈ below ↔ Descends found f.node k) ∧
      o.estimatedCustomersAffected = sig.customersIn below := by
  rw [inferPass] at hpass
  split at hpass
  · exact absurd (pure_inj.mp hpass ▸ ho) List.not_mem_nil
  · obtain ⟨cluster, -, hcluster⟩ := mem_of_mapM hpass ho
    obtain ⟨device, hdevice, hcluster⟩ := bind_eq_pure.mp hcluster
    cases device with
    | none =>
        rw [← pure_inj.mp hcluster] at hd
        exact nomatch hd
    | some e =>
        obtain ⟨sub, hsub, hout⟩ := bind_eq_pure.mp hcluster
        obtain rfl := pure_inj.mp hout
        obtain ⟨n, hn⟩ := parentEdge_of_deviceEdge hdevice
        have hmem := Dict.mem_of_get? hn
        rw [h.parentEdge] at hmem
        obtain ⟨f, hf, heq⟩ := List.mem_map.mp hmem
        injection heq with _ hedge
        obtain ⟨below, hget, hbelow⟩ := h.subtree f hf
        have hsub' := lookup_eq_ok.mp (lift_ok_eq_pure.mp hsub)
        rw [← hedge, hget] at hsub'
        injection hsub' with hsub'
        injection hd with hd
        exact ⟨f, hf, below, by rw [← hd, hedge], hbelow, by rw [hsub']; rfl⟩

end Pass

/-- Every outage of the energised pass with a device has the count of lost
customers that the analysis has for the device, and its check has no flag for
a mismatch. -/
def CountsAgree (inferredOutages : List Outage) (contingencies : List Contingency.Outcome)
    (customerTolerance : Option ℤ) : Prop :=
  ∀ o ∈ inferredOutages, o.source = .energized → ∀ d, o.probableDevice = some d →
    (∃ c ∈ contingencies, c.element = d.edgeId ∧
      c.lostCustomers = o.estimatedCustomersAffected) ∧
    ∀ check, (o, check) ∈
        inferredOutages.zip (crossCheck customerTolerance inferredOutages contingencies).checks →
      .customerCountMismatch ∉ check.flags

theorem mem_byElement {contingencies : List Contingency.Outcome} {eid : String}
    {c : Contingency.Outcome} (h : (byElement contingencies).get? eid = some c) :
    c ∈ contingencies ∧ c.element = eid := by
  obtain ⟨c', hc', heq⟩ := List.mem_map.mp ((Dict.get?_update_cases h).resolve_left nofun)
  injection heq with helement hcc
  exact ⟨hcc ▸ hc', hcc ▸ helement⟩

theorem mismatch_not_mem_flagsFor {tol : ℤ} (htol : 0 ≤ tol) {infCust : ℕ} {eid : String}
    {n1 : Option Contingency.Outcome} (h : ∀ c, n1 = some c → c.lostCustomers = infCust) :
    .customerCountMismatch ∉ flagsFor tol infCust (some eid) n1 := by
  cases n1 with
  | none => simp [flagsFor]
  | some c =>
      have hnot : ¬ tol < |(infCust : ℤ) - c.lostCustomers| := by
        rw [h c rfl, sub_self, abs_zero]
        exact not_lt.mpr htol
      simp only [flagsFor, if_neg hnot, List.nil_append, List.mem_append, not_or]
      refine ⟨⟨?_, ?_⟩, ?_⟩ <;> split <;> simp

/-- **Inference and contingency analysis agree.** For a network with one
substation whose energised closed edges form a tree, the inference ends, and
what it infers over the energised tree counts the customers that the analysis
counts as lost. -/
theorem infer_countsAgree (net : Network) {source : String} (hone : net.substations = [source])
    (hforest : grid.Forest (inside net.edges (Contingency.energized net.nodes net.edges)))
    (iter : Finset String → List String) {fuel : ℕ} (hfuel : net.nodes.length < fuel)
    (solve : Solver) (inp : Contingency.Inputs) (dark seDeadNodes : List String)
    (customerTolerance : Option ℤ) (htol : 0 ≤ customerTolerance.getD 0) :
    ∃ answer, (infer iter fuel net.nodes net.edges dark inp.customersByNode seDeadNodes).run =
        some answer ∧
      ∀ r, answer = .ok r →
        CountsAgree r.inferredOutages
          (Contingency.analyze solve net.nodes net.edges inp).contingencies
          customerTolerance := by
  obtain ⟨answer, hanswer⟩ := infer_ends net iter hfuel dark inp.customersByNode seDeadNodes
  refine ⟨answer, hanswer, ?_⟩
  rintro r rfl o ho hsource d hd
  have hinfer : infer iter fuel net.nodes net.edges dark inp.customersByNode seDeadNodes = pure r :=
    hanswer
  obtain ⟨enet, henet, hinfer⟩ := bind_eq_pure.mp hinfer
  obtain ⟨snet, -, hinfer⟩ := bind_eq_pure.mp hinfer
  obtain ⟨primary, hprimary, hinfer⟩ := bind_eq_pure.mp hinfer
  obtain ⟨fallback, hfallback, hinfer⟩ := bind_eq_pure.mp hinfer
  have hmem : o ∈ primary := by
    rw [← pure_inj.mp hinfer, List.mem_insertionSort, List.mem_append] at ho
    refine ho.resolve_right fun hfall => ?_
    rw [source_of_inferPass hfallback hfall] at hsource
    exact nomatch hsource
  obtain ⟨found, hrep⟩ := represents_of_buildRadial net hfuel.le henet
  obtain ⟨f, hf, below, rfl, hbelow, hcount⟩ := outage_of_inferPass hrep hprimary hmem hd
  have hlost := customers_below hrep hone hforest hf hbelow solve inp
  have hcount' : (Contingency.outcome solve net.nodes net.edges inp f.edge).lostCustomers =
      o.estimatedCustomersAffected := hlost.trans hcount.symm
  obtain ⟨hfe, hfc, -⟩ := mem_adjacency.mp (hrep.tree.linked f hf)
  refine ⟨⟨_, Contingency.mem_ranked.mpr (List.mem_map_of_mem
    (Contingency.mem_candidates.mpr ⟨hfe, hfc⟩)), rfl, hcount'⟩, fun check hcheck => ?_⟩
  have hcheck' : check = checkOne (customerTolerance.getD 0)
      (byElement (Contingency.analyze solve net.nodes net.edges inp).contingencies) o := by
    simp only [crossCheck, ← List.map_prod_left_eq_zip] at hcheck
    obtain ⟨o', -, heq⟩ := List.mem_map.mp hcheck
    injection heq with ho' hcheck'
    rw [← hcheck', ho']
  rw [hcheck', checkOne, hd]
  refine mismatch_not_mem_flagsFor htol fun c hc => ?_
  obtain ⟨hc, helement⟩ := mem_byElement hc
  obtain ⟨e, he, rfl⟩ := List.mem_map.mp (Contingency.mem_ranked.mp hc)
  have hedge : e = f.edge := net.edgeKey.eq (Contingency.mem_candidates.mp he).1 hfe helement
  rw [hedge]
  exact hcount'

theorem pilot_inside_forest :
    grid.Forest (inside pilot.edges (Contingency.energized pilot.nodes pilot.edges)) :=
  pilot_radialOutwards.forest.mono fun _ hb => hb.1

/-- The meter of the pilot network goes dark. -/
theorem pilot_countsAgree :
    ∃ answer, (infer (Finset.sort · (· ≤ ·)) 8 pilot.nodes pilot.edges ["ND-METER001"]
        [("ND-METER001", 3)] []).run = some answer ∧
      ∀ r, answer = .ok r →
        CountsAgree r.inferredOutages
          (Contingency.analyze Contingency.unloaded pilot.nodes pilot.edges
            ⟨[], [("ND-METER001", 3)], []⟩).contingencies none :=
  infer_countsAgree pilot (by decide : pilot.substations = ["SUB-ABUJA"]) pilot_inside_forest
    (Finset.sort · (· ≤ ·)) (by decide) Contingency.unloaded ⟨[], [("ND-METER001", 3)], []⟩
    ["ND-METER001"] [] none le_rfl

end DiepLab.OutageInference
