import DiepLab.Dms.Separation

/-!
The customers that a plan counts.

Lost are the nodes that the isolating switch puts out, restored those that are
energised after the ties and were not before them, still out those that were
energised before the fault and are not after the plan. So the three agree if the
ties energise nothing that was dead before the fault (`customers_accounted_iff`).
-/

namespace DiepLab.Dms

open Multigraph

/-! ### Counting -/

/-- The service point is at one of the nodes. -/
def servedAt (nodes : Finset String) (sp : ServicePoint) : Bool :=
  sp.nodeId.any fun n => n ∈ nodes

theorem servicePointCount_eq (db : GridDb) (nodes : Finset String) :
    servicePointCount db nodes = db.servicePoints.countP (servedAt nodes) := by
  have hlength : (db.servicePointsIn nodes).length = db.servicePoints.countP (servedAt nodes) := by
    rw [GridDb.servicePointsIn, List.length_filterMap_eq_countP]
    refine List.countP_congr fun sp _ => ?_
    unfold servedAt
    cases sp.nodeId with
    | none => exact Iff.rfl
    | some n =>
        by_cases hn : n ∈ nodes <;> simp [hn]
  unfold servicePointCount
  split
  · rename_i hempty
    rw [hempty, eq_comm, List.countP_eq_zero]
    intro sp _
    unfold servedAt
    cases sp.nodeId <;> simp
  · exact hlength

theorem servicePointCount_union (db : GridDb) {nodes more : Finset String}
    (h : Disjoint nodes more) :
    servicePointCount db (nodes ∪ more) =
      servicePointCount db nodes + servicePointCount db more := by
  simp only [servicePointCount_eq]
  induction db.servicePoints with
  | nil => rfl
  | cons sp sps ih =>
      have hone : (if servedAt (nodes ∪ more) sp then 1 else 0) =
          (if servedAt nodes sp then 1 else 0) + if servedAt more sp then 1 else 0 := by
        unfold servedAt
        cases sp.nodeId with
        | none => rfl
        | some n =>
            have hnot : n ∈ nodes → n ∉ more := fun hn => Finset.disjoint_left.mp h hn
            by_cases hn : n ∈ nodes
            · simp [hn, hnot hn]
            · simp [hn]
      rw [List.countP_cons, List.countP_cons, List.countP_cons, ih, hone]
      omega

/-! ### What is to hold -/

/-- The customers lost are those restored and those still out, and the nodes counted
as restored are the lost ones that are energised after the plan. -/
structure Accounted (db : GridDb) (s : Switching) (plan : FlisrPlan) : Prop where
  customers : plan.customersLost = plan.customersRestored + plan.customersStillOut
  nodes : s.restored =
    s.lost ∩ reach (plan.apply db.network.edges) db.network.substations

/-- With the edges `cur` the tie leads from an energised node to nodes of which not
all were energised before. -/
def LeadsToDead (before : Finset String) (sources : List String) (cur : List GridEdge)
    (t : GridEdge) : Prop :=
  t.fromNode ∈ reach cur sources ∧ ¬reach cur [t.toNode] ⊆ before

instance (before : Finset String) (sources : List String) (cur : List GridEdge) (t : GridEdge) :
    Decidable (LeadsToDead before sources cur t) :=
  inferInstanceAs (Decidable (_ ∧ _))

/-- No tie leads to a dead node that passes the planner's test when those before it
that have passed it are closed. -/
def NoneLeadsToDead (before : Finset String) (sources : List String) (faultNode : String)
    (lost : Finset String) : List GridEdge → List GridEdge → Prop
  | _, [] => True
  | cur, t :: ties =>
      if Accepts sources faultNode lost cur t then
        ¬LeadsToDead before sources cur t ∧
          NoneLeadsToDead before sources faultNode lost (setClosed t.edgeId true cur) ties
      else NoneLeadsToDead before sources faultNode lost cur ties

/-- The condition for the fault that the arguments name: once the nearest switch above
it is open, no tie that passes the planner's test leads to a node that was dead
before. -/
def TiesFeedOnly (net : Network) (faultNodeArg faultEdgeArg : Option String) : Prop :=
  ∀ f, faultNodeOf net.nodes net.edges faultNodeArg faultEdgeArg = .ok f →
    ∀ iso, IsNearest net.edges f iso →
      NoneLeadsToDead (reach net.edges net.substations) net.substations f
        (lostBy net.edges net.substations iso) (setClosed iso.edgeId false net.edges)
        (openTies (setClosed iso.edgeId false net.edges))

/-! ### The loop -/

section Loop

variable {before lost : Finset String} {sources : List String} {faultNode : String}

/-- What one more tie energises. -/
theorem reach_setClosed_subset_iff {cur : List GridEdge} (hkey : EdgeKey cur) {t : GridEdge}
    (ht : t.branch ∈ cur.map GridEdge.branch) :
    reach (setClosed t.edgeId true cur) sources ⊆ before ↔
      reach cur sources ⊆ before ∧ ¬LeadsToDead before sources cur t := by
  have hmem (x : String) : x ∈ reach (setClosed t.edgeId true cur) sources ↔
      x ∈ reach cur sources ∨ (t.fromNode ∈ reach cur sources ∧ x ∈ reach cur [t.toNode]) := by
    rw [mem_reach, mem_reach, mem_reach, mem_reach_singleton, closed_setClosed_true hkey ht]
    exact (fed_insert_iff :
      grid.Fed { r | r ∈ sources } (insert t.branch (closed cur)) x ↔ _)
  constructor
  · intro h
    refine ⟨fun x hx => h ((hmem x).mpr (Or.inl hx)), fun ⟨hfrom, hdead⟩ => hdead fun x hx => ?_⟩
    exact h ((hmem x).mpr (Or.inr ⟨hfrom, hx⟩))
  · rintro ⟨hcur, hlead⟩ x hx
    rcases (hmem x).mp hx with hx | ⟨hfrom, hx⟩
    · exact hcur hx
    · exact (not_not.mp fun hdead => hlead ⟨hfrom, hdead⟩) hx

/-- After the loop nothing else is energised exactly if no tie has led to a dead node. -/
theorem foldl_tryTie_subset_iff (ties : List GridEdge) (r : Restoration) (hkey : EdgeKey r.edges)
    (hties : ∀ t ∈ ties, t.branch ∈ r.edges.map GridEdge.branch) :
    reach (ties.foldl (tryTie sources faultNode lost) r).edges sources ⊆ before ↔
      reach r.edges sources ⊆ before ∧
        NoneLeadsToDead before sources faultNode lost r.edges ties := by
  induction ties generalizing r with
  | nil => exact (and_iff_left trivial).symm
  | cons t ties ih =>
      obtain ⟨ht, hrest⟩ := List.forall_mem_cons.mp hties
      rw [List.foldl_cons, tryTie, NoneLeadsToDead]
      by_cases hacc : Accepts sources faultNode lost r.edges t
      · rw [if_pos hacc, if_pos hacc, ih (r.close t) hkey.setClosed]
        · rw [Restoration.close, reach_setClosed_subset_iff hkey ht, and_assoc]
        · intro u hu
          rw [Restoration.close, map_branch_setClosed]
          exact hrest u hu
      · rw [if_neg hacc, if_neg hacc]
        exact ih r hkey hrest

end Loop

/-! ### The plan -/

/-- The sets of nodes that the planner counts. -/
theorem switching_nodes {nodes : List GridNode} {edges : List GridEdge}
    {faultNodeArg faultEdgeArg : Option String} {s : Switching}
    (h : switching nodes edges faultNodeArg faultEdgeArg = .ok s) :
    s.lost = lostBy edges (substations nodes) s.isolated ∧
      s.restored = (reach s.restoration.edges (substations nodes) \
        reach (setClosed s.isolated.edgeId false edges) (substations nodes)) \ {s.faultNode} ∧
      s.stillOut = reach edges (substations nodes) \
        reach s.restoration.edges (substations nodes) := by
  obtain ⟨faultNode, iso, steps, -, -, rfl⟩ := of_switching h
  exact ⟨rfl, rfl, rfl⟩

/-- What was energised with the switch open is energised after the ties. -/
theorem reach_subset_restore (sources : List String) (faultNode : String) (lost : Finset String)
    (edgesIso : List GridEdge) (steps : List String) :
    reach edgesIso sources ⊆
      reach (restore sources faultNode lost edgesIso steps).edges sources := by
  rw [restore_edges]
  exact reach_mono fun b hb => mem_closed_closeTies.mpr (Or.inl hb)

/-- Nothing is energised by opening the switch. -/
theorem reach_isolated_subset {net : Network} {faultNode : String} {iso : GridEdge}
    (hiso : isolatingSwitch net.edges faultNode = some iso) (sources : List String) :
    reach (setClosed iso.edgeId false net.edges) sources ⊆ reach net.edges sources := by
  refine reach_mono ?_
  rw [closed_isolated hiso]
  exact opened_subset

/-- The counts agree if nothing is energised after the plan that was dead before the
fault. -/
theorem accounted_iff_subset {db : GridDb} {faultNodeArg faultEdgeArg : Option String}
    {s : Switching}
    (h : switching db.network.nodes db.network.edges faultNodeArg faultEdgeArg = .ok s) :
    Accounted db s (s.toPlan faultEdgeArg (servicePointCount db s.lost)
        (servicePointCount db s.restored) (servicePointCount db s.stillOut)) ↔
      reach s.restoration.edges db.network.substations ⊆
        reach db.network.edges db.network.substations := by
  obtain ⟨hlost, hrestored, hstill⟩ := switching_nodes h
  obtain ⟨-, hiso, steps, hrest⟩ := switching_ok h
  set before := reach db.network.edges db.network.substations
  set afterIso :=
    reach (setClosed s.isolated.edgeId false db.network.edges) db.network.substations
  set after := reach s.restoration.edges db.network.substations with hafter
  have hopened : afterIso ⊆ before := reach_isolated_subset hiso _
  have hties : afterIso ⊆ after := by
    rw [hafter, hrest]
    exact reach_subset_restore ..
  have hfault : s.faultNode ∈ after → s.faultNode ∈ afterIso := by
    rw [hafter, hrest, ← not_imp_not]
    exact (fault_restore_iff _ steps).mpr
  replace hlost : s.lost = before \ afterIso := hlost
  replace hrestored : s.restored = after \ afterIso := by
    refine hrestored.trans ?_
    rw [Finset.sdiff_singleton_eq_erase]
    refine Finset.erase_eq_of_notMem fun hmem => ?_
    obtain ⟨hin, hout⟩ := Finset.mem_sdiff.mp hmem
    exact hout (hfault hin)
  replace hstill : s.stillOut = before \ after := hstill
  constructor
  · intro hacc x hx
    by_contra hdead
    have hmem : x ∈ s.restored := by
      rw [hrestored]
      exact Finset.mem_sdiff.mpr ⟨hx, fun hiso => hdead (hopened hiso)⟩
    rw [hacc.nodes, hlost] at hmem
    exact hdead (Finset.mem_sdiff.mp (Finset.mem_inter.mp hmem).1).1
  · intro hsub
    refine ⟨?_, ?_⟩
    · have hsplit : s.lost = s.restored ∪ s.stillOut := by
        rw [hlost, hrestored, hstill, Finset.union_comm]
        exact (Finset.sdiff_union_sdiff_cancel hsub hties).symm
      have hdisjoint : Disjoint s.restored s.stillOut := by
        rw [hrestored, hstill]
        exact Finset.disjoint_of_subset_left Finset.sdiff_subset Finset.disjoint_sdiff
      exact (congrArg (servicePointCount db) hsplit).trans (servicePointCount_union db hdisjoint)
    · rw [apply_plan h, ← hafter, hlost, hrestored, Finset.sdiff_inter_right_comm,
        Finset.inter_eq_right.mpr hsub]

/-- **The customers agree exactly when the ties feed nothing that was dead before.** -/
theorem customers_accounted_iff (db : GridDb) (faultNodeArg faultEdgeArg : Option String) :
    (∀ s plan, switching db.network.nodes db.network.edges faultNodeArg faultEdgeArg = .ok s →
      ((planFlisr faultNodeArg faultEdgeArg).run quiet db).1 = .ok plan → Accounted db s plan) ↔
      TiesFeedOnly db.network faultNodeArg faultEdgeArg := by
  have hloop (f : String) (iso : GridEdge) (steps : List String)
      (hiso : isolatingSwitch db.network.edges f = some iso) :
      reach (restore db.network.substations f
          (lostBy db.network.edges db.network.substations iso)
          (setClosed iso.edgeId false db.network.edges) steps).edges db.network.substations ⊆
          reach db.network.edges db.network.substations ↔
        NoneLeadsToDead (reach db.network.edges db.network.substations) db.network.substations f
          (lostBy db.network.edges db.network.substations iso)
          (setClosed iso.edgeId false db.network.edges)
          (openTies (setClosed iso.edgeId false db.network.edges)) := by
    refine (foldl_tryTie_subset_iff _ _ db.network.edgeKey.setClosed fun t ht => ?_).trans
      (and_iff_right (reach_isolated_subset hiso _))
    exact List.mem_map_of_mem (List.mem_filter.mp ht).1
  rw [planFlisr_run]
  constructor
  · intro h f hf iso hnearest
    have hiso := isNearest_iff.mp hnearest
    obtain ⟨s, hs⟩ := exists_switching hf hiso
    obtain ⟨hfault, hiso', steps, hrest⟩ := switching_ok hs
    obtain rfl := Except.ok.inj (hf.symm.trans hfault)
    obtain rfl := Option.some.inj (hiso.symm.trans hiso')
    have hacc := h s _ hs (by rw [planOn, hs])
    rw [accounted_iff_subset hs, hrest] at hacc
    exact (hloop _ _ steps hiso).mp hacc
  · intro h s plan hs hplan
    obtain ⟨s', hs', rfl⟩ := planOn_ok hplan
    obtain rfl := Except.ok.inj (hs.symm.trans hs')
    obtain ⟨hfault, hiso, steps, hrest⟩ := switching_ok hs
    rw [accounted_iff_subset hs, hrest]
    exact (hloop _ _ steps hiso).mpr (h _ hfault _ (isNearest_iff.mpr hiso))

/-- A feeder with two ties behind the fault, the second of them to a node that is not
energised. -/
def deadBehindTie : Network where
  nodes := [⟨"SUB-1", .substation⟩, ⟨"BUS-1", .bus⟩, ⟨"BUS-2", .bus⟩, ⟨"TX-1", .transformer⟩,
    ⟨"BUS-3", .bus⟩]
  edges := [
    { edgeId := "E-SW-1", fromNode := "SUB-1", toNode := "BUS-1", edgeType := .switch
      isSwitchable := true },
    { edgeId := "E-LINE-1", fromNode := "BUS-1", toNode := "BUS-2" },
    { edgeId := "E-LINE-2", fromNode := "SUB-1", toNode := "TX-1" },
    { edgeId := "E-TIE-1", fromNode := "TX-1", toNode := "BUS-2", edgeType := .tie
      isSwitchable := true, normallyClosed := false, isClosed := false },
    { edgeId := "E-TIE-2", fromNode := "BUS-2", toNode := "BUS-3", edgeType := .tie
      isSwitchable := true, normallyClosed := false, isClosed := false }]
  nodeKey := by decide
  edgeKey := by decide
  fromNode_mem := by decide
  toNode_mem := by decide

/-- A service point on the lost bus and one on the dead bus. -/
def deadBehindTieDb : GridDb where
  network := deadBehindTie
  servicePoints := [⟨"SP-1", none, some "BUS-2"⟩, ⟨"SP-2", none, some "BUS-3"⟩]

/-- One customer is lost, and two are restored. -/
theorem deadBehindTie_overcounted :
    deadBehindTie.RadialOutwards ∧
      ∃ plan, ((planFlisr (some "BUS-1") none).run quiet deadBehindTieDb).1 = .ok plan ∧
        plan.restoredEdges = ["E-TIE-1", "E-TIE-2"] ∧
        plan.customersLost = 1 ∧ plan.customersRestored = 2 ∧ plan.customersStillOut = 0 := by
  refine ⟨by decide +kernel, _, rfl, ?_, ?_, ?_, ?_⟩
  · decide +kernel
  · decide +kernel
  · decide +kernel
  · decide +kernel

end DiepLab.Dms
