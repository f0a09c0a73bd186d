import DiepLab.Dms.OutageClusters

/-!
Where an inferred outage is.

An outage names a device, the section behind it, a node of the section and the dark
meters that it explains. `infer_places` says that every dark meter of one of the two
trees is explained by one outage, and that the section is the smallest one around its
meters where the energised tree was used. The node that is named is `to_node` of the
device, which is in the section only if the device is stored with its far end there
(`sectionNode_inside_iff`). What the estimator reads as dead and no meter has reported
is listed as a silent failure; the list leaves out the dark meters of the two trees, not
all dark meters (`silent_iff`).
-/

namespace DiepLab.OutageInference

open SpanningTree StateEstimation

/-! ### The section of a report -/

section Section

variable {iter : Finset String → List String} {net : Network} {t : RadialTree}
  {found : List (Found String GridEdge)} (h : Represents net t found) {sig : Signals}
  {source : Source} {openEdgeIds : Finset String} {members : List String} {o : Outage}

/-- The node behind which the section begins. -/
def top (openEdgeIds : Finset String) (root : String) (path : List (Found String GridEdge)) :
    String :=
  ((blamedFound openEdgeIds path).map Found.node).getD root

include h

theorem mem_section {n : String} {path : List (Found String GridEdge)}
    (hp : PathTo t.root found n path)
    (hdevice : o.probableDevice = (blamedFound openEdgeIds path).map fun f => deviceOf f.edge)
    {k : String} : k ∈ o.section t ↔ Descends found (top openEdgeIds t.root path) k := by
  rw [Outage.section, hdevice, top]
  cases hblamed : blamedFound openEdgeIds path with
  | none =>
      refine (h.energized k).trans ⟨fun hk => h.tree.root_descends hk, fun hk => ?_⟩
      exact h.tree.mem_of_descends hk h.tree.root_mem
  | some f =>
      obtain ⟨below, hget, hbelow⟩ := h.subtree f (Tree.of_mem_path hp (mem_of_blamed hblamed))
      simp only [Option.map_some, Option.getD_some, deviceOf, hget]
      exact hbelow k

theorem top_descends {n : String} (hn : n ∈ t.order) {path : List (Found String GridEdge)}
    (hp : PathTo t.root found n path) : Descends found (top openEdgeIds t.root path) n := by
  rw [top]
  cases hblamed : blamedFound openEdgeIds path with
  | none => exact h.tree.root_descends hn
  | some f =>
      have hf := mem_of_blamed hblamed
      exact (h.tree.mem_path_iff (Tree.of_mem_path hp hf) hp).mp hf

omit h in
/-- With no open edge the section begins behind the deepest node. -/
theorem top_empty {n : String} {path : List (Found String GridEdge)}
    (hp : PathTo t.root found n path) : top ∅ t.root path = n := by
  rw [top, blamedFound, blamed_empty]
  cases hp with
  | root => rfl
  | step hf hp => rw [List.getLast?_concat]; rfl

variable (hiter : ∀ s n, n ∈ iter s ↔ n ∈ s) (hne : members ≠ [])
  (hmembers : ∀ d ∈ members, d ∈ t.order)
  (hreports : Reports iter t found sig source openEdgeIds members o)
include hiter hne hmembers hreports

theorem Reports.inside : ∀ d ∈ o.darkMeters, d ∈ o.section t := by
  obtain ⟨n, path, hlca, hp, hdevice, -⟩ := hreports.way
  have hcovers := covers_of_lca hiter h hne hmembers hlca
  have hn := mem_order_of_covers h hne hmembers hcovers
  intro d hd
  rw [hreports.mem_darkMeters] at hd
  exact (mem_section h hp hdevice).mpr ((top_descends h hn hp).trans (hcovers d hd))

theorem Reports.customers_le : o.reportedCustomers ≤ o.estimatedCustomersAffected := by
  rw [hreports.reported, hreports.estimated]
  refine Finset.sum_le_sum_of_subset fun d hd => ?_
  rw [List.mem_toFinset] at hd
  exact hreports.inside h hiter hne hmembers d (hreports.mem_darkMeters.mpr hd)

/-- No smaller section explains the outage. -/
theorem Reports.smallest (hshallow : Shallow t) (hempty : openEdgeIds = ∅) {n : String}
    {e : GridEdge} {below : Finset String} (hedge : t.parentEdge.get? n = some e)
    (hbelow : t.subtree.get? e.edgeId = some below) (hsmaller : below ⊂ o.section t) :
    ∃ d ∈ o.darkMeters, d ∉ below := by
  obtain ⟨m, path, hlca, hp, hdevice, -⟩ := hreports.way
  obtain ⟨m', hlca', hdeepest⟩ := exists_lca hiter h hshallow hne hmembers
  obtain rfl : m = m' := Except.ok.inj (hlca.symm.trans hlca')
  have hsection (k : String) : k ∈ o.section t ↔ Descends found m k := by
    rw [mem_section h hp hdevice, hempty, top_empty hp]
  obtain ⟨f, hf, -, hfe⟩ := h.exists_of_parentEdge hedge
  obtain ⟨below', hget, hdesc⟩ := h.subtree f hf
  rw [hfe, hbelow] at hget
  obtain rfl : below = below' := Option.some.inj hget
  by_contra hall
  push Not at hall
  have hcovers : Covers found f.node members := fun d hd =>
    (hdesc d).mp (hall d (hreports.mem_darkMeters.mpr hd))
  have hmf := (hsection f.node).mp (hsmaller.subset ((hdesc f.node).mpr .refl))
  have hnode := h.tree.descends_antisymm hmf (hdeepest.deepest f.node hcovers)
  refine hsmaller.not_subset fun k hk => ?_
  rw [hdesc, ← hnode]
  exact (hsection k).mp hk

end Section

/-! ### Both passes -/

def signalsOf (nodes : List GridNode) (customersByNode : Dict ℕ) (seDeadNodes : List String) :
    Signals where
  meterNodes := ((nodes.filter fun n => n.nodeType = .meter).map GridNode.nodeId).toFinset
  customersByNode := customersByNode
  seDead := seDeadNodes.toFinset

/-- `dark_primary`. -/
def darkPrimary (enet : RadialTree) (dark : List String) : List String :=
  dark.filter fun d => d ∈ enet.energized

/-- `dark_fallback`. -/
def darkFallback (enet snet : RadialTree) (dark : List String) : List String :=
  dark.filter fun d => d ∉ enet.energized ∧ d ∈ snet.energized

theorem mem_order_of_darkPrimary {net : Network} {enet : RadialTree}
    {found : List (Found String GridEdge)} (h : Represents net enet found) {dark : List String} :
    ∀ d ∈ darkPrimary enet dark, d ∈ enet.order :=
  fun d hd => (h.energized d).mp (of_decide_eq_true (List.mem_filter.mp hd).2)

theorem mem_order_of_darkFallback {net : Network} {enet snet : RadialTree}
    {found : List (Found String GridEdge)} (h : Represents net snet found) {dark : List String} :
    ∀ d ∈ darkFallback enet snet dark, d ∈ snet.order :=
  fun d hd => (h.energized d).mp (of_decide_eq_true (List.mem_filter.mp hd).2).2

/-- What `infer` has put its answer together from. -/
structure Passes (iter : Finset String → List String) (fuel : ℕ) (net : Network)
    (sig : Signals) (dark : List String) (enet snet : RadialTree)
    (primary fallback : List Outage) : Prop where
  enet_eq : buildRadial fuel net.nodes net.edges = pure enet
  snet_eq : buildRadial fuel net.nodes (structuralEdges net.edges) = pure snet
  primary_eq : inferPass iter fuel (darkPrimary enet dark) enet sig .energized ∅ = pure primary
  fallback_eq : inferPass iter fuel (darkFallback enet snet dark) snet sig .structural
    (openEdges net.edges) = pure fallback

/-- The answer that is put together. -/
structure Answers (sig : Signals) (dark : List String) (enet snet : RadialTree)
    (primary fallback : List Outage) (r : Inference) : Prop where
  outages : r.inferredOutages.Perm (primary ++ fallback)
  silent : ∀ n, n ∈ r.silentFailureNodes ↔ n ∈ sig.seDead ∧ n ∈ sig.meterNodes ∧
    n ∉ darkPrimary enet dark ∧ n ∉ darkFallback enet snet dark

theorem structural_open {openEdgeIds : Finset String} :
    Source.structural = .energized → openEdgeIds = ∅ := nofun

section Infer

variable {iter : Finset String → List String} {fuel : ℕ} {net : Network} {dark : List String}
  {customersByNode : Dict ℕ} {seDeadNodes : List String}

theorem infer_of_passes {enet snet : RadialTree} {primary fallback : List Outage}
    (h : Passes iter fuel net (signalsOf net.nodes customersByNode seDeadNodes) dark enet snet
      primary fallback) :
    ∃ r, infer iter fuel net.nodes net.edges dark customersByNode seDeadNodes = pure r ∧
      Answers (signalsOf net.nodes customersByNode seDeadNodes) dark enet snet primary fallback
        r := by
  refine ⟨_, bind_eq_pure.mpr ⟨enet, h.enet_eq, bind_eq_pure.mpr ⟨snet, h.snet_eq,
    bind_eq_pure.mpr ⟨primary, h.primary_eq, bind_eq_pure.mpr ⟨fallback, h.fallback_eq, rfl⟩⟩⟩⟩,
    ⟨List.perm_insertionSort _ _, fun n => ?_⟩⟩
  simp only [signalsOf, darkPrimary, darkFallback, Finset.mem_sort, Finset.mem_sdiff,
    Finset.mem_inter, Finset.mem_union, List.mem_toFinset, not_or, and_assoc]

theorem passes_of_infer {r : Inference}
    (h : infer iter fuel net.nodes net.edges dark customersByNode seDeadNodes = pure r) :
    ∃ enet snet primary fallback,
      Passes iter fuel net (signalsOf net.nodes customersByNode seDeadNodes) dark enet snet
        primary fallback ∧
      Answers (signalsOf net.nodes customersByNode seDeadNodes) dark enet snet primary fallback
        r := by
  have hinfer := h
  obtain ⟨enet, henet, hinfer⟩ := bind_eq_pure.mp hinfer
  obtain ⟨snet, hsnet, hinfer⟩ := bind_eq_pure.mp hinfer
  obtain ⟨primary, hprimary, hinfer⟩ := bind_eq_pure.mp hinfer
  obtain ⟨fallback, hfallback, -⟩ := bind_eq_pure.mp hinfer
  have hpasses : Passes iter fuel net (signalsOf net.nodes customersByNode seDeadNodes) dark
      enet snet primary fallback := ⟨henet, hsnet, hprimary, hfallback⟩
  obtain ⟨r', hr', hanswers⟩ := infer_of_passes hpasses
  rw [pure_inj.mp (hr'.symm.trans h)] at hanswers
  exact ⟨enet, snet, primary, fallback, hpasses, hanswers⟩

/-- An outage of one of the passes, with the tree, the dark meters and the open edges of the
pass. -/
theorem reports_of_passes (hiter : ∀ s n, n ∈ iter s ↔ n ∈ s) (hfuel : net.nodes.length < fuel)
    {enet snet : RadialTree} {primary fallback : List Outage} {r : Inference}
    (h : Passes iter fuel net (signalsOf net.nodes customersByNode seDeadNodes) dark enet snet
      primary fallback)
    (ha : Answers (signalsOf net.nodes customersByNode seDeadNodes) dark enet snet primary
      fallback r) {found sfound : List (Found String GridEdge)} (hrep : Represents net enet found)
    (hsrep : Represents (structural net) snet sfound) {o : Outage}
    (ho : o ∈ r.inferredOutages) :
    (∃ cluster ∈ clusters enet (darkPrimary enet dark), Reports iter enet found
      (signalsOf net.nodes customersByNode seDeadNodes) .energized ∅ cluster.2 o) ∨
    ∃ cluster ∈ clusters snet (darkFallback enet snet dark), Reports iter snet sfound
      (signalsOf net.nodes customersByNode seDeadNodes) .structural (openEdges net.edges)
      cluster.2 o := by
  rcases List.mem_append.mp (ha.outages.mem_iff.mp ho) with ho | ho
  · exact Or.inl (reports_of_inferPass hiter hrep hfuel (mem_order_of_darkPrimary hrep) _
      (fun _ => rfl) h.primary_eq ho)
  · exact Or.inr (reports_of_inferPass hiter hsrep hfuel (mem_order_of_darkFallback hsrep) _
      structural_open h.fallback_eq ho)

end Infer

/-! ### Every dark meter is explained -/

/-- The tree that an outage was inferred from. -/
def Outage.tree (enet snet : RadialTree) (o : Outage) : RadialTree :=
  match o.source with
  | .energized => enet
  | .structural => snet

/-- The outage explains its dark meters. -/
structure Explains (t : RadialTree) (o : Outage) : Prop where
  inside : ∀ d ∈ o.darkMeters, d ∈ o.section t
  customers_le : o.reportedCustomers ≤ o.estimatedCustomersAffected
  smallest : o.source = .energized → ∀ n e below, t.parentEdge.get? n = some e →
    t.subtree.get? e.edgeId = some below → below ⊂ o.section t → ∃ d ∈ o.darkMeters, d ∉ below

/-- A report of a group in the tree explains its outage. -/
theorem Reports.explains {net : Network} {t : RadialTree} {found : List (Found String GridEdge)}
    (h : Represents net t found) {iter : Finset String → List String}
    (hiter : ∀ s n, n ∈ iter s ↔ n ∈ s) {dark : List String} (hdark : ∀ d ∈ dark, d ∈ t.order)
    {sig : Signals} {source : Source} {openEdgeIds : Finset String} {o : Outage}
    {cluster : String × List String} (hcluster : cluster ∈ clusters t dark)
    (hreports : Reports iter t found sig source openEdgeIds cluster.2 o)
    (henergized : source = .energized → Shallow t ∧ openEdgeIds = ∅) : Explains t o := by
  obtain ⟨hne, hmembers⟩ := members_of_cluster hdark hcluster
  refine ⟨hreports.inside h hiter hne hmembers, hreports.customers_le h hiter hne hmembers,
    fun hsource n e below => ?_⟩
  obtain ⟨hshallow, hempty⟩ := henergized (hreports.source_eq.symm.trans hsource)
  exact hreports.smallest h hiter hne hmembers hshallow hempty

theorem shallow_of_small {net : Network} {t : RadialTree} {found : List (Found String GridEdge)}
    (h : Represents net t found) (hsmall : net.nodes.length < 1000) : Shallow t := by
  intro n hn path hpath
  obtain ⟨way, hway⟩ := h.tree.exists_path hn
  have hget := h.pathEdges n way (Or.inr hn) hway
  rw [hpath] at hget
  rw [Option.some.inj hget, List.length_map]
  exact (length_path_le h hn hway).trans_lt hsmall

/-- **The dark meters are placed.** Where no node of the two trees is a thousand edges
away from the root, `infer` refuses a network without a substation and answers for every
other one; each dark meter of one of the trees is in one outage, and an outage explains
its dark meters. -/
theorem infer_places (net : Network) {iter : Finset String → List String}
    (hiter : ∀ s n, n ∈ iter s ↔ n ∈ s) {fuel : ℕ} (hfuel : net.nodes.length < fuel)
    (dark seDeadNodes : List String) (customersByNode : Dict ℕ)
    (hdepth : ∀ t, buildRadial fuel net.nodes net.edges = pure t ∨
      buildRadial fuel net.nodes (structuralEdges net.edges) = pure t → Shallow t) :
    (net.substations = [] ∧
      infer iter fuel net.nodes net.edges dark customersByNode seDeadNodes =
        throw (.other "no substation/source node")) ∨
    ∃ enet snet r, buildRadial fuel net.nodes net.edges = pure enet ∧
      buildRadial fuel net.nodes (structuralEdges net.edges) = pure snet ∧
      infer iter fuel net.nodes net.edges dark customersByNode seDeadNodes = pure r ∧
      (∀ d ∈ dark, d ∈ enet.energized ∨ d ∈ snet.energized →
        (r.inferredOutages.filter fun o => d ∈ o.darkMeters).length = 1) ∧
      ∀ o ∈ r.inferredOutages, Explains (o.tree enet snet) o := by
  by_cases hsource : net.substations = []
  · refine Or.inl ⟨hsource, ?_⟩
    have hsources : Contingency.sources net.nodes = [] := hsource
    rw [infer, buildRadial, hsources]
    rfl
  refine Or.inr ?_
  obtain ⟨enet, found, henet, hrep⟩ := buildRadial_represents net hsource hfuel.le
  obtain ⟨snet, sfound, hsnet, hsrep⟩ :=
    buildRadial_represents (structural net) hsource hfuel.le
  let sig := signalsOf net.nodes customersByNode seDeadNodes
  have hdark : ∀ d ∈ darkPrimary enet dark, d ∈ enet.order := mem_order_of_darkPrimary hrep
  have hsdark : ∀ d ∈ darkFallback enet snet dark, d ∈ snet.order :=
    mem_order_of_darkFallback hsrep
  have hshallow := hdepth enet (Or.inl henet)
  obtain ⟨primary, hprimary⟩ : ∃ outages,
      inferPass iter fuel (darkPrimary enet dark) enet sig .energized ∅ = pure outages :=
    exists_inferPass hiter hrep hfuel hdark sig (fun _ => rfl) hshallow
  obtain ⟨fallback, hfallback⟩ : ∃ outages, inferPass iter fuel (darkFallback enet snet dark)
      snet sig .structural (openEdges net.edges) = pure outages :=
    exists_inferPass hiter hsrep hfuel hsdark sig structural_open (hdepth snet (Or.inr hsnet))
  have hpasses : Passes iter fuel net sig dark enet snet primary fallback :=
    ⟨henet, hsnet, hprimary, hfallback⟩
  obtain ⟨r, hinfer, hanswers⟩ := infer_of_passes hpasses
  refine ⟨enet, snet, r, henet, hsnet, hinfer, fun d hd htrees => ?_, fun o ho => ?_⟩
  · rw [(hanswers.outages.filter _).length_eq, List.filter_append, List.length_append,
      length_filter_outages hiter hrep hfuel hdark sig (fun _ => rfl) hprimary d,
      length_filter_outages hiter hsrep hfuel hsdark sig structural_open hfallback d]
    by_cases he : d ∈ enet.energized
    · simp [darkPrimary, darkFallback, hd, he]
    · simp [darkPrimary, darkFallback, hd, he, htrees.resolve_left he]
  · rcases reports_of_passes hiter hfuel hpasses hanswers hrep hsrep ho with
      ⟨cluster, hcluster, hreports⟩ | ⟨cluster, hcluster, hreports⟩
    · rw [Outage.tree, hreports.source_eq]
      exact hreports.explains hrep hiter hdark hcluster fun _ => ⟨hshallow, rfl⟩
    · rw [Outage.tree, hreports.source_eq]
      exact hreports.explains hsrep hiter hsdark hcluster fun hs => by cases hs

/-- The meter of the pilot network goes dark. -/
theorem pilot_placed :
    (pilot.substations = [] ∧
      infer (Finset.sort · (· ≤ ·)) 8 pilot.nodes pilot.edges ["ND-METER001"]
        [("ND-METER001", 3)] [] = throw (.other "no substation/source node")) ∨
    ∃ enet snet r, buildRadial 8 pilot.nodes pilot.edges = pure enet ∧
      buildRadial 8 pilot.nodes (structuralEdges pilot.edges) = pure snet ∧
      infer (Finset.sort · (· ≤ ·)) 8 pilot.nodes pilot.edges ["ND-METER001"]
        [("ND-METER001", 3)] [] = pure r ∧
      (∀ d ∈ ["ND-METER001"], d ∈ enet.energized ∨ d ∈ snet.energized →
        (r.inferredOutages.filter fun o => d ∈ o.darkMeters).length = 1) ∧
      ∀ o ∈ r.inferredOutages, Explains (o.tree enet snet) o :=
  infer_places pilot (fun s _ => s.mem_sort (· ≤ ·)) (by decide) ["ND-METER001"] []
    [("ND-METER001", 3)] fun t ht => by
      rcases ht with ht | ht
      · obtain ⟨found, h⟩ := represents_of_buildRadial pilot (by decide) ht
        exact shallow_of_small h (by decide)
      · obtain ⟨found, h⟩ := represents_of_buildRadial (structural pilot) (by decide) ht
        exact shallow_of_small h (by decide)

/-! ### The node that is named -/

/-- The node that an outage names lies in its section, or is the root where there is no
device. -/
def NamesInside (t : RadialTree) (o : Outage) : Prop :=
  if o.probableDevice.isSome then o.sectionNode ∈ o.section t else o.sectionNode = t.root

instance (t : RadialTree) (o : Outage) : Decidable (NamesInside t o) :=
  inferInstanceAs (Decidable
    (if o.probableDevice.isSome then o.sectionNode ∈ o.section t else o.sectionNode = t.root))

/-- Every edge that is blamed for a group of dark meters is stored away from the source:
it is the edge over which its `to_node` is fed. Blamed is the last open edge on the way to
the deepest node over the group, or else the last one. -/
def BlamedAway (iter : Finset String → List String) (t : RadialTree)
    (openEdgeIds : Finset String) (dark : List String) : Prop :=
  ∀ d ∈ dark, ∀ n, lca iter (parentNodeMap t) t.root (groupOf t dark d) = .ok n →
    ∀ e, blamed GridEdge.edgeId openEdgeIds ((t.pathEdges.get? n).getD []) = some e →
      t.parentEdge.get? e.toNode = some e

section Names

variable {iter : Finset String → List String} {net : Network} {t : RadialTree}
  {found : List (Found String GridEdge)} (h : Represents net t found)
include h

/-- The far end of a tree edge lies behind it, and the near end does not. -/
theorem toNode_below_iff {f : Found String GridEdge} (hf : f ∈ found) :
    Descends found f.node f.edge.toNode ↔ t.parentEdge.get? f.edge.toNode = some f.edge := by
  obtain ⟨-, -, ⟨-, hto⟩ | ⟨hto, -⟩⟩ := mem_adjacency.mp (h.tree.linked f hf)
  · rw [hto]
    exact iff_of_true .refl (h.parentEdge_get? hf)
  · rw [hto]
    refine iff_of_false (fun hd => ?_) fun hget => ?_
    · exact absurd (h.tree.ordered f hf) (not_lt.mpr (h.tree.idxOf_le_of_descends hd))
    · -- then the parent would have been found over the same edge
      have hmem := Dict.mem_of_get? hget
      rw [h.parentEdge] at hmem
      obtain ⟨g, hg, heq⟩ := List.mem_map.mp hmem
      injection heq with hnode hedge
      have hgf : g = f := found_eq_of_edgeId net h.tree hg hf (congrArg GridEdge.edgeId hedge)
      have hlt := h.tree.ordered f hf
      rw [← hnode, hgf] at hlt
      exact lt_irrefl _ hlt

theorem Reports.names_iff {sig : Signals} {source : Source} {openEdgeIds : Finset String}
    {members : List String} {o : Outage}
    (hmembers : ∀ n, lca iter (parentNodeMap t) t.root members = .ok n → n ∈ t.order)
    (hreports : Reports iter t found sig source openEdgeIds members o) :
    NamesInside t o ↔ ∀ n, lca iter (parentNodeMap t) t.root members = .ok n →
      ∀ e, blamed GridEdge.edgeId openEdgeIds ((t.pathEdges.get? n).getD []) = some e →
        t.parentEdge.get? e.toNode = some e := by
  obtain ⟨n, path, hlca, hp, hdevice, hname⟩ := hreports.way
  have hpath := h.pathEdges n path (Or.inr (hmembers n hlca)) hp
  have hchoice : (∀ n, lca iter (parentNodeMap t) t.root members = .ok n →
      ∀ e, blamed GridEdge.edgeId openEdgeIds ((t.pathEdges.get? n).getD []) = some e →
        t.parentEdge.get? e.toNode = some e) ↔
      ∀ f, blamedFound openEdgeIds path = some f →
        t.parentEdge.get? f.edge.toNode = some f.edge := by
    constructor
    · intro hall f hf
      refine hall n hlca f.edge ?_
      rw [hpath, Option.getD_some, blamed_map]
      exact congrArg (Option.map Found.edge) hf
    · intro hall m hm e he
      obtain rfl : n = m := Except.ok.inj (hlca.symm.trans hm)
      rw [hpath, Option.getD_some, blamed_map] at he
      obtain ⟨f, hf, rfl⟩ := Option.map_eq_some_iff.mp he
      exact hall f hf
  rw [hchoice, NamesInside, mem_section h hp hdevice, hdevice, hname, top]
  cases hblamed : blamedFound openEdgeIds path with
  | none => simp
  | some f =>
      have hf := Tree.of_mem_path hp (mem_of_blamed hblamed)
      simpa using toNode_below_iff h hf

/-- The outages of a pass name nodes of their sections when what is blamed is stored away
from the source. -/
theorem namesInside_iff_of_pass (hiter : ∀ s n, n ∈ iter s ↔ n ∈ s) {fuel : ℕ}
    (hfuel : net.nodes.length < fuel) {dark : List String} (hdark : ∀ d ∈ dark, d ∈ t.order)
    {sig : Signals} {source : Source} {openEdgeIds : Finset String}
    (hsource : source = .energized → openEdgeIds = ∅) {outages : List Outage}
    (hpass : inferPass iter fuel dark t sig source openEdgeIds = pure outages) :
    (∀ o ∈ outages, NamesInside t o) ↔ BlamedAway iter t openEdgeIds dark := by
  have hchosen (cluster : String × List String) (hcluster : cluster ∈ clusters t dark)
      (n : String) (hn : lca iter (parentNodeMap t) t.root cluster.2 = .ok n) : n ∈ t.order := by
    obtain ⟨hne, hmembers⟩ := members_of_cluster hdark hcluster
    exact mem_order_of_covers h hne hmembers (covers_of_lca hiter h hne hmembers hn)
  constructor
  · intro hall d hd
    obtain ⟨cluster, hcluster, hmembers⟩ := exists_cluster (t := t) hd
    obtain ⟨o, ho, hreports⟩ := exists_report hiter h hfuel hdark sig hsource hpass hcluster
    rw [← hmembers]
    exact (hreports.names_iff h (hchosen cluster hcluster)).mp (hall o ho)
  · intro hall o ho
    obtain ⟨cluster, hcluster, hreports⟩ :=
      reports_of_inferPass hiter h hfuel hdark sig hsource hpass ho
    obtain ⟨d, hd, hmembers⟩ := mem_clusters hcluster
    refine (hreports.names_iff h (hchosen cluster hcluster)).mpr ?_
    rw [hmembers]
    exact hall d hd

end Names

/-- **When the node named is in the section.** For every network, radial or not, and every
list of dark meters the inference ends, and the outages that it infers name nodes of
their sections exactly when every edge that is blamed is stored away from the source. -/
theorem namesInside_iff (net : Network) {iter : Finset String → List String}
    (hiter : ∀ s n, n ∈ iter s ↔ n ∈ s) {fuel : ℕ} (hfuel : net.nodes.length < fuel)
    (dark seDeadNodes : List String) (customersByNode : Dict ℕ) :
    ∃ answer, (infer iter fuel net.nodes net.edges dark customersByNode seDeadNodes).run =
        some answer ∧
      ∀ r, answer = .ok r → ∃ enet snet, buildRadial fuel net.nodes net.edges = pure enet ∧
        buildRadial fuel net.nodes (structuralEdges net.edges) = pure snet ∧
        ((∀ o ∈ r.inferredOutages, NamesInside (o.tree enet snet) o) ↔
          BlamedAway iter enet ∅ (darkPrimary enet dark) ∧
          BlamedAway iter snet (openEdges net.edges) (darkFallback enet snet dark)) := by
  obtain ⟨answer, hanswer⟩ := infer_ends net iter hfuel dark customersByNode seDeadNodes
  refine ⟨answer, hanswer, ?_⟩
  rintro r rfl
  have hinfer : infer iter fuel net.nodes net.edges dark customersByNode seDeadNodes = pure r :=
    hanswer
  obtain ⟨enet, snet, primary, fallback, hpasses, hanswers⟩ := passes_of_infer hinfer
  obtain ⟨found, hrep⟩ := represents_of_buildRadial net hfuel.le hpasses.enet_eq
  obtain ⟨sfound, hsrep⟩ := represents_of_buildRadial (structural net) hfuel.le hpasses.snet_eq
  refine ⟨enet, snet, hpasses.enet_eq, hpasses.snet_eq, ?_⟩
  rw [← namesInside_iff_of_pass hrep hiter hfuel (mem_order_of_darkPrimary hrep) (fun _ => rfl)
      hpasses.primary_eq,
    ← namesInside_iff_of_pass hsrep hiter hfuel (mem_order_of_darkFallback hsrep) structural_open
      hpasses.fallback_eq]
  have htree {o : Outage} (ho : o ∈ primary) : o.tree enet snet = enet := by
    rw [Outage.tree, source_of_inferPass hpasses.primary_eq ho]
  have hstree {o : Outage} (ho : o ∈ fallback) : o.tree enet snet = snet := by
    rw [Outage.tree, source_of_inferPass hpasses.fallback_eq ho]
  constructor
  · intro hall
    constructor
    · intro o ho
      exact htree ho ▸ hall o (hanswers.outages.mem_iff.mpr (List.mem_append_left _ ho))
    · intro o ho
      exact hstree ho ▸ hall o (hanswers.outages.mem_iff.mpr (List.mem_append_right _ ho))
  · rintro ⟨hprimary, hfallback⟩ o ho
    rcases List.mem_append.mp (hanswers.outages.mem_iff.mp ho) with ho | ho
    · exact (htree ho).symm ▸ hprimary o ho
    · exact (hstree ho).symm ▸ hfallback o ho

/-- A meter behind a line that is stored towards the substation. -/
def reversedFeeder : Network where
  nodes := [⟨"SUB-1", .substation⟩, ⟨"MTR-1", .meter⟩]
  edges := [{ edgeId := "E-LINE-1", fromNode := "MTR-1", toNode := "SUB-1" }]
  nodeKey := by decide
  edgeKey := by decide
  fromNode_mem := by decide
  toNode_mem := by decide

/-- One of the orders in which the sets of node ids may be gone through. -/
def someOrder (s : Finset String) : List String :=
  if s = {"SUB-1", "MTR-1"} then ["SUB-1", "MTR-1"] else s.sort (· ≤ ·)

theorem mem_someOrder (s : Finset String) (n : String) : n ∈ someOrder s ↔ n ∈ s := by
  rw [someOrder]
  split
  · rename_i h
    simp [h]
  · exact s.mem_sort (· ≤ ·)

theorem reversedFeeder_names :
    ∃ answer, (infer someOrder 3 reversedFeeder.nodes reversedFeeder.edges ["MTR-1"] [] []).run =
        some answer ∧
      ∀ r, answer = .ok r → ∃ enet snet,
        buildRadial 3 reversedFeeder.nodes reversedFeeder.edges = pure enet ∧
        buildRadial 3 reversedFeeder.nodes (structuralEdges reversedFeeder.edges) = pure snet ∧
        ((∀ o ∈ r.inferredOutages, NamesInside (o.tree enet snet) o) ↔
          BlamedAway someOrder enet ∅ (darkPrimary enet ["MTR-1"]) ∧
          BlamedAway someOrder snet (openEdges reversedFeeder.edges)
            (darkFallback enet snet ["MTR-1"])) :=
  namesInside_iff reversedFeeder mem_someOrder (by decide) ["MTR-1"] [] []

/-- The meter goes dark, and the outage names the substation. -/
theorem reversedFeeder_outside :
    ∃ enet, buildRadial 3 reversedFeeder.nodes reversedFeeder.edges = pure enet ∧
    ∃ snet, buildRadial 3 reversedFeeder.nodes (structuralEdges reversedFeeder.edges) =
      pure snet ∧
    ∃ r, infer someOrder 3 reversedFeeder.nodes reversedFeeder.edges ["MTR-1"] [] [] = pure r ∧
      ∃ o ∈ r.inferredOutages, ¬ NamesInside (o.tree enet snet) o := by
  decide +kernel

/-! ### Silent failures -/

/-- **When dark meters are not called silent.** The silent failures have every meter that
is read as dead and is not dark; they have no dark meter exactly when each dark meter
that is read as dead is connected to the source over the closed or over the normally
closed edges. -/
theorem silent_iff (net : Network) (iter : Finset String → List String) {fuel : ℕ}
    (hfuel : net.nodes.length < fuel) (dark seDeadNodes : List String)
    (customersByNode : Dict ℕ) :
    ∃ answer, (infer iter fuel net.nodes net.edges dark customersByNode seDeadNodes).run =
        some answer ∧
      ∀ r, answer = .ok r → ∃ source others, net.substations = source :: others ∧
        (((∀ d ∈ dark, d ∉ r.silentFailureNodes) ∧
            ∀ n ∈ net.nodes, n.nodeType = .meter → n.nodeId ∈ seDeadNodes → n.nodeId ∉ dark →
              n.nodeId ∈ r.silentFailureNodes) ↔
          ∀ n ∈ net.nodes, n.nodeType = .meter → n.nodeId ∈ seDeadNodes → n.nodeId ∈ dark →
            grid.Conn (closed net.edges) source n.nodeId ∨
            grid.Conn (closed (structuralEdges net.edges)) source n.nodeId) := by
  obtain ⟨answer, hanswer⟩ := infer_ends net iter hfuel dark customersByNode seDeadNodes
  refine ⟨answer, hanswer, ?_⟩
  rintro r rfl
  have hinfer : infer iter fuel net.nodes net.edges dark customersByNode seDeadNodes = pure r :=
    hanswer
  obtain ⟨enet, snet, primary, fallback, hpasses, hanswers⟩ := passes_of_infer hinfer
  obtain ⟨found, hrep⟩ := represents_of_buildRadial net hfuel.le hpasses.enet_eq
  obtain ⟨sfound, hsrep⟩ := represents_of_buildRadial (structural net) hfuel.le hpasses.snet_eq
  obtain ⟨others, hothers⟩ := hrep.sources
  obtain ⟨sothers, hsothers⟩ := hsrep.sources
  have hroot : snet.root = enet.root := (List.cons_eq_cons.mp (hsothers.symm.trans hothers)).1
  have hmeter {x : String} : x ∈ (signalsOf net.nodes customersByNode seDeadNodes).meterNodes ↔
      ∃ n ∈ net.nodes, n.nodeType = .meter ∧ n.nodeId = x := by
    simp [signalsOf, and_assoc]
  have hdead {x : String} : x ∈ (signalsOf net.nodes customersByNode seDeadNodes).seDead ↔
      x ∈ seDeadNodes := by
    simp [signalsOf]
  -- what is dark and in one of the trees
  have hlocated {x : String} : x ∉ darkPrimary enet dark ∧ x ∉ darkFallback enet snet dark ↔
      (x ∈ dark → ¬ (grid.Conn (closed net.edges) enet.root x ∨
        grid.Conn (closed (structuralEdges net.edges)) enet.root x)) := by
    have hsconn : grid.Conn (closed (structuralEdges net.edges)) enet.root x ↔
        x ∈ snet.energized := by
      rw [hsrep.mem_energized, hroot]
      rfl
    rw [hsconn, ← hrep.mem_energized]
    simp only [darkPrimary, darkFallback, List.mem_filter, decide_eq_true_eq]
    tauto
  refine ⟨enet.root, others, hothers, ?_⟩
  constructor
  · rintro ⟨hnone, -⟩ n hn htype hse hdark
    by_contra hnot
    refine hnone n.nodeId hdark ((hanswers.silent n.nodeId).mpr ?_)
    exact ⟨hdead.mpr hse, hmeter.mpr ⟨n, hn, htype, rfl⟩, hlocated.mpr fun _ => hnot⟩
  · intro hall
    refine ⟨fun d hd hsilent => ?_, fun n hn htype hse hdark => ?_⟩
    · obtain ⟨hse, hmem, hnot⟩ := (hanswers.silent d).mp hsilent
      obtain ⟨n, hn, htype, rfl⟩ := hmeter.mp hmem
      exact hlocated.mp hnot hd (hall n hn htype (hdead.mp hse) hd)
    · refine (hanswers.silent n.nodeId).mpr ⟨hdead.mpr hse, hmeter.mpr ⟨n, hn, htype, rfl⟩, ?_⟩
      exact hlocated.mpr fun hd => absurd hd hdark

/-- A meter behind an open tie. -/
def tiedMeter : Network where
  nodes := [⟨"SUB-1", .substation⟩, ⟨"MTR-1", .meter⟩]
  edges := [{ edgeId := "E-TIE-1", fromNode := "SUB-1", toNode := "MTR-1", edgeType := .tie
              normallyClosed := false, isClosed := false }]
  nodeKey := by decide
  edgeKey := by decide
  fromNode_mem := by decide
  toNode_mem := by decide

theorem tiedMeter_silence :
    ∃ answer, (infer someOrder 3 tiedMeter.nodes tiedMeter.edges ["MTR-1"] [] ["MTR-1"]).run =
        some answer ∧
      ∀ r, answer = .ok r → ∃ source others, tiedMeter.substations = source :: others ∧
        (((∀ d ∈ ["MTR-1"], d ∉ r.silentFailureNodes) ∧
            ∀ n ∈ tiedMeter.nodes, n.nodeType = .meter → n.nodeId ∈ ["MTR-1"] →
              n.nodeId ∉ ["MTR-1"] → n.nodeId ∈ r.silentFailureNodes) ↔
          ∀ n ∈ tiedMeter.nodes, n.nodeType = .meter → n.nodeId ∈ ["MTR-1"] →
            n.nodeId ∈ ["MTR-1"] → grid.Conn (closed tiedMeter.edges) source n.nodeId ∨
            grid.Conn (closed (structuralEdges tiedMeter.edges)) source n.nodeId) :=
  silent_iff tiedMeter someOrder (by decide) ["MTR-1"] ["MTR-1"] []

/-- The meter is dark, and is called silent. -/
theorem tiedMeter_silent :
    ∃ r, infer someOrder 3 tiedMeter.nodes tiedMeter.edges ["MTR-1"] [] ["MTR-1"] = pure r ∧
      "MTR-1" ∈ r.silentFailureNodes := by
  obtain ⟨enet, henet, he⟩ : ∃ t, buildRadial 3 tiedMeter.nodes tiedMeter.edges = pure t ∧
    "MTR-1" ∉ t.energized := by decide +kernel
  obtain ⟨snet, hsnet, hs⟩ : ∃ t, buildRadial 3 tiedMeter.nodes
    (structuralEdges tiedMeter.edges) = pure t ∧ "MTR-1" ∉ t.energized := by decide +kernel
  have hprimary : darkPrimary enet ["MTR-1"] = [] := by simp [darkPrimary, he]
  have hfallback : darkFallback enet snet ["MTR-1"] = [] := by simp [darkFallback, hs]
  obtain ⟨r, hr, hanswers⟩ : ∃ r,
      infer someOrder 3 tiedMeter.nodes tiedMeter.edges ["MTR-1"] [] ["MTR-1"] = pure r ∧
        Answers (signalsOf tiedMeter.nodes [] ["MTR-1"]) ["MTR-1"] enet snet [] [] r :=
    infer_of_passes ⟨henet, hsnet, by rw [hprimary]; rfl, by rw [hfallback]; rfl⟩
  refine ⟨r, hr, (hanswers.silent "MTR-1").mpr ⟨by decide, by decide, ?_⟩⟩
  rw [hprimary, hfallback]
  exact ⟨List.not_mem_nil, List.not_mem_nil⟩

end DiepLab.OutageInference
