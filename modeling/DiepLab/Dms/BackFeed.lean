import DiepLab.Dms.Isolation

/-!
Whether a FLISR plan re-energises the fault.

The planner tests a trial state by directed reachability. A closed switch
conducts both ways, so a tie that feeds a node of the lost section from which
the directed search does not find the fault still puts the fault back on a
substation, upwards through the section. `BackFeeds` names these ties in terms
of the network before the plan.

On a radial network whose edges point away from their sources the section
that goes out is the set of nodes behind every switch that could isolate the
fault (`mem_lostBy_iff`). The planner's test on the first tie it looks at says
nothing but `BackFeeds` (`accepts_iff`), and one accepted tie already connects
the fault (`fault_energized_of_accepts`); so the plan isolates the fault
exactly when there is no such tie to close (`plan_isolates_fault_iff`).
-/

namespace DiepLab.Dms

open Multigraph

/-- Every switch that could isolate the fault also feeds `x`. -/
def InFaultSection (edges : List GridEdge) (faultNode x : String) : Prop :=
  ∀ e ∈ candidates edges faultNode, x ∈ reach edges [e.toNode]

/-- `t` leads from the healthy part of the energised network into the
fault's section, and the fault is not found below its `to_node`. -/
structure FeedsSection (edges : List GridEdge) (sources : List String) (faultNode : String)
    (t : GridEdge) : Prop where
  from_energized : t.fromNode ∈ reach edges sources
  from_outside : ¬ InFaultSection edges faultNode t.fromNode
  to_energized : t.toNode ∈ reach edges sources
  to_inside : InFaultSection edges faultNode t.toNode
  fault_not_below : faultNode ∉ reach edges [t.toNode]

/-- An open tie that feeds the fault's section. -/
def BackFeeds (edges : List GridEdge) (sources : List String) (faultNode : String)
    (t : GridEdge) : Prop :=
  t.isClosed = false ∧ isTie t = true ∧ FeedsSection edges sources faultNode t

instance (edges : List GridEdge) (faultNode x : String) :
    Decidable (InFaultSection edges faultNode x) :=
  inferInstanceAs (Decidable (∀ e ∈ candidates edges faultNode, x ∈ reach edges [e.toNode]))

instance (edges : List GridEdge) (sources : List String) (faultNode : String) (t : GridEdge) :
    Decidable (FeedsSection edges sources faultNode t) :=
  decidable_of_iff
    (t.fromNode ∈ reach edges sources ∧ ¬ InFaultSection edges faultNode t.fromNode ∧
      t.toNode ∈ reach edges sources ∧ InFaultSection edges faultNode t.toNode ∧
      faultNode ∉ reach edges [t.toNode])
    ⟨fun h => ⟨h.1, h.2.1, h.2.2.1, h.2.2.2.1, h.2.2.2.2⟩,
      fun h => ⟨h.1, h.2, h.3, h.4, h.5⟩⟩

instance (edges : List GridEdge) (sources : List String) (faultNode : String) (t : GridEdge) :
    Decidable (BackFeeds edges sources faultNode t) :=
  inferInstanceAs (Decidable (_ ∧ _ ∧ _))

variable {net : Network} {faultNode : String} {iso : GridEdge}

section Isolating

variable (hiso : isolatingSwitch net.edges faultNode = some iso)
include hiso

/-! ### The section that goes out -/

/-- Of two switches that lead to the fault one leads to the other; the
nearest one is behind all of them. -/
theorem reach_of_nearest (hradial : net.RadialOutwards) {r x : String}
    (hr : r ∈ net.substations) (hrx : grid.Conn (closed net.edges) r x)
    (hx : grid.Reach (closed net.edges) iso.toNode x) :
    InFaultSection net.edges faultNode x := by
  intro e he
  obtain ⟨hcand, hnearest⟩ := isolatingSwitch_spec hiso
  have hiso_fault := (mem_candidates.mp hcand).2.2.2
  have he_fault := (mem_candidates.mp he).2.2.2
  have hfault : grid.Conn (closed net.edges) r faultNode :=
    hrx.trans (hx.conn.symm.trans hiso_fault.conn)
  rcases hradial.reach_total hr hfault he_fault hiso_fault with habove | hbelow
  · exact mem_reach_singleton.mpr (habove.trans hx)
  · -- `e` lies below the nearest switch, so it cuts off the same nodes
    have hsub : reach net.edges [e.toNode] ⊆ reach net.edges [iso.toNode] := by
      intro y hy
      exact mem_reach_singleton.mpr (hbelow.trans (mem_reach_singleton.mp hy))
    rw [Finset.eq_of_subset_of_card_le hsub (hnearest e he)]
    exact mem_reach_singleton.mpr hx

theorem mem_lostBy_iff (hradial : net.RadialOutwards) {x : String} :
    x ∈ lostBy net.edges net.substations iso ↔
      x ∈ reach net.edges net.substations ∧ InFaultSection net.edges faultNode x := by
  constructor
  · intro hx
    have hbefore := ((mem_lostBy hiso).mp hx).1
    obtain ⟨r, hr, hrx⟩ := hbefore
    refine ⟨mem_reach.mpr ⟨r, hr, hrx⟩, ?_⟩
    exact reach_of_nearest hiso hradial hr hrx.conn
      ((reach_of_mem_lostBy hiso hx).2.mono opened_subset)
  · rintro ⟨hbefore, hsection⟩
    refine (mem_lostBy hiso).mpr ⟨mem_reach.mp hbefore, ?_⟩
    rintro ⟨r, hr, hrx⟩
    -- still fed past the open switch, `x` would tie its lower end to `r`
    have hcut := Reach.of_tgt (iso_mem_closed hiso)
      (mem_reach_singleton.mp (hsection iso (isolatingSwitch_spec hiso).1))
    have hlower : grid.Conn (opened net iso) r iso.toNode := hrx.conn.trans hcut.conn.symm
    have hupper : grid.Conn (closed net.edges) r iso.fromNode :=
      (hlower.mono opened_subset).trans (conn_of_mem (iso_mem_closed hiso)).symm
    exact hradial.not_conn_tgt hr (iso_mem_closed hiso) hupper hlower

/-! ### The planner's test on the isolated network -/

theorem mem_reach_closeTie {t : GridEdge} (ht : t.branch ∈ net.edges.map GridEdge.branch)
    {sources : List String} {x : String} :
    x ∈ reach (setClosed t.edgeId true (setClosed iso.edgeId false net.edges)) sources ↔
      ∃ r ∈ sources, grid.Reach (opened net iso) r x ∨
        (grid.Reach (opened net iso) r t.fromNode ∧ grid.Reach (opened net iso) t.toNode x) := by
  rw [mem_reach, closed_setClosed_true net.edgeKey.setClosed (by rwa [map_branch_setClosed]),
    closed_isolated hiso]
  simp only [reach_insert_iff, grid_src, grid_tgt]

theorem accepts_iff (hradial : net.RadialOutwards) {t : GridEdge}
    (ht : t.branch ∈ net.edges.map GridEdge.branch) :
    Accepts net.substations faultNode (lostBy net.edges net.substations iso)
        (setClosed iso.edgeId false net.edges) t ↔
      FeedsSection net.edges net.substations faultNode t := by
  have hlost (x : String) := mem_lostBy_iff hiso hradial (x := x)
  constructor
  · rintro ⟨hend, hfault, x, hx⟩
    rw [Finset.mem_inter] at hx
    obtain ⟨hxr, hxlost⟩ := hx
    have hfault' := fun r hr h => hfault ((mem_reach_closeTie hiso ht).mpr ⟨r, hr, Or.inr h⟩)
    obtain ⟨r, hr, hrx | ⟨hfrom, -⟩⟩ := (mem_reach_closeTie hiso ht).mp hxr
    · exact absurd ⟨r, hr, hrx⟩ ((mem_lostBy hiso).mp hxlost).2
    · have hfrom_notlost : t.fromNode ∉ lostBy net.edges net.substations iso :=
        fun h => ((mem_lostBy hiso).mp h).2 ⟨r, hr, hfrom⟩
      have hto : t.toNode ∈ lostBy net.edges net.substations iso :=
        hend.resolve_right hfrom_notlost
      have hfrom_energized : t.fromNode ∈ reach net.edges net.substations :=
        mem_reach.mpr ⟨r, hr, hfrom.mono opened_subset⟩
      refine ⟨hfrom_energized, fun h => hfrom_notlost ((hlost _).mpr ⟨hfrom_energized, h⟩),
        ((hlost _).mp hto).1, ((hlost _).mp hto).2, fun hbelow => ?_⟩
      -- a way down to the fault does not come back through the open switch
      rw [mem_reach_singleton, ← insert_diff_self (iso_mem_closed hiso), reach_insert_iff]
        at hbelow
      rcases hbelow with hbelow | ⟨hback, -⟩
      · exact hfault' r hr ⟨hfrom, hbelow⟩
      · exact not_conn_ends hiso hradial.forest
          ((reach_of_mem_lostBy hiso hto).2.trans hback).conn.symm
  · intro h
    have hto : t.toNode ∈ lostBy net.edges net.substations iso :=
      (hlost _).mpr ⟨h.to_energized, h.to_inside⟩
    obtain ⟨r, hr, hfrom⟩ : ∃ r ∈ net.substations, grid.Reach (opened net iso) r t.fromNode := by
      by_contra hnot
      have hbefore := mem_reach.mp h.from_energized
      exact h.from_outside ((hlost _).mp ((mem_lostBy hiso).mpr ⟨hbefore, hnot⟩)).2
    refine ⟨Or.inl hto, fun hfault => ?_, t.toNode, ?_⟩
    · obtain ⟨r', hr', hdirect | ⟨-, hbelow⟩⟩ := (mem_reach_closeTie hiso ht).mp hfault
      · exact not_conn_fed hiso hradial.radial hto ⟨r', hr', hdirect⟩ (reach_fault hiso).conn.symm
      · exact h.fault_not_below (mem_reach_singleton.mpr (hbelow.mono opened_subset))
    · rw [Finset.mem_inter]
      exact ⟨(mem_reach_closeTie hiso ht).mpr ⟨r, hr, Or.inr ⟨hfrom, .refl⟩⟩, hto⟩

/-! ### The fault -/

/-- With the switch open and nothing restored the fault is dead. -/
theorem fault_not_conn (hradial : net.RadialOutwards) {r : String} (hr : r ∈ net.substations) :
    ¬ grid.Conn (opened net iso) r faultNode := by
  intro hc
  have hlower : grid.Conn (opened net iso) r iso.toNode :=
    hc.trans (reach_fault hiso).conn.symm
  have hupper : grid.Conn (closed net.edges) r iso.fromNode :=
    (hlower.mono opened_subset).trans (conn_of_mem (iso_mem_closed hiso)).symm
  exact hradial.not_conn_tgt hr (iso_mem_closed hiso) hupper hlower

/-- A tie that brings back any lost node brings back the fault. -/
theorem fault_energized_of_accepts {t : GridEdge}
    (ht : t.branch ∈ net.edges.map GridEdge.branch)
    (hacc : Accepts net.substations faultNode (lostBy net.edges net.substations iso)
      (setClosed iso.edgeId false net.edges) t) :
    ∃ r ∈ net.substations, grid.Conn (insert t.branch (opened net iso)) r faultNode := by
  obtain ⟨-, -, x, hx⟩ := hacc
  rw [Finset.mem_inter] at hx
  obtain ⟨r, hr, hrx | ⟨hfrom, hto⟩⟩ := (mem_reach_closeTie hiso ht).mp hx.1
  · exact absurd ⟨r, hr, hrx⟩ ((mem_lostBy hiso).mp hx.2).2
  · have hsection : grid.Conn (opened net iso) t.toNode faultNode :=
      hto.conn.trans ((reach_of_mem_lostBy hiso hx.2).2.conn.symm.trans (reach_fault hiso).conn)
    exact ⟨r, hr, conn_insert_iff.mpr (Or.inr (Or.inl ⟨hfrom.conn, hsection⟩))⟩

/-- On the isolated network the ties that may be closed are the open ties of
the network and the isolating switch itself, which never feeds its own
section. -/
theorem forall_openTies_iff :
    (∀ t ∈ openTies (setClosed iso.edgeId false net.edges),
        ¬ FeedsSection net.edges net.substations faultNode t) ↔
      ∀ t ∈ net.edges, ¬ BackFeeds net.edges net.substations faultNode t := by
  constructor
  · rintro h t ht ⟨hopen, htie, hfeeds⟩
    refine h t (List.mem_filter.mpr ⟨mem_setClosed.mpr (Or.inl ⟨ht, fun hid => ?_⟩), ?_⟩) hfeeds
    · have hclosed := (mem_candidates.mp (isolatingSwitch_spec hiso).1).2.2.1
      rw [← net.edgeKey.eq ht (iso_mem hiso) hid, hopen] at hclosed
      exact absurd hclosed Bool.false_ne_true
    · simp [hopen, htie]
  · intro h t ht hfeeds
    obtain ⟨hmem, hflags⟩ := List.mem_filter.mp ht
    simp only [Bool.and_eq_true, Bool.not_eq_true'] at hflags
    rcases mem_setClosed.mp hmem with ⟨hmem, -⟩ | ⟨e, he, hid, rfl⟩
    · exact h t hmem ⟨hflags.1, hflags.2, hfeeds⟩
    · rw [net.edgeKey.eq he (iso_mem hiso) hid] at hfeeds
      exact hfeeds.fault_not_below
        (mem_reach_singleton.mpr ((reach_fault hiso).mono opened_subset))

end Isolating

/-! ### The plan -/

/-- No open tie feeds the section of the fault that the arguments name. -/
def NoBackFeed (net : Network) (faultNodeArg faultEdgeArg : Option String) : Prop :=
  ∀ f, faultNodeOf net.nodes net.edges faultNodeArg faultEdgeArg = .ok f →
    ∀ t ∈ net.edges, ¬ BackFeeds net.edges net.substations f t

/-- Whatever the planner closes comes out of the rows it was given. -/
theorem mem_openTies_branch {edgeId : String} {edges : List GridEdge} {t : GridEdge}
    (ht : t ∈ openTies (setClosed edgeId false edges)) :
    t.branch ∈ edges.map GridEdge.branch := by
  rw [← map_branch_setClosed edgeId false]
  exact List.mem_map_of_mem (List.mem_of_mem_filter ht)

/-- **The plan isolates the fault exactly when no tie back-feeds it.** -/
theorem plan_isolates_fault_iff (db : GridDb) (faultNodeArg faultEdgeArg : Option String)
    (plan : FlisrPlan) (hradial : db.network.RadialOutwards)
    (hplan : ((planFlisr faultNodeArg faultEdgeArg).run quiet db).1 = .ok plan) :
    plan.faultNode ∉ Contingency.energized db.network.nodes (plan.apply db.network.edges) ↔
      NoBackFeed db.network faultNodeArg faultEdgeArg := by
  rw [planFlisr_run] at hplan
  obtain ⟨s, hs, rfl⟩ := planOn_ok hplan
  obtain ⟨hfault, hiso, steps, hrest⟩ := switching_ok hs
  have hcondition : NoBackFeed db.network faultNodeArg faultEdgeArg ↔
      ∀ t ∈ db.network.edges,
        ¬ BackFeeds db.network.edges db.network.substations s.faultNode t := by
    refine ⟨fun h => h s.faultNode hfault, fun h f hf => ?_⟩
    rw [hfault] at hf
    injection hf with hf
    exact hf ▸ h
  rw [hcondition, ← forall_openTies_iff hiso, apply_plan hs, Contingency.mem_energized, hrest]
  have hsources : substations db.network.nodes = db.network.substations := rfl
  rw [hsources, restore_edges]
  rcases restore_cases db.network.substations s.faultNode
    (lostBy db.network.edges db.network.substations s.isolated)
    (setClosed s.isolated.edgeId false db.network.edges) steps with
    ⟨hnil, hrefused⟩ | ⟨t, ht, hacc, hmem⟩
  · -- nothing restored: the fault is cut off and no tie feeds its section
    rw [hnil]
    refine iff_of_true ?_ fun t ht hfeeds => hrefused t ht ?_
    · rintro ⟨r, hr, hc⟩
      rw [closeTies, List.foldl_nil, closed_isolated hiso] at hc
      exact fault_not_conn hiso hradial hr hc
    · exact (accepts_iff hiso hradial (mem_openTies_branch ht)).mpr hfeeds
  · -- the tie is closed in the plan, and the fault hangs on it
    refine iff_of_false (fun hdead => hdead ?_) fun h => h t ht ?_
    · obtain ⟨r, hr, hc⟩ :=
        fault_energized_of_accepts hiso (mem_openTies_branch ht) hacc
      refine ⟨r, hr, hc.mono ?_⟩
      rintro b (rfl | hb)
      · refine mem_closed_closeTies.mpr (Or.inr ⟨?_, hmem⟩)
        rw [map_branch_setClosed]
        exact mem_openTies_branch ht
      · exact mem_closed_closeTies.mpr (Or.inl (closed_isolated hiso ▸ hb))
    · exact (accepts_iff hiso hradial (mem_openTies_branch ht)).mp hacc

theorem pilot_bus_noBackFeed : NoBackFeed pilot (some "BUS-01") none := by
  have hnamed : faultNodeOf pilot.nodes pilot.edges (some "BUS-01") none = .ok "BUS-01" := rfl
  intro f hf
  rw [hnamed] at hf
  injection hf with hf
  subst hf
  decide +kernel

/-- A fault on the bus of the pilot network: its only tie ends at the fault. -/
theorem pilot_bus_fault_isolated :
    ∃ plan, ((planFlisr (some "BUS-01") none).run quiet { network := pilot }).1 = .ok plan ∧
      plan.faultNode ∉ Contingency.energized pilot.nodes (plan.apply pilot.edges) := by
  refine ⟨_, rfl, ?_⟩
  exact (plan_isolates_fault_iff { network := pilot } (some "BUS-01") none _
    pilot_radialOutwards rfl).mpr pilot_bus_noBackFeed

/-- The smoke test's fault: `TX-01` is isolated by `E-SW-01`, and `E-TIE-01`, closed to
restore `BUS-01`, feeds it again through the transformer edge. -/
theorem pilot_transformer_fault_backFed :
    pilot.RadialOutwards ∧
      ∃ plan, ((planFlisr (some "TX-01") none).run quiet { network := pilot }).1 = .ok plan ∧
        plan.restoredEdges = ["E-TIE-01"] ∧
        plan.faultNode ∈ Contingency.energized pilot.nodes (plan.apply pilot.edges) := by
  refine ⟨pilot_radialOutwards, _, rfl, ?_, ?_⟩
  · decide +kernel
  · decide +kernel

end DiepLab.Dms
