import DiepLab.Dms.Isolation

/-!
Which switches a plan moves, and what it remembers of them.

The isolating switch was closed, and every restored tie was open and is
another edge: to close the isolating switch again would energise the fault
(`isolated_not_accepted`). So every write of a plan moves a switch, and the
remembered `before_switch_state` is the state of exactly these switches when
the plan was made (`plan_moves`, `get?_beforeSwitchState`).
-/

namespace DiepLab.Dms

open Multigraph

variable {net : Network} {faultNode : String} {iso : GridEdge} {sources : List String}

/-- A restored tie was accepted on top of ties closed before it. -/
theorem mem_foldl_tryTie (lost : Finset String) (base : List GridEdge) (ties : List GridEdge)
    (r : Restoration) (hr : r.edges = closeTies r.restored base) {eid : String}
    (h : eid ∈ (ties.foldl (tryTie sources faultNode lost) r).restored) :
    eid ∈ r.restored ∨ ∃ t ∈ ties, t.edgeId = eid ∧
      ∃ ids, Accepts sources faultNode lost (closeTies ids base) t := by
  induction ties generalizing r with
  | nil => exact Or.inl h
  | cons t ties ih =>
      rw [List.foldl_cons] at h
      by_cases hacc : Accepts sources faultNode lost r.edges t
      · rw [tryTie, if_pos hacc] at h
        rcases ih (r.close t) (by rw [Restoration.close, closeTies_append, hr]) h with
          hmem | ⟨u, hu, hid, hids⟩
        · rcases List.mem_append.mp hmem with hmem | hmem
          · exact Or.inl hmem
          · refine Or.inr ⟨t, List.mem_cons_self, (List.mem_singleton.mp hmem).symm, ?_⟩
            exact ⟨r.restored, hr ▸ hacc⟩
        · exact Or.inr ⟨u, List.mem_cons_of_mem t hu, hid, hids⟩
      · rw [tryTie, if_neg hacc] at h
        rcases ih r hr h with hmem | ⟨u, hu, hid, hids⟩
        · exact Or.inl hmem
        · exact Or.inr ⟨u, List.mem_cons_of_mem t hu, hid, hids⟩

/-- The restore loop never closes the isolating switch again. -/
theorem isolated_not_accepted (hiso : isolatingSwitch net.edges faultNode = some iso)
    (ids : List String) {t : GridEdge} (hid : t.edgeId = iso.edgeId) :
    ¬ Accepts sources faultNode (lostBy net.edges sources iso)
      (closeTies ids (setClosed iso.edgeId false net.edges)) t := by
  rintro ⟨-, hdead, x, hx⟩
  obtain ⟨⟨r, hr, hfrom⟩, -⟩ := reach_of_mem_lostBy hiso (Finset.mem_inter.mp hx).2
  have hsub : opened net iso ⊆
      closed (setClosed t.edgeId true (closeTies ids (setClosed iso.edgeId false net.edges))) := by
    intro b hb
    rw [mem_closed_setClosed_true, mem_closed_closeTies, closed_isolated hiso]
    exact Or.inl (Or.inl hb)
  have hback : iso.branch ∈
      closed (setClosed t.edgeId true (closeTies ids (setClosed iso.edgeId false net.edges))) := by
    rw [mem_closed_setClosed_true, map_branch_closeTies, map_branch_setClosed]
    exact Or.inr ⟨List.mem_map_of_mem (iso_mem hiso), hid.symm⟩
  exact hdead (mem_reach.mpr ⟨r, hr, (hfrom.mono hsub).trans
    ((reach_of_mem hback).trans ((reach_fault hiso).mono hsub))⟩)

/-- Every write of a plan moves a switch: the isolating one was closed, the
ties were open. -/
theorem plan_moves {db : GridDb} {faultNodeArg faultEdgeArg : Option String} {plan : FlisrPlan}
    (hplan : planOn db faultNodeArg faultEdgeArg = .ok plan) :
    db.network.stateOf plan.isolatedEdge = some true ∧
      ∀ eid ∈ plan.restoredEdges,
        eid ≠ plan.isolatedEdge ∧ db.network.stateOf eid = some false := by
  obtain ⟨s, hs, rfl⟩ := planOn_ok hplan
  obtain ⟨-, hiso, steps, hrest⟩ := switching_ok hs
  obtain ⟨hmem, -, hclosed, -⟩ := mem_candidates.mp (isolatingSwitch_spec hiso).1
  refine ⟨(db.network.stateOf_of_mem hmem).trans (congrArg some hclosed), fun eid heid => ?_⟩
  change eid ∈ s.restoration.restored at heid
  rw [hrest] at heid
  rcases mem_foldl_tryTie _ _ _ _ rfl heid with hnil | ⟨t, ht, rfl, ids, hacc⟩
  · exact absurd hnil List.not_mem_nil
  · have hne : t.edgeId ≠ s.isolated.edgeId := fun hid => isolated_not_accepted hiso ids hid hacc
    refine ⟨hne, ?_⟩
    obtain ⟨hrow, hopen⟩ := List.mem_filter.mp ht
    rw [Bool.and_eq_true, Bool.not_eq_true'] at hopen
    rcases mem_setClosed.mp hrow with ⟨hrow, -⟩ | ⟨f, -, hid, rfl⟩
    · exact (db.network.stateOf_of_mem hrow).trans (congrArg some hopen.1)
    · exact absurd hid hne

/-- The remembered state, entry by entry. -/
theorem get?_beforeSwitchState {db : GridDb} {faultNodeArg faultEdgeArg : Option String}
    {plan : FlisrPlan} (hplan : planOn db faultNodeArg faultEdgeArg = .ok plan) (eid : String) :
    plan.beforeSwitchState.get? eid =
      if eid ∈ plan.isolatedEdge :: plan.restoredEdges then db.network.stateOf eid else none := by
  obtain ⟨hiso, hties⟩ := plan_moves hplan
  obtain ⟨s, -, rfl⟩ := planOn_ok hplan
  refine (Dict.get?_update_const _ _ _ eid).trans ?_
  change _ = if eid ∈ s.isolated.edgeId :: s.restoration.restored then _ else _
  rw [Dict.get?_cons, Dict.get?_nil]
  by_cases htie : eid ∈ s.restoration.restored
  · rw [if_pos htie, if_pos (List.mem_cons_of_mem _ htie), (hties eid htie).2]
  · by_cases heq : s.isolated.edgeId = eid
    · subst heq
      rw [if_neg htie, if_pos rfl, if_pos List.mem_cons_self]
      exact hiso.symm
    · rw [if_neg htie, if_neg heq, if_neg]
      exact fun h => (List.mem_cons.mp h).elim (fun h => heq h.symm) htie

end DiepLab.Dms
