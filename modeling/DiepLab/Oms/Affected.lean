import DiepLab.Oms.Sweep

/-!
Who is counted as affected by an outage.

The count of a case is made over all edges behind its section, open ones included, so that a
switch that has tripped does not hide the section it feeds. What loses its supply with the
section is behind it over closed edges (`Multigraph.Rooted.loses_iff`). The two counts are one
exactly if no service point is behind the section over open edges alone
(`customersAffected_eq_iff`).
-/

namespace DiepLab.Oms

open StatementProgram Multigraph

namespace Model

variable (m : Model)

def substations : List String :=
  (m.nodes.filter fun n => n.nodeType = .substation).map NodeRow.nodeId

/-- The service points behind a node over closed edges. -/
def servicePointsBelow (nodeId : String) : List ServicePointRow :=
  m.servicePoints.filter fun sp =>
    sp.nodeId.any (· ∈ Topology.downstreamNodeIds m.edges nodeId true)

/-- A node that loses its supply when the closed edges to the section `nodeId` are opened. -/
def LosesSupply (nodeId x : String) : Prop :=
  grid.Fed { s | s ∈ m.substations } (closed m.edges) x ∧
    ¬ grid.Fed { s | s ∈ m.substations } { b ∈ closed m.edges | grid.tgt b ≠ nodeId } x

/-- No service point is behind the section over open edges alone. -/
def NoneBehindTies (nodeId : String) : Prop :=
  ∀ sp ∈ m.servicePoints, ∀ x ∈ sp.nodeId,
    grid.Reach (Topology.allBranches m.edges) nodeId x → grid.Reach (closed m.edges) nodeId x

variable {m}

theorem mem_sectionServicePoints {nodeId : String} {sp : ServicePointRow} :
    sp ∈ m.sectionServicePoints nodeId ↔ sp ∈ m.servicePoints ∧
      ∃ x ∈ sp.nodeId, grid.Reach (Topology.allBranches m.edges) nodeId x := by
  simp [sectionServicePoints, Topology.mem_downstreamNodeIds_all, Option.any_eq_true]

theorem mem_servicePointsBelow {nodeId : String} {sp : ServicePointRow} :
    sp ∈ m.servicePointsBelow nodeId ↔ sp ∈ m.servicePoints ∧
      ∃ x ∈ sp.nodeId, grid.Reach (closed m.edges) nodeId x := by
  simp [servicePointsBelow, Topology.mem_downstreamNodeIds, Option.any_eq_true]

/-- Who is behind the section over closed edges is counted in any case. -/
theorem servicePointsBelow_sublist (nodeId : String) :
    (m.servicePointsBelow nodeId).Sublist (m.sectionServicePoints nodeId) := by
  refine List.monotone_filter_right _ fun sp hsp => ?_
  obtain ⟨x, hx, hmem⟩ := Option.any_eq_true _ _ |>.mp hsp
  refine (Option.any_eq_true _ _).mpr ⟨x, hx, decide_eq_true ?_⟩
  rw [decide_eq_true_eq, Topology.mem_downstreamNodeIds] at hmem
  exact Topology.mem_downstreamNodeIds_all.mpr
    (Reach.mono (Topology.closed_subset_allBranches m.edges) hmem)

theorem customersAffected_eq_iff {nodeId : String} :
    m.customersAffected nodeId = (m.servicePointsBelow nodeId).length ↔
      m.NoneBehindTies nodeId := by
  constructor
  · intro hcount sp hsp x hx hreach
    have hsame := (servicePointsBelow_sublist nodeId).eq_of_length hcount.symm
    have hmem := mem_sectionServicePoints.mpr ⟨hsp, x, hx, hreach⟩
    rw [← hsame] at hmem
    obtain ⟨-, x', hx', hbelow⟩ := mem_servicePointsBelow.mp hmem
    rwa [Option.mem_unique hx hx']
  · intro hnone
    have hsame : m.sectionServicePoints nodeId = m.servicePointsBelow nodeId := by
      refine List.filter_congr fun sp hsp => ?_
      rw [Bool.eq_iff_iff, Option.any_eq_true, Option.any_eq_true]
      refine exists_congr fun x => and_congr_right fun hx => ?_
      rw [decide_eq_true_eq, decide_eq_true_eq, Topology.mem_downstreamNodeIds_all,
        Topology.mem_downstreamNodeIds]
      exact ⟨hnone sp hsp x hx, Reach.mono (Topology.closed_subset_allBranches m.edges)⟩
    rw [customersAffected, hsame]

end Model

/-! ### What is stored -/

section Store

variable (w : Moment)

theorem run_nodeName (db : OmsDb) (nodeId : Option String) :
    ∃ name, (nodeName nodeId).run (alone w) db = (.ok name, db) := by
  unfold nodeName
  cases given nodeId with
  | none => exact ⟨none, rfl⟩
  | some nodeId =>
      simp only [Prog.run_bind, Prog.run_call, alone_eq, omsExec]
      cases db.model.nodes.find? fun n => n.nodeId = nodeId with
      | none => exact ⟨some nodeId, rfl⟩
      | some row => exact ⟨_, rfl⟩

theorem run_caseDetail (db : OmsDb) (c : CaseRow) :
    ∃ detail, (caseDetail (some c)).run (alone w) db = (.ok detail, db) ∧ detail.case = c := by
  obtain ⟨name, hname⟩ := run_nodeName w db c.affectedNodeId
  refine ⟨{ case := c, affectedNodeName := name, meters := db.metersOf c.caseId
            reports := db.reports.filter fun r => r.caseId = some c.caseId }, ?_, rfl⟩
  simp only [caseDetail, Prog.run_bind, hname, Prog.run_call, alone_eq, omsExec, Prog.run_pure]

/-- A case that is created by hand is stored with the count of its section. -/
theorem run_createCase {db : OmsDb} {body : ManualCase}
    (hnode : body.affectedNodeId ∈ db.model.nodeIds) {cause : Cause}
    (hcause : Cause.parse body.cause = some cause) :
    ∃ detail db', (createCase body).run (alone w) db = (.ok detail, db') ∧
      detail.case ∈ db'.cases ∧ detail.case.affectedNodeId = some body.affectedNodeId ∧
      detail.case.customersAffected = db.model.customersAffected body.affectedNodeId := by
  let c : CaseRow := {
    caseId := w.uuid4 db
    status := .CONFIRMED
    cause := cause
    affectedNodeId := some body.affectedNodeId
    customersAffected := db.model.customersAffected body.affectedNodeId
    detectedAt := w.now
    notes := body.notes
    networkModelVersion := db.model.modelVersion }
  have hrefers : refers db.model.nodeIds c.affectedNodeId := by
    intro k hk
    rwa [← Option.some.inj hk]
  obtain ⟨db₁, hinsert, hcases⟩ : ∃ db₁, db.insertCase c = (.ok (), db₁) ∧
      db₁.cases = db.cases ++ [c] := by
    unfold OmsDb.insertCase
    rw [dif_neg (w.fresh db), dif_pos hrefers]
    exact ⟨_, rfl, rfl⟩
  let stamped := CaseSet.apply w.now .stampConfirmed c
  let db₂ := db₁.updateCase (w.uuid4 db) w.now .stampConfirmed
  have hmem : stamped ∈ db₂.cases := by
    refine List.mem_map.mpr ⟨c, ?_, if_pos rfl⟩
    rw [hcases]
    exact List.mem_append_right _ List.mem_cons_self
  have hcase : (db₂.cases.find? fun d => d.caseId = w.uuid4 db) = some stamped :=
    OmsDb.find?_caseId hmem
  obtain ⟨detail, hdetail, hstamped⟩ := run_caseDetail w db₂ stamped
  refine ⟨detail, db₂, ?_, hstamped ▸ hmem, hstamped ▸ rfl, hstamped ▸ rfl⟩
  have hupdate : db₁.updateCase (w.uuid4 db) w.now .stampConfirmed = db₂ := rfl
  rw [createCase]
  simp only [Prog.run_bind, Prog.run_call, alone_eq, omsExec, Prog.run_raiseIf,
    decide_eq_true hnode, Bool.true_eq_false, if_false, run_sectionServicePoints, hcause]
  rw [show db.insertCase _ = (.ok (), db₁) from hinsert]
  simp only [hupdate, hcase, hdetail]

end Store

/-- The pilot with its open tie between the two transformers, and no case yet. -/
def quietPilot : OmsDb := pilotOms (gasping []) [] [] []

end DiepLab.Oms
