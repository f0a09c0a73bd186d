import DiepLab.Handlers.Switching

/-!
What the handlers write.

Planning and re-checking only read, the way to a device moves no switch; what
is left are the switch writes themselves. For a handler that runs alone this
comes down to the switch states before and after it: `gridRun_reads`,
`gridRun_keeps` and `setSwitch_run`.
-/

namespace DiepLab

open StatementProgram

/-- The run of a program on the grid tables with nothing in between. -/
abbrev gridRun {α : Type} (p : GridProg α) (db : GridDb) (c : ℕ → GridChoice) :
    Except Exc α × (GridDb × (ℕ → GridChoice)) :=
  p.run (withChoices gridSem) (db, c)

theorem gridRun_reads {α : Type} {p : GridProg α} (hp : p.Issues GridStmt.ReadsOnly)
    (db : GridDb) (c : ℕ → GridChoice) : (gridRun p db c).2.1 = db :=
  hp.run_keeps (withChoices gridSem) Prod.fst
    (fun _ x hq => gridSem_readsOnly (x.2 0) hq x.1) (db, c)

theorem gridRun_keeps {α : Type} {p : GridProg α} (hp : p.Issues GridStmt.MovesNothing)
    (db : GridDb) (c : ℕ → GridChoice) : (gridRun p db c).2.1.network = db.network :=
  hp.run_keeps (withChoices gridSem) (fun x : GridDb × (ℕ → GridChoice) => x.1.network)
    (fun _ x hq => gridSem_movesNothing (x.2 0) hq x.1) (db, c)

/-- A statement that returns has returned what it does when it succeeds. -/
theorem call_ok {q : GridStmt} {db : GridDb} {c : ℕ → GridChoice} {a : GridResp q}
    (h : (gridRun (Prog.call q : GridProg (GridResp q)) db c).1 = .ok a) :
    a = (gridExec (c 0) q db).1 ∧
      (gridRun (Prog.call q : GridProg (GridResp q)) db c).2 =
        ((gridExec (c 0) q db).2, fun n => c (n + 1)) := by
  rw [gridRun, Prog.run_call] at h ⊢
  simp only [withChoices, gridSem] at h ⊢
  cases hf : q.failure (c 0) with
  | some e =>
      rw [hf] at h
      cases h
  | none =>
      rw [hf] at h
      injection h with h
      exact ⟨h.symm, rfl⟩

/-- The tables after a switch write. -/
def GridDb.setSwitch (db : GridDb) (edgeId : String) (b : Bool) : GridDb :=
  { db with network := db.network.setSwitch edgeId b }

theorem setSwitch_run (site : SwitchWrite) (edgeId : String) (b : Bool) (db : GridDb)
    (c : ℕ → GridChoice) :
    gridRun (Sql.setSwitch site edgeId b) db c =
      match (c 0).fails with
      | none => (.ok (), (db.setSwitch edgeId b, fun n => c (n + 1)))
      | some m => (.error (.other m), (db, fun n => c (n + 1))) := by
  refine (Prog.run_call _ _ _).trans ?_
  simp only [withChoices, gridSem, GridStmt.failure]
  cases (c 0).fails <;> rfl

/-! ### The planner -/

theorem reads_call {q : GridStmt} (hq : q.ReadsOnly) :
    (Prog.call q : GridProg (GridResp q)).Issues GridStmt.ReadsOnly :=
  (Prog.issues_call q).mpr hq

theorem Dms.countServicePoints_reads (nodes : Finset String) :
    (Dms.countServicePoints nodes).Issues GridStmt.ReadsOnly := by
  unfold Dms.countServicePoints
  split
  · trivial
  · exact (reads_call (q := .servicePointsIn nodes) trivial).bind fun _ => trivial

theorem Dms.planFlisr_reads (faultNodeArg faultEdgeArg : Option String) :
    (Dms.planFlisr faultNodeArg faultEdgeArg).Issues GridStmt.ReadsOnly := by
  refine (reads_call (q := .loadNodes) trivial).bind fun nodes => ?_
  refine (reads_call (q := .loadEdges) trivial).bind fun edges => ?_
  cases Dms.switching nodes edges faultNodeArg faultEdgeArg with
  | error e => trivial
  | ok s =>
      exact (countServicePoints_reads _).bind fun _ => (countServicePoints_reads _).bind fun _ =>
        (countServicePoints_reads _).bind fun _ => trivial

theorem Dms.countServicePoints_ok {nodes : Finset String} {db : GridDb} {c : ℕ → GridChoice}
    {n : ℕ} (h : (gridRun (Dms.countServicePoints nodes) db c).1 = .ok n) :
    n = Dms.servicePointCount db nodes ∧
      ∃ c', (gridRun (Dms.countServicePoints nodes) db c).2 = (db, c') := by
  refine ⟨?_, _, Prod.ext (gridRun_reads (countServicePoints_reads nodes) db c) rfl⟩
  unfold Dms.countServicePoints at h
  unfold Dms.servicePointCount
  by_cases hnodes : nodes = ∅
  · rw [if_pos hnodes] at h ⊢
    injection h with h
    exact h.symm
  · rw [if_neg hnodes] at h ⊢
    obtain ⟨rows, hrows, hrun⟩ := Prog.run_bind_ok _ h
    rw [gridRun, hrun] at h
    obtain rfl : rows = db.servicePointsIn nodes := (call_ok hrows).1
    injection h with h
    exact h.symm

/-- A planner run that returns has made the plan of the tables it has read. -/
theorem Dms.planFlisr_ok {faultNodeArg faultEdgeArg : Option String} {db : GridDb}
    {c : ℕ → GridChoice} {p : Dms.FlisrPlan}
    (h : (gridRun (Dms.planFlisr faultNodeArg faultEdgeArg) db c).1 = .ok p) :
    Dms.planOn db faultNodeArg faultEdgeArg = .ok p := by
  obtain ⟨nodes, hnodes, hrun⟩ := Prog.run_bind_ok _ h
  rw [gridRun, Dms.planFlisr, hrun, (call_ok hnodes).2] at h
  obtain rfl : nodes = db.network.nodes := (call_ok hnodes).1
  obtain ⟨edges, hedges, hrun⟩ := Prog.run_bind_ok _ h
  rw [hrun, (call_ok hedges).2] at h
  obtain rfl : edges = db.network.edges := (call_ok hedges).1
  rw [Dms.planOn]
  cases hs : Dms.switching db.network.nodes db.network.edges faultNodeArg faultEdgeArg with
  | error e =>
      rw [hs] at h
      cases h
  | ok s =>
      rw [hs] at h
      -- each count is one statement, or none
      obtain ⟨lost, hlost, hrun⟩ := Prog.run_bind_ok _ h
      obtain ⟨rfl, c₁, hstate⟩ := countServicePoints_ok hlost
      rw [hrun, hstate] at h
      obtain ⟨restored, hrestored, hrun⟩ := Prog.run_bind_ok _ h
      obtain ⟨rfl, c₂, hstate⟩ := countServicePoints_ok hrestored
      rw [hrun, hstate] at h
      obtain ⟨stillOut, hstillOut, hrun⟩ := Prog.run_bind_ok _ h
      obtain ⟨rfl, c₃, hstate⟩ := countServicePoints_ok hstillOut
      rw [hrun, hstate] at h
      exact h

theorem OcFlisr.planFor_reads (target : Option String) (params : ActionParams) :
    (OcFlisr.planFor target params).Issues GridStmt.ReadsOnly :=
  Dms.planFlisr_reads _ _

/-! ### The re-check of a switch operation -/

namespace OcSwitch

theorem resolve_reads (target : Option String) (params : ActionParams) :
    (resolve target params).Issues GridStmt.ReadsOnly := by
  unfold resolve
  split
  · trivial
  · refine (reads_call (q := .loadEdges) trivial).bind fun edges => ?_
    split
    · trivial
    · refine (Prog.issues_raiseIf _ _).bind fun _ => ?_
      split <;> trivial

theorem customersIn_reads (nodes : Finset String) :
    (customersIn nodes).Issues GridStmt.ReadsOnly := by
  unfold customersIn
  split
  · trivial
  · exact reads_call (q := .servicePointsIn nodes) trivial

theorem interlocks_reads (edges : List GridEdge) (edge : GridEdge) (wantClosed : Bool) :
    (interlocks edges edge wantClosed).Issues GridStmt.ReadsOnly := by
  refine (reads_call (q := .substations) trivial).bind fun _ => ?_
  refine (reads_call (q := .substations) trivial).bind fun _ => ?_
  split
  · exact (reads_call (q := .activeOutageNodes) trivial).bind fun _ => trivial
  · exact (customersIn_reads _).bind fun _ => trivial

theorem planReads_reads (target : Option String) (params : ActionParams) :
    (planReads target params).Issues GridStmt.ReadsOnly := by
  refine (resolve_reads target params).bind fun ⟨edges, edge, wantClosed⟩ => ?_
  refine (Prog.issues_raiseIf _ _).bind fun _ => ?_
  refine (interlocks_reads edges edge wantClosed).bind fun found => ?_
  refine (Prog.issues_raiseIf _ _).bind fun _ => ?_
  exact (customersIn_reads _).bind fun _ => (customersIn_reads _).bind fun _ => trivial

theorem recheck_reads (action : ActionRecord) :
    (recheck action).Issues GridStmt.ReadsOnly :=
  (planReads_reads _ _).bind fun _ => (resolve_reads _ _).bind fun _ => trivial

/-- A target that has been resolved to an edge of the model. -/
structure Resolved (net : Network) (target : Option String) (params : ActionParams)
    (edge : GridEdge) (wantClosed : Bool) : Prop where
  target : target = some edge.edgeId
  edge : net.edges.find? (fun e => e.edgeId = edge.edgeId) = some edge
  wantClosed : params.close = some wantClosed

theorem Resolved.stateOf {net : Network} {target : Option String} {params : ActionParams}
    {edge : GridEdge} {wantClosed : Bool} (h : Resolved net target params edge wantClosed) :
    net.stateOf edge.edgeId = some edge.isClosed := by
  rw [Network.stateOf, h.edge]
  rfl

theorem resolve_ok {target : Option String} {params : ActionParams} {db : GridDb}
    {c : ℕ → GridChoice} {edges : List GridEdge} {edge : GridEdge} {wantClosed : Bool}
    (h : (gridRun (resolve target params) db c).1 = .ok (edges, edge, wantClosed)) :
    edges = db.network.edges ∧ Resolved db.network target params edge wantClosed := by
  rw [resolve] at h
  cases htarget : given target with
  | none =>
      rw [htarget] at h
      cases h
  | some t =>
      rw [htarget] at h
      obtain ⟨edges', hedges, hrun⟩ := Prog.run_bind_ok _ h
      rw [gridRun, hrun] at h
      obtain rfl : edges' = db.network.edges := (call_ok hedges).1
      cases hfind : db.network.edges.find? fun e => e.edgeId = t with
      | none =>
          simp only [hfind] at h
          cases h
      | some e =>
          simp only [hfind] at h
          obtain ⟨_, -, hrun⟩ := Prog.run_bind_ok _ h
          rw [hrun] at h
          cases hclose : params.close with
          | none =>
              simp only [hclose] at h
              cases h
          | some b =>
              simp only [hclose] at h
              injection h with h
              injection h with hedges h
              injection h with he hb
              subst hedges he hb
              have hfound := List.find?_some hfind
              have hid : e.edgeId = t := of_decide_eq_true hfound
              exact ⟨rfl, by rw [(given_eq_some htarget).1, hid], by rw [hid, hfind], hclose⟩

/-- A plan that returns has found an edge that is not in the requested state,
and remembers the state it found. -/
theorem planReads_ok {target : Option String} {params : ActionParams} {db : GridDb}
    {c : ℕ → GridChoice} {reads : InterlockReads} {before preview : ActionDoc}
    (h : (gridRun (planReads target params) db c).1 = .ok (reads, before, preview)) :
    ∃ edge wantClosed, Resolved db.network target params edge wantClosed ∧
      edge.isClosed ≠ wantClosed ∧
      before = .switchBefore edge.edgeId edge.isClosed edge.attrs.deviceId := by
  obtain ⟨⟨edges, edge, wantClosed⟩, hresolve, hrun⟩ := Prog.run_bind_ok _ h
  obtain ⟨-, hresolved⟩ := resolve_ok hresolve
  rw [gridRun, planReads, hrun] at h
  obtain ⟨_, hchecked, hrun⟩ := Prog.run_bind_ok _ h
  rw [hrun] at h
  refine ⟨edge, wantClosed, hresolved, (Prog.run_raiseIf_ok _ hchecked).1, ?_⟩
  obtain ⟨found, -, hrun⟩ := Prog.run_bind_ok _ h
  rw [hrun] at h
  obtain ⟨_, -, hrun⟩ := Prog.run_bind_ok _ h
  rw [hrun] at h
  obtain ⟨lost, -, hrun⟩ := Prog.run_bind_ok _ h
  rw [hrun] at h
  obtain ⟨restored, -, hrun⟩ := Prog.run_bind_ok _ h
  rw [hrun] at h
  injection h with h
  injection h with _ h
  injection h with h
  exact h.symm

/-- A re-check that passes names an edge that is not in the requested state. -/
theorem recheck_ok {action : ActionRecord} {db : GridDb} {c : ℕ → GridChoice}
    {reads : InterlockReads} {edge : GridEdge} {wantClosed : Bool}
    (h : (gridRun (recheck action) db c).1 = .ok (reads, edge, wantClosed)) :
    Resolved db.network action.target action.params edge wantClosed ∧
      edge.isClosed ≠ wantClosed := by
  obtain ⟨⟨reads', before, preview⟩, hplan, hrun⟩ := Prog.run_bind_ok _ h
  obtain ⟨edge', wantClosed', hresolved', hne, -⟩ := planReads_ok hplan
  rw [gridRun, recheck, hrun] at h
  obtain ⟨⟨edges, edge'', wantClosed''⟩, hresolve, hrun⟩ := Prog.run_bind_ok _ h
  rw [hrun] at h
  injection h with h
  injection h with _ h
  injection h with he hb
  subst he hb
  have hdb := gridRun_reads (planReads_reads action.target action.params) db c
  simp only [gridRun] at hdb
  obtain ⟨-, hresolved⟩ := resolve_ok hresolve
  rw [hdb] at hresolved
  refine ⟨hresolved, ?_⟩
  -- both reads see the same tables
  have hid : edge'.edgeId = edge''.edgeId :=
    Option.some.inj (hresolved'.target.symm.trans hresolved.target)
  have hedge : edge' = edge'' := by
    have h' := hresolved'.edge
    rw [hid, hresolved.edge] at h'
    exact (Option.some.inj h').symm
  have hwant : wantClosed' = wantClosed'' :=
    Option.some.inj (hresolved'.wantClosed.symm.trans hresolved.wantClosed)
  exact hedge ▸ hwant ▸ hne

/-! ### The way to the device -/

theorem moves_call {q : GridStmt} (hq : q.MovesNothing) :
    (Prog.call q : GridProg (GridResp q)).Issues GridStmt.MovesNothing :=
  (Prog.issues_call q).mpr hq

theorem dispatchCommand_moves (deviceId commandType issuedBy : String) :
    (dispatchCommand deviceId commandType issuedBy).Issues GridStmt.MovesNothing := by
  refine (moves_call (q := .selectDevice deviceId) fun _ _ _ h => nomatch h).bind fun device => ?_
  cases device with
  | none => trivial
  | some device =>
      refine (Prog.issues_raiseIf _ _).bind fun _ => ?_
      refine (moves_call (q := .uuid4) fun _ _ _ h => nomatch h).bind fun commandId => ?_
      refine Prog.Issues.bind (moves_call fun _ _ _ h => nomatch h) fun _ => ?_
      refine Prog.Issues.bind (Prog.Issues.attempt (moves_call fun _ _ _ h => nomatch h)
        fun exc => ?_) fun _ => ?_
      · cases exc with
        | kafka m => exact Prog.Issues.bind (moves_call fun _ _ _ h => nomatch h) fun _ => trivial
        | _ => trivial
      · refine Prog.Issues.bind (moves_call fun _ _ _ h => nomatch h) fun status => ?_
        cases status <;> trivial

theorem pollAck_moves (ack : DeviceAck) (n : ℕ) :
    (pollAck ack n).Issues GridStmt.MovesNothing := by
  induction n with
  | zero => trivial
  | succ n ih =>
      refine Prog.Issues.bind (moves_call fun _ _ _ h => nomatch h) fun status => ?_
      split
      · trivial
      · trivial
      · exact ih

theorem dispatchAndWait_moves (deviceId commandType : String) :
    (dispatchAndWait deviceId commandType).Issues GridStmt.MovesNothing := by
  refine (dispatchCommand_moves _ _ _).bind fun commandId => ?_
  split
  · trivial
  · exact Prog.Issues.bind (moves_call fun _ _ _ h => nomatch h) fun turns =>
      pollAck_moves _ turns

theorem pollEcho_moves (deviceId : String) (expect : List Expectation) (baseline : ℚ) (n : ℕ)
    (anyReported : Bool) (last : Option DeviceState) :
    (pollEcho deviceId expect baseline n anyReported last).Issues GridStmt.MovesNothing := by
  induction n generalizing anyReported last with
  | zero => trivial
  | succ n ih =>
      refine Prog.Issues.bind (moves_call fun _ _ _ h => nomatch h) fun state => ?_
      cases state with
      | none => exact ih _ _
      | some state =>
          dsimp only
          split
          · split
            · trivial
            · exact ih _ _
          · exact ih _ _

theorem echoOf_moves (deviceId : String) (wantClosed : Bool) :
    (echoOf deviceId wantClosed).Issues GridStmt.MovesNothing := by
  refine Prog.Issues.bind (moves_call fun _ _ _ h => nomatch h) fun enabled => ?_
  cases enabled with
  | false => trivial
  | true =>
      refine Prog.Issues.bind ?_ fun _ => trivial
      refine Prog.Issues.bind (moves_call fun _ _ _ h => nomatch h) fun _ => ?_
      exact Prog.Issues.bind (moves_call fun _ _ _ h => nomatch h) fun _ => pollEcho_moves ..

end OcSwitch

end DiepLab
