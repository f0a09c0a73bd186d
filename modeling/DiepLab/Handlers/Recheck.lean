import DiepLab.Handlers.Writes

/-!
When the re-check of a switch operation passes.

`SwitchOpHandler.execute` plans again and resolves again before it actuates. On
tables that nobody else changes both see the same rows, and the re-check passes
exactly for a switch that `Operates`.
-/

namespace DiepLab

open StatementProgram

namespace OcSwitch

open Dms

/-- `_customers_in` on quiet tables. -/
def customersOn (db : GridDb) (nodes : Finset String) : List ServedCustomer :=
  if nodes = ∅ then [] else db.servicePointsIn nodes

theorem customersIn_run (db : GridDb) (nodes : Finset String) :
    (customersIn nodes).run quiet db = (.ok (customersOn db nodes), db) := by
  unfold customersIn customersOn
  split <;> rfl

/-- The texts of the interlocks that block on quiet tables. -/
def blocksOn (db : GridDb) (edge : GridEdge) (wantClosed : Bool) : List String :=
  let before := energized db.network.edges db.network.substations none
  let after := energized db.network.edges db.network.substations (some (edge.edgeId, wantClosed))
  if wantClosed then blocks edge true before (after \ before) db.activeOutageNodes []
  else blocks edge false before (after \ before) ∅ (customersOn db (before \ after))

theorem interlocks_run (db : GridDb) (edge : GridEdge) (wantClosed : Bool) :
    ∃ found, (interlocks db.network.edges edge wantClosed).run quiet db = (.ok found, db) ∧
      found.blocks = blocksOn db edge wantClosed := by
  have hsubstations : quiet GridStmt.substations db = (.ok db.network.substations, db) := rfl
  have houtages : quiet GridStmt.activeOutageNodes db = (.ok db.activeOutageNodes, db) := rfl
  cases wantClosed with
  | true =>
      simp [interlocks, Prog.run_bind, Prog.run_call, hsubstations, houtages, blocksOn]
  | false =>
      simp [interlocks, Prog.run_bind, Prog.run_call, hsubstations, customersIn_run, blocksOn]

/-- What `resolve` finds on quiet tables: a switch, and the state asked for. -/
structure Finds (db : GridDb) (target : Option String) (params : ActionParams) (edge : GridEdge)
    (wantClosed : Bool) : Prop where
  target : given target = some edge.edgeId
  found : db.network.edges.find? (fun e => e.edgeId = edge.edgeId) = some edge
  switchable : edge.isSwitchable = true
  close : params.close = some wantClosed

/-- The re-check of a switch operation passes: the switch is not in the
requested state, and no interlock blocks it or the request overrides them. -/
structure Operates (db : GridDb) (action : ActionRecord) (edge : GridEdge) (wantClosed : Bool) :
    Prop extends Finds db action.target action.params edge wantClosed where
  moves : edge.isClosed ≠ wantClosed
  clear : blocksOn db edge wantClosed = [] ∨ action.params.override = true

theorem resolve_run {db : GridDb} {target : Option String} {params : ActionParams}
    {edge : GridEdge} {wantClosed : Bool} (h : Finds db target params edge wantClosed) :
    (resolve target params).run quiet db = (.ok (db.network.edges, edge, wantClosed), db) := by
  have hedges : quiet GridStmt.loadEdges db = (.ok db.network.edges, db) := rfl
  simp [resolve, h.target, Prog.run_bind, Prog.run_call, hedges, h.found, h.switchable, h.close]

theorem resolve_finds {db : GridDb} {target : Option String} {params : ActionParams}
    {edges : List GridEdge} {edge : GridEdge} {wantClosed : Bool}
    (h : ((resolve target params).run quiet db).1 = .ok (edges, edge, wantClosed)) :
    edges = db.network.edges ∧ Finds db target params edge wantClosed := by
  have hedges : quiet GridStmt.loadEdges db = (.ok db.network.edges, db) := rfl
  rw [resolve] at h
  cases htarget : given target with
  | none =>
      rw [htarget] at h
      cases h
  | some t =>
      simp only [htarget, Prog.run_bind, Prog.run_call, hedges] at h
      cases hfind : db.network.edges.find? fun e => e.edgeId = t with
      | none =>
          simp only [hfind] at h
          cases h
      | some e =>
          simp only [hfind] at h
          obtain ⟨_, hswitchable, hrun⟩ := Prog.run_bind_ok _ h
          rw [hrun] at h
          cases hclose : params.close with
          | none =>
              simp only [hclose] at h
              cases h
          | some b =>
              simp only [hclose] at h
              injection h with h
              injection h with hedges h
              injection h with he hb
              subst hedges he hb
              have hfound := List.find?_some hfind
              have hid : e.edgeId = t := of_decide_eq_true hfound
              exact ⟨rfl, by rw [htarget, hid], by rw [hid, hfind],
                not_not.mp (Prog.run_raiseIf_ok _ hswitchable).1, hclose⟩

theorem quiet_reads {α : Type} {p : GridProg α} (hp : p.Issues GridStmt.ReadsOnly)
    (db : GridDb) : (p.run quiet db).2 = db :=
  hp.run_keeps quiet id (fun _ db hq => gridSem_readsOnly {} hq db) db

theorem Finds.unique {db : GridDb} {target : Option String} {params : ActionParams}
    {edge edge' : GridEdge} {b b' : Bool} (h : Finds db target params edge b)
    (h' : Finds db target params edge' b') : edge = edge' ∧ b = b' := by
  have hid : edge.edgeId = edge'.edgeId := Option.some.inj (h.target.symm.trans h'.target)
  have hfound := h.found
  rw [hid, h'.found] at hfound
  exact ⟨(Option.some.inj hfound).symm, Option.some.inj (h.close.symm.trans h'.close)⟩

theorem planReads_operates {db : GridDb} {action : ActionRecord}
    {r : InterlockReads × ActionDoc × ActionDoc}
    (h : ((planReads action.target action.params).run quiet db).1 = .ok r) :
    ∃ edge wantClosed, Operates db action edge wantClosed := by
  obtain ⟨⟨edges, edge, wantClosed⟩, hresolve, hrun⟩ := Prog.run_bind_ok _ h
  obtain ⟨rfl, hfinds⟩ := resolve_finds hresolve
  rw [planReads, hrun, quiet_reads (resolve_reads _ _)] at h
  obtain ⟨_, hmoves, hrun⟩ := Prog.run_bind_ok _ h
  obtain ⟨hne, hstate⟩ := Prog.run_raiseIf_ok _ hmoves
  rw [hrun, hstate] at h
  obtain ⟨found, hfound, hrun⟩ := Prog.run_bind_ok _ h
  obtain ⟨found', hfound', hblocks⟩ := interlocks_run db edge wantClosed
  obtain rfl : found' = found := Except.ok.inj ((congrArg Prod.fst hfound').symm.trans hfound)
  rw [hrun] at h
  obtain ⟨_, hpass, -⟩ := Prog.run_bind_ok _ h
  have hclear := (Prog.run_raiseIf_ok _ hpass).1
  rw [hblocks] at hclear
  exact ⟨edge, wantClosed, hfinds, hne, by tauto⟩

/-- A re-check on quiet tables passes exactly when the switch operates. -/
theorem recheck_run_iff {db : GridDb} {action : ActionRecord} {edge : GridEdge}
    {wantClosed : Bool} :
    (∃ reads, ((recheck action).run quiet db).1 = .ok (reads, edge, wantClosed)) ↔
      Operates db action edge wantClosed := by
  constructor
  · rintro ⟨reads, h⟩
    obtain ⟨⟨reads', before, preview⟩, hplan, hrun⟩ := Prog.run_bind_ok _ h
    obtain ⟨edge', wantClosed', hoperates⟩ := planReads_operates hplan
    rw [recheck, hrun, quiet_reads (planReads_reads _ _)] at h
    obtain ⟨⟨edges, edge'', wantClosed''⟩, hresolve, hrun⟩ := Prog.run_bind_ok _ h
    rw [hrun] at h
    injection h with h
    injection h with _ h
    injection h with he hb
    subst he hb
    -- both reads see the same tables
    obtain ⟨rfl, rfl⟩ := hoperates.toFinds.unique (resolve_finds hresolve).2
    exact hoperates
  · intro h
    obtain ⟨found, hfound, hblocks⟩ := interlocks_run db edge wantClosed
    have hpass : ¬ (¬ found.blocks = [] ∧ action.params.override = false) := by
      rw [hblocks]
      rcases h.clear with hclear | hclear <;> simp [hclear]
    refine ⟨found.reads, ?_⟩
    simp [recheck, planReads, Prog.run_bind, resolve_run h.toFinds, hfound, h.moves, hpass,
      customersIn_run]

end OcSwitch

end DiepLab
