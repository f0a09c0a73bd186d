import DiepLab.Controls.Obligations
import DiepLab.Grid.Radial
import DiepLab.Handlers.Writes

/-!
The interlocks, and the switch writes that pass them by.

`SwitchOpHandler.plan` refuses to close onto an active outage and to open above
a critical customer, on the rows that it has read. Its write is safe while the
tables still hold these rows (`Passed.safe`); no other write of the two
handlers asks, and is safe exactly when the network happens to make it so
(`harmless_iff`). Which rows were evaluated is part of the label of a write, so
what the handlers guarantee is a property of the statements they issue
(`Checked`).
-/

namespace DiepLab

open StatementProgram Controls

/-! ### One switch write -/

namespace GridDb

/-- The nodes that are energised, as the switch handler computes them. -/
def energized (db : GridDb) : Finset String :=
  OcSwitch.energized db.network.edges db.network.substations none

theorem mem_energized {db : GridDb} {n : String} :
    n ∈ db.energized ↔
      grid.Fed { s | s ∈ db.network.substations } (closed db.network.edges) n :=
  OcSwitch.mem_energized

/-- Closing an edge feeds what lies below it, if its upper end is fed. -/
theorem mem_energized_close {db : GridDb} {e : GridEdge} (he : e ∈ db.network.edges)
    {n : String} :
    n ∈ (db.setSwitch e.edgeId true).energized ↔ n ∈ db.energized ∨
      (e.fromNode ∈ db.energized ∧ n ∈ Dms.reach db.network.edges [e.toNode]) := by
  have hclosed := closed_setClosed_true db.network.edgeKey (List.mem_map_of_mem he)
  rw [mem_energized, mem_energized, mem_energized, Dms.mem_reach_singleton]
  change grid.Fed _ (closed (setClosed e.edgeId true db.network.edges)) n ↔ _
  rw [hclosed, Multigraph.fed_insert_iff]
  rfl

/-- Opening an edge leaves what is fed without it. -/
theorem mem_energized_open {db : GridDb} {e : GridEdge} (he : e ∈ db.network.edges)
    {n : String} :
    n ∈ (db.setSwitch e.edgeId false).energized ↔
      n ∈ OcSwitch.energized (without e.branch db.network.edges) db.network.substations none := by
  have hclosed := closed_setClosed_false db.network.edgeKey (List.mem_map_of_mem he)
  rw [mem_energized, OcSwitch.mem_energized, OcSwitch.carried_closedUnder_none, closed_without]
  change grid.Fed _ (closed (setClosed e.edgeId false db.network.edges)) n ↔ _
  rw [hclosed]
  rfl

theorem energized_subset_close (db : GridDb) (edgeId : String) :
    db.energized ⊆ (db.setSwitch edgeId true).energized := fun _ hn =>
  mem_energized.mpr ((mem_energized.mp hn).mono fun _ hb => mem_closed_setClosed_true.mpr (.inl hb))

theorem energized_open_subset (db : GridDb) (edgeId : String) :
    (db.setSwitch edgeId false).energized ⊆ db.energized := by
  intro n hn
  refine mem_energized.mpr ((mem_energized.mp hn).mono ?_)
  rintro b ⟨e, he, hc, rfl⟩
  rcases mem_setClosed.mp he with ⟨he, -⟩ | ⟨f, -, -, rfl⟩
  · exact ⟨e, he, hc, rfl⟩
  · exact absurd hc Bool.false_ne_true

/-- What opening an edge takes out lies below it. -/
theorem below_of_lost {db : GridDb} {e : GridEdge} (he : e ∈ db.network.edges) {n : String}
    (hn : n ∈ db.energized) (hlost : n ∉ (db.setSwitch e.edgeId false).energized) :
    n ∈ Dms.reach db.network.edges [e.toNode] := by
  rw [mem_energized_open he, OcSwitch.mem_energized, OcSwitch.carried_closedUnder_none,
    closed_without] at hlost
  rw [Dms.mem_reach_singleton]
  have hsub : closed db.network.edges ⊆ insert e.branch (closed db.network.edges \ {e.branch}) := by
    rw [Set.insert_sdiff_singleton]
    exact Set.subset_insert _ _
  have hfed := (mem_energized.mp hn).mono hsub
  rcases Multigraph.fed_insert_iff.mp hfed with hfed | ⟨-, hreach⟩
  · exact absurd hfed hlost
  · exact hreach.mono Set.sdiff_subset

theorem setSwitch_absent {db : GridDb} {edgeId : String} (b : Bool)
    (h : ∀ e ∈ db.network.edges, e.edgeId ≠ edgeId) :
    (db.setSwitch edgeId b).energized = db.energized := by
  have hedges : setClosed edgeId b db.network.edges = db.network.edges :=
    setClosed_eq_self fun e he hid => absurd hid (h e he)
  change OcSwitch.energized (setClosed edgeId b db.network.edges) db.network.substations none = _
  rw [hedges]
  rfl

theorem mem_servicePointsIn {db : GridDb} {nodes : Finset String} {c : ServedCustomer} :
    c ∈ db.servicePointsIn nodes ↔ c.nodeId ∈ nodes ∧ c ∈ db.servicePointsIn {c.nodeId} := by
  simp only [servicePointsIn, List.mem_filterMap]
  constructor
  · rintro ⟨sp, hsp, h⟩
    cases hnode : sp.nodeId with
    | none => simp [hnode] at h
    | some n =>
        simp only [hnode] at h
        split at h
        · injection h with h
          subst h
          exact ⟨‹_›, sp, hsp, by simp [hnode]⟩
        · cases h
  · rintro ⟨hmem, sp, hsp, h⟩
    refine ⟨sp, hsp, ?_⟩
    cases hnode : sp.nodeId with
    | none => simp [hnode] at h
    | some n =>
        simp only [hnode, Finset.mem_singleton] at h ⊢
        split at h
        · rename_i heq
          rw [if_pos (heq ▸ hmem)]
          exact h
        · cases h

end GridDb

/-- No node with an active outage is energised newly. -/
def NoOutageEnergized (db db' : GridDb) : Prop :=
  ∀ n ∈ db.activeOutageNodes, n ∈ db'.energized → n ∈ db.energized

/-- No node that serves a critical or medical customer is de-energised newly. -/
def NoCriticalLost (db db' : GridDb) : Prop :=
  ∀ c ∈ db.servicePointsIn db.energized, OcSwitch.critical c = true → c.nodeId ∈ db'.energized

instance (db db' : GridDb) : Decidable (NoOutageEnergized db db') :=
  inferInstanceAs (Decidable (∀ n ∈ db.activeOutageNodes, _ → _))

instance (db db' : GridDb) : Decidable (NoCriticalLost db db') :=
  inferInstanceAs (Decidable (∀ c ∈ db.servicePointsIn db.energized, _ → _))

theorem noOutageEnergized_open (db : GridDb) (edgeId : String) :
    NoOutageEnergized db (db.setSwitch edgeId false) :=
  fun _ _ hn => db.energized_open_subset edgeId hn

theorem noCriticalLost_close (db : GridDb) (edgeId : String) :
    NoCriticalLost db (db.setSwitch edgeId true) :=
  fun _ hc _ => db.energized_subset_close edgeId (GridDb.mem_servicePointsIn.mp hc).1

/-- The condition on a write that nobody checks, in terms of the network before
it: it closes an edge that is dead, or below which every node with an active
outage is energised already; or it opens an edge past which every energised
node with a critical or medical customer is fed. -/
def Harmless (edgeId : String) (b : Bool) (db : GridDb) : Prop :=
  ∀ e ∈ db.network.edges, e.edgeId = edgeId →
    match b with
    | true => e.fromNode ∈ db.energized → ∀ n ∈ db.activeOutageNodes,
        n ∈ Dms.reach db.network.edges [e.toNode] → n ∈ db.energized
    | false => ∀ c ∈ db.servicePointsIn db.energized, OcSwitch.critical c = true →
        c.nodeId ∈ OcSwitch.energized (without e.branch db.network.edges)
          db.network.substations none

instance (edgeId : String) (b : Bool) (db : GridDb) : Decidable (Harmless edgeId b db) := by
  unfold Harmless
  cases b <;> infer_instance

theorem harmless_iff {edgeId : String} {b : Bool} {db : GridDb} :
    Harmless edgeId b db ↔
      NoOutageEnergized db (db.setSwitch edgeId b) ∧
        NoCriticalLost db (db.setSwitch edgeId b) := by
  by_cases hedge : ∃ e ∈ db.network.edges, e.edgeId = edgeId
  · obtain ⟨e, he, rfl⟩ := hedge
    have hone : Harmless e.edgeId b db ↔ _ :=
      ⟨fun h => h e he rfl, fun h f hf hid => (db.network.edgeKey.eq hf he hid) ▸ h⟩
    rw [hone]
    cases b with
    | true =>
        rw [and_iff_left (noCriticalLost_close db e.edgeId)]
        constructor
        · intro h n hn hafter
          rcases (GridDb.mem_energized_close he).mp hafter with hbefore | ⟨hfrom, hbelow⟩
          · exact hbefore
          · exact h hfrom n hn hbelow
        · exact fun h hfrom n hn hbelow =>
            h n hn ((GridDb.mem_energized_close he).mpr (Or.inr ⟨hfrom, hbelow⟩))
    | false =>
        rw [and_iff_right (noOutageEnergized_open db e.edgeId)]
        exact forall₃_congr fun c _ _ => (GridDb.mem_energized_open he).symm
  · have habsent : ∀ e ∈ db.network.edges, e.edgeId ≠ edgeId :=
      fun e he hid => hedge ⟨e, he, hid⟩
    have hsame := GridDb.setSwitch_absent b habsent
    refine iff_of_true (fun e he hid => absurd hid (habsent e he)) ⟨fun n _ hn => ?_, ?_⟩
    · rwa [hsame] at hn
    · intro c hc _
      rw [hsame]
      exact (GridDb.mem_servicePointsIn.mp hc).1

/-! ### What the re-check guarantees -/

namespace InterlockReads

def before (reads : InterlockReads) : Finset String :=
  OcSwitch.energized reads.edges reads.substationsBefore none

def after (reads : InterlockReads) (edgeId : String) (b : Bool) : Finset String :=
  OcSwitch.energized reads.edges reads.substationsAfter (some (edgeId, b))

end InterlockReads

/-- The interlocks, evaluated on these rows, let the operation pass. -/
structure Passed (reads : InterlockReads) (edgeId : String) (b : Bool) : Prop where
  edgeId_ne : edgeId ≠ ""
  closing : b = true → reads.outageNodes ∩ (reads.after edgeId b \ reads.before) = ∅
  opening : b = false → reads.customersLost.filter OcSwitch.critical = []

/-- The tables still hold the rows on which the interlocks were evaluated. -/
def Undisturbed (reads : InterlockReads) (edgeId : String) (b : Bool) (db : GridDb) : Prop :=
  db.network.edges = reads.edges ∧ db.network.substations = reads.substationsBefore ∧
    db.network.substations = reads.substationsAfter ∧
    match b with
    | true => db.activeOutageNodes = reads.outageNodes
    | false =>
        db.servicePointsIn (reads.before \ reads.after edgeId b) = reads.customersLost

instance (reads : InterlockReads) (edgeId : String) (b : Bool) (db : GridDb) :
    Decidable (Undisturbed reads edgeId b db) := by
  unfold Undisturbed
  cases b <;> infer_instance

theorem Passed.safe {reads : InterlockReads} {edgeId : String} {b : Bool} {db : GridDb}
    (h : Passed reads edgeId b) (hdb : Undisturbed reads edgeId b db) :
    NoOutageEnergized db (db.setSwitch edgeId b) ∧
      NoCriticalLost db (db.setSwitch edgeId b) := by
  obtain ⟨hedges, hbefore, hafter, htable⟩ := hdb
  have henergized : db.energized = reads.before := by
    rw [GridDb.energized, hedges, hbefore]
    rfl
  have hflip : (db.setSwitch edgeId b).energized = reads.after edgeId b := by
    rw [InterlockReads.after, OcSwitch.energized_flip h.edgeId_ne, ← hedges, ← hafter]
    rfl
  cases b with
  | true =>
      refine ⟨fun n hn hgained => ?_, noCriticalLost_close db edgeId⟩
      by_contra hlost
      rw [hflip] at hgained
      rw [henergized] at hlost
      have hmem : n ∈ reads.outageNodes ∩ (reads.after edgeId true \ reads.before) :=
        Finset.mem_inter.mpr ⟨htable ▸ hn, Finset.mem_sdiff.mpr ⟨hgained, hlost⟩⟩
      rw [h.closing rfl] at hmem
      exact absurd hmem (Finset.notMem_empty n)
  | false =>
      refine ⟨noOutageEnergized_open db edgeId, fun c hc hcritical => ?_⟩
      by_contra hlost
      obtain ⟨hfed, hserved⟩ := GridDb.mem_servicePointsIn.mp hc
      rw [hflip] at hlost
      rw [henergized] at hfed
      have hmem : c ∈ reads.customersLost := by
        rw [← htable]
        exact GridDb.mem_servicePointsIn.mpr ⟨Finset.mem_sdiff.mpr ⟨hfed, hlost⟩, hserved⟩
      have hblocked : c ∈ reads.customersLost.filter OcSwitch.critical :=
        List.mem_filter.mpr ⟨hmem, hcritical⟩
      rw [h.opening rfl] at hblocked
      exact absurd hblocked List.not_mem_nil

/-! ### What the handlers issue -/

/-- A switch operation that is not overridden writes only past its interlocks,
and the isolating write of FLISR opens. -/
def Checked : GridStmt → Prop
  | .setSwitch (.switchOp false reads) edgeId b => Passed reads edgeId b
  | .setSwitch .flisrIsolate _ b => b = false
  | _ => True

theorem checked_of_moves (q : GridStmt) (hq : q.MovesNothing) : Checked q := by
  cases q with
  | setSwitch site edgeId b => exact absurd rfl (hq site edgeId b)
  | _ => trivial

theorem checked_of_reads (q : GridStmt) (hq : q.ReadsOnly) : Checked q :=
  checked_of_moves q hq.movesNothing

theorem checked_call (site : SwitchWrite) (edgeId : String) (b : Bool)
    (h : Checked (.setSwitch site edgeId b)) : (Sql.setSwitch site edgeId b).Issues Checked :=
  (Prog.issues_call _).mpr h

namespace OcSwitch

theorem resolve_returns (target : Option String) (params : ActionParams) :
    (resolve target params).Returns fun (_, edge, wantClosed) =>
      target = some edge.edgeId ∧ edge.edgeId ≠ "" ∧ params.close = some wantClosed := by
  unfold resolve
  cases htarget : given target with
  | none => trivial
  | some t =>
      obtain ⟨htarget, hne⟩ := given_eq_some htarget
      refine (Prog.returns_true _).bind fun edges _ => ?_
      cases hfind : edges.find? fun e => e.edgeId = t with
      | none => trivial
      | some edge =>
          have hfound := List.find?_some hfind
          have hid : edge.edgeId = t := of_decide_eq_true hfound
          refine (Prog.returns_raiseIf _ _).bind fun _ _ => ?_
          cases hclose : params.close with
          | none => trivial
          | some wantClosed => exact ⟨hid ▸ htarget, hid ▸ hne, rfl⟩

theorem interlocks_returns (edges : List GridEdge) (edge : GridEdge) (wantClosed : Bool)
    (hid : edge.edgeId ≠ "") :
    (interlocks edges edge wantClosed).Returns fun found =>
      found.blocks = [] → Passed found.reads edge.edgeId wantClosed := by
  refine (Prog.returns_true _).bind fun before _ => ?_
  refine (Prog.returns_true _).bind fun after _ => ?_
  cases wantClosed with
  | true =>
      refine (Prog.returns_true _).bind fun outageNodes _ => ?_
      refine fun hnone => ⟨hid, fun _ => ?_, fun h => nomatch h⟩
      simp only [blocks, if_true, List.append_eq_nil_iff] at hnone
      obtain ⟨hfaulted, -⟩ := hnone
      split at hfaulted
      · assumption
      · cases hfaulted
  | false =>
      refine (Prog.returns_true _).bind fun customers _ => ?_
      refine fun hnone => ⟨hid, fun h => (nomatch h), fun _ => ?_⟩
      simp only [blocks, Bool.false_eq_true, if_false] at hnone
      split at hnone
      · assumption
      · cases hnone

theorem planReads_returns (target : Option String) (params : ActionParams) :
    (planReads target params).Returns fun (reads, _) =>
      ∃ edgeId wantClosed, target = some edgeId ∧ params.close = some wantClosed ∧
        (params.override = false → Passed reads edgeId wantClosed) := by
  refine (resolve_returns target params).bind fun ⟨edges, edge, wantClosed⟩ h => ?_
  obtain ⟨htarget, hid, hclose⟩ := h
  refine (Prog.returns_true _).bind fun _ _ => ?_
  refine (interlocks_returns edges edge wantClosed hid).bind fun found hfound => ?_
  refine (Prog.returns_raiseIf _ _).bind fun _ hblocks => ?_
  refine (Prog.returns_true _).bind fun _ _ => (Prog.returns_true _).bind fun _ _ => ?_
  refine ⟨edge.edgeId, wantClosed, htarget, hclose, fun hoverride => hfound ?_⟩
  by_contra hne
  exact hblocks ⟨hne, by simp [hoverride]⟩

/-- The re-check hands on what it has evaluated. -/
theorem recheck_returns (action : ActionRecord) :
    (recheck action).Returns fun (reads, edge, wantClosed) =>
      action.params.override = false → Passed reads edge.edgeId wantClosed := by
  refine (planReads_returns _ _).bind fun ⟨reads, _, _⟩ h => ?_
  obtain ⟨edgeId, wantClosed, htarget, hclose, hpassed⟩ := h
  refine (resolve_returns _ _).bind fun ⟨edges, edge, wantClosed'⟩ h' => ?_
  obtain ⟨htarget', -, hclose'⟩ := h'
  intro hoverride
  have hid : edgeId = edge.edgeId := Option.some.inj (htarget.symm.trans htarget')
  have hwant : wantClosed = wantClosed' := Option.some.inj (hclose.symm.trans hclose')
  exact hid ▸ hwant ▸ hpassed hoverride

theorem moveDevice_checked (edge : GridEdge) (wantClosed : Bool) :
    (moveDevice edge wantClosed).Issues Checked := by
  unfold moveDevice
  split
  · trivial
  · refine ((dispatchAndWait_moves _ _).mono checked_of_moves).bind fun ack => ?_
    refine ((echoOf_moves _ _).mono checked_of_moves).bind fun echo => ?_
    split
    · exact (checked_call .switchOpRevert _ _ trivial).bind fun _ => trivial
    · trivial

theorem execute_checked (action : ActionRecord) : (execute action).Issues Checked := by
  refine ((recheck_reads action).mono checked_of_reads).bind_returns (recheck_returns action) ?_
  rintro ⟨reads, edge, wantClosed⟩ hpassed
  refine Prog.Issues.bind (checked_call _ _ _ ?_) fun _ => ?_
  · cases hoverride : action.params.override with
    | true => trivial
    | false => exact hpassed hoverride
  · exact (moveDevice_checked edge wantClosed).bind fun _ => trivial

theorem rollback_checked (action : ActionRecord) : (rollback action).Issues Checked := by
  unfold rollback
  dsimp only
  split
  · trivial
  · rename_i prev _
    have hdevice (deviceId command : String) (f : DeviceAck → Option Echo → ActionDoc) :
        (do
          let ack ← dispatchAndWait deviceId command
          let echo ← echoOf deviceId prev
          pure (f ack echo) : GridProg ActionDoc).Issues Checked :=
      ((dispatchAndWait_moves _ _).mono checked_of_moves).bind fun _ =>
        ((echoOf_moves _ _).mono checked_of_moves).bind fun _ => trivial
    split
    · refine (checked_call .switchOpRollback _ _ trivial).bind fun _ => ?_
      split
      · trivial
      · exact hdevice ..
    · split
      · trivial
      · exact hdevice ..

theorem handler_checked : handler.Issues Checked where
  riskFor _ _ := trivial
  plan target params :=
    ((planReads_reads target params).mono checked_of_reads).bind fun _ => trivial
  execute := execute_checked
  rollback := rollback_checked

end OcSwitch

namespace OcFlisr

theorem revert_checked (before : Dict Bool) (ids : List String) :
    (revert before ids).Issues Checked := by
  induction ids with
  | nil => trivial
  | cons eid ids ih =>
      unfold revert
      split
      · exact (checked_call .flisrAbort _ _ trivial).bind fun _ => ih
      · exact ih

theorem applyWrites_checked (before : Dict Bool) (ws : List (SwitchWrite × String × Bool))
    (hws : ∀ w ∈ ws, Checked (.setSwitch w.1 w.2.1 w.2.2)) (applied : List String) :
    (applyWrites before ws applied).Issues Checked := by
  induction ws generalizing applied with
  | nil => trivial
  | cons w ws ih =>
      refine Prog.Issues.bind ?_ fun _ =>
        ih (fun w hw => hws w (List.mem_cons_of_mem _ hw)) _
      refine Prog.Issues.attempt (checked_call _ _ _ (hws w List.mem_cons_self)) fun exc => ?_
      exact (revert_checked before applied).bind fun _ => trivial

theorem execute_checked (action : ActionRecord) : (execute action).Issues Checked := by
  refine ((planFor_reads _ _).mono checked_of_reads).bind fun p => ?_
  refine (applyWrites_checked _ _ (fun w hw => ?_) _).bind fun applied => ?_
  · rcases List.mem_cons.mp hw with rfl | hw
    · exact rfl
    · obtain ⟨eid, -, rfl⟩ := List.mem_map.mp hw
      trivial
  · refine Prog.Issues.bind ((Prog.issues_call _).mpr ?_) fun _ => ?_
    · trivial
    · refine Prog.Issues.bind ((Prog.issues_call _).mpr ?_) fun _ => ?_
      · trivial
      · refine Prog.Issues.bind ((Prog.issues_call _).mpr ?_) fun _ => trivial
        trivial

theorem restoreSwitches_checked (states : Dict Bool) :
    (restoreSwitches states).Issues Checked := by
  induction states with
  | nil => trivial
  | cons entry states ih => exact (checked_call .flisrRollback _ _ trivial).bind fun _ => ih

theorem handler_checked : handler.Issues Checked where
  riskFor _ _ := trivial
  plan _ _ := ((planFor_reads _ _).mono checked_of_reads).bind fun _ => trivial
  execute := execute_checked
  rollback _ := (Prog.issues_raiseIf _ _).bind fun _ =>
    (restoreSwitches_checked _).bind fun _ => trivial

end OcFlisr

/-! ### Every interleaving -/

/-- What a write of the two handlers owes the supply. Operators may override
the interlocks of a switch operation; the isolating write of FLISR may take out
what lies below the isolated edge. -/
def SwitchWrite.Safe (edgeId : String) (db db' : GridDb) : SwitchWrite → Prop
  | .switchOp true _ => True
  | .flisrIsolate => NoOutageEnergized db db' ∧
      ∀ c ∈ db.servicePointsIn db.energized, OcSwitch.critical c = true →
        c.nodeId ∈ db'.energized ∨ ∃ e ∈ db.network.edges, e.edgeId = edgeId ∧
          c.nodeId ∈ Dms.reach db.network.edges [e.toNode]
  | _ => NoOutageEnergized db db' ∧ NoCriticalLost db db'

/-- The condition on a write, in terms of the tables before it. -/
def SwitchWrite.Clear (edgeId : String) (b : Bool) (db : GridDb) : SwitchWrite → Prop
  | .switchOp true _ => True
  | .switchOp false reads => Undisturbed reads edgeId b db ∨ Harmless edgeId b db
  | .flisrIsolate => True
  | _ => Harmless edgeId b db

theorem SwitchWrite.safe_iff {site : SwitchWrite} {edgeId : String} {b : Bool} (db : GridDb)
    (h : Checked (.setSwitch site edgeId b)) :
    site.Safe edgeId db (db.setSwitch edgeId b) ↔ site.Clear edgeId b db := by
  cases site with
  | switchOp override reads =>
      cases override with
      | true => exact Iff.rfl
      | false =>
          change NoOutageEnergized _ _ ∧ NoCriticalLost _ _ ↔ _ ∨ _
          rw [← harmless_iff]
          refine ⟨Or.inr, fun hclear => hclear.elim (fun hdb => ?_) id⟩
          exact harmless_iff.mpr (h.safe hdb)
  | flisrIsolate =>
      obtain rfl : b = false := h
      refine iff_of_true ⟨noOutageEnergized_open db edgeId, fun c hc _ => ?_⟩ trivial
      by_cases hlost : c.nodeId ∈ (db.setSwitch edgeId false).energized
      · exact Or.inl hlost
      · have hfed := (GridDb.mem_servicePointsIn.mp hc).1
        have hedge : ∃ e ∈ db.network.edges, e.edgeId = edgeId := by
          by_contra hnone
          rw [GridDb.setSwitch_absent false fun e he hid => hnone ⟨e, he, hid⟩] at hlost
          exact hlost hfed
        obtain ⟨e, he, rfl⟩ := hedge
        exact Or.inr ⟨e, he, rfl, GridDb.below_of_lost he hfed hlost⟩
  | _ => exact harmless_iff.symm

/-- The statement, if it is a switch write, owes the supply nothing. -/
def WriteSafe (c : ControlChoice × GridChoice) :
    ControlStmt ActionParams ActionDoc ⊕ GridStmt → Plane ActionParams ActionDoc GridDb → Prop
  | .inr (.setSwitch site edgeId b), s =>
      site.Safe edgeId s.world (gridSem c.2 (.setSwitch site edgeId b) s.world).2
  | _, _ => True

/-- The statement, if it is a switch write that does not fail, meets the
condition. -/
def WriteClear (c : ControlChoice × GridChoice) :
    ControlStmt ActionParams ActionDoc ⊕ GridStmt → Plane ActionParams ActionDoc GridDb → Prop
  | .inr (.setSwitch site edgeId b), s =>
      c.2.fails = none → site.Clear edgeId b s.world
  | _, _ => True

/-- A write that fails changes nothing. -/
theorem SwitchWrite.safe_self (site : SwitchWrite) (edgeId : String) (db : GridDb) :
    site.Safe edgeId db db := by
  have hcritical (c : ServedCustomer) (hc : c ∈ db.servicePointsIn db.energized) :
      c.nodeId ∈ db.energized := (GridDb.mem_servicePointsIn.mp hc).1
  cases site with
  | switchOp override reads =>
      cases override with
      | true => trivial
      | false => exact ⟨fun _ _ hn => hn, fun c hc _ => hcritical c hc⟩
  | flisrIsolate => exact ⟨fun _ _ hn => hn, fun c hc _ => Or.inl (hcritical c hc)⟩
  | _ => exact ⟨fun _ _ hn => hn, fun c hc _ => hcritical c hc⟩

theorem writeSafe_iff (c : ControlChoice × GridChoice)
    (q : ControlStmt ActionParams ActionDoc ⊕ GridStmt)
    (s : Plane ActionParams ActionDoc GridDb) (hq : OnWorld Checked q) :
    WriteSafe c q s ↔ WriteClear c q s := by
  cases q with
  | inl q => exact Iff.rfl
  | inr q =>
      cases q with
      | setSwitch site edgeId b =>
          simp only [WriteSafe, WriteClear, gridSem, GridStmt.failure]
          cases hfails : c.2.fails with
          | some m => exact iff_of_true (site.safe_self edgeId s.world) fun h => by cases h
          | none =>
              refine (SwitchWrite.safe_iff s.world (hq _ rfl)).trans ?_
              exact ⟨fun h _ => h, fun h => h rfl⟩
      | _ => exact Iff.rfl

theorem switchingHandlers_checked (name : String)
    (handler : ControlHandler ActionParams ActionDoc GridResp)
    (h : switchingHandlers name = some handler) : handler.Issues Checked := by
  rw [switchingHandlers] at h
  split at h
  · injection h with h
    exact h ▸ OcSwitch.handler_checked
  · split at h
    · injection h with h
      exact h ▸ OcFlisr.handler_checked
    · cases h

/-- **Interlocks.** However the requests on switch operations and FLISR actions
interleave, and whatever happens around them: all their switch writes are safe
if and only if every one of them meets the condition where it is issued. -/
theorem interlocked_iff (s : Plane ActionParams ActionDoc GridDb)
    (schedule : List (Event (ControlChoice × GridChoice) (Request ActionParams)
      (Surroundings GridDb))) :
    Config.AllSteps (planeSem gridSem) (serve switchingHandlers) surround WriteSafe
        ⟨s, []⟩ schedule ↔
      Config.AllSteps (planeSem gridSem) (serve switchingHandlers) surround WriteClear
        ⟨s, []⟩ schedule :=
  Config.allSteps_congr _ _ _ writeSafe_iff (serve_issues switchingHandlers_checked)
    (fun _ hp => absurd hp List.not_mem_nil) schedule

instance (edgeId : String) (db db' : GridDb) (site : SwitchWrite) :
    Decidable (site.Safe edgeId db db') := by
  cases site with
  | switchOp override reads =>
      cases override with
      | true => exact isTrue trivial
      | false => exact inferInstanceAs (Decidable (_ ∧ _))
  | flisrIsolate => exact inferInstanceAs (Decidable (_ ∧ _))
  | _ => exact inferInstanceAs (Decidable (_ ∧ _))

instance (c : ControlChoice × GridChoice)
    (q : ControlStmt ActionParams ActionDoc ⊕ GridStmt)
    (s : Plane ActionParams ActionDoc GridDb) : Decidable (WriteSafe c q s) := by
  unfold WriteSafe
  split <;> infer_instance

/-- A live action from request to rollback, one call after the other. -/
def wholeLife (actionType target : String) (params : ActionParams) :
    List (Event (ControlChoice × GridChoice) (Request ActionParams) (Surroundings GridDb)) :=
  let turns (i : ℕ) : List (Event (ControlChoice × GridChoice) (Request ActionParams)
      (Surroundings GridDb)) := List.replicate 24 (.act i ({ uuid := "a1" }, {}))
  .spawn (.create actionType (some target) params .live none ⟨"operator", none⟩) :: turns 0 ++
    .spawn (.approve "a1" none ⟨"engineer", none⟩) :: turns 1 ++
    .spawn (.execute "a1" ⟨"operator", none⟩) :: turns 2 ++
    .spawn (.rollback "a1" ⟨"operator", none⟩) :: turns 3

/-- The rollback of an opening energises the faulty transformer again, and a
FLISR tie energises a bus with an active outage of its own. -/
theorem unchecked_writes_unsafe :
    (¬ Config.AllSteps (planeSem gridSem) (serve switchingHandlers) surround WriteSafe
      ⟨⟨{ enabled := true }, { network := pilot
                               outageCases := [⟨"OUT-1", .CONFIRMED, some "TX-01"⟩] }⟩, []⟩
      (wholeLife "switch_op" "E-SW-01" { close := some false })) ∧
    ¬ Config.AllSteps (planeSem gridSem) (serve switchingHandlers) surround WriteSafe
      ⟨⟨{ enabled := true }, { network := pilot
                               outageCases := [⟨"OUT-1", .DETECTED, some "BUS-01"⟩] }⟩, []⟩
      (wholeLife "flisr" "TX-01" {}) := by
  refine ⟨?_, ?_⟩
  · decide +kernel
  · decide +kernel

end DiepLab
