import DiepLab.Handlers.Rollback

/-!
Directed and undirected energisation under governed switching.

The interlocks and the planner follow closed edges in their stored direction,
power flow and contingency analysis follow them both ways. The two agree as
long as no closed edge leads from a node that is not fed into one that is
(`energizedAgree_iff`). A network that is radial outwards starts that way;
what a switch write must look like to keep it so is `KeepsDirection`, an exact
condition on the state before the write (`energizedAgree_setSwitch_iff`), and
opening a switch of a radial network always meets it.
-/

namespace DiepLab

open StatementProgram Controls

/-! ### When the two notions agree -/

/-- The directed searches of the switch handler and of the planner find the
nodes that the undirected one finds. -/
def EnergizedAgree (net : Network) : Prop :=
  OcSwitch.energized net.edges net.substations none = Contingency.energized net.nodes net.edges ∧
    Dms.reach net.edges net.substations = Contingency.energized net.nodes net.edges

instance (net : Network) : Decidable (EnergizedAgree net) :=
  inferInstanceAs (Decidable (_ ∧ _))

/-- The nodes that the planner finds energised. -/
def Network.fed (net : Network) : Finset String := Dms.reach net.edges net.substations

theorem Network.mem_fed {net : Network} {n : String} :
    n ∈ net.fed ↔ grid.Fed { s | s ∈ net.substations } (closed net.edges) n :=
  Dms.mem_reach

theorem Network.fed_mono {net net' : Network} (hsub : closed net.edges ⊆ closed net'.edges)
    (hsources : net.substations = net'.substations) : net.fed ⊆ net'.fed := by
  intro n hn
  rw [mem_fed] at hn ⊢
  exact hsources ▸ hn.mono hsub

/-- No closed edge leads from an unfed node into a fed one. -/
def FeedsForward (net : Network) : Prop :=
  ∀ b ∈ closed net.edges, b.toNode ∈ net.fed → b.fromNode ∈ net.fed

theorem FeedsForward.forward {net : Network} {b : Branch} (hb : b ∈ closed net.edges)
    (h : b.fromNode ∈ net.fed) : b.toNode ∈ net.fed := by
  rw [Network.mem_fed] at h ⊢
  exact h.trans (Multigraph.reach_of_mem (G := grid) hb)

theorem energizedAgree_iff {net : Network} : EnergizedAgree net ↔ FeedsForward net := by
  have hfed : EnergizedAgree net ↔
      ∀ x, grid.Fed { s | s ∈ net.substations } (closed net.edges) x ↔
        ∃ s ∈ net.substations, grid.Conn (closed net.edges) s x := by
    rw [EnergizedAgree, OcSwitch.energized_eq_reach, and_self, Finset.ext_iff]
    refine forall_congr' fun x => ?_
    rw [Dms.mem_reach, Contingency.mem_energized]
    rfl
  have hiff := Multigraph.fed_iff_conn_iff (G := grid) { s | s ∈ net.substations }
    (closed net.edges)
  rw [hfed]
  refine hiff.trans (forall₂_congr fun b _ => ?_)
  rw [Network.mem_fed, Network.mem_fed]
  rfl

/-- A network that is radial outwards feeds forward. -/
theorem Network.RadialOutwards.energizedAgree {net : Network} (h : net.RadialOutwards) :
    EnergizedAgree net := by
  rw [energizedAgree_iff]
  intro b hb hto
  rw [Network.mem_fed] at hto ⊢
  obtain ⟨r, hr, hrt⟩ := hto
  refine ⟨r, hr, h.reach_of_conn hr ?_⟩
  exact hrt.conn.trans (Multigraph.conn_of_mem (G := grid) hb).symm

/-! ### One switch write -/

/-- What a write must look like to keep the direction of feeding. A closed edge
must not lead from an unfed node into a fed one; if it newly feeds the node
below it, every closed edge into what that node reaches must come from what it
reaches. An opened edge must not leave a closed edge from a node that loses
its feed into one that keeps it. -/
def KeepsDirection (net : Network) (edgeId : String) (b : Bool) : Prop :=
  ∀ e ∈ net.edges, e.edgeId = edgeId →
    match b with
    | true => (e.toNode ∈ net.fed → e.fromNode ∈ net.fed) ∧
        (e.fromNode ∈ net.fed → e.toNode ∉ net.fed → ∀ f ∈ net.edges, f.isClosed = true →
          f.toNode ∈ Dms.reach net.edges [e.toNode] → f.fromNode ∈ Dms.reach net.edges [e.toNode])
    | false => ∀ f ∈ net.edges, f.edgeId ≠ edgeId → f.isClosed = true → f.fromNode ∈ net.fed →
        f.toNode ∈ (net.setSwitch edgeId false).fed → f.fromNode ∈ (net.setSwitch edgeId false).fed

instance (net : Network) (edgeId : String) (b : Bool) :
    Decidable (KeepsDirection net edgeId b) := by
  unfold KeepsDirection
  cases b <;> infer_instance

section Write

variable {net : Network} {e : GridEdge}

theorem closed_close (he : e ∈ net.edges) :
    closed (net.setSwitch e.edgeId true).edges = insert e.branch (closed net.edges) :=
  closed_setClosed_true net.edgeKey (List.mem_map_of_mem he)

theorem closed_open (he : e ∈ net.edges) :
    closed (net.setSwitch e.edgeId false).edges = closed net.edges \ {e.branch} :=
  closed_setClosed_false net.edgeKey (List.mem_map_of_mem he)

/-- Closing an edge below a fed node feeds what the edge leads to. -/
theorem mem_fed_close (he : e ∈ net.edges) {n : String} :
    n ∈ (net.setSwitch e.edgeId true).fed ↔ n ∈ net.fed ∨
      (e.fromNode ∈ net.fed ∧ n ∈ Dms.reach net.edges [e.toNode]) := by
  rw [Network.mem_fed, Network.mem_fed, Network.mem_fed, Dms.mem_reach_singleton,
    closed_close he, Network.setSwitch_substations, Multigraph.fed_insert_iff]
  rfl

theorem feedsForward_close_iff (h : FeedsForward net) (he : e ∈ net.edges) :
    FeedsForward (net.setSwitch e.edgeId true) ↔
      (e.toNode ∈ net.fed → e.fromNode ∈ net.fed) ∧
        (e.fromNode ∈ net.fed → e.toNode ∉ net.fed → ∀ f ∈ net.edges, f.isClosed = true →
          f.toNode ∈ Dms.reach net.edges [e.toNode] →
          f.fromNode ∈ Dms.reach net.edges [e.toNode]) := by
  have htop : e.toNode ∈ Dms.reach net.edges [e.toNode] := Dms.mem_reach_singleton.mpr .refl
  -- walking on from a fed node, and back along what feeds forward
  have hdown : ∀ x, x ∈ Dms.reach net.edges [e.toNode] → (x ∈ net.fed ↔ e.toNode ∈ net.fed) := by
    intro x hx
    rw [Dms.mem_reach_singleton] at hx
    induction hx with
    | refl => exact Iff.rfl
    | tail _ hstep ih =>
        obtain ⟨b, hb, rfl, rfl⟩ := hstep
        exact ⟨fun hb' => ih.mp (h b hb hb'), fun ht => FeedsForward.forward hb (ih.mpr ht)⟩
  unfold FeedsForward
  simp only [mem_fed_close he, closed_close he, Set.mem_insert_iff]
  constructor
  · intro hafter
    refine ⟨fun hto => ?_, fun hfrom hto f hf hc hbelow => ?_⟩
    · exact (hafter e.branch (Or.inl rfl) (Or.inl hto)).elim id fun hx => hx.1
    · have hsrc := hafter f.branch (Or.inr ⟨f, hf, hc, rfl⟩) (Or.inr ⟨hfrom, hbelow⟩)
      refine hsrc.elim (fun hfed => ?_) fun hx => hx.2
      have hffed := FeedsForward.forward (b := f.branch) ⟨f, hf, hc, rfl⟩ hfed
      exact absurd ((hdown _ hbelow).mp hffed) hto
  · rintro ⟨hends, hbelow⟩ b (rfl | hb) hto
    · rcases hto with hto | ⟨hfrom, -⟩
      · exact Or.inl (hends hto)
      · exact Or.inl hfrom
    · rcases hto with hto | ⟨hfrom, hreach⟩
      · exact Or.inl (h b hb hto)
      · by_cases hfed : e.toNode ∈ net.fed
        · exact Or.inl (h b hb ((hdown _ hreach).mpr hfed))
        · obtain ⟨f, hf, hc, rfl⟩ := hb
          exact Or.inr ⟨hfrom, hbelow hfrom hfed f hf hc hreach⟩

theorem feedsForward_open_iff (h : FeedsForward net) (he : e ∈ net.edges) :
    FeedsForward (net.setSwitch e.edgeId false) ↔
      ∀ f ∈ net.edges, f.edgeId ≠ e.edgeId → f.isClosed = true → f.fromNode ∈ net.fed →
        f.toNode ∈ (net.setSwitch e.edgeId false).fed →
        f.fromNode ∈ (net.setSwitch e.edgeId false).fed := by
  have hsub : closed (net.setSwitch e.edgeId false).edges ⊆ closed net.edges := by
    rw [closed_open he]
    exact Set.sdiff_subset
  have hfed := Network.fed_mono hsub (net.setSwitch_substations e.edgeId false)
  constructor
  · intro hafter f hf hid hc _ hto
    refine hafter f.branch ?_ hto
    rw [closed_open he]
    exact ⟨⟨f, hf, hc, rfl⟩, fun heq => hid (congrArg Branch.edgeId heq)⟩
  · intro hkeep b hb hto
    have hbefore := h b (hsub hb) (hfed hto)
    rw [closed_open he] at hb
    obtain ⟨⟨f, hf, hc, rfl⟩, hne⟩ := hb
    refine hkeep f hf (fun hid => hne ?_) hc hbefore hto
    rw [Set.mem_singleton_iff, net.edgeKey.eq hf he hid]

/-- The condition on a write is exact. -/
theorem energizedAgree_setSwitch_iff (h : EnergizedAgree net) (edgeId : String) (b : Bool) :
    EnergizedAgree (net.setSwitch edgeId b) ↔ KeepsDirection net edgeId b := by
  rw [energizedAgree_iff] at h ⊢
  by_cases hedge : ∃ e ∈ net.edges, e.edgeId = edgeId
  · obtain ⟨e, he, rfl⟩ := hedge
    have hone : KeepsDirection net e.edgeId b ↔ _ :=
      ⟨fun hk => hk e he rfl, fun hk f hf hid => (net.edgeKey.eq hf he hid) ▸ hk⟩
    rw [hone]
    cases b with
    | true => exact feedsForward_close_iff h he
    | false => exact feedsForward_open_iff h he
  · -- no edge of that id: nothing is written
    have hsame : setClosed edgeId b net.edges = net.edges :=
      setClosed_eq_self fun e he hid => absurd ⟨e, he, hid⟩ hedge
    have hnet : net.setSwitch edgeId b = net := Network.ext_tables rfl hsame
    rw [hnet]
    exact iff_of_true h fun e he hid => absurd ⟨e, he, hid⟩ hedge

/-- Opening a switch of a network that is radial outwards. -/
theorem keepsDirection_open (h : net.RadialOutwards) (edgeId : String) :
    KeepsDirection net edgeId false := by
  rw [← energizedAgree_setSwitch_iff h.energizedAgree]
  refine Network.RadialOutwards.energizedAgree (Multigraph.Rooted.mono ?_ h)
  rintro b ⟨e, he, hc, rfl⟩
  rcases mem_setClosed.mp he with ⟨he, -⟩ | ⟨f, -, -, rfl⟩
  · exact ⟨e, he, hc, rfl⟩
  · exact absurd hc Bool.false_ne_true

end Write

/-! ### Executions -/

/-- An execution of one of the two handlers, with what happens around it. -/
structure Execution where
  flisr : Bool
  action : ActionRecord
  choices : ℕ → GridChoice

namespace Execution

def prog (x : Execution) : GridProg ActionDoc :=
  if x.flisr then OcFlisr.execute x.action else OcSwitch.execute x.action

def run (x : Execution) (db : GridDb) : Except Exc ActionDoc × (GridDb × (ℕ → GridChoice)) :=
  gridRun x.prog db x.choices

/-- The execution returns, and a switch operation does not override its
interlocks. -/
def Succeeds (x : Execution) (db : GridDb) : Prop :=
  (∃ doc, (x.run db).1 = .ok doc) ∧ (x.flisr = false → x.action.params.override = false)

/-- The switch writes of an execution on these tables: the requested state of
the target, or the switching of the plan. -/
def writes (x : Execution) (db : GridDb) : List (String × Bool) :=
  if x.flisr then
    match Dms.planOn db (given x.action.params.faultNode <|> x.action.target)
        x.action.params.faultEdge with
    | .ok p => (OcFlisr.writes p).map Prod.snd
    | .error _ => []
  else
    match x.action.target, x.action.params.close with
    | some edgeId, some b => [(edgeId, b)]
    | _, _ => []

end Execution

/-- Some writes, one after the other. -/
def Network.writeAll (ws : List (String × Bool)) (net : Network) : Network :=
  ws.foldl (fun net w => net.setSwitch w.1 w.2) net

/-- Every write keeps the direction of feeding, each on the state before it. -/
def WritesKeepDirection (net : Network) : List (String × Bool) → Prop
  | [] => True
  | w :: ws => KeepsDirection net w.1 w.2 ∧ WritesKeepDirection (net.setSwitch w.1 w.2) ws

def WritesKeepDirection.decidable : (net : Network) → (ws : List (String × Bool)) →
    Decidable (WritesKeepDirection net ws)
  | _, [] => isTrue trivial
  | net, w :: ws =>
      have := WritesKeepDirection.decidable (net.setSwitch w.1 w.2) ws
      inferInstanceAs (Decidable (_ ∧ _))

instance (net : Network) (ws : List (String × Bool)) : Decidable (WritesKeepDirection net ws) :=
  WritesKeepDirection.decidable net ws

theorem energizedAgree_writeAll {net : Network} (h : EnergizedAgree net)
    {ws : List (String × Bool)} (hws : WritesKeepDirection net ws) :
    EnergizedAgree (net.writeAll ws) := by
  induction ws generalizing net with
  | nil => exact h
  | cons w ws ih => exact ih ((energizedAgree_setSwitch_iff h w.1 w.2).mpr hws.1) hws.2

/-- A successful execution leaves the network of its writes. -/
theorem Execution.network_run {x : Execution} {db : GridDb} (h : x.Succeeds db) :
    (x.run db).2.1.network = db.network.writeAll (x.writes db) := by
  obtain ⟨⟨doc, hok⟩, -⟩ := h
  unfold Execution.run Execution.prog at hok ⊢
  unfold Execution.writes
  cases hx : x.flisr with
  | true =>
      rw [hx] at hok
      simp only [if_true] at hok ⊢
      obtain ⟨p, hplan, hnet⟩ := OcFlisr.execute_returns hok
      rw [hnet, hplan]
      simp only [OcFlisr.written, Network.writeAll, List.foldl_map]
  | false =>
      rw [hx] at hok
      simp only [Bool.false_eq_true, if_false] at hok ⊢
      rcases OcSwitch.execute_run x.action db x.choices with
        ⟨-, ⟨e, he⟩, -⟩ | ⟨-, ⟨⟨e, he⟩, -⟩ | ⟨-, edgeId, b, htarget, hclose, -, hnet⟩⟩
      · cases he.symm.trans hok
      · cases he.symm.trans hok
      · rw [hnet, htarget, hclose]
        rfl

/-! ### Sequences of executions -/

/-- The tables after some executions. -/
def afterAll (db : GridDb) (xs : List Execution) : GridDb :=
  xs.foldl (fun db x => (x.run db).2.1) db

/-- Something holds of every execution on the tables it starts from. -/
def AlongExecutions (p : Execution → GridDb → Prop) (db : GridDb) : List Execution → Prop
  | [] => True
  | x :: xs => p x db ∧ AlongExecutions p (x.run db).2.1 xs

/-- **When the two notions of energised stay equal.** From a network that is
radial outwards, after any sequence of successful executions whose writes all
keep the direction of feeding. -/
theorem energizedAgree_along {db : GridDb} (hradial : db.network.RadialOutwards)
    {xs : List Execution} (hsucceeds : AlongExecutions Execution.Succeeds db xs)
    (hkeeps : AlongExecutions (fun x db => WritesKeepDirection db.network (x.writes db)) db xs) :
    EnergizedAgree (afterAll db xs).network := by
  have hstart := hradial.energizedAgree
  clear hradial
  induction xs generalizing db with
  | nil => exact hstart
  | cons x xs ih =>
      refine ih hsucceeds.2 hkeeps.2 ?_
      rw [Execution.network_run hsucceeds.1]
      exact energizedAgree_writeAll hstart hkeeps.1

/-- A fault at a node of the pilot network, executed without disturbance. -/
def faultAt (node : String) : Execution where
  flisr := true
  action := { OcFlisr.transformerFault pilot with target := some node }
  choices := fun _ => {}

/-- The fault at the bus is isolated, and then the other feeder is opened. -/
def busFaultThenOpen : List Execution :=
  [faultAt "BUS-01",
    { flisr := false
      action := { OcFlisr.transformerFault pilot with
        actionType := "switch_op", target := some "E-SW-02", params := { close := some false } }
      choices := fun _ => {} }]

theorem pilot_busFault_agrees :
    (AlongExecutions Execution.Succeeds { network := pilot } busFaultThenOpen) ∧
      EnergizedAgree (afterAll { network := pilot } busFaultThenOpen).network := by
  have hsucceeds : AlongExecutions Execution.Succeeds { network := pilot } busFaultThenOpen :=
    ⟨⟨⟨_, rfl⟩, fun h => nomatch h⟩, ⟨⟨_, rfl⟩, fun _ => rfl⟩, trivial⟩
  refine ⟨hsucceeds, energizedAgree_along pilot_radialOutwards hsucceeds ⟨?_, ?_, trivial⟩⟩
  · decide +kernel
  · decide +kernel

/-- The tie that restores the bus leads past the faulted transformer, which
only the undirected search finds energised again. -/
theorem pilot_transformerFault_disagrees :
    (faultAt "TX-01").Succeeds { network := pilot } ∧
      ¬ EnergizedAgree (afterAll { network := pilot } [faultAt "TX-01"]).network := by
  refine ⟨⟨⟨_, rfl⟩, fun h => nomatch h⟩, ?_⟩
  decide +kernel

end DiepLab
