import DiepLab.Grid.Energization

/-!
Radial networks.

A switch state is radial when its closed branches form a forest in which no
tree holds two substations. `Network.Radial` asks for that only;
`Network.RadialOutwards` asks in addition that every stored direction points
away from the substation, as the seeded network has it.

Both are decided by the undirected search: an edge is a bridge when its ends
are no longer connected after it has been opened.
-/

namespace DiepLab

/-- The closed edges form a forest with one substation per tree. -/
structure Network.Radial (net : Network) : Prop where
  forest : grid.Forest (closed net.edges)
  source_unique : ∀ r ∈ net.substations, ∀ r' ∈ net.substations,
    grid.Conn (closed net.edges) r r' → r = r'

/-- A radial network in which every edge is stored away from its source. -/
def Network.RadialOutwards (net : Network) : Prop :=
  grid.Rooted { s | s ∈ net.substations } (closed net.edges)

/-! ### Deciding -/

/-- The undirected search started at a single node decides connection. -/
theorem conn_iff_mem_energized {edges : List GridEdge} {a b : String} :
    grid.Conn (closed edges) a b ↔ b ∈ Contingency.energized [⟨a, .substation⟩] edges := by
  rw [Contingency.mem_energized]
  simp [Contingency.sources]

instance (edges : List GridEdge) (a b : String) : Decidable (grid.Conn (closed edges) a b) :=
  decidable_of_iff _ conn_iff_mem_energized.symm

theorem forall_mem_closed {edges : List GridEdge} {p : Branch → Prop} :
    (∀ b ∈ closed edges, p b) ↔ ∀ e ∈ edges, e.isClosed = true → p e.branch := by
  constructor
  · exact fun h e he hc => h e.branch ⟨e, he, hc, rfl⟩
  · rintro h - ⟨e, he, hc, rfl⟩
    exact h e he hc

/-- The rows of all other branches. -/
def without (b : Branch) (edges : List GridEdge) : List GridEdge :=
  edges.filter fun e => e.branch ≠ b

theorem closed_without (b : Branch) (edges : List GridEdge) :
    closed (without b edges) = closed edges \ {b} := by
  ext c
  constructor
  · rintro ⟨e, he, hc, rfl⟩
    obtain ⟨he, hne⟩ := List.mem_filter.mp he
    exact ⟨⟨e, he, hc, rfl⟩, of_decide_eq_true hne⟩
  · rintro ⟨⟨e, he, hc, rfl⟩, hne⟩
    exact ⟨e, List.mem_filter.mpr ⟨he, decide_eq_true hne⟩, hc, rfl⟩

theorem forest_iff {edges : List GridEdge} :
    grid.Forest (closed edges) ↔ ∀ e ∈ edges, e.isClosed = true →
      ¬ grid.Conn (closed (without e.branch edges)) e.fromNode e.toNode := by
  unfold Multigraph.Forest
  simp only [forall_mem_closed, closed_without, grid_src, grid_tgt]

instance (edges : List GridEdge) : Decidable (grid.Forest (closed edges)) :=
  decidable_of_iff _ forest_iff.symm

instance (net : Network) : Decidable net.Radial :=
  decidable_of_iff
    (grid.Forest (closed net.edges) ∧ ∀ r ∈ net.substations, ∀ r' ∈ net.substations,
      grid.Conn (closed net.edges) r r' → r = r')
    ⟨fun h => ⟨h.1, h.2⟩, fun h => ⟨h.forest, h.source_unique⟩⟩

theorem Network.RadialOutwards.radial {net : Network} (h : net.RadialOutwards) : net.Radial :=
  ⟨h.forest, h.root_unique⟩

theorem Network.radialOutwards_iff (net : Network) :
    net.RadialOutwards ↔ net.Radial ∧ ∀ r ∈ net.substations, ∀ e ∈ net.edges,
      e.isClosed = true → grid.Conn (closed net.edges) r e.fromNode →
        grid.Conn (closed (without e.branch net.edges)) r e.fromNode := by
  constructor
  · intro h
    refine ⟨h.radial, fun r hr e he hc hconn => ?_⟩
    rw [closed_without]
    exact h.away r hr e.branch ⟨e, he, hc, rfl⟩ hconn
  · rintro ⟨hradial, haway⟩
    refine ⟨hradial.forest, hradial.source_unique, fun r hr => ?_⟩
    rw [forall_mem_closed]
    intro e he hc hconn
    have hwithout := haway r hr e he hc hconn
    rwa [closed_without] at hwithout

instance (net : Network) : Decidable net.RadialOutwards :=
  decidable_of_iff _ net.radialOutwards_iff.symm

/-! ### The seeded network -/

/-- The seeded pilot network with one meter and the microgrid breaker; the
other feeders of `BUS-01` are left out. -/
def pilot : Network where
  nodes := [⟨"SUB-ABUJA", .substation⟩, ⟨"FDR-01", .feeder⟩, ⟨"TX-01", .transformer⟩,
    ⟨"BUS-01", .bus⟩, ⟨"ND-METER001", .meter⟩, ⟨"TX-02", .transformer⟩, ⟨"ND-MGD900", .der⟩]
  edges := [
    { edgeId := "E-SUB-FDR", fromNode := "SUB-ABUJA", toNode := "FDR-01" },
    { edgeId := "E-SW-01", fromNode := "FDR-01", toNode := "TX-01", edgeType := .switch
      isSwitchable := true },
    { edgeId := "E-TX-BUS", fromNode := "TX-01", toNode := "BUS-01", edgeType := .transformer },
    { edgeId := "E-BUS-METER", fromNode := "BUS-01", toNode := "ND-METER001" },
    { edgeId := "E-SW-02", fromNode := "FDR-01", toNode := "TX-02", edgeType := .switch
      isSwitchable := true },
    { edgeId := "E-TIE-01", fromNode := "TX-02", toNode := "BUS-01", edgeType := .tie
      isSwitchable := true, normallyClosed := false, isClosed := false },
    { edgeId := "E-MGD900-CB", fromNode := "BUS-01", toNode := "ND-MGD900", edgeType := .switch
      isSwitchable := true
      attrs := ⟨some "MGD900", some "island", some "grid_connect", some "islanding_breaker"⟩ }]
  nodeKey := by decide
  edgeKey := by decide
  fromNode_mem := by decide
  toNode_mem := by decide

theorem pilot_radialOutwards : pilot.RadialOutwards := by decide +kernel

/-- The pilot network with a second tie, from the feeder to the meter. -/
def pilotTwoTies : Network where
  nodes := pilot.nodes
  edges := pilot.edges ++ [
    { edgeId := "E-TIE-02", fromNode := "FDR-01", toNode := "ND-METER001", edgeType := .tie
      isSwitchable := true, normallyClosed := false, isClosed := false }]
  nodeKey := pilot.nodeKey
  edgeKey := by decide
  fromNode_mem := by decide
  toNode_mem := by decide

end DiepLab
