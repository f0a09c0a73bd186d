import DiepLab.Dms.Isolation

/-!
Whether a FLISR plan keeps the network a forest.

The restore loop closes a tie when something lost is energised in the trial
state; it asks neither whether the tie closes a cycle nor whether it adds
anything to what earlier ties restored. The first tie it closes is always
sound. From then on every further tie in the stored order has to fit: the
planner refuses it because it leads down to the fault (`Blocked`), or it
restores something new from a tree that no earlier tie draws on (`Useful`).

All of this is said about the isolated network, tie by tie. The ties that are
closed are then exactly the safe feeders (`feeders`), what is energised is what
was still fed together with what lies below them (`fed_closed_iff`), and
`loop_sound_iff` follows the loop: it stays sound as long as ties fit, and
the first one that does not fit is closed and breaks soundness for good.
-/

namespace DiepLab.Dms

open Multigraph

/-! ### Ties on the isolated network -/

section Condition

variable (net : Network) (faultNode : String) (iso : GridEdge)

/-- The edges with the isolating switch open. -/
def isolatedEdges : List GridEdge := setClosed iso.edgeId false net.edges

/-- What stays energised without the section of the fault. -/
def stillFed : Finset String := reach (isolatedEdges net iso) net.substations

/-- What a tie feeds into. -/
def below (t : GridEdge) : Finset String := reach (isolatedEdges net iso) [t.toNode]

/-- A tie from a node that is still fed to a lost one that does not lead
down to the fault. -/
def SafeFeeder (t : GridEdge) : Prop :=
  t.fromNode ∈ stillFed net iso ∧ t.toNode ∈ lostBy net.edges net.substations iso ∧
    faultNode ∉ below net iso t

instance (t : GridEdge) : Decidable (SafeFeeder net faultNode iso t) :=
  inferInstanceAs (Decidable (_ ∧ _ ∧ _))

def feeders (ties : List GridEdge) : List GridEdge :=
  ties.filter fun t => SafeFeeder net faultNode iso t

/-- Still fed, or below a feeder of `pre`. -/
def FedBehind (pre : List GridEdge) (x : String) : Prop :=
  x ∈ stillFed net iso ∨ ∃ s ∈ feeders net faultNode iso pre, x ∈ below net iso s

/-- Behind the feeders of `pre` the tie would energise the fault. -/
def Blocked (pre : List GridEdge) (t : GridEdge) : Prop :=
  faultNode ∈ below net iso t ∧ FedBehind net faultNode iso pre t.fromNode

/-- A safe feeder from a tree that no feeder of `pre` draws on, to something
that none of them feeds. -/
structure Useful (pre : List GridEdge) (t : GridEdge) : Prop where
  safe : SafeFeeder net faultNode iso t
  apart : ∀ s ∈ feeders net faultNode iso pre,
    ¬ grid.Conn (closed (isolatedEdges net iso)) t.fromNode s.fromNode
  gains : ∃ x ∈ lostBy net.edges net.substations iso, x ∈ below net iso t ∧
    ∀ s ∈ feeders net faultNode iso pre, x ∉ below net iso s

/-- A tie at the lost section that comes after a feeder is blocked or useful. -/
def Fits (pre : List GridEdge) (t : GridEdge) : Prop :=
  t.toNode ∈ lostBy net.edges net.substations iso ∨
      t.fromNode ∈ lostBy net.edges net.substations iso →
    feeders net faultNode iso pre ≠ [] →
      Blocked net faultNode iso pre t ∨ Useful net faultNode iso pre t

/-- Every tie fits behind the ties before it. -/
def FitsFrom (pre : List GridEdge) : List GridEdge → Prop
  | [] => True
  | t :: post => Fits net faultNode iso pre t ∧ FitsFrom (pre ++ [t]) post

variable {net faultNode iso}

instance (pre : List GridEdge) (x : String) : Decidable (FedBehind net faultNode iso pre x) :=
  inferInstanceAs (Decidable (_ ∨ _))

instance (pre : List GridEdge) (t : GridEdge) : Decidable (Blocked net faultNode iso pre t) :=
  inferInstanceAs (Decidable (_ ∧ _))

instance (pre : List GridEdge) (t : GridEdge) : Decidable (Useful net faultNode iso pre t) :=
  decidable_of_iff
    (SafeFeeder net faultNode iso t ∧
      (∀ s ∈ feeders net faultNode iso pre,
        ¬ grid.Conn (closed (isolatedEdges net iso)) t.fromNode s.fromNode) ∧
      ∃ x ∈ lostBy net.edges net.substations iso, x ∈ below net iso t ∧
        ∀ s ∈ feeders net faultNode iso pre, x ∉ below net iso s)
    ⟨fun h => ⟨h.1, h.2.1, h.2.2⟩, fun h => ⟨h.safe, h.apart, h.gains⟩⟩

instance (pre : List GridEdge) (t : GridEdge) : Decidable (Fits net faultNode iso pre t) :=
  inferInstanceAs (Decidable (_ → _ → _))

instance decidableFitsFrom : (pre post : List GridEdge) →
    Decidable (FitsFrom net faultNode iso pre post)
  | _, [] => isTrue trivial
  | pre, t :: post =>
      have := decidableFitsFrom (pre ++ [t]) post
      inferInstanceAs (Decidable (Fits net faultNode iso pre t ∧ _))

end Condition

/-- In the stored order every open tie fits, whichever switch is the nearest
one above the fault that the arguments name. -/
def TiesFit (net : Network) (faultNodeArg faultEdgeArg : Option String) : Prop :=
  ∀ f iso, faultNodeOf net.nodes net.edges faultNodeArg faultEdgeArg = .ok f →
    isolatingSwitch net.edges f = some iso →
      FitsFrom net f iso [] (openTies (isolatedEdges net iso))

/-! ### Soundness of a sequence of closed ties -/

/-- The next tie energises a node that was energised before the fault and
is still out. -/
def Gains (net : Network) (edgesIso : List GridEdge) (ids : List String) (eid : String) : Prop :=
  ∃ x ∈ reach net.edges net.substations,
    x ∉ reach (closeTies ids edgesIso) net.substations ∧
      x ∈ reach (closeTies (ids ++ [eid]) edgesIso) net.substations

/-- Closing the listed ties leaves a forest, and each of them gains a node
over the ones before it. -/
structure Sound (net : Network) (edgesIso : List GridEdge) (ids : List String) : Prop where
  forest : grid.Forest (closed (closeTies ids edgesIso))
  gains : ∀ pre eid post, ids = pre ++ eid :: post → Gains net edgesIso pre eid

theorem sound_append_iff {net : Network} {edgesIso : List GridEdge} {ids : List String}
    {eid : String} (h : Sound net edgesIso ids) :
    Sound net edgesIso (ids ++ [eid]) ↔
      grid.Forest (closed (closeTies (ids ++ [eid]) edgesIso)) ∧ Gains net edgesIso ids eid := by
  constructor
  · intro h'
    exact ⟨h'.forest, h'.gains ids eid [] rfl⟩
  · rintro ⟨hforest, hgains⟩
    refine ⟨hforest, fun pre e post heq => ?_⟩
    rcases split_append_singleton heq with ⟨post', hold, -⟩ | ⟨hpre, he, -⟩
    · exact h.gains pre e post' hold
    · exact hpre ▸ he ▸ hgains

/-- Soundness of a longer sequence contains soundness of a shorter one. -/
theorem Sound.of_extends {net : Network} {edgesIso : List GridEdge} {ids ids' : List String}
    (hpre : ids <+: ids') (h : Sound net edgesIso ids') : Sound net edgesIso ids := by
  obtain ⟨rest, rfl⟩ := hpre
  refine ⟨h.forest.mono fun b hb => ?_, fun pre e post heq => ?_⟩
  · rw [mem_closed_closeTies] at hb ⊢
    exact hb.imp_right fun hb => ⟨hb.1, List.mem_append_left rest hb.2⟩
  · refine h.gains pre e (post ++ rest) ?_
    rw [heq, List.append_assoc, List.cons_append]

/-! ### What is energised behind the feeders -/

/-- The branches of a list of ties. -/
def branches (ties : List GridEdge) : Set Branch := { b | ∃ t ∈ ties, t.branch = b }

variable {net : Network} {faultNode : String} {iso : GridEdge}

theorem mem_feeders {ties : List GridEdge} {s : GridEdge} :
    s ∈ feeders net faultNode iso ties ↔ s ∈ ties ∧ SafeFeeder net faultNode iso s := by
  rw [feeders, List.mem_filter, decide_eq_true_eq]

/-- The ties that the loop looks at are rows of the network. -/
theorem branch_mem_of_openTies {t : GridEdge} (ht : t ∈ openTies (isolatedEdges net iso)) :
    t.branch ∈ (isolatedEdges net iso).map GridEdge.branch :=
  List.mem_map_of_mem (List.mem_of_mem_filter ht)

/-- The state in which the loop looks at the tie after `pre`. -/
abbrev edgesAfter (net : Network) (faultNode : String) (iso : GridEdge)
    (pre : List GridEdge) : List GridEdge :=
  closeTies ((feeders net faultNode iso pre).map GridEdge.edgeId) (isolatedEdges net iso)

theorem feeders_open {pre : List GridEdge}
    (hpre : ∀ t ∈ pre, t ∈ openTies (isolatedEdges net iso)) :
    ∀ s ∈ feeders net faultNode iso pre, s ∈ openTies (isolatedEdges net iso) :=
  fun s hs => hpre s (mem_feeders.mp hs).1

theorem closed_trial (pre : List GridEdge) {t : GridEdge}
    (ht : t ∈ openTies (isolatedEdges net iso)) :
    closed (setClosed t.edgeId true (edgesAfter net faultNode iso pre)) =
      insert t.branch (closed (edgesAfter net faultNode iso pre)) := by
  have hbranches := map_branch_closeTies
    ((feeders net faultNode iso pre).map GridEdge.edgeId) (isolatedEdges net iso)
  have hkey : EdgeKey (isolatedEdges net iso) := net.edgeKey.setClosed
  refine closed_setClosed_true (hkey.of_branches hbranches) ?_
  rw [hbranches]
  exact branch_mem_of_openTies ht

section Isolating

variable (hiso : isolatingSwitch net.edges faultNode = some iso)
include hiso

theorem mem_stillFed {x : String} :
    x ∈ stillFed net iso ↔ grid.Fed { r | r ∈ net.substations } (opened net iso) x := by
  rw [stillFed, isolatedEdges, mem_reach, closed_isolated hiso]
  rfl

theorem mem_below {t : GridEdge} {x : String} :
    x ∈ below net iso t ↔ grid.Reach (opened net iso) t.toNode x := by
  rw [below, isolatedEdges, mem_reach_singleton, closed_isolated hiso]

theorem not_mem_stillFed_of_lost {x : String}
    (hx : x ∈ lostBy net.edges net.substations iso) : x ∉ stillFed net iso := by
  rw [mem_stillFed hiso]
  exact ((mem_lostBy hiso).mp hx).2

/-- A lost node hangs on the lower end of the switch. -/
theorem conn_toNode_of_lost {x : String} (hx : x ∈ lostBy net.edges net.substations iso) :
    grid.Conn (opened net iso) x iso.toNode :=
  (reach_of_mem_lostBy hiso hx).2.conn.symm

theorem not_conn_of_stillFed (hradial : net.Radial) {x y : String}
    (hx : x ∈ lostBy net.edges net.substations iso) (hy : y ∈ stillFed net iso) :
    ¬ grid.Conn (opened net iso) y iso.toNode :=
  not_conn_fed hiso hradial hx ((mem_stillFed hiso).mp hy)

/-- Nothing that is lost, and not the fault either, is still fed. -/
theorem fault_not_stillFed (hradial : net.Radial) {x : String}
    (hx : x ∈ lostBy net.edges net.substations iso) : faultNode ∉ stillFed net iso :=
  fun h => not_conn_of_stillFed hiso hradial hx h (reach_fault hiso).conn.symm

theorem closed_closeFeeders {ties : List GridEdge}
    (hties : ∀ t ∈ ties, t ∈ openTies (isolatedEdges net iso)) :
    closed (closeTies (ties.map GridEdge.edgeId) (isolatedEdges net iso)) =
      opened net iso ∪ branches ties := by
  ext b
  rw [mem_closed_closeTies, isolatedEdges, closed_isolated hiso, ← isolatedEdges, Set.mem_union]
  refine or_congr_right ⟨?_, ?_⟩
  · rintro ⟨hb, hid⟩
    obtain ⟨t, ht, htid⟩ := List.mem_map.mp hid
    refine ⟨t, ht, ?_⟩
    exact EdgeKey.branch_eq net.edgeKey.setClosed (branch_mem_of_openTies (hties t ht)) hb htid
  · rintro ⟨t, ht, rfl⟩
    exact ⟨branch_mem_of_openTies (hties t ht), List.mem_map_of_mem ht⟩

/-- An open tie is not among the branches that conduct without it. -/
theorem branch_not_mem {ties : List GridEdge}
    (hties : ∀ t ∈ ties, t ∈ openTies (isolatedEdges net iso)) {t : GridEdge}
    (ht : t ∈ openTies (isolatedEdges net iso)) (hnew : t ∉ ties) :
    t.branch ∉ opened net iso ∪ branches ties := by
  have hmem := List.mem_of_mem_filter ht
  have hkey : EdgeKey (isolatedEdges net iso) := net.edgeKey.setClosed
  rintro (hb | ⟨s, hs, hb⟩)
  · rw [← closed_isolated hiso, ← isolatedEdges, mem_closed_branch hkey hmem] at hb
    have hopen := (List.mem_filter.mp ht).2
    rw [hb] at hopen
    exact absurd hopen Bool.false_ne_true
  · have heq : s = t :=
      hkey.eq (List.mem_of_mem_filter (hties s hs)) hmem (congrArg Branch.edgeId hb)
    exact hnew (heq ▸ hs)

/-! ### One turn of the loop -/

section Turn

variable {pre : List GridEdge}

theorem feeders_fed : ∀ b ∈ branches (feeders net faultNode iso pre),
    grid.Fed { r | r ∈ net.substations } (opened net iso) (grid.src b) := by
  rintro - ⟨s, hs, rfl⟩
  exact (mem_stillFed hiso).mp (mem_feeders.mp hs).2.1

variable (hpre : ∀ t ∈ pre, t ∈ openTies (isolatedEdges net iso))
include hpre

theorem fed_edgesAfter_iff {x : String} :
    grid.Fed { r | r ∈ net.substations } (closed (edgesAfter net faultNode iso pre)) x ↔
      FedBehind net faultNode iso pre x := by
  rw [closed_closeFeeders hiso (feeders_open hpre),
    fed_union_iff (feeders_fed hiso), FedBehind, mem_stillFed hiso]
  refine or_congr_right ⟨?_, ?_⟩
  · rintro ⟨-, ⟨s, hs, rfl⟩, hx⟩
    exact ⟨s, hs, (mem_below hiso).mpr hx⟩
  · rintro ⟨s, hs, hx⟩
    exact ⟨s.branch, ⟨s, hs, rfl⟩, (mem_below hiso).mp hx⟩

theorem mem_reach_edgesAfter {x : String} :
    x ∈ reach (edgesAfter net faultNode iso pre) net.substations ↔
      FedBehind net faultNode iso pre x := by
  rw [mem_reach, ← fed_edgesAfter_iff hiso hpre]
  rfl

variable {t : GridEdge} (ht : t ∈ openTies (isolatedEdges net iso))
include ht

/-- Energised in the trial state: if the tie is fed, what lies below it too. -/
theorem mem_reach_trial {x : String} :
    x ∈ reach (setClosed t.edgeId true (edgesAfter net faultNode iso pre)) net.substations ↔
      FedBehind net faultNode iso pre x ∨
        (FedBehind net faultNode iso pre t.fromNode ∧ x ∈ below net iso t) := by
  rw [mem_reach, closed_trial pre ht, mem_below hiso, ← fed_edgesAfter_iff hiso hpre,
    ← fed_edgesAfter_iff hiso hpre]
  refine fed_insert_iff.trans ⟨?_, ?_⟩
  · rintro (h | ⟨hfrom, hto⟩)
    · exact Or.inl h
    · rw [closed_closeFeeders hiso (feeders_open hpre)] at hto ⊢
      exact (hto.fed_or_reach (feeders_fed hiso)).imp_right fun h =>
        ⟨closed_closeFeeders hiso (feeders_open hpre) ▸ hfrom, h⟩
  · refine Or.imp_right fun h => ⟨h.1, h.2.mono ?_⟩
    rw [closed_closeFeeders hiso (feeders_open hpre)]
    exact Set.subset_union_left

variable (hradial : net.Radial)
include hradial

omit hpre ht in
theorem fault_not_fedBehind {x : String} (hx : x ∈ lostBy net.edges net.substations iso) :
    ¬ FedBehind net faultNode iso pre faultNode := by
  rintro (h | ⟨s, hs, h⟩)
  · exact fault_not_stillFed hiso hradial hx h
  · exact (mem_feeders.mp hs).2.2.2 h

/-- In the trial state the fault is energised through the new tie or not at
all. -/
theorem fault_mem_trial_iff {x : String} (hx : x ∈ lostBy net.edges net.substations iso) :
    faultNode ∈ reach (setClosed t.edgeId true (edgesAfter net faultNode iso pre))
        net.substations ↔ Blocked net faultNode iso pre t := by
  rw [mem_reach_trial hiso hpre ht, or_iff_right (fault_not_fedBehind hiso hradial hx), and_comm]
  rfl

/-- Before any tie is closed the planner accepts the safe feeders. -/
theorem accepts_first (hnone : feeders net faultNode iso pre = []) :
    Accepts net.substations faultNode (lostBy net.edges net.substations iso)
        (edgesAfter net faultNode iso pre) t ↔ SafeFeeder net faultNode iso t := by
  have hbehind (x : String) : FedBehind net faultNode iso pre x ↔ x ∈ stillFed net iso := by
    rw [FedBehind, hnone]
    simp
  constructor
  · rintro ⟨hend, hfault, x, hx⟩
    obtain ⟨hxr, hxlost⟩ := Finset.mem_inter.mp hx
    rw [mem_reach_trial hiso hpre ht, hbehind, hbehind] at hxr
    obtain ⟨hfrom, -⟩ := hxr.resolve_left (not_mem_stillFed_of_lost hiso hxlost)
    have hto := hend.resolve_right fun h => not_mem_stillFed_of_lost hiso h hfrom
    refine ⟨hfrom, hto, fun hbelow => hfault ?_⟩
    rw [fault_mem_trial_iff hiso hpre ht hradial hxlost]
    exact ⟨hbelow, Or.inl hfrom⟩
  · rintro ⟨hfrom, hto, hsafe⟩
    refine ⟨Or.inl hto, fun hfault => ?_, t.toNode, Finset.mem_inter.mpr ⟨?_, hto⟩⟩
    · rw [fault_mem_trial_iff hiso hpre ht hradial hto] at hfault
      exact hsafe hfault.1
    · rw [mem_reach_trial hiso hpre ht, mem_below hiso]
      exact Or.inr ⟨Or.inl hfrom, .refl⟩

/-- Once a feeder is closed the planner accepts every tie at the lost section
that is not blocked. -/
theorem accepts_next (hsome : feeders net faultNode iso pre ≠ []) :
    Accepts net.substations faultNode (lostBy net.edges net.substations iso)
        (edgesAfter net faultNode iso pre) t ↔
      (t.toNode ∈ lostBy net.edges net.substations iso ∨
        t.fromNode ∈ lostBy net.edges net.substations iso) ∧
      ¬ Blocked net faultNode iso pre t := by
  obtain ⟨s, hs⟩ := List.exists_mem_of_ne_nil _ hsome
  obtain ⟨-, hto, -⟩ := (mem_feeders.mp hs).2
  have hfed : FedBehind net faultNode iso pre s.toNode :=
    Or.inr ⟨s, hs, (mem_below hiso).mpr .refl⟩
  rw [Accepts, fault_mem_trial_iff hiso hpre ht hradial hto]
  refine and_congr_right fun _ => and_iff_left ⟨s.toNode, Finset.mem_inter.mpr ⟨?_, hto⟩⟩
  exact (mem_reach_trial hiso hpre ht).mpr (Or.inl hfed)

omit ht hradial in
/-- In the forest after the feeders the lost section is connected to what its
feeders draw on, and to nothing else. -/
theorem conn_edgesAfter_iff {a : String} :
    grid.Conn (closed (edgesAfter net faultNode iso pre)) a iso.toNode ↔
      grid.Conn (opened net iso) a iso.toNode ∨
        ∃ s ∈ feeders net faultNode iso pre, grid.Conn (opened net iso) a s.fromNode := by
  rw [closed_closeFeeders hiso (feeders_open hpre), conn_union_hub_iff]
  · refine or_congr_right ⟨?_, ?_⟩
    · rintro ⟨-, ⟨s, hs, rfl⟩, h⟩
      exact ⟨s, hs, h⟩
    · rintro ⟨s, hs, h⟩
      exact ⟨s.branch, ⟨s, hs, rfl⟩, h⟩
  · rintro - ⟨s, hs, rfl⟩
    exact conn_toNode_of_lost hiso (mem_feeders.mp hs).2.2.1

omit hpre ht hradial in
theorem useful_apart_iff {s : GridEdge} :
    grid.Conn (closed (isolatedEdges net iso)) t.fromNode s.fromNode ↔
      grid.Conn (opened net iso) t.fromNode s.fromNode := by
  rw [isolatedEdges, closed_isolated hiso]

omit hradial in
theorem forest_trial_iff (hnew : t ∉ pre) :
    grid.Forest (closed (setClosed t.edgeId true (edgesAfter net faultNode iso pre))) ↔
      grid.Forest (closed (edgesAfter net faultNode iso pre)) ∧
        ¬ grid.Conn (closed (edgesAfter net faultNode iso pre)) t.fromNode t.toNode := by
  have hfresh : t.branch ∉ closed (edgesAfter net faultNode iso pre) := by
    rw [closed_closeFeeders hiso (feeders_open hpre)]
    exact branch_not_mem hiso (feeders_open hpre) ht fun hmem => hnew (mem_feeders.mp hmem).1
  rw [closed_trial pre ht, forest_insert_iff hfresh]
  rfl

/-- A useful tie keeps the forest and gains a node. -/
theorem sound_of_useful (hnew : t ∉ pre) (h : Useful net faultNode iso pre t)
    (hforest : grid.Forest (closed (edgesAfter net faultNode iso pre))) :
    grid.Forest (closed (setClosed t.edgeId true (edgesAfter net faultNode iso pre))) ∧
      ∃ x ∈ reach net.edges net.substations,
        x ∉ reach (edgesAfter net faultNode iso pre) net.substations ∧
          x ∈ reach (setClosed t.edgeId true (edgesAfter net faultNode iso pre))
            net.substations := by
  obtain ⟨hfrom, hto, -⟩ := h.safe
  constructor
  · refine (forest_trial_iff hiso hpre ht hnew).mpr ⟨hforest, fun hc => ?_⟩
    have hhub : grid.Conn (closed (edgesAfter net faultNode iso pre)) t.toNode iso.toNode :=
      (conn_edgesAfter_iff hiso hpre).mpr (Or.inl (conn_toNode_of_lost hiso hto))
    rcases (conn_edgesAfter_iff hiso hpre).mp (hc.trans hhub) with hdirect | ⟨s, hs, hsame⟩
    · exact not_conn_of_stillFed hiso hradial hto hfrom hdirect
    · exact h.apart s hs ((useful_apart_iff hiso).mpr hsame)
  · obtain ⟨x, hx, hbelow, hnone⟩ := h.gains
    refine ⟨x, mem_reach.mpr ((mem_lostBy hiso).mp hx).1, ?_, ?_⟩
    · rw [mem_reach_edgesAfter hiso hpre]
      rintro (hfed | ⟨s, hs, hxs⟩)
      · exact not_mem_stillFed_of_lost hiso hx hfed
      · exact hnone s hs hxs
    · exact (mem_reach_trial hiso hpre ht).mpr (Or.inr ⟨Or.inl hfrom, hbelow⟩)

omit hradial in
/-- A tie that the planner accepts, that keeps the forest and gains a node,
is useful. -/
theorem useful_of_sound (hend : t.toNode ∈ lostBy net.edges net.substations iso ∨
      t.fromNode ∈ lostBy net.edges net.substations iso)
    (hnew : t ∉ pre) (hblocked : ¬ Blocked net faultNode iso pre t)
    (hforest : grid.Forest
      (closed (setClosed t.edgeId true (edgesAfter net faultNode iso pre))))
    (hgains : ∃ x ∈ reach net.edges net.substations,
      x ∉ reach (edgesAfter net faultNode iso pre) net.substations ∧
        x ∈ reach (setClosed t.edgeId true (edgesAfter net faultNode iso pre))
          net.substations) :
    Useful net faultNode iso pre t := by
  obtain ⟨x, hbefore, hout, hin⟩ := hgains
  rw [mem_reach_edgesAfter hiso hpre] at hout
  obtain ⟨hfrom, hbelow⟩ := ((mem_reach_trial hiso hpre ht).mp hin).resolve_left hout
  have hx : x ∈ lostBy net.edges net.substations iso := by
    refine (mem_lostBy hiso).mpr ⟨mem_reach.mp hbefore, fun hfed => hout (Or.inl ?_)⟩
    exact (mem_stillFed hiso).mpr hfed
  have hto : grid.Conn (opened net iso) t.toNode iso.toNode :=
    ((mem_below hiso).mp hbelow).conn.trans (conn_toNode_of_lost hiso hx)
  -- the tie joins two trees, so its source is not on the section's side
  have hcycle : ¬ grid.Conn (closed (edgesAfter net faultNode iso pre))
      t.fromNode iso.toNode := by
    intro hc
    refine ((forest_trial_iff hiso hpre ht hnew).mp hforest).2 (hc.trans (Conn.symm ?_))
    exact (conn_edgesAfter_iff hiso hpre).mpr (Or.inl hto)
  rw [conn_edgesAfter_iff hiso hpre, not_or] at hcycle
  have hstill : t.fromNode ∈ stillFed net iso := by
    refine hfrom.resolve_right ?_
    rintro ⟨s, hs, hsfrom⟩
    refine hcycle.1 (((mem_below hiso).mp hsfrom).conn.symm.trans ?_)
    exact conn_toNode_of_lost hiso (mem_feeders.mp hs).2.2.1
  have hlost : t.toNode ∈ lostBy net.edges net.substations iso :=
    hend.resolve_right fun h => not_mem_stillFed_of_lost hiso h hstill
  refine ⟨⟨hstill, hlost, fun hfault => hblocked ⟨hfault, Or.inl hstill⟩⟩, ?_, ?_⟩
  · intro s hs hsame
    exact hcycle.2 ⟨s, hs, (useful_apart_iff hiso).mp hsame⟩
  · exact ⟨x, hx, hbelow, fun s hs hxs => hout (Or.inr ⟨s, hs, hxs⟩)⟩

/-- What can happen to a tie: it is closed and useful, it is refused, or it
is closed although it does not fit. -/
theorem turn_cases :
    (Accepts net.substations faultNode (lostBy net.edges net.substations iso)
        (edgesAfter net faultNode iso pre) t ∧ Useful net faultNode iso pre t) ∨
      (¬ Accepts net.substations faultNode (lostBy net.edges net.substations iso)
          (edgesAfter net faultNode iso pre) t ∧
        ¬ SafeFeeder net faultNode iso t ∧ Fits net faultNode iso pre t) ∨
      (Accepts net.substations faultNode (lostBy net.edges net.substations iso)
          (edgesAfter net faultNode iso pre) t ∧
        (t.toNode ∈ lostBy net.edges net.substations iso ∨
          t.fromNode ∈ lostBy net.edges net.substations iso) ∧
        ¬ Blocked net faultNode iso pre t ∧ ¬ Useful net faultNode iso pre t ∧
        ¬ Fits net faultNode iso pre t) := by
  by_cases hnone : feeders net faultNode iso pre = []
  · have hno (s : GridEdge) : s ∉ feeders net faultNode iso pre := by
      rw [hnone]
      exact List.not_mem_nil
    rw [accepts_first hiso hpre ht hradial hnone]
    by_cases hsafe : SafeFeeder net faultNode iso t
    · refine Or.inl ⟨hsafe, hsafe, fun s hs => absurd hs (hno s), ?_⟩
      exact ⟨t.toNode, hsafe.2.1, (mem_below hiso).mpr .refl, fun s hs => absurd hs (hno s)⟩
    · exact Or.inr (Or.inl ⟨hsafe, hsafe, fun _ hsome => absurd hnone hsome⟩)
  · rw [accepts_next hiso hpre ht hradial hnone]
    by_cases hend : t.toNode ∈ lostBy net.edges net.substations iso ∨
        t.fromNode ∈ lostBy net.edges net.substations iso
    · by_cases hblocked : Blocked net faultNode iso pre t
      · refine Or.inr (Or.inl ⟨fun h => h.2 hblocked, fun h => h.2.2 hblocked.1, ?_⟩)
        exact fun _ _ => Or.inl hblocked
      · by_cases huseful : Useful net faultNode iso pre t
        · exact Or.inl ⟨⟨hend, hblocked⟩, huseful⟩
        · refine Or.inr (Or.inr ⟨⟨hend, hblocked⟩, hend, hblocked, huseful, fun hfits => ?_⟩)
          exact (hfits hend hnone).elim hblocked huseful
    · refine Or.inr (Or.inl ⟨fun h => hend h.1, fun h => hend (Or.inl h.2.1), ?_⟩)
      exact fun h => absurd h hend

end Turn

/-! ### The whole loop -/

omit hiso in
theorem feeders_append_of_safe {pre : List GridEdge} {t : GridEdge}
    (h : SafeFeeder net faultNode iso t) :
    feeders net faultNode iso (pre ++ [t]) = feeders net faultNode iso pre ++ [t] := by
  rw [feeders, List.filter_append, List.filter_singleton, decide_eq_true h]
  rfl

omit hiso in
theorem feeders_append_of_not_safe {pre : List GridEdge} {t : GridEdge}
    (h : ¬ SafeFeeder net faultNode iso t) :
    feeders net faultNode iso (pre ++ [t]) = feeders net faultNode iso pre := by
  rw [feeders, List.filter_append, List.filter_singleton, decide_eq_false h]
  exact List.append_nil _

omit hiso in
theorem edgesAfter_append_of_safe {pre : List GridEdge} {t : GridEdge}
    (h : SafeFeeder net faultNode iso t) :
    edgesAfter net faultNode iso (pre ++ [t]) =
      setClosed t.edgeId true (edgesAfter net faultNode iso pre) := by
  unfold edgesAfter
  rw [feeders_append_of_safe h, List.map_append]
  exact closeTies_append _ _ _

omit hiso in
theorem openTies_nodup : (openTies (isolatedEdges net iso)).Nodup := by
  have hkey : EdgeKey (isolatedEdges net iso) := net.edgeKey.setClosed
  exact (List.Nodup.of_map _ hkey).filter _

/-- The loop behind `pre` ends soundly exactly when the remaining ties fit. -/
theorem loop_sound_iff (hradial : net.Radial) (post pre : List GridEdge)
    (hties : pre ++ post = openTies (isolatedEdges net iso)) (r : Restoration)
    (hrestored : r.restored = (feeders net faultNode iso pre).map GridEdge.edgeId)
    (hedges : r.edges = edgesAfter net faultNode iso pre)
    (hsound : Sound net (isolatedEdges net iso) r.restored) :
    Sound net (isolatedEdges net iso)
        (post.foldl (tryTie net.substations faultNode
          (lostBy net.edges net.substations iso)) r).restored ↔
      FitsFrom net faultNode iso pre post := by
  induction post generalizing pre r with
  | nil => exact iff_of_true hsound trivial
  | cons t post ih =>
      have hpre : ∀ s ∈ pre, s ∈ openTies (isolatedEdges net iso) := fun s hs => by
        rw [← hties]
        exact List.mem_append_left _ hs
      have ht : t ∈ openTies (isolatedEdges net iso) := by
        rw [← hties]
        exact List.mem_append_right _ List.mem_cons_self
      have hnew : t ∉ pre := by
        have hnodup : (openTies (isolatedEdges net iso)).Nodup := openTies_nodup
        rw [← hties] at hnodup
        exact fun hmem =>
          (List.disjoint_of_nodup_append hnodup) hmem List.mem_cons_self
      have hties' : (pre ++ [t]) ++ post = openTies (isolatedEdges net iso) := by
        rw [← hties, List.append_assoc]
        rfl
      have hforest : grid.Forest (closed (edgesAfter net faultNode iso pre)) := by
        have := hsound.forest
        rwa [hrestored] at this
      -- what soundness of one more tie says in the present state
      have hmore : Sound net (isolatedEdges net iso) (r.restored ++ [t.edgeId]) ↔
          grid.Forest (closed (setClosed t.edgeId true (edgesAfter net faultNode iso pre))) ∧
            ∃ x ∈ reach net.edges net.substations,
              x ∉ reach (edgesAfter net faultNode iso pre) net.substations ∧
                x ∈ reach (setClosed t.edgeId true (edgesAfter net faultNode iso pre))
                  net.substations := by
        rw [sound_append_iff hsound, Gains, closeTies_append, hrestored]
      rw [List.foldl_cons, FitsFrom, tryTie, hedges]
      obtain ⟨hacc, huseful⟩ | ⟨hrefused, hunsafe, hfits⟩ |
        ⟨hacc, hend, hblocked, hnot, hunfit⟩ := turn_cases hiso hpre ht hradial
      · have hfits : Fits net faultNode iso pre t := fun _ _ => Or.inr huseful
        rw [if_pos hacc, and_iff_right hfits]
        refine ih (pre ++ [t]) hties' _ ?_ ?_ ?_
        · rw [feeders_append_of_safe huseful.safe, List.map_append, ← hrestored]
          rfl
        · rw [edgesAfter_append_of_safe huseful.safe, ← hedges]
          rfl
        · exact hmore.mpr (sound_of_useful hiso hpre ht hradial hnew huseful hforest)
      · rw [if_neg hrefused, and_iff_right hfits]
        refine ih (pre ++ [t]) hties' r ?_ ?_ hsound
        · rw [feeders_append_of_not_safe hunsafe, hrestored]
        · unfold edgesAfter
          rw [feeders_append_of_not_safe hunsafe, hedges]
      · rw [if_pos hacc]
        refine iff_of_false (fun hfinal => hnot ?_) fun h => hunfit h.1
        obtain ⟨hforest', hgains⟩ :=
          hmore.mp (hfinal.of_extends (foldl_tryTie_extends _ _ _ post (r.close t)))
        exact useful_of_sound hiso hpre ht hend hnew hblocked hforest' hgains

end Isolating

/-! ### The plan -/

/-- The plan leaves a forest, and every tie in it gained a node over the ties
before it. -/
def FlisrPlan.RestoresSoundly (plan : FlisrPlan) (net : Network) : Prop :=
  grid.Forest (closed (plan.apply net.edges)) ∧
    ∀ pre eid post, plan.restoredEdges = pre ++ eid :: post →
      ∃ x ∈ reach net.edges net.substations,
        x ∉ reach (closeTies pre (setClosed plan.isolatedEdge false net.edges))
          net.substations ∧
        x ∈ reach (closeTies (pre ++ [eid]) (setClosed plan.isolatedEdge false net.edges))
          net.substations

/-- **The plan restores soundly exactly when the open ties fit.** -/
theorem plan_restores_soundly_iff (db : GridDb) (faultNodeArg faultEdgeArg : Option String)
    (plan : FlisrPlan) (hradial : db.network.Radial)
    (hplan : ((planFlisr faultNodeArg faultEdgeArg).run quiet db).1 = .ok plan) :
    plan.RestoresSoundly db.network ↔ TiesFit db.network faultNodeArg faultEdgeArg := by
  rw [planFlisr_run] at hplan
  obtain ⟨s, hs, rfl⟩ := planOn_ok hplan
  obtain ⟨hfault, hiso, steps, hrest⟩ := switching_ok hs
  have hcondition : TiesFit db.network faultNodeArg faultEdgeArg ↔
      FitsFrom db.network s.faultNode s.isolated []
        (openTies (isolatedEdges db.network s.isolated)) := by
    refine ⟨fun h => h _ _ hfault hiso, fun h f iso hf hi => ?_⟩
    rw [hfault] at hf
    injection hf with hf
    subst hf
    rw [hiso] at hi
    injection hi with hi
    exact hi ▸ h
  have hstart : Sound db.network (isolatedEdges db.network s.isolated) [] := by
    refine ⟨?_, fun pre eid post heq => absurd heq (by simp)⟩
    rw [closeTies, List.foldl_nil, isolatedEdges, closed_isolated hiso]
    exact hradial.forest.mono opened_subset
  have hloop := loop_sound_iff hiso hradial (openTies (isolatedEdges db.network s.isolated)) []
    rfl ⟨isolatedEdges db.network s.isolated, [], steps⟩ rfl rfl hstart
  rw [hcondition, ← hloop]
  have hrestored : s.restoration.restored =
      ((openTies (isolatedEdges db.network s.isolated)).foldl
        (tryTie db.network.substations s.faultNode
          (lostBy db.network.edges db.network.substations s.isolated))
        ⟨isolatedEdges db.network s.isolated, [], steps⟩).restored :=
    congrArg Restoration.restored hrest
  rw [← hrestored]
  exact ⟨fun h => ⟨h.1, h.2⟩, fun h => ⟨h.forest, h.gains⟩⟩

theorem pilot_tiesFit : TiesFit pilot (some "TX-01") none := by
  have hnamed : faultNodeOf pilot.nodes pilot.edges (some "TX-01") none = .ok "TX-01" := rfl
  have hnearest : (isolatingSwitch pilot.edges "TX-01").all (fun iso =>
      FitsFrom pilot "TX-01" iso [] (openTies (isolatedEdges pilot iso))) = true := by
    decide +kernel
  intro f iso hf hi
  rw [hnamed] at hf
  injection hf with hf
  subst hf
  rw [hi] at hnearest
  exact of_decide_eq_true hnearest

/-- The single tie of the pilot network fits. -/
theorem pilot_restores_soundly :
    ∃ plan, ((planFlisr (some "TX-01") none).run quiet { network := pilot }).1 = .ok plan ∧
      plan.RestoresSoundly pilot := by
  refine ⟨_, rfl, ?_⟩
  exact (plan_restores_soundly_iff { network := pilot } (some "TX-01") none _
    pilot_radialOutwards.radial rfl).mpr pilot_tiesFit

/-- After `E-TIE-01` has restored everything that can be restored the planner
closes `E-TIE-02` too: a loop, and nothing gained. -/
theorem pilotTwoTies_not_restored_soundly :
    pilotTwoTies.Radial ∧
      ∃ plan, ((planFlisr (some "TX-01") none).run quiet { network := pilotTwoTies }).1 =
          .ok plan ∧
        plan.restoredEdges = ["E-TIE-01", "E-TIE-02"] ∧
        ¬ grid.Forest (closed (plan.apply pilotTwoTies.edges)) ∧
        reach (closeTies ["E-TIE-01", "E-TIE-02"]
            (setClosed plan.isolatedEdge false pilotTwoTies.edges)) pilotTwoTies.substations =
          reach (closeTies ["E-TIE-01"]
            (setClosed plan.isolatedEdge false pilotTwoTies.edges)) pilotTwoTies.substations := by
  refine ⟨by decide +kernel, _, rfl, ?_, ?_, ?_⟩
  · decide +kernel
  · decide +kernel
  · decide +kernel

end DiepLab.Dms
