import DiepLab.Dms.Flisr
import DiepLab.Grid.Radial

/-!
What opening the isolating switch does to a radial network.

Below the opened switch lies the section that goes out. Every node that is
lost is fed from the lower end of the switch (`reach_of_mem_lostBy`), and so is
the fault (`reach_fault`). On a radial network no substation is connected
to that section any more, in either direction (`not_conn_toNode`).
-/

namespace DiepLab.Dms

open Multigraph

variable {net : Network} {faultNode : String} {iso : GridEdge}

/-- The branches that conduct once `iso` is open. -/
def opened (net : Network) (iso : GridEdge) : Set Branch := closed net.edges \ {iso.branch}

theorem opened_subset : opened net iso ⊆ closed net.edges := Set.sdiff_subset

section Isolating

variable (hiso : isolatingSwitch net.edges faultNode = some iso)
include hiso

theorem iso_mem : iso ∈ net.edges := (mem_candidates.mp (isolatingSwitch_spec hiso).1).1

theorem iso_mem_closed : iso.branch ∈ closed net.edges := by
  obtain ⟨hmem, -, hclosed, -⟩ := mem_candidates.mp (isolatingSwitch_spec hiso).1
  exact ⟨iso, hmem, hclosed, rfl⟩

theorem closed_isolated :
    closed (setClosed iso.edgeId false net.edges) = opened net iso :=
  closed_setClosed_false net.edgeKey (List.mem_map_of_mem (iso_mem hiso))

theorem reach_fault : grid.Reach (opened net iso) iso.toNode faultNode := by
  obtain ⟨-, -, -, hreach⟩ := mem_candidates.mp (isolatingSwitch_spec hiso).1
  exact Reach.of_tgt (iso_mem_closed hiso) hreach

theorem mem_lostBy {sources : List String} {x : String} :
    x ∈ lostBy net.edges sources iso ↔
      (∃ r ∈ sources, grid.Reach (closed net.edges) r x) ∧
        ¬ ∃ r ∈ sources, grid.Reach (opened net iso) r x := by
  rw [lostBy, Finset.mem_sdiff, mem_reach, mem_reach, closed_isolated hiso]

/-- A lost node was fed through the switch, which some substation still
reaches. -/
theorem reach_of_mem_lostBy {sources : List String} {x : String}
    (hx : x ∈ lostBy net.edges sources iso) :
    (∃ r ∈ sources, grid.Reach (opened net iso) r iso.fromNode) ∧
      grid.Reach (opened net iso) iso.toNode x := by
  obtain ⟨⟨r, hr, hrx⟩, hnot⟩ := (mem_lostBy hiso).mp hx
  rw [← insert_diff_self (iso_mem_closed hiso), reach_insert_iff] at hrx
  rcases hrx with hrx | ⟨hfrom, hto⟩
  · exact absurd ⟨r, hr, hrx⟩ hnot
  · exact ⟨⟨r, hr, hfrom⟩, hto⟩

theorem not_conn_ends (hforest : grid.Forest (closed net.edges)) :
    ¬ grid.Conn (opened net iso) iso.fromNode iso.toNode :=
  hforest iso.branch (iso_mem_closed hiso)

/-- Once anything is lost, the section below the switch is cut off from
every substation. -/
theorem not_conn_toNode (hradial : net.Radial) {x r : String}
    (hx : x ∈ lostBy net.edges net.substations iso) (hr : r ∈ net.substations) :
    ¬ grid.Conn (opened net iso) r iso.toNode := by
  intro hc
  obtain ⟨⟨r', hr', hfrom⟩, -⟩ := reach_of_mem_lostBy hiso hx
  have hjoin : grid.Conn (closed net.edges) r r' :=
    (hc.mono opened_subset).trans
      ((conn_of_mem (iso_mem_closed hiso)).symm.trans (hfrom.conn.symm.mono opened_subset))
  have heq : r = r' := hradial.source_unique r hr r' hr' hjoin
  subst heq
  exact not_conn_ends hiso hradial.forest (hfrom.conn.symm.trans hc)

/-- Nothing that is still energised is connected to the lost section. -/
theorem not_conn_fed (hradial : net.Radial) {x y : String}
    (hx : x ∈ lostBy net.edges net.substations iso)
    (hy : ∃ r ∈ net.substations, grid.Reach (opened net iso) r y) :
    ¬ grid.Conn (opened net iso) y iso.toNode := by
  obtain ⟨r, hr, hry⟩ := hy
  exact fun hc => not_conn_toNode hiso hradial hx hr (hry.conn.trans hc)

end Isolating

end DiepLab.Dms
