import DiepLab.Dms.Isolation
import DiepLab.Library.FirstLeast

/-!
Whether the isolating switch separates the fault.

The planner opens one switch, the one above the fault with the smallest subtree,
and closes a tie only if the fault is not reached with it. So on any network the
fault is cut off from the substations by the plan exactly if every way to it
goes over that switch (`plan_separates_iff`).
-/

namespace DiepLab.Dms

open Multigraph

/-- The size of the subtree of a closed switchable edge above the fault. -/
def subtreeSize (edges : List GridEdge) (faultNode : String) (e : GridEdge) : Option ℕ :=
  if e.isSwitchable && e.isClosed && decide (faultNode ∈ reach edges [e.toNode]) then
    some (reach edges [e.toNode]).card
  else none

/-- The closed switchable edge above the fault with the smallest subtree, the first
one among equals. -/
def IsNearest (edges : List GridEdge) (faultNode : String) (e : GridEdge) : Prop :=
  ∃ size, FirstLeast (subtreeSize edges faultNode) edges e size

/-- Every way from a substation to the fault goes over the edge. -/
def Separates (net : Network) (faultNode : String) (e : GridEdge) : Prop :=
  ¬∃ r ∈ net.substations, grid.Reach (closed net.edges \ {e.branch}) r faultNode

/-- The nearest switch above the fault that the arguments name, if there is one,
separates it. -/
def SwitchSeparates (net : Network) (faultNodeArg faultEdgeArg : Option String) : Prop :=
  ∀ f, faultNodeOf net.nodes net.edges faultNodeArg faultEdgeArg = .ok f →
    ∀ e, IsNearest net.edges f e → Separates net f e

/-! ### The nearest switch -/

/-- The first of the least elements of a list that has been filtered. -/
theorem firstLeast_of_argmin {α : Type} {p : α → Bool} {size : α → ℕ} {l : List α} {a : α}
    (h : (l.filter p).argmin size = some a) :
    FirstLeast (fun b => if p b then some (size b) else none) l a (size a) := by
  induction l using List.reverseRecOn generalizing a with
  | nil => exact nomatch h
  | append_singleton l b ih =>
      rw [List.filter_append, List.filter_singleton] at h
      by_cases hb : p b
      · rw [hb, cond_true, List.argmin_concat] at h
        cases hmin : (l.filter p).argmin size with
        | none =>
            rw [hmin] at h
            obtain rfl : b = a := Option.some.inj h
            have hnil := List.argmin_eq_none.mp hmin
            refine FirstLeast.first (fun c hc => if_neg fun hpc => ?_) (if_pos hb)
            exact absurd (List.mem_filter.mpr ⟨hc, hpc⟩) (hnil ▸ List.not_mem_nil)
        | some c =>
            rw [hmin] at h
            dsimp only at h
            split at h
            · rename_i hlt
              obtain rfl : b = a := Option.some.inj h
              exact (ih hmin).replace (if_pos hb) hlt
            · rename_i hle
              obtain rfl : c = a := Option.some.inj h
              refine (ih hmin).keep fun k hk => ?_
              rw [if_pos hb] at hk
              exact Option.some.inj hk ▸ Nat.not_lt.mp hle
      · rw [Bool.not_eq_true] at hb
        rw [hb, cond_false, List.append_nil] at h
        refine (ih h).keep fun k hk => ?_
        rw [hb] at hk
        exact nomatch hk

theorem isNearest_of_isolatingSwitch {edges : List GridEdge} {faultNode : String} {iso : GridEdge}
    (h : isolatingSwitch edges faultNode = some iso) : IsNearest edges faultNode iso :=
  ⟨_, firstLeast_of_argmin h⟩

theorem isNearest_iff {edges : List GridEdge} {faultNode : String} {e : GridEdge} :
    IsNearest edges faultNode e ↔ isolatingSwitch edges faultNode = some e := by
  refine ⟨fun ⟨size, h⟩ => ?_, isNearest_of_isolatingSwitch⟩
  cases hiso : isolatingSwitch edges faultNode with
  | none =>
      have hkey := h.key_eq
      have hnone := List.argmin_eq_none.mp hiso
      unfold subtreeSize at hkey
      split at hkey
      · rename_i hp
        exact absurd (List.mem_filter.mpr ⟨h.mem, hp⟩) (hnone ▸ List.not_mem_nil)
      · exact nomatch hkey
  | some iso =>
      obtain ⟨size', h'⟩ := isNearest_of_isolatingSwitch hiso
      exact congrArg some (h'.unique h).1

/-! ### The restore loop and the fault -/

section Loop

variable {sources : List String} {faultNode : String} {lost : Finset String}

/-- The loop closes no tie with which the fault is reached. -/
theorem foldl_tryTie_safe (ties : List GridEdge) (r : Restoration)
    (h : faultNode ∉ reach r.edges sources) :
    faultNode ∉ reach (ties.foldl (tryTie sources faultNode lost) r).edges sources := by
  induction ties generalizing r with
  | nil => exact h
  | cons t ties ih =>
      rw [List.foldl_cons]
      refine ih _ ?_
      unfold tryTie
      split
      · rename_i hacc
        exact hacc.2.1
      · exact h

/-- More closed edges reach more. -/
theorem reach_mono {edges edges' : List GridEdge} (h : closed edges ⊆ closed edges') :
    reach edges sources ⊆ reach edges' sources := by
  intro x hx
  obtain ⟨r, hr, hrx⟩ := mem_reach.mp hx
  exact mem_reach.mpr ⟨r, hr, hrx.mono h⟩

/-- Closing an edge disconnects nothing. -/
theorem reach_subset_setClosed (edgeId : String) (edges : List GridEdge) :
    reach edges sources ⊆ reach (setClosed edgeId true edges) sources :=
  reach_mono fun _ hb => (mem_closed_setClosed_true ..).mpr (Or.inl hb)

/-- Where the fault is reached before the first tie, every tie is refused. -/
theorem foldl_tryTie_refused (ties : List GridEdge) (r : Restoration)
    (h : faultNode ∈ reach r.edges sources) :
    ties.foldl (tryTie sources faultNode lost) r = r := by
  induction ties with
  | nil => rfl
  | cons t ties ih =>
      have hrefused : ¬Accepts sources faultNode lost r.edges t :=
        fun hacc => hacc.2.1 (reach_subset_setClosed t.edgeId r.edges h)
      rw [List.foldl_cons, tryTie, if_neg hrefused]
      exact ih

theorem fault_restore_iff (edgesIso : List GridEdge) (steps : List String) :
    faultNode ∉ reach (restore sources faultNode lost edgesIso steps).edges sources ↔
      faultNode ∉ reach edgesIso sources := by
  constructor
  · intro h hfault
    rw [restore, foldl_tryTie_refused _ _ hfault] at h
    exact h hfault
  · exact foldl_tryTie_safe _ ⟨edgesIso, [], steps⟩

end Loop

/-! ### The plan -/

theorem fault_isolated_iff {net : Network} {faultNode : String} {iso : GridEdge}
    (hiso : isolatingSwitch net.edges faultNode = some iso) :
    faultNode ∉ reach (setClosed iso.edgeId false net.edges) net.substations ↔
      Separates net faultNode iso := by
  rw [Separates, mem_reach, closed_isolated hiso, opened]

theorem exists_switching {nodes : List GridNode} {edges : List GridEdge}
    {faultNodeArg faultEdgeArg : Option String} {f : String} {iso : GridEdge}
    (hf : faultNodeOf nodes edges faultNodeArg faultEdgeArg = .ok f)
    (hiso : isolatingSwitch edges f = some iso) :
    ∃ s, switching nodes edges faultNodeArg faultEdgeArg = .ok s := by
  rw [switching, hf]
  dsimp only
  rw [hiso]
  exact ⟨_, rfl⟩

/-- **The plan separates the fault exactly when the nearest switch does.** On every
network the planner raises or its plan leaves the fault unreached, if and only if
every way from a substation to the fault goes over the nearest switch above it. -/
theorem plan_separates_iff (db : GridDb) (faultNodeArg faultEdgeArg : Option String) :
    (∀ plan, ((planFlisr faultNodeArg faultEdgeArg).run quiet db).1 = .ok plan →
      plan.faultNode ∉ reach (plan.apply db.network.edges) db.network.substations) ↔
      SwitchSeparates db.network faultNodeArg faultEdgeArg := by
  rw [planFlisr_run]
  constructor
  · intro h f hf e he
    have hnearest := isNearest_iff.mp he
    obtain ⟨s, hs⟩ := exists_switching hf hnearest
    obtain ⟨hfault, hiso, steps, hrest⟩ := switching_ok hs
    obtain rfl := Except.ok.inj (hf.symm.trans hfault)
    obtain rfl := Option.some.inj (hnearest.symm.trans hiso)
    have hplan := h _ (by rw [planOn, hs])
    rw [apply_plan hs, hrest] at hplan
    exact (fault_isolated_iff hiso).mp ((fault_restore_iff _ _).mp hplan)
  · intro h plan hplan
    obtain ⟨s, hs, rfl⟩ := planOn_ok hplan
    obtain ⟨hfault, hiso, steps, hrest⟩ := switching_ok hs
    rw [apply_plan hs, hrest]
    exact (fault_restore_iff _ _).mpr
      ((fault_isolated_iff hiso).mpr (h _ hfault _ (isNearest_iff.mpr hiso)))

/-- A bus that is fed twice, once over a switch. -/
def twoFeeds : Network where
  nodes := [⟨"SUB-1", .substation⟩, ⟨"BUS-1", .bus⟩]
  edges := [
    { edgeId := "E-SW-1", fromNode := "SUB-1", toNode := "BUS-1", edgeType := .switch
      isSwitchable := true },
    { edgeId := "E-LINE-1", fromNode := "SUB-1", toNode := "BUS-1" }]
  nodeKey := by decide
  edgeKey := by decide
  fromNode_mem := by decide
  toNode_mem := by decide

/-- The switch is opened, and the fault is fed over the line. -/
theorem twoFeeds_not_separated :
    ∃ plan, ((planFlisr (some "BUS-1") none).run quiet { network := twoFeeds }).1 = .ok plan ∧
      plan.isolatedEdge = "E-SW-1" ∧
      plan.faultNode ∈ reach (plan.apply twoFeeds.edges) twoFeeds.substations := by
  refine ⟨_, rfl, ?_, ?_⟩
  · decide +kernel
  · decide +kernel

end DiepLab.Dms
