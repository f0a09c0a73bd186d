import DiepLab.Dms.Sweep
import DiepLab.Library.Subtrees

/-!
Kirchhoff's current law in the power flow.

The current of a branch is a sum over all nodes behind it, cut down to the phases of the
branch. It is what flows in and out of the nodes exactly if nothing is cut away: where a branch
does not carry a phase, the load currents on that phase behind the branch sum to nothing
(`kirchhoff_iff_nothingCut`). That is so for all loads on some points of the grid exactly if
each of these points has its phase on every branch of its way (`kirchhoff_iff`).
-/

namespace DiepLab.Sweep

open SpanningTree StateEstimation

/-- The branches that leave a node. -/
def leaving (t : RadialTree) (n : String) : List GridEdge :=
  (t.parentEdge.filter fun ce => otherEnd ce.2 ce.1 = n).map Prod.snd

section Law

variable {K R : Type} [Field K]

/-- What flows into a node flows out of it, and the source feeds all loads. -/
structure Kirchhoff (t : RadialTree) (it : Iteration K R) : Prop where
  balance : ∀ n ∈ t.energized, n ≠ t.root → ∃ e, t.parentEdge.get? n = some e ∧
    ∀ p, current it.J e.edgeId p =
      it.iLoad n p + ((leaving t n).map fun e' => current it.J e'.edgeId p).sum
  source : ∀ p, ((leaving t t.root).map fun e => current it.J e.edgeId p).sum =
    ∑ n ∈ t.energized.erase t.root, it.iLoad n p

/-- Where a branch does not carry a phase, the load currents behind it sum to nothing. -/
def NothingCut (phasing : Phasing) (t : RadialTree) (iLoad : String → Phase → K) : Prop :=
  ∀ n e below, t.parentEdge.get? n = some e → t.subtree.get? e.edgeId = some below →
    ∀ p ∉ carries phasing e.edgeId n, ∑ k ∈ below, iLoad k p = 0

/-- Every branch that `k` is behind carries the phase. -/
def CarriedTo (phasing : Phasing) (t : RadialTree) (k : String) (p : Phase) : Prop :=
  ∀ n e below, t.parentEdge.get? n = some e → t.subtree.get? e.edgeId = some below →
    k ∈ below → p ∈ carries phasing e.edgeId n

end Law

section Tree

variable {net : Network} {t : RadialTree} {found : List (Found String GridEdge)}
  (h : Represents net t found)
include h

theorem leaving_eq (n : String) : leaving t n = (foundFrom found n).map Found.edge := by
  rw [leaving, h.parentEdge, List.filter_map, List.map_map, foundFrom]
  refine congrArg (List.map _) (List.filter_congr fun f hf => ?_)
  simp only [Function.comp_apply, otherEnd_found h hf]

theorem energized_eq : t.energized = behind t.order found t.root := by
  ext x
  rw [h.tree.behind_root, h.energized, List.mem_toFinset]

/-- What holds of the branches of the tree holds of those that the dictionaries name. -/
theorem forall_branch_iff {P : String → GridEdge → Finset String → Prop} :
    (∀ n e below, t.parentEdge.get? n = some e → t.subtree.get? e.edgeId = some below →
        P n e below) ↔
      ∀ f ∈ found, P f.node f.edge (behind t.order found f.node) := by
  constructor
  · intro hall f hf
    obtain ⟨below, hbelow, hmem⟩ := h.subtree f hf
    rw [← h.tree.eq_behind (h.tree.node_mem hf) hmem]
    exact hall f.node f.edge below (h.parentEdge_get? hf) hbelow
  · intro hall n e below hedge hbelow
    obtain ⟨f, hf, rfl, rfl⟩ := h.exists_of_parentEdge hedge
    obtain ⟨below', hbelow', hmem⟩ := h.subtree f hf
    obtain rfl := Option.some.inj (hbelow.symm.trans hbelow')
    rw [h.tree.eq_behind (h.tree.node_mem hf) hmem]
    exact hall f hf

variable {K R : Type} [Field K] {study : Study K R}

theorem current_found {iLoad : String → Phase → K} {J : Dict (Phasors K)}
    (hJ : Summed study found iLoad J) {f : Found String GridEdge} (hf : f ∈ found) (p : Phase) :
    current J f.edge.edgeId p = if p ∈ carriedBy study.phasing f then
      ∑ k ∈ behind t.order found f.node, iLoad k p else 0 := by
  obtain ⟨below, hmem, hcurrent⟩ := hJ.J f hf
  rw [current, hcurrent, ← h.tree.eq_behind (h.tree.node_mem hf) hmem, Option.bind_some]
  by_cases hp : p ∈ carriedBy study.phasing f
  · simp [hp]
  · simp [hp]

variable {it : Iteration K R}

/-- Kirchhoff's law makes every current the sum of all load currents behind the branch. -/
theorem current_of_kirchhoff (hlaw : Kirchhoff t it) {f : Found String GridEdge}
    (hf : f ∈ found) (p : Phase) :
    current it.J f.edge.edgeId p = ∑ k ∈ behind t.order found f.node, it.iLoad k p := by
  have hall : ∀ n ∈ t.order, ∀ f ∈ found, f.node = n →
      current it.J f.edge.edgeId p = ∑ k ∈ behind t.order found f.node, it.iLoad k p := by
    refine h.tree.children_induction fun n hn ih => ?_
    rintro f hf rfl
    obtain ⟨e, hedge, hbalance⟩ := hlaw.balance f.node ((h.energized _).mpr hn)
      (h.tree.node_ne_root hf)
    obtain rfl := Option.some.inj ((h.parentEdge_get? hf).symm.trans hedge)
    rw [hbalance p, h.tree.sum_behind _ hn, leaving_eq h, List.map_map]
    refine congrArg (it.iLoad f.node p + ·) (congrArg List.sum (List.map_congr_left ?_))
    intro g hg
    obtain ⟨hg, hp⟩ := mem_foundFrom.mp hg
    exact ih g hg hp g hg rfl
  exact hall f.node (h.tree.node_mem hf) f hf rfl

/-- The law holds exactly if nothing is cut away. -/
theorem kirchhoff_iff_nothingCut (hJ : Summed study found it.iLoad it.J) :
    Kirchhoff t it ↔ NothingCut study.phasing t it.iLoad := by
  rw [NothingCut, forall_branch_iff h]
  constructor
  · intro hlaw f hf p hp
    rw [← current_of_kirchhoff h hlaw hf p, current_found h hJ hf]
    exact if_neg hp
  · intro hnone
    have hcurrent (f : Found String GridEdge) (hf : f ∈ found) (p : Phase) :
        current it.J f.edge.edgeId p = ∑ k ∈ behind t.order found f.node, it.iLoad k p := by
      rw [current_found h hJ hf]
      by_cases hp : p ∈ carriedBy study.phasing f
      · exact if_pos hp
      · rw [if_neg hp, hnone f hf p hp]
    have hleaving (n : String) (hn : n ∈ t.order) (p : Phase) :
        it.iLoad n p + ((leaving t n).map fun e => current it.J e.edgeId p).sum =
          ∑ k ∈ behind t.order found n, it.iLoad k p := by
      rw [h.tree.sum_behind _ hn, leaving_eq h, List.map_map]
      refine congrArg (it.iLoad n p + ·) (congrArg List.sum (List.map_congr_left ?_))
      exact fun f hf => hcurrent f (mem_foundFrom.mp hf).1 p
    refine ⟨fun n hn hroot => ?_, fun p => ?_⟩
    · obtain ⟨f, hf, rfl⟩ := h.tree.exists_found ((h.energized n).mp hn) hroot
      refine ⟨f.edge, h.parentEdge_get? hf, fun p => ?_⟩
      rw [hcurrent f hf p, hleaving f.node (h.tree.node_mem hf)]
    · refine add_left_cancel (a := it.iLoad t.root p) ?_
      rw [hleaving t.root h.tree.root_mem, energized_eq h]
      exact (Finset.add_sum_erase _ (fun n => it.iLoad n p)
        ((h.tree.mem_behind h.tree.root_mem).mpr .refl)).symm

section Points

variable [StarRing K] [DecidableEq K] {plane : Plane K R}

/-- Where every loaded phase is carried, nothing is cut away. -/
theorem nothingCut_of_carriedTo {V : Voltages K}
    (hcarried : ∀ n ∈ t.energized, n ≠ t.root → ∀ p ∈ study.phasing.nodePhases n,
      study.loads n p ≠ none → CarriedTo study.phasing t n p) :
    NothingCut study.phasing t (loadCurrent plane study t V) := by
  refine (forall_branch_iff h).mpr fun f hf p hp => Finset.sum_eq_zero fun k hk => ?_
  have hfk := (h.tree.mem_behind (h.tree.node_mem hf)).mp hk
  have hroot : k ≠ t.root := by
    rintro rfl
    exact h.tree.node_ne_root hf (h.tree.descends_root_iff.mp hfk)
  unfold loadCurrent
  by_cases hphase : k ∈ t.energized ∧ p ∈ study.phasing.nodePhases k
  · rw [if_pos hphase]
    cases hload : study.loads k p with
    | none => rfl
    | some s =>
        have hto := hcarried k hphase.1 hroot p hphase.2 (by rw [hload]; exact nofun)
        rw [CarriedTo, forall_branch_iff h] at hto
        exact absurd (hto f hf hk) hp
  · exact if_neg hphase

/-- If nothing of a load at one point is cut away, the point has its phase on its whole way. -/
theorem carriedTo_of_nothingCut [CharZero K] (study : Study K R)
    (hslack : ∀ p, plane.slack p ≠ 0) {V : Voltages K} {n : String} (hn : n ∈ t.energized)
    {p : Phase} (hp : p ∈ study.phasing.nodePhases n) {s : K} (hs : s ≠ 0)
    (hloads : study.loads = fun m q => if m = n ∧ q = p then some s else none)
    (hnone : NothingCut study.phasing t (loadCurrent plane study t V)) :
    CarriedTo study.phasing t n p := by
  rw [NothingCut, forall_branch_iff h] at hnone
  refine (forall_branch_iff h).mpr fun f hf hk => ?_
  by_contra hcut
  have hsum := hnone f hf p hcut
  rw [Finset.sum_eq_single n] at hsum
  · -- the one load draws a current
    have hvolt : orSlack plane (V n p) p ≠ 0 := by
      unfold orSlack
      split
      · exact hslack p
      · split
        · exact hslack p
        · assumption
    have hbase : (sbase1phKw : K) ≠ 0 := by
      rw [Rat.cast_ne_zero]
      decide +kernel
    rw [loadCurrent, if_pos ⟨hn, hp⟩, hloads] at hsum
    simp [hs, hbase, hvolt] at hsum
  · intro k _ hkn
    unfold loadCurrent
    rw [hloads]
    simp [hkn]
  · exact fun hnot => absurd hk hnot

end Points

end Tree

theorem tree_of_solve {K R : Type} [Field K] [StarRing K] [DecidableEq K] [LinearOrder R] [Zero R]
    {plane : Plane K R} {study : Study K R} {fuel : ℕ} {nodes : List GridNode}
    {edges : List GridEdge} {sol : Solution K R}
    (hsolve : solve plane study fuel nodes edges = pure sol) :
    buildRadial fuel nodes edges = pure sol.tree := by
  obtain ⟨t, hbuild, hsolve⟩ := bind_eq_pure.mp hsolve
  obtain ⟨b, -, hsolve⟩ := bind_eq_pure.mp hsolve
  obtain ⟨its, -, hsolve⟩ := bind_eq_pure.mp hsolve
  rw [hbuild, ← pure_inj.mp hsolve]

theorem slack_ne_zero (p : Phase) : complexPlane.slack p ≠ 0 := by
  cases p <;> exact Complex.exp_ne_zero _

/-- **When the currents obey Kirchhoff's law.** In every iteration they do exactly if nothing is
cut away: where a branch does not carry a phase, the load currents on it behind the branch sum
to nothing. For all loads on some points of the grid they do exactly if every branch on the way
to each of these points carries its phase. -/
theorem kirchhoff_iff (net : Network) (hsource : net.substations ≠ []) {fuel : ℕ}
    (hfuel : net.nodes.length ≤ fuel) (study : Study ℂ ℝ) (hmax : 0 < study.maxIter) :
    ∃ t, buildRadial fuel net.nodes net.edges = pure t ∧
      (∃ sol, solve complexPlane study fuel net.nodes net.edges = pure sol ∧
        ∀ it ∈ sol.iterations, Kirchhoff t it ↔ NothingCut study.phasing t it.iLoad) ∧
      ∀ points : Set (String × Phase),
        (∀ loads : String → Phasors ℂ, (∀ n p, loads n p ≠ none → (n, p) ∈ points) →
          ∃ sol, solve complexPlane { study with loads := loads } fuel net.nodes net.edges =
              pure sol ∧ ∀ it ∈ sol.iterations, Kirchhoff t it) ↔
        ∀ n ∈ t.energized, n ≠ t.root → ∀ p ∈ study.phasing.nodePhases n, (n, p) ∈ points →
          CarriedTo study.phasing t n p := by
  obtain ⟨t, found, hbuild, hrep⟩ := buildRadial_represents net hsource hfuel
  have hsolve (study : Study ℂ ℝ) : ∃ sol found,
      solve complexPlane study fuel net.nodes net.edges = pure sol ∧
      Solved complexPlane study net found sol ∧ sol.tree = t := by
    obtain ⟨sol, found, hsolve, hsolved⟩ := exists_solve complexPlane study net hsource hfuel
    exact ⟨sol, found, hsolve, hsolved, pure_inj.mp ((tree_of_solve hsolve).symm.trans hbuild)⟩
  refine ⟨t, hbuild, ?_, fun points => ⟨fun hall n hn hroot p hp hpoint => ?_,
    fun hcarried loads hloads => ?_⟩⟩
  · obtain ⟨sol, found, hsol, hsolved, rfl⟩ := hsolve study
    refine ⟨sol, hsol, fun it hit => ?_⟩
    obtain ⟨V, -, hfollows⟩ := hsolved.follows it hit
    exact kirchhoff_iff_nothingCut hsolved.represents hfollows.summed
  · -- a load at the point alone draws a current in the first iteration
    let loads : String → Phasors ℂ := fun m q => if m = n ∧ q = p then some 1 else none
    have hloads (m : String) (q : Phase) (hne : loads m q ≠ none) : (m, q) ∈ points := by
      have hmq : m = n ∧ q = p := by
        by_contra hnot
        exact hne (if_neg hnot)
      rw [hmq.1, hmq.2]
      exact hpoint
    obtain ⟨sol, hsol, hlaw⟩ := hall loads hloads
    obtain ⟨sol', found, hsol', hsolved, rfl⟩ := hsolve { study with loads := loads }
    obtain rfl := pure_inj.mp (hsol.symm.trans hsol')
    obtain ⟨it, hit, hfollows⟩ := hsolved.first hmax
    have hnone := (kirchhoff_iff_nothingCut hsolved.represents hfollows.summed).mp (hlaw it hit)
    rw [hfollows.iLoad] at hnone
    exact carriedTo_of_nothingCut hsolved.represents { study with loads := loads } slack_ne_zero
      hn hp one_ne_zero rfl hnone
  · obtain ⟨sol, found, hsol, hsolved, rfl⟩ := hsolve { study with loads := loads }
    refine ⟨sol, hsol, fun it hit => ?_⟩
    obtain ⟨V, -, hfollows⟩ := hsolved.follows it hit
    refine (kirchhoff_iff_nothingCut hsolved.represents hfollows.summed).mpr ?_
    rw [hfollows.iLoad]
    exact nothingCut_of_carriedTo hsolved.represents fun n hn hroot p hp hload =>
      hcarried n hn hroot p hp (hloads n p hload)

theorem lateral_kirchhoff :
    ∃ t, buildRadial 2 lateral.nodes lateral.edges = pure t ∧
      (∃ sol, solve complexPlane lateralStudy 2 lateral.nodes lateral.edges = pure sol ∧
        ∀ it ∈ sol.iterations, Kirchhoff t it ↔ NothingCut lateralStudy.phasing t it.iLoad) ∧
      ∀ points : Set (String × Phase),
        (∀ loads : String → Phasors ℂ, (∀ n p, loads n p ≠ none → (n, p) ∈ points) →
          ∃ sol, solve complexPlane { lateralStudy with loads := loads } 2 lateral.nodes
              lateral.edges = pure sol ∧ ∀ it ∈ sol.iterations, Kirchhoff t it) ↔
        ∀ n ∈ t.energized, n ≠ t.root → ∀ p ∈ lateralStudy.phasing.nodePhases n,
          (n, p) ∈ points → CarriedTo lateralStudy.phasing t n p :=
  kirchhoff_iff lateral (by decide) (by decide) lateralStudy (Nat.succ_pos 99)

/-- The load on b draws a current that does not flow in the line. -/
theorem lateral_loses :
    ∃ t, buildRadial 2 lateral.nodes lateral.edges = pure t ∧
      ∃ sol, solve complexPlane lateralStudy 2 lateral.nodes lateral.edges = pure sol ∧
        ∃ it ∈ sol.iterations, ¬ Kirchhoff t it := by
  obtain ⟨sol, found, hsolve, hsolved⟩ :=
    exists_solve complexPlane lateralStudy lateral (by decide)
      (show lateral.nodes.length ≤ 2 by decide)
  obtain ⟨t, hbuild, hbus, e, -, hedge, hid, hbelow⟩ :
      ∃ t, buildRadial 2 lateral.nodes lateral.edges = pure t ∧ "BUS-1" ∈ t.energized ∧
        ∃ e ∈ lateral.edges, t.parentEdge.get? "BUS-1" = some e ∧ e.edgeId = "LN-1" ∧
          t.subtree.get? e.edgeId = some {"BUS-1"} := by
    decide +kernel
  obtain rfl := pure_inj.mp (hbuild.symm.trans (tree_of_solve hsolve))
  obtain ⟨it, hit, hfollows⟩ := hsolved.first (Nat.succ_pos 99)
  refine ⟨sol.tree, hbuild, sol, hsolve, it, hit, fun hlaw => ?_⟩
  have hnone := (kirchhoff_iff_nothingCut hsolved.represents hfollows.summed).mp hlaw
  rw [hfollows.iLoad] at hnone
  have hphase : Phase.b ∈ lateralStudy.phasing.nodePhases "BUS-1" := by
    have hall : Phase.b ∈ phaseSet none := by decide +kernel
    exact hall
  have hload : (30 : ℂ) ≠ 0 := by norm_num
  have hto := carriedTo_of_nothingCut hsolved.represents lateralStudy slack_ne_zero hbus hphase
    hload rfl hnone
  have hcut : Phase.b ∉ carries lateralStudy.phasing "LN-1" "BUS-1" := by
    have hline : Phase.b ∉ phaseSet (some "A") := by decide +kernel
    exact fun hmem => hline (of_decide_eq_true (List.mem_filter.mp hmem).2)
  exact hcut (hid ▸ hto "BUS-1" e {"BUS-1"} hedge hbelow (Finset.mem_singleton_self _))

end DiepLab.Sweep
