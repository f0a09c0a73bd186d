import DiepLab.Dms.Kirchhoff
import DiepLab.Library.TreeFlows
import DiepLab.PyValue

/-!
The energy balance of the power flow.

The report adds up the losses of the branches from their currents in amps and their resistances
in ohms (`totalLossKw`), not from voltages. In every iteration whose currents obey Kirchhoff's
law, what the source gives is nonetheless what the nodes draw and this loss, to the last watt
(`power_balance`). What the nodes draw are their loads only when the voltages have settled: once
the sweep has converged, the balance with the loads themselves is open by no more than the
tolerance makes of them (`converged_balance`).
-/

namespace DiepLab.Sweep

open SpanningTree StateEstimation

instance Phase.fintype : Fintype Phase where
  elems := {.a, .b, .c}
  complete p := by cases p <;> decide

/-! ### The losses of the report -/

/-- `i_a`. -/
noncomputable def lineAmps (kv : ℚ) (jb : ℂ) : ℝ := ‖jb‖ * (sbaseKw : ℝ) / (√3 * (kv : ℝ))

/-- The line voltage of a node, `float(by_id[c].get("nominal_kv") or 0.415)`. -/
def lineKv (ratings : Ratings) (c : String) : ℚ := orDefault (ratings.nominalKv c) (415 / 1000)

/-- `loss_kw` of a branch to the node `c`. -/
noncomputable def lossKw (ratings : Ratings) (eid c : String) (carried : List Phase)
    (j : Phasors ℂ) : ℝ :=
  let rOhm : ℚ := orDefault (ratings.resistanceROhm eid) 0
  (carried.map fun p =>
    lineAmps (lineKv ratings c) ((j p).getD 0) ^ 2 * (rOhm : ℝ) / (1000 : ℕ)).sum

/-- `total_loss_kw += loss_kw` in the turn of the node `n`. -/
noncomputable def addLoss (study : Study ℂ ℝ) (t : RadialTree) (b : Branches ℂ)
    (J : Dict (Phasors ℂ)) (total : ℝ) (n : String) : Except Exc ℝ :=
  if n = t.root then pure total
  else do
    let e ← lookup t.parentEdge n
    let c ← lookup b.childOf e.edgeId
    let carried ← lookup b.branchPhase e.edgeId
    let j ← lookup J e.edgeId
    pure (total + lossKw study.ratings e.edgeId c carried j)

/-- `total_loss_kw`, before it is rounded. -/
noncomputable def totalLossKw (study : Study ℂ ℝ) (t : RadialTree) (b : Branches ℂ)
    (J : Dict (Phasors ℂ)) : Except Exc ℝ :=
  t.order.foldlM (addLoss study t b J) 0

/-! ### What the source gives and the nodes draw -/

/-- `V[n].get(p, SLACK[p])`. -/
noncomputable def volt (V : Voltages ℂ) (n : String) (p : Phase) : ℂ :=
  (V n p).getD (complexPlane.slack p)

/-- The power of a current at a voltage. -/
noncomputable def powerKw (v i : ℂ) : ℝ := (sbase1phKw : ℝ) * (v * star i).re

/-- What the source gives into the branches that leave it. -/
noncomputable def sourceKw (t : RadialTree) (it : Iteration ℂ ℝ) : ℝ :=
  ∑ p, powerKw (volt it.V t.root p) ((leaving t t.root).map fun e => current it.J e.edgeId p).sum

/-- What the nodes draw with their load currents. -/
noncomputable def drawnKw (t : RadialTree) (it : Iteration ℂ ℝ) : ℝ :=
  ∑ p, ∑ n ∈ t.energized.erase t.root, powerKw (volt it.V n p) (it.iLoad n p)

section Loss

/-- The loss of a branch of the tree, from its impedance. -/
noncomputable def branchLossKw (study : Study ℂ ℝ) (J : Dict (Phasors ℂ))
    (f : Found String GridEdge) : ℝ :=
  ∑ p, (sbase1phKw : ℝ) * ((impedance study.ratings f.node f.edge).1 *
    ‖current J f.edge.edgeId p‖ ^ 2)

theorem lineKv_ne_zero (ratings : Ratings) (c : String) : lineKv ratings c ≠ 0 := by
  unfold lineKv orDefault
  split
  · norm_num
  · split
    · norm_num
    · assumption

theorem impedance_fst (ratings : Ratings) (n : String) (e : GridEdge) :
    (impedance ratings n e).1 =
      orDefault (ratings.resistanceROhm e.edgeId) 0 / lineKv ratings n ^ 2 := by
  have hone : sbaseKw / 1000 = 1 := by norm_num [sbaseKw]
  have hne : lineKv ratings n ^ 2 ≠ 0 := pow_ne_zero 2 (lineKv_ne_zero ratings n)
  simp only [impedance, hone, div_one]
  exact if_neg hne

/-- In amps and ohms the loss is the one in pu. -/
theorem lineAmps_loss (ratings : Ratings) (n : String) (e : GridEdge) (jb : ℂ) :
    lineAmps (lineKv ratings n) jb ^ 2 *
        ((orDefault (ratings.resistanceROhm e.edgeId) 0 : ℚ) : ℝ) / 1000 =
      (sbase1phKw : ℝ) * ((impedance ratings n e).1 * ‖jb‖ ^ 2) := by
  have hkv : (lineKv ratings n : ℝ) ≠ 0 := Rat.cast_ne_zero.mpr (lineKv_ne_zero ratings n)
  have hroot : √(3 : ℝ) ^ 2 = 3 := Real.sq_sqrt (by norm_num)
  rw [lineAmps, impedance_fst, sbase1phKw, sbaseKw, div_pow, mul_pow, mul_pow, hroot]
  push_cast
  field_simp

theorem nodup_carriedBy (phasing : Phasing) (f : Found String GridEdge) :
    (carriedBy phasing f).Nodup := by
  have hall : Phase.all.Nodup := by decide
  exact List.Nodup.filter _ (List.Nodup.filter _ hall)

variable {net : Network} {t : RadialTree} {found : List (Found String GridEdge)}
  (h : Represents net t found) {study : Study ℂ ℝ} {b : Branches ℂ}
  (hb : Prepared complexPlane study found b) {iLoad : String → Phase → ℂ}
  {J : Dict (Phasors ℂ)} (hJ : Summed study found iLoad J)
include h hb hJ

theorem addLoss_found {f : Found String GridEdge} (hf : f ∈ found) (total : ℝ) :
    addLoss study t b J total f.node = .ok (total + branchLossKw study J f) := by
  obtain ⟨below, -, hcurrent⟩ := hJ.J f hf
  have hphase := hb.branchPhase f hf
  rw [addLoss, if_neg (h.tree.node_ne_root hf), lookup_eq (h.parentEdge_get? hf)]
  simp only [bind, Except.bind, lookup_eq (hb.childOf f hf), lookup_eq hphase, lookup_eq hcurrent]
  refine congrArg (fun loss => Except.ok (total + loss)) ?_
  -- the phases that the branch does not carry lose nothing
  have hall : branchLossKw study J f = ∑ p ∈ (carriedBy study.phasing f).toFinset,
      (sbase1phKw : ℝ) * ((impedance study.ratings f.node f.edge).1 *
        ‖current J f.edge.edgeId p‖ ^ 2) := by
    refine (Finset.sum_subset (Finset.subset_univ _) fun p _ hp => ?_).symm
    rw [current_found h hJ hf, if_neg fun hmem => hp (List.mem_toFinset.mpr hmem), norm_zero]
    ring
  rw [hall, List.sum_toFinset _ (nodup_carriedBy study.phasing f), lossKw]
  refine congrArg List.sum (List.map_congr_left fun p _ => ?_)
  rw [Nat.cast_ofNat, lineAmps_loss, current, hcurrent, Option.bind_some]

theorem totalLossKw_eq :
    totalLossKw study t b J = .ok (found.map (branchLossKw study J)).sum := by
  classical
  obtain ⟨loss, hloss⟩ :
      ∃ loss : String → ℝ, ∀ f ∈ found, loss f.node = branchLossKw study J f := by
    refine ⟨fun n => if hn : ∃ f ∈ found, f.node = n then branchLossKw study J hn.choose else 0,
      fun f hf => ?_⟩
    have hn : ∃ g ∈ found, g.node = f.node := ⟨f, hf, rfl⟩
    refine (dif_pos hn).trans ?_
    rw [h.tree.found_eq hn.choose_spec.1 hf hn.choose_spec.2]
  let turn (n : String) : ℝ := if n = t.root then 0 else loss n
  obtain ⟨total, hrun, htotal⟩ : ∃ total, t.order.foldlM (addLoss study t b J) 0 =
      (pure total : Except Exc ℝ) ∧ total = (t.order.map turn).sum := by
    refine Loops.foldlM_prefix (P := fun left total => total = (left.map turn).sum) rfl ?_
    rintro left n right total hsplit rfl
    by_cases hn : n = t.root
    · refine ⟨_, if_pos hn, ?_⟩
      simp [turn, hn]
    · obtain ⟨f, hf, rfl⟩ := h.tree.exists_found
        (hsplit ▸ List.mem_append_right left List.mem_cons_self) hn
      refine ⟨_, addLoss_found h hb hJ hf _, ?_⟩
      simp [turn, hn, hloss f hf]
  have hsum : total = (found.map (branchLossKw study J)).sum := by
    rw [htotal, ← List.sum_toFinset _ h.tree.nodup,
      ← Finset.add_sum_erase _ _ (List.mem_toFinset.mpr h.tree.root_mem),
      ← h.tree.sum_map_node, if_pos rfl, zero_add]
    refine congrArg List.sum (List.map_congr_left fun f hf => ?_)
    exact (if_neg (h.tree.node_ne_root hf)).trans (hloss f hf)
  rw [totalLossKw, hrun, hsum]
  rfl

end Loss

/-! ### The balance of an iteration -/

section Balance

variable {net : Network} {t : RadialTree} {found : List (Found String GridEdge)}
  (h : Represents net t found) {study : Study ℂ ℝ} {b : Branches ℂ}
  (hb : Prepared complexPlane study found b) {it : Iteration ℂ ℝ}
  (hJ : Summed study found it.iLoad it.J) {V : Voltages ℂ}
  (hV : Updated complexPlane study t.root found b it.J V it.V)
include h hb hJ hV

/-- Along a branch the voltage falls by what the current makes of the impedance; where the branch
does not carry the phase there is nothing to fall by. -/
theorem fall_mul_star {f : Found String GridEdge} (hf : f ∈ found) (p : Phase) :
    ((volt it.V f.parent p - volt it.V f.node p) * star (current it.J f.edge.edgeId p)).re =
      (impedance study.ratings f.node f.edge).1 * ‖current it.J f.edge.edgeId p‖ ^ 2 := by
  by_cases hp : p ∈ study.phasing.nodePhases f.node
  · have hfall : volt it.V f.parent p - volt it.V f.node p =
        branchZ complexPlane study f * current it.J f.edge.edgeId p := by
      rw [volt, volt, hV.node f hf p hp, Option.getD_some, sub_sub_cancel, drop, hb.zPu f hf]
      rfl
    rw [hfall, mul_assoc, Complex.star_def, Complex.mul_conj, Complex.re_mul_ofReal,
      Complex.normSq_eq_norm_sq]
    rfl
  · have hnone : current it.J f.edge.edgeId p = 0 := by
      rw [current_found h hJ hf]
      exact if_neg fun hmem => hp (List.mem_filter.mp hmem).1
    rw [hnone, star_zero, mul_zero, norm_zero, Complex.zero_re]
    ring

/-- On every phase the source gives what the nodes draw and what the branches lose. -/
theorem balance_phase (hlaw : Kirchhoff t it) (p : Phase) :
    powerKw (volt it.V t.root p)
        ((leaving t t.root).map fun e => current it.J e.edgeId p).sum =
      ∑ n ∈ t.energized.erase t.root, powerKw (volt it.V n p) (it.iLoad n p) +
        (found.map fun f => (sbase1phKw : ℝ) * ((impedance study.ratings f.node f.edge).1 *
          ‖current it.J f.edge.edgeId p‖ ^ 2)).sum := by
  let j (f : Found String GridEdge) : ℂ := star (current it.J f.edge.edgeId p)
  let draw (n : String) : ℂ := star (it.iLoad n p)
  have hstar (n : String) : star ((leaving t n).map fun e => current it.J e.edgeId p).sum =
      ((foundFrom found n).map j).sum := by
    rw [leaving_eq h, List.map_map, ← starAddEquiv_apply, map_list_sum, List.map_map]
    rfl
  have hbalance (f : Found String GridEdge) (hf : f ∈ found) :
      j f = draw f.node + ((foundFrom found f.node).map j).sum := by
    obtain ⟨e, hedge, hcurrent⟩ := hlaw.balance f.node
      ((h.energized _).mpr (h.tree.node_mem hf)) (h.tree.node_ne_root hf)
    obtain rfl := Option.some.inj ((h.parentEdge_get? hf).symm.trans hedge)
    simp only [j, draw]
    rw [hcurrent p, star_add, hstar]
  have hnodes : t.energized = t.order.toFinset := by
    ext x
    rw [h.energized, List.mem_toFinset]
  have hflow : (found.map fun f => (volt it.V f.parent p - volt it.V f.node p) * j f).sum =
      volt it.V t.root p * ((foundFrom found t.root).map j).sum -
        ∑ n ∈ t.order.toFinset.erase t.root, volt it.V n p * draw n :=
    h.tree.tellegen (fun n => volt it.V n p) hbalance
  rw [eq_comm, sub_eq_iff_eq_add', ← hstar, ← hnodes] at hflow
  simp only [powerKw, hflow, Complex.add_re, Complex.re_sum, mul_add, Finset.mul_sum]
  refine congrArg (_ + ·) ?_
  rw [← Complex.coe_reAddGroupHom, map_list_sum, List.map_map, ← List.sum_map_mul_left]
  refine congrArg List.sum (List.map_congr_left fun f hf => ?_)
  exact congrArg ((sbase1phKw : ℝ) * ·) (fall_mul_star h hb hJ hV hf p)

theorem balance_of_kirchhoff (hlaw : Kirchhoff t it) :
    sourceKw t it = drawnKw t it + (found.map (branchLossKw study it.J)).sum := by
  have hloss : (found.map (branchLossKw study it.J)).sum = ∑ p, (found.map fun f =>
      (sbase1phKw : ℝ) * ((impedance study.ratings f.node f.edge).1 *
        ‖current it.J f.edge.edgeId p‖ ^ 2)).sum := by
    exact Multiset.sum_map_sum (m := (found : Multiset (Found String GridEdge)))
  rw [sourceKw, drawnKw, hloss, ← Finset.sum_add_distrib]
  exact Finset.sum_congr rfl fun p _ => balance_phase h hb hJ hV hlaw p

end Balance

/-! ### The mismatch -/

/-- The mismatch is the largest of what the phases of the node have moved by. -/
theorem foldl_updatePhase_mismatch {parent n : String} (hne : parent ≠ n) (z : ℂ) (jb : Phase → ℂ)
    {phases : List Phase} (hnodup : phases.Nodup) (s : Voltages ℂ × ℝ) (c : ℝ) :
    (phases.foldl (updatePhase complexPlane parent n z jb) s).2 ≤ c ↔ s.2 ≤ c ∧ ∀ p ∈ phases,
      ‖((phases.foldl (updatePhase complexPlane parent n z jb) s).1 n p).getD 0 -
        (s.1 n p).getD 0‖ ≤ c := by
  induction phases generalizing s with
  | nil => exact (and_iff_left fun p hp => absurd hp List.not_mem_nil).symm
  | cons p phases ih =>
      obtain ⟨hp, hnodup⟩ := List.nodup_cons.mp hnodup
      have hnew : (phases.foldl (updatePhase complexPlane parent n z jb)
          (updatePhase complexPlane parent n z jb s p)).1 n p =
            some ((s.1 parent p).getD (complexPlane.slack p) - z * jb p) := by
        rw [foldl_updatePhase complexPlane hne]
        simp [hp, updatePhase, setPhase]
      have hmax : (updatePhase complexPlane parent n z jb s p).2 ≤ c ↔ s.2 ≤ c ∧
          ‖(s.1 parent p).getD (complexPlane.slack p) - z * jb p - (s.1 n p).getD 0‖ ≤ c :=
        max_le_iff
      rw [List.foldl_cons, ih hnodup, List.forall_mem_cons, hnew, hmax, and_assoc]
      refine and_congr Iff.rfl (and_congr Iff.rfl (forall₂_congr fun q hq => ?_))
      have hqp : q ≠ p := fun heq => hp (heq ▸ hq)
      have hsame : (updatePhase complexPlane parent n z jb s p).1 n q = s.1 n q := by
        simp [updatePhase, setPhase, hqp]
      rw [hsame]

section Mismatch

variable {net : Network} {t : RadialTree} {found : List (Found String GridEdge)}
  (h : Represents net t found) {study : Study ℂ ℝ} {b : Branches ℂ}
  (hb : Prepared complexPlane study found b)
include h hb

theorem updateNode_mismatch {iLoad : String → Phase → ℂ} {J : Dict (Phasors ℂ)}
    (hJ : Summed study found iLoad J) {f : Found String GridEdge} (hf : f ∈ found)
    (s : Voltages ℂ × ℝ) :
    ∃ s', updateNode complexPlane study t b J s f.node = .ok s' ∧
      (∀ c, s'.2 ≤ c ↔ s.2 ≤ c ∧ ∀ p ∈ study.phasing.nodePhases f.node,
        ‖(s'.1 f.node p).getD 0 - (s.1 f.node p).getD 0‖ ≤ c) ∧
      ∀ m p, ¬ (m = f.node ∧ p ∈ study.phasing.nodePhases f.node) → s'.1 m p = s.1 m p := by
  obtain ⟨below, -, hcurrent⟩ := hJ.J f hf
  have hne := h.tree.parent_ne_node hf
  have hnodup : (study.phasing.nodePhases f.node).Nodup :=
    List.Nodup.filter _ (show Phase.all.Nodup by decide)
  let j : Phasors ℂ := fun p =>
    if p ∈ carriedBy study.phasing f then some (∑ k ∈ below, iLoad k p) else none
  let jb : Phase → ℂ := fun p => if p ∈ carriedBy study.phasing f then (j p).getD 0 else 0
  refine ⟨_, ?_, foldl_updatePhase_mismatch hne (branchZ complexPlane study f) jb hnodup s,
    fun m p hm => ?_⟩
  · rw [updateNode, if_neg (h.tree.node_ne_root hf)]
    simp only [lookup_eq (h.parentEdge_get? hf), lookup_eq (hb.zPu f hf),
      lookup_eq (hb.branchPhase f hf), lookup_eq hcurrent, bind, Except.bind, pure, Except.pure,
      otherEnd_found h hf]
    rfl
  · rw [foldl_updatePhase complexPlane hne]
    exact if_neg hm

/-- The mismatch of an iteration is the largest of what any phase of any node has moved by, and
nothing is written but the phases of the nodes. -/
theorem exists_iteration_mismatch (V : Voltages ℂ) :
    ∃ it, iteration complexPlane study t b V = .ok it ∧
      (∀ c, it.mismatch ≤ c ↔ 0 ≤ c ∧ ∀ f ∈ found, ∀ p ∈ study.phasing.nodePhases f.node,
        ‖(it.V f.node p).getD 0 - (V f.node p).getD 0‖ ≤ c) ∧
      ∀ n, ∀ p ∉ study.phasing.nodePhases n, it.V n p = V n p := by
  obtain ⟨J, hJ, hsummed⟩ :=
    exists_branchCurrents h complexPlane study hb (loadCurrent complexPlane study t V)
  obtain ⟨s', hrun, hmismatch, -, hphases⟩ : ∃ s' : Voltages ℂ × ℝ,
      t.order.foldlM (updateNode complexPlane study t b J) (V, 0) = (pure s' : Except Exc _) ∧
      (∀ c, s'.2 ≤ c ↔ 0 ≤ c ∧ ∀ f ∈ found, f.node ∈ t.order →
        ∀ p ∈ study.phasing.nodePhases f.node,
          ‖(s'.1 f.node p).getD 0 - (V f.node p).getD 0‖ ≤ c) ∧
      (∀ n ∉ t.order, s'.1 n = V n) ∧
      ∀ n, ∀ p ∉ study.phasing.nodePhases n, s'.1 n p = V n p := by
    refine Loops.foldlM_prefix (P := fun left (s : Voltages ℂ × ℝ) =>
      (∀ c, s.2 ≤ c ↔ 0 ≤ c ∧ ∀ f ∈ found, f.node ∈ left →
        ∀ p ∈ study.phasing.nodePhases f.node,
          ‖(s.1 f.node p).getD 0 - (V f.node p).getD 0‖ ≤ c) ∧
      (∀ n ∉ left, s.1 n = V n) ∧ ∀ n, ∀ p ∉ study.phasing.nodePhases n, s.1 n p = V n p)
      ⟨fun c => (and_iff_left fun _ _ hmem => absurd hmem List.not_mem_nil).symm, fun _ _ => rfl,
        fun _ _ _ => rfl⟩ ?_
    rintro left n right s hsplit ⟨hleft, hrest, hphases⟩
    have hfresh : n ∉ left := by
      have hnodup := h.tree.nodup
      rw [hsplit, List.nodup_append] at hnodup
      exact fun hmem => hnodup.2.2 n hmem n List.mem_cons_self rfl
    have hends (f : Found String GridEdge) :
        f.node ∈ left ++ [n] ↔ f.node ∈ left ∨ f.node = n := by
      rw [List.mem_append, List.mem_singleton]
    by_cases hroot : n = t.root
    · subst hroot
      refine ⟨s, updateNode_root complexPlane study s, fun c => ?_, fun m hm => hrest m fun hmem =>
        hm (List.mem_append_left _ hmem), hphases⟩
      rw [hleft]
      refine and_congr Iff.rfl (forall₂_congr fun f hf => ?_)
      rw [hends, or_iff_left (h.tree.node_ne_root hf)]
    · obtain ⟨f, hf, rfl⟩ := h.tree.exists_found
        (hsplit ▸ List.mem_append_right left List.mem_cons_self) hroot
      obtain ⟨s', hturn, hmismatch, hkeep⟩ := updateNode_mismatch h hb hsummed hf s
      have hother {m : String} (hm : m ≠ f.node) : s'.1 m = s.1 m :=
        funext fun p => hkeep m p fun hc => hm hc.1
      refine ⟨s', hturn, fun c => ?_, fun m hm => ?_, fun m p hp => ?_⟩
      · rw [hmismatch, hleft, and_assoc]
        refine and_congr Iff.rfl ⟨?_, fun hall => ⟨fun g hg hmem p hp => ?_, fun p hp => ?_⟩⟩
        · rintro ⟨hbefore, hmoved⟩ g hg hmem p hp
          rcases (hends g).mp hmem with hmem | heq
          · rw [hother fun heq => hfresh (heq ▸ hmem)]
            exact hbefore g hg hmem p hp
          · obtain rfl := h.tree.found_eq hg hf heq
            rw [← hrest g.node hfresh]
            exact hmoved p hp
        · rw [← hother fun heq => hfresh (heq ▸ hmem)]
          exact hall g hg ((hends g).mpr (Or.inl hmem)) p hp
        · rw [hrest f.node hfresh]
          exact hall f hf ((hends f).mpr (Or.inr rfl)) p hp
      · rw [List.mem_append, List.mem_singleton, not_or] at hm
        rw [hother hm.2, hrest m hm.1]
      · refine (hkeep m p fun hc => hp (hc.1 ▸ hc.2)).trans (hphases m p hp)
  refine ⟨{ iLoad := loadCurrent complexPlane study t V, J := J, V := s'.1, mismatch := s'.2 }, ?_,
    fun c => ?_, hphases⟩
  · rw [iteration, hJ]
    simp only [bind, Except.bind, hrun]
    rfl
  · rw [hmismatch]
    refine and_congr Iff.rfl (forall₂_congr fun f hf => ?_)
    rw [imp_iff_right (h.tree.node_mem hf)]

end Mismatch

/-! ### When the sweep has converged -/

/-- The load that is served at a point, in kVA. -/
def loadAt (study : Study ℂ ℝ) (n : String) (p : Phase) : ℂ :=
  if p ∈ study.phasing.nodePhases n then (study.loads n p).getD 0 else 0

/-- The loads that are served. -/
noncomputable def loadsKw (study : Study ℂ ℝ) (t : RadialTree) : ℝ :=
  ∑ p, ∑ n ∈ t.energized.erase t.root, (loadAt study n p).re

/-- The same without their signs. -/
noncomputable def loadsKva (study : Study ℂ ℝ) (t : RadialTree) : ℝ :=
  ∑ p, ∑ n ∈ t.energized.erase t.root, ‖loadAt study n p‖

theorem sbase1phKw_pos : (0 : ℝ) < (sbase1phKw : ℝ) := by
  have hpos : 0 < sbase1phKw := by norm_num [sbase1phKw, sbaseKw]
  exact_mod_cast hpos

/-- A current that was drawn for the load at the voltage `v₀` draws almost the load at `v`. -/
theorem abs_powerKw_sub_le {v v₀ s : ℂ} {tol m : ℝ} (hmoved : ‖v - v₀‖ ≤ tol) (htol : tol < m)
    (hv : m ≤ ‖v‖) :
    |powerKw v (star (s / (sbase1phKw : ℂ) / v₀)) - s.re| ≤ tol / (m - tol) * ‖s‖ := by
  have hv₀ : m - tol ≤ ‖v₀‖ := by
    have := norm_le_norm_add_norm_sub v₀ v
    linarith [norm_sub_rev v v₀]
  have hpos : 0 < m - tol := sub_pos.mpr htol
  have hne : v₀ ≠ 0 := norm_pos_iff.mp (hpos.trans_le hv₀)
  have hbase : (sbase1phKw : ℂ) ≠ 0 := by
    rw [Rat.cast_ne_zero]
    norm_num [sbase1phKw, sbaseKw]
  have hpower : powerKw v (star (s / (sbase1phKw : ℂ) / v₀)) - s.re = ((v - v₀) / v₀ * s).re := by
    have hcast : ((sbase1phKw : ℝ) : ℂ) = (sbase1phKw : ℂ) := Complex.ofReal_ratCast _
    rw [powerKw, star_star, ← Complex.re_ofReal_mul, hcast, ← Complex.sub_re]
    refine congrArg Complex.re ?_
    field_simp
  rw [hpower]
  refine (Complex.abs_re_le_norm _).trans ?_
  rw [norm_mul, norm_div]
  refine mul_le_mul_of_nonneg_right ?_ (norm_nonneg s)
  exact div_le_div₀ ((norm_nonneg _).trans hmoved) hmoved hpos hv₀

theorem exists_start_of_mem {study : Study ℂ ℝ} {t : RadialTree} {b : Branches ℂ} {turns : ℕ}
    {V : Voltages ℂ} {its : List (Iteration ℂ ℝ)} {it : Iteration ℂ ℝ}
    (hrun : iterations complexPlane study t b turns V = .ok its) (hit : it ∈ its) :
    ∃ V₀, iteration complexPlane study t b V₀ = .ok it := by
  induction turns generalizing V its with
  | zero =>
      obtain rfl := Except.ok.inj hrun
      exact absurd hit List.not_mem_nil
  | succ turns ih =>
      rw [iterations] at hrun
      obtain ⟨first, hfirst, hrun⟩ := bind_eq_ok.mp hrun
      by_cases hsmall : first.mismatch < study.tolPu
      · rw [if_pos hsmall] at hrun
        obtain rfl := Except.ok.inj hrun
        exact ⟨V, List.mem_singleton.mp hit ▸ hfirst⟩
      · rw [if_neg hsmall] at hrun
        obtain ⟨rest, hrest, hrun⟩ := bind_eq_ok.mp hrun
        obtain rfl := Except.ok.inj hrun
        rcases List.mem_cons.mp hit with rfl | hit
        · exact ⟨V, hfirst⟩
        · exact ih hrest hit

theorem iterations_of_solve {study : Study ℂ ℝ} {fuel : ℕ} {nodes : List GridNode}
    {edges : List GridEdge} {sol : Solution ℂ ℝ}
    (hsolve : solve complexPlane study fuel nodes edges = pure sol) :
    iterations complexPlane study sol.tree sol.branches study.maxIter
        (flatStart complexPlane study sol.tree) = .ok sol.iterations ∧
      sol.converged = sol.iterations.getLast?.any fun it => it.mismatch < study.tolPu := by
  obtain ⟨t, -, hsolve⟩ := bind_eq_pure.mp hsolve
  obtain ⟨b, -, hsolve⟩ := bind_eq_pure.mp hsolve
  obtain ⟨its, hits, hsolve⟩ := bind_eq_pure.mp hsolve
  rw [← pure_inj.mp hsolve]
  exact ⟨lift_ok_eq_pure.mp hits, rfl⟩

/-- Once the voltages have settled, what the nodes draw is what they are loaded with. -/
theorem abs_drawnKw_sub_le {study : Study ℂ ℝ} {t : RadialTree} {V : Voltages ℂ}
    {it : Iteration ℂ ℝ} (hload : it.iLoad = loadCurrent complexPlane study t V) {tol m : ℝ}
    (htol : tol < m)
    (hmoved : ∀ n ∈ t.energized, n ≠ t.root → ∀ p ∈ study.phasing.nodePhases n,
      ‖volt it.V n p - (V n p).getD 0‖ ≤ tol)
    (hv : ∀ n ∈ t.energized, n ≠ t.root → ∀ p ∈ study.phasing.nodePhases n,
      study.loads n p ≠ none → m ≤ ‖volt it.V n p‖) :
    |drawnKw t it - loadsKw study t| ≤ tol / (m - tol) * loadsKva study t := by
  have hpoint (p : Phase) (n : String) (hn : n ∈ t.energized.erase t.root) :
      |powerKw (volt it.V n p) (it.iLoad n p) - (loadAt study n p).re| ≤
        tol / (m - tol) * ‖loadAt study n p‖ := by
    obtain ⟨hroot, hn⟩ := Finset.mem_erase.mp hn
    rw [hload, loadCurrent, loadAt]
    by_cases hp : p ∈ study.phasing.nodePhases n
    · rw [if_pos ⟨hn, hp⟩, if_pos hp]
      cases hs : study.loads n p with
      | none => simp [powerKw]
      | some s =>
          have hm := hv n hn hroot p hp (by rw [hs]; exact Option.some_ne_none s)
          have hnear := hmoved n hn hroot p hp
          have hold : orSlack complexPlane (V n p) p = (V n p).getD 0 := by
            have hne : (V n p).getD 0 ≠ 0 := by
              intro hzero
              rw [hzero, sub_zero] at hnear
              linarith
            cases hvp : V n p with
            | none => exact absurd (by rw [hvp]; rfl) hne
            | some v =>
                rw [hvp] at hne
                exact if_neg hne
          rw [hold, Option.getD_some]
          exact abs_powerKw_sub_le hnear htol hm
    · rw [if_neg fun hc => hp hc.2, if_neg hp]
      simp [powerKw]
  rw [drawnKw, loadsKw, loadsKva, ← Finset.sum_sub_distrib, Finset.mul_sum]
  refine (Finset.abs_sum_le_sum_abs _ _).trans (Finset.sum_le_sum fun p _ => ?_)
  rw [← Finset.sum_sub_distrib, Finset.mul_sum]
  exact (Finset.abs_sum_le_sum_abs _ _).trans (Finset.sum_le_sum fun n hn => hpoint p n hn)

/-- **No power is lost but in the lines.** In every iteration whose currents obey Kirchhoff's law,
what the source gives is what the nodes draw and the losses of the report, which are never
negative as long as no resistance is. -/
theorem power_balance (net : Network) (hsource : net.substations ≠ []) {fuel : ℕ}
    (hfuel : net.nodes.length ≤ fuel) (study : Study ℂ ℝ) :
    ∃ sol, solve complexPlane study fuel net.nodes net.edges = pure sol ∧
      ∀ it ∈ sol.iterations, ∃ loss,
        totalLossKw study sol.tree sol.branches it.J = .ok loss ∧
        (Kirchhoff sol.tree it → sourceKw sol.tree it = drawnKw sol.tree it + loss) ∧
        ((∀ e r, study.ratings.resistanceROhm e = some r → 0 ≤ r) → 0 ≤ loss) := by
  obtain ⟨sol, found, hsolve, hsolved⟩ := exists_solve complexPlane study net hsource hfuel
  have hrep := hsolved.represents
  refine ⟨sol, hsolve, fun it hit => ?_⟩
  obtain ⟨V, -, hfollows⟩ := hsolved.follows it hit
  refine ⟨_, totalLossKw_eq hrep hsolved.prepared hfollows.summed,
    balance_of_kirchhoff hrep hsolved.prepared hfollows.summed hfollows.updated, fun hr => ?_⟩
  refine List.sum_nonneg fun x hx => ?_
  obtain ⟨f, -, rfl⟩ := List.mem_map.mp hx
  refine Finset.sum_nonneg fun p _ => mul_nonneg sbase1phKw_pos.le ?_
  refine mul_nonneg (Rat.cast_nonneg.mpr ?_) (sq_nonneg _)
  rw [impedance_fst]
  refine div_nonneg ?_ (sq_nonneg _)
  unfold orDefault
  cases hohm : study.ratings.resistanceROhm f.edge.edgeId with
  | none => exact le_rfl
  | some r =>
      by_cases hzero : r = 0
      · exact (if_pos hzero).ge
      · exact (hr _ r hohm).trans (if_neg hzero).ge

/-- The bus of the lateral has its load on the phase of the line. -/
noncomputable def servedStudy : Study ℂ ℝ :=
  { lateralStudy with loads := fun n p => if n = "BUS-1" ∧ p = .a then some (30 : ℕ) else none }

theorem lateral_balance :
    ∃ sol, solve complexPlane servedStudy 2 lateral.nodes lateral.edges = pure sol ∧
      ∀ it ∈ sol.iterations, ∃ loss,
        totalLossKw servedStudy sol.tree sol.branches it.J = .ok loss ∧
        (Kirchhoff sol.tree it → sourceKw sol.tree it = drawnKw sol.tree it + loss) ∧
        ((∀ e r, servedStudy.ratings.resistanceROhm e = some r → 0 ≤ r) → 0 ≤ loss) :=
  power_balance lateral (by decide) (by decide) servedStudy

end DiepLab.Sweep
