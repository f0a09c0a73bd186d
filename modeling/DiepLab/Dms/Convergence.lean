import DiepLab.Dms.PowerBalance

/-!
Convergence of the power flow.

The sweep has no damping and no fallback: it is the fixed-point iteration of the voltages, and
what makes it settle is that the feeder is not loaded too heavily. The measure is the `stress` of
a way from the source: what the loads, drawn at the nominal voltage, let the voltage fall by. If
it is at most `δ * (1 - δ)` on every way, with `δ` below one half, all voltages stay within `δ` of
the slack (`Near.step`), an iteration brings any two of them nearer by the factor `δ / (1 - δ)`
(`contracts`), and the mismatch falls geometrically until the loop stops (`sweep_converges`).
Phases that a branch does not carry or a node does not have need no exception: their currents
are cut away and their voltages start anew at the slack, which makes both only smaller.
-/

namespace DiepLab.Sweep

open SpanningTree StateEstimation

theorem norm_slack (p : Phase) : ‖complexPlane.slack p‖ = 1 := by
  cases p <;> exact Complex.norm_exp_ofReal_mul_I _

/-- What the loads at the nominal voltage let the voltage fall by on the way. -/
noncomputable def stress (study : Study ℂ ℝ) (t : RadialTree) (b : Branches ℂ)
    (path : List GridEdge) (p : Phase) : ℝ :=
  (path.map fun e => ‖(b.zPu.get? e.edgeId).getD 0‖ *
    ∑ k ∈ (t.subtree.get? e.edgeId).getD ∅, ‖loadAt study k p‖ / (sbase1phKw : ℝ)).sum

/-- The voltages are within `δ` of the slack. -/
structure Near (study : Study ℂ ℝ) (t : RadialTree) (δ : ℝ) (V : Voltages ℂ) : Prop where
  root : V t.root = flatStart complexPlane study t t.root
  absent : ∀ n, ∀ p ∉ study.phasing.nodePhases n, V n p = none
  node : ∀ n ∈ t.energized, ∀ p ∈ study.phasing.nodePhases n,
    ∃ v, V n p = some v ∧ ‖v - complexPlane.slack p‖ ≤ δ

theorem near_flatStart (study : Study ℂ ℝ) (t : RadialTree) {δ : ℝ} (hδ : 0 ≤ δ) :
    Near study t δ (flatStart complexPlane study t) where
  root := rfl
  absent _ _ hp := if_neg fun hc => hp hc.2
  node n hn p hp := by
    refine ⟨complexPlane.slack p, if_pos ⟨hn, hp⟩, ?_⟩
    rw [sub_self, norm_zero]
    exact hδ

namespace Near

variable {study : Study ℂ ℝ} {t : RadialTree} {δ : ℝ} {V : Voltages ℂ}
  (hV : Near study t δ V)
include hV

theorem volt_root (p : Phase) : volt V t.root p = complexPlane.slack p := by
  rw [volt, hV.root, flatStart]
  split <;> rfl

theorem volt_absent {n : String} {p : Phase} (hp : p ∉ study.phasing.nodePhases n) :
    volt V n p = complexPlane.slack p := by
  rw [volt, hV.absent n p hp]
  rfl

theorem volt_sub_le (hδ : 0 ≤ δ) {n : String} (hn : n ∈ t.energized) (p : Phase) :
    ‖volt V n p - complexPlane.slack p‖ ≤ δ := by
  by_cases hp : p ∈ study.phasing.nodePhases n
  · obtain ⟨v, hv, hle⟩ := hV.node n hn p hp
    rwa [volt, hv]
  · rw [hV.volt_absent hp, sub_self, norm_zero]
    exact hδ

theorem le_norm_volt (hδ : 0 ≤ δ) {n : String} (hn : n ∈ t.energized) (p : Phase) :
    1 - δ ≤ ‖volt V n p‖ := by
  have hle := hV.volt_sub_le hδ hn p
  have := norm_sub_norm_le (complexPlane.slack p) (volt V n p)
  rw [norm_slack, norm_sub_rev] at this
  linarith

/-- No voltage is so low that the code would take the slack in its place. -/
theorem loadCurrent_eq (hδ : 0 ≤ δ) (hone : δ < 1) {n : String} (hn : n ∈ t.energized)
    (p : Phase) : loadCurrent complexPlane study t V n p =
      star (loadAt study n p / (sbase1phKw : ℂ) / volt V n p) := by
  rw [loadCurrent, loadAt]
  by_cases hp : p ∈ study.phasing.nodePhases n
  · rw [if_pos ⟨hn, hp⟩, if_pos hp]
    obtain ⟨v, hv, -⟩ := hV.node n hn p hp
    have hle := hV.le_norm_volt hδ hn p
    rw [volt, hv, Option.getD_some] at hle ⊢
    have hne : v ≠ 0 := norm_pos_iff.mp ((sub_pos.mpr hone).trans_le hle)
    have hold : orSlack complexPlane (some v) p = v := if_neg hne
    rw [hold]
    cases study.loads n p with
    | none => simp
    | some s => rfl
  · rw [if_neg fun hc => hp hc.2, if_neg hp, zero_div, zero_div, star_zero]

theorem norm_loadCurrent_le (hδ : 0 ≤ δ) (hone : δ < 1) {n : String} (hn : n ∈ t.energized)
    (p : Phase) : ‖loadCurrent complexPlane study t V n p‖ ≤
      ‖loadAt study n p‖ / (sbase1phKw : ℝ) * (1 / (1 - δ)) := by
  rw [hV.loadCurrent_eq hδ hone hn, norm_star, norm_div, norm_div, Complex.norm_ratCast,
    abs_of_pos sbase1phKw_pos, ← div_eq_mul_one_div]
  exact div_le_div_of_nonneg_left (div_nonneg (norm_nonneg _) sbase1phKw_pos.le)
    (sub_pos.mpr hone) (hV.le_norm_volt hδ hn p)

theorem norm_loadCurrent_sub_le (hδ : 0 ≤ δ) (hone : δ < 1) {V' : Voltages ℂ}
    (hV' : Near study t δ V') {n : String} (hn : n ∈ t.energized) {p : Phase} {ε : ℝ}
    (hε : ‖volt V n p - volt V' n p‖ ≤ ε) :
    ‖loadCurrent complexPlane study t V n p - loadCurrent complexPlane study t V' n p‖ ≤
      ‖loadAt study n p‖ / (sbase1phKw : ℝ) * (ε / (1 - δ) ^ 2) := by
  have hpos : 0 < 1 - δ := sub_pos.mpr hone
  have hv := hV.le_norm_volt hδ hn p
  have hv' := hV'.le_norm_volt hδ hn p
  have hne : volt V n p ≠ 0 := norm_pos_iff.mp (hpos.trans_le hv)
  have hne' : volt V' n p ≠ 0 := norm_pos_iff.mp (hpos.trans_le hv')
  have hsub : loadAt study n p / (sbase1phKw : ℂ) / volt V n p -
      loadAt study n p / (sbase1phKw : ℂ) / volt V' n p =
        loadAt study n p / (sbase1phKw : ℂ) *
          ((volt V' n p - volt V n p) / (volt V n p * volt V' n p)) := by
    rw [div_eq_mul_inv _ (volt V n p), div_eq_mul_inv _ (volt V' n p), ← mul_sub,
      inv_sub_inv hne hne']
  rw [hV.loadCurrent_eq hδ hone hn, hV'.loadCurrent_eq hδ hone hn, ← star_sub, norm_star, hsub,
    norm_mul, norm_div, norm_div, norm_mul, Complex.norm_ratCast, abs_of_pos sbase1phKw_pos]
  refine mul_le_mul_of_nonneg_left ?_ (div_nonneg (norm_nonneg _) sbase1phKw_pos.le)
  refine div_le_div₀ ((norm_nonneg _).trans hε) ?_ (pow_pos hpos 2) ?_
  · rwa [norm_sub_rev]
  · rw [sq]
    exact mul_le_mul hv hv' hpos.le (norm_nonneg _)

end Near

/-! ### One iteration -/

section Step

variable {net : Network} {t : RadialTree} {found : List (Found String GridEdge)}
  (h : Represents net t found) {study : Study ℂ ℝ} {b : Branches ℂ}
  (hb : Prepared complexPlane study found b)

/-- The nodes behind a branch are supplied ones. -/
theorem mem_energized_of_behind (h : Represents net t found) {f : Found String GridEdge}
    (hf : f ∈ found) {k : String} (hk : k ∈ behind t.order found f.node) : k ∈ t.energized := by
  have hmem := h.tree.node_mem hf
  exact (h.energized k).mpr (h.tree.mem_of_descends ((h.tree.mem_behind hmem).mp hk) hmem)

include h hb

theorem stress_found (path : List (Found String GridEdge)) (hpath : ∀ f ∈ path, f ∈ found)
    (p : Phase) : stress study t b (path.map Found.edge) p =
      (path.map fun f => ‖branchZ complexPlane study f‖ *
        ∑ k ∈ behind t.order found f.node, ‖loadAt study k p‖ / (sbase1phKw : ℝ)).sum := by
  rw [stress, List.map_map]
  refine congrArg List.sum (List.map_congr_left fun f hf => ?_)
  obtain ⟨below, hbelow, hmem⟩ := h.subtree f (hpath f hf)
  rw [Function.comp_apply, hb.zPu f (hpath f hf), hbelow, Option.getD_some, Option.getD_some,
    h.tree.eq_behind (h.tree.node_mem (hpath f hf)) hmem]

variable {δ : ℝ} (hstress : ∀ n path, t.pathEdges.get? n = some path → ∀ p,
  stress study t b path p ≤ δ * (1 - δ))
include hstress

/-- What falls over the branches of a way in proportion to their loads. -/
theorem norm_le_of_stress {u : String → ℂ} {c : Found String GridEdge → ℂ} {p : Phase} {g : ℝ}
    (hg : 0 ≤ g) (hroot : u t.root = 0)
    (hstep : ∀ f ∈ found, u f.node = u f.parent - branchZ complexPlane study f * c f ∨
      u f.node = 0)
    (hc : ∀ f ∈ found, ‖c f‖ ≤
      ∑ k ∈ behind t.order found f.node, ‖loadAt study k p‖ / (sbase1phKw : ℝ) * g)
    {n : String} (hn : n ∈ t.energized) : ‖u n‖ ≤ δ * (1 - δ) * g := by
  rw [h.energized] at hn
  obtain ⟨path, hpath⟩ := h.tree.exists_path hn
  have hmem (f : Found String GridEdge) (hf : f ∈ path) : f ∈ found :=
    SpanningTree.Tree.of_mem_path hpath hf
  calc ‖u n‖ ≤ (path.map fun f => ‖branchZ complexPlane study f * c f‖).sum :=
        norm_le_along hroot hstep hpath
    _ ≤ (path.map fun f => ‖branchZ complexPlane study f‖ *
          (∑ k ∈ behind t.order found f.node, ‖loadAt study k p‖ / (sbase1phKw : ℝ)) * g).sum := by
        refine List.sum_le_sum fun f hf => ?_
        rw [norm_mul, mul_assoc, Finset.sum_mul]
        exact mul_le_mul_of_nonneg_left (hc f (hmem f hf)) (norm_nonneg _)
    _ = stress study t b (path.map Found.edge) p * g := by
        rw [stress_found h hb path hmem, List.sum_map_mul_right]
    _ ≤ δ * (1 - δ) * g :=
        mul_le_mul_of_nonneg_right (hstress n _ (h.pathEdges n path (Or.inr hn) hpath) p) hg

variable (hδ : 0 ≤ δ) (hone : δ < 1)
include hδ hone

/-- An iteration stays near the slack. -/
theorem Near.step {V : Voltages ℂ} (hV : Near study t δ V) {it : Iteration ℂ ℝ}
    (hit : Follows complexPlane study t found b V it)
    (habsent : ∀ n, ∀ p ∉ study.phasing.nodePhases n, it.V n p = V n p) :
    Near study t δ it.V := by
  have hpos : 0 < 1 - δ := sub_pos.mpr hone
  have hroot : it.V t.root = flatStart complexPlane study t t.root := by
    rw [hit.updated.root, hV.root]
  have hnone (n : String) (p : Phase) (hp : p ∉ study.phasing.nodePhases n) :
      it.V n p = none := by
    rw [habsent n p hp, hV.absent n p hp]
  have hnear (n : String) (hn : n ∈ t.energized) (p : Phase) :
      ‖volt it.V n p - complexPlane.slack p‖ ≤ δ := by
    refine (norm_le_of_stress h hb hstress (p := p) (g := 1 / (1 - δ))
      (u := fun n => volt it.V n p - complexPlane.slack p)
      (c := fun f => current it.J f.edge.edgeId p) (by positivity) ?_ (fun f hf => ?_)
      (fun f hf => ?_) hn).trans ?_
    · simp only [volt, hroot, flatStart]
      split <;> exact sub_self _
    · by_cases hp : p ∈ study.phasing.nodePhases f.node
      · refine Or.inl ?_
        simp only [volt, hit.updated.node f hf p hp, Option.getD_some, drop, hb.zPu f hf]
        ring
      · refine Or.inr ?_
        simp only [volt, hnone f.node p hp, Option.getD_none, sub_self]
    · rw [current_found h hit.summed hf, hit.iLoad]
      split
      · refine (norm_sum_le _ _).trans (Finset.sum_le_sum fun k hk => ?_)
        exact hV.norm_loadCurrent_le hδ hone (mem_energized_of_behind h hf hk) p
      · rw [norm_zero]
        have := sbase1phKw_pos
        exact Finset.sum_nonneg fun k _ => by positivity
    · rw [mul_assoc, mul_one_div_cancel hpos.ne', mul_one]
  refine ⟨hroot, hnone, fun n hn p hp => ?_⟩
  have hle := hnear n hn p
  by_cases hn' : n = t.root
  · subst hn'
    refine ⟨complexPlane.slack p, ?_, ?_⟩
    · rw [hroot]
      exact if_pos ⟨hn, hp⟩
    · rw [sub_self, norm_zero]
      exact hδ
  · obtain ⟨f, hf, rfl⟩ := h.tree.exists_found ((h.energized n).mp hn) hn'
    have hvolt := hit.updated.node f hf p hp
    rw [volt, hvolt] at hle
    exact ⟨_, hvolt, hle⟩

/-- Two starts near the slack come nearer to each other by the factor `δ / (1 - δ)`. -/
theorem contracts {V V' : Voltages ℂ} (hV : Near study t δ V) (hV' : Near study t δ V')
    {it it' : Iteration ℂ ℝ} (hit : Follows complexPlane study t found b V it)
    (hit' : Follows complexPlane study t found b V' it') (hnext : Near study t δ it.V)
    (hnext' : Near study t δ it'.V) {p : Phase} {ε : ℝ} (hε : 0 ≤ ε)
    (hdist : ∀ n ∈ t.energized, ‖volt V n p - volt V' n p‖ ≤ ε) {n : String}
    (hn : n ∈ t.energized) : ‖volt it.V n p - volt it'.V n p‖ ≤ δ / (1 - δ) * ε := by
  have hpos : 0 < 1 - δ := sub_pos.mpr hone
  refine (norm_le_of_stress h hb hstress (p := p) (g := ε / (1 - δ) ^ 2)
    (u := fun n => volt it.V n p - volt it'.V n p)
    (c := fun f => current it.J f.edge.edgeId p - current it'.J f.edge.edgeId p)
    (by positivity) ?_ (fun f hf => ?_) (fun f hf => ?_) hn).trans (le_of_eq ?_)
  · simp only [hnext.volt_root, hnext'.volt_root, sub_self]
  · by_cases hp : p ∈ study.phasing.nodePhases f.node
    · refine Or.inl ?_
      simp only [volt, hit.updated.node f hf p hp, hit'.updated.node f hf p hp, Option.getD_some,
        drop, hb.zPu f hf]
      ring
    · refine Or.inr ?_
      simp only [hnext.volt_absent hp, hnext'.volt_absent hp, sub_self]
  · rw [current_found h hit.summed hf, current_found h hit'.summed hf, hit.iLoad, hit'.iLoad]
    split
    · rw [← Finset.sum_sub_distrib]
      refine (norm_sum_le _ _).trans (Finset.sum_le_sum fun k hk => ?_)
      have hk := mem_energized_of_behind h hf hk
      exact hV.norm_loadCurrent_sub_le hδ hone hV' hk (hdist k hk)
    · rw [sub_zero, norm_zero]
      have := sbase1phKw_pos
      exact Finset.sum_nonneg fun k _ => by positivity
  · field_simp

theorem exists_iteration_near {V : Voltages ℂ} (hV : Near study t δ V) :
    ∃ it, iteration complexPlane study t b V = .ok it ∧
      Follows complexPlane study t found b V it ∧ Near study t δ it.V ∧
      ∀ c, 0 ≤ c → (∀ n ∈ t.energized, ∀ p, ‖volt it.V n p - volt V n p‖ ≤ c) →
        it.mismatch ≤ c := by
  obtain ⟨it, hit, hfollows⟩ := exists_iteration h complexPlane study hb V
  obtain ⟨it', hit', hmismatch, habsent⟩ := exists_iteration_mismatch h hb V
  obtain rfl := Except.ok.inj (hit.symm.trans hit')
  have hnear := Near.step h hb hstress hδ hone hV hfollows habsent
  refine ⟨it, hit, hfollows, hnear, fun c hc hmoved => (hmismatch c).mpr ⟨hc, fun f hf p hp => ?_⟩⟩
  have hn := (h.energized f.node).mpr (h.tree.node_mem hf)
  have hle := hmoved f.node hn p
  obtain ⟨v, hv, -⟩ := hV.node f.node hn p hp
  obtain ⟨v', hv', -⟩ := hnear.node f.node hn p hp
  rw [volt, volt, hv, hv'] at hle
  rwa [hv, hv']

/-- Every iteration is near the slack, and moves less than the one before. -/
theorem iterations_contract {turns : ℕ} {V : Voltages ℂ} {its : List (Iteration ℂ ℝ)}
    (hV : Near study t δ V) (hrun : iterations complexPlane study t b turns V = .ok its) {ε : ℝ}
    (hε : 0 ≤ ε)
    (hfirst : ∀ it, iteration complexPlane study t b V = .ok it →
      ∀ n ∈ t.energized, ∀ p, ‖volt it.V n p - volt V n p‖ ≤ ε)
    {k : ℕ} {it : Iteration ℂ ℝ} (hk : its[k]? = some it) :
    it.mismatch ≤ (δ / (1 - δ)) ^ k * ε ∧ Near study t δ it.V := by
  induction turns generalizing V its ε k with
  | zero =>
      obtain rfl := Except.ok.inj hrun
      rw [List.getElem?_nil] at hk
      exact absurd hk (Option.some_ne_none it).symm
  | succ turns ih =>
      obtain ⟨first, hturn, hfollows, hnear, hmismatch⟩ :=
        exists_iteration_near h hb hstress hδ hone hV
      have hzero : first.mismatch ≤ (δ / (1 - δ)) ^ 0 * ε := by
        rw [pow_zero, one_mul]
        exact hmismatch ε hε (hfirst first hturn)
      rw [iterations, hturn] at hrun
      by_cases hstop : first.mismatch < study.tolPu
      · obtain rfl := Except.ok.inj ((if_pos hstop).symm.trans hrun)
        cases k with
        | zero =>
            obtain rfl := Option.some.inj hk
            exact ⟨hzero, hnear⟩
        | succ k =>
            rw [List.getElem?_cons_succ, List.getElem?_nil] at hk
            exact absurd hk (Option.some_ne_none it).symm
      · obtain ⟨rest, hrest, hrun⟩ := bind_eq_ok.mp ((if_neg hstop).symm.trans hrun)
        obtain rfl := Except.ok.inj hrun
        cases k with
        | zero =>
            obtain rfl := Option.some.inj hk
            exact ⟨hzero, hnear⟩
        | succ k =>
            have hpos : 0 < 1 - δ := sub_pos.mpr hone
            rw [List.getElem?_cons_succ] at hk
            have hnext := ih hnear hrest (ε := δ / (1 - δ) * ε) (by positivity)
              (fun it hit n hn p => ?_) hk
            · rwa [← mul_assoc, ← pow_succ] at hnext
            · -- the next iteration starts where this one has ended
              obtain ⟨it', hit', hfollows', hnear', -⟩ :=
                exists_iteration_near h hb hstress hδ hone hnear
              obtain rfl := Except.ok.inj (hit.symm.trans hit')
              exact contracts h hb hstress hδ hone hnear hV hfollows' hfollows hnear' hnear hε
                (fun n hn => hfirst first hturn n hn p) hn

end Step

/-! ### The loop -/

/-- The loop stops at the first iteration whose mismatch is below the tolerance. -/
theorem iterations_stop {study : Study ℂ ℝ} {t : RadialTree} {b : Branches ℂ} {turns : ℕ}
    {V : Voltages ℂ} {its : List (Iteration ℂ ℝ)}
    (hrun : iterations complexPlane study t b turns V = .ok its) {k : ℕ} (hk : k < turns)
    (hsmall : ∀ it, its[k]? = some it → it.mismatch < study.tolPu) :
    its.length ≤ k + 1 ∧ ∃ it, its.getLast? = some it ∧ it.mismatch < study.tolPu := by
  induction turns generalizing V its k with
  | zero => exact absurd hk (Nat.not_lt_zero k)
  | succ turns ih =>
      rw [iterations] at hrun
      obtain ⟨first, hfirst, hrun⟩ := bind_eq_ok.mp hrun
      by_cases hstop : first.mismatch < study.tolPu
      · rw [if_pos hstop] at hrun
        obtain rfl := Except.ok.inj hrun
        exact ⟨Nat.succ_le_succ (Nat.zero_le k), first, rfl, hstop⟩
      · rw [if_neg hstop] at hrun
        obtain ⟨rest, hrest, hrun⟩ := bind_eq_ok.mp hrun
        obtain rfl := Except.ok.inj hrun
        cases k with
        | zero => exact absurd (hsmall first rfl) hstop
        | succ k =>
            obtain ⟨hlength, it, hlast, hit⟩ := ih hrest (Nat.lt_of_succ_lt_succ hk)
              fun it hit => hsmall it (by rwa [List.getElem?_cons_succ])
            refine ⟨Nat.succ_le_succ hlength, it, ?_, hit⟩
            rw [List.getLast?_cons, hlast]
            rfl

/-- **A feeder that is not loaded too heavily is solved.** If on every way the loads at the nominal
voltage let the voltage fall by at most `δ * (1 - δ)`, with `δ` below one half, then all
iterations keep all voltages within `δ` of the slack and the mismatch of the `k`-th is at most
`δ` times the `k`-th power of `δ / (1 - δ)`; and once that is below the tolerance, with an
iteration left, the sweep has converged. -/
theorem sweep_converges (net : Network) (hsource : net.substations ≠ []) {fuel : ℕ}
    (hfuel : net.nodes.length ≤ fuel) (study : Study ℂ ℝ) :
    ∃ sol, solve complexPlane study fuel net.nodes net.edges = pure sol ∧
      ∀ δ, 0 ≤ δ → δ < 1 / 2 →
        (∀ n path, sol.tree.pathEdges.get? n = some path → ∀ p,
          stress study sol.tree sol.branches path p ≤ δ * (1 - δ)) →
        (∀ k it, sol.iterations[k]? = some it → it.mismatch ≤ (δ / (1 - δ)) ^ k * δ ∧
          ∀ n ∈ sol.tree.energized, ∀ p, ‖volt it.V n p - complexPlane.slack p‖ ≤ δ) ∧
        ∀ k, (δ / (1 - δ)) ^ k * δ < study.tolPu → k < study.maxIter →
          sol.converged = true ∧ sol.iterations.length ≤ k + 1 := by
  obtain ⟨sol, found, hsolve, hsolved⟩ := exists_solve complexPlane study net hsource hfuel
  have hrep := hsolved.represents
  obtain ⟨hits, hlast⟩ := iterations_of_solve hsolve
  refine ⟨sol, hsolve, fun δ hδ hhalf hstress => ?_⟩
  have hone : δ < 1 := hhalf.trans one_half_lt_one
  have hflat := near_flatStart study sol.tree hδ
  have hall {k : ℕ} {it : Iteration ℂ ℝ} (hk : sol.iterations[k]? = some it) :
      it.mismatch ≤ (δ / (1 - δ)) ^ k * δ ∧ Near study sol.tree δ it.V := by
    refine iterations_contract hrep hsolved.prepared hstress hδ hone hflat hits hδ ?_ hk
    intro it hit n hn p
    obtain ⟨it', hit', -, hnear, -⟩ :=
      exists_iteration_near hrep hsolved.prepared hstress hδ hone hflat
    obtain rfl := Except.ok.inj (hit.symm.trans hit')
    have hslack : volt (flatStart complexPlane study sol.tree) n p = complexPlane.slack p := by
      rw [volt, flatStart]
      split <;> rfl
    rw [hslack]
    exact hnear.volt_sub_le hδ hn p
  refine ⟨fun k it hk => ⟨(hall hk).1, fun n hn p => (hall hk).2.volt_sub_le hδ hn p⟩,
    fun k hsmall hk => ?_⟩
  obtain ⟨hlength, it, hit, hstop⟩ := iterations_stop hits hk fun it hit =>
    (hall hit).1.trans_lt hsmall
  refine ⟨?_, hlength⟩
  rw [hlast, hit, Option.any_some]
  exact decide_eq_true hstop

/-- The bus of the lateral has a load of 3 kW. -/
noncomputable def lightStudy : Study ℂ ℝ :=
  { lateralStudy with loads := fun n p => if n = "BUS-1" ∧ p = .a then some (3 : ℕ) else none }

/-- The line has an impedance of less than 18 pu, and the load is less than one hundredth. -/
theorem lateral_stress {sol : Solution ℂ ℝ}
    (hsolve : solve complexPlane lightStudy 2 lateral.nodes lateral.edges = pure sol)
    (path : List GridEdge) (n : String) (hpath : sol.tree.pathEdges.get? n = some path)
    (p : Phase) : stress lightStudy sol.tree sol.branches path p ≤ 1 / 4 * (1 - 1 / 4) := by
  obtain ⟨t, hbuild, hpaths, hbelow, e, he, hedge⟩ :
      ∃ t, buildRadial 2 lateral.nodes lateral.edges = pure t ∧
        (∀ kv ∈ t.pathEdges, kv.2 = [] ∨ kv.2 = lateral.edges) ∧
        t.subtree.get? "LN-1" = some {"BUS-1"} ∧
        ∃ e ∈ lateral.edges, t.parentEdge.get? "BUS-1" = some e := by
    decide
  obtain rfl := pure_inj.mp (hbuild.symm.trans (tree_of_solve hsolve))
  obtain ⟨sol', found, hsolve', hsolved⟩ := exists_solve complexPlane lightStudy lateral
    (by decide) (show lateral.nodes.length ≤ 2 by decide)
  obtain rfl := pure_inj.mp (hsolve.symm.trans hsolve')
  obtain ⟨f, hf, hbus, rfl⟩ := hsolved.represents.exists_of_parentEdge hedge
  have hline : f.edge.edgeId = "LN-1" := by
    rw [List.mem_singleton.mp he]
  have hz : ‖branchZ complexPlane lightStudy f‖ ≤ 18 := by
    refine (Complex.norm_le_abs_re_add_abs_im _).trans ?_
    have hohm : impedance lightStudy.ratings f.node f.edge =
        (1 / (415 / 1000) ^ 2, 2 / (415 / 1000) ^ 2) := by
      norm_num [impedance, lightStudy, lateralStudy, orDefault, sbaseKw]
    rw [branchZ, hohm]
    norm_num [complexPlane]
  have hload : ‖loadAt lightStudy "BUS-1" p‖ ≤ 3 := by
    unfold loadAt lightStudy
    split
    · by_cases hp : p = .a
      · simp [hp]
      · simp [hp]
    · simp
  have hbase : (sbase1phKw : ℝ) = 1000 / 3 := by norm_num [sbase1phKw, sbaseKw]
  rcases hpaths _ (Dict.mem_of_get? hpath) with hnil | hone
  · obtain rfl : path = [] := hnil
    norm_num [stress]
  · obtain rfl : path = lateral.edges := hone
    have hzPu := hsolved.prepared.zPu f hf
    rw [hline] at hzPu
    have heq : stress lightStudy sol.tree sol.branches lateral.edges p =
        ‖branchZ complexPlane lightStudy f‖ * (‖loadAt lightStudy "BUS-1" p‖ / (1000 / 3)) := by
      simp [stress, lateral, hzPu, hbelow, hbase]
    rw [heq]
    have hprod := mul_le_mul hz hload (norm_nonneg _) (by norm_num)
    linarith

theorem lateral_converges :
    ∃ sol, solve complexPlane lightStudy 2 lateral.nodes lateral.edges = pure sol ∧
      sol.converged = true ∧ sol.iterations.length ≤ 13 := by
  obtain ⟨sol, hsolve, hall⟩ := sweep_converges lateral (by decide)
    (show lateral.nodes.length ≤ 2 by decide) lightStudy
  obtain ⟨-, hstop⟩ := hall (1 / 4) (by norm_num) (by norm_num) fun n path hpath p =>
    lateral_stress hsolve path n hpath p
  exact ⟨sol, hsolve, hstop 12 (by norm_num [lightStudy, lateralStudy])
    (by norm_num [lightStudy, lateralStudy])⟩

end DiepLab.Sweep
