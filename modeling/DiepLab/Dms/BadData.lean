import DiepLab.Dms.Estimate
import DiepLab.Library.Residuals
import DiepLab.PyValue
import Mathlib.Analysis.Real.Sqrt

/-!
What the state estimator says of its own estimate.

From the inverse of the normal matrix `estimate` takes the variance of each residual and of
each voltage. The largest residual in units of its deviation is flagged as bad data if it is
above the threshold, and the deviation of its voltage makes the confidence of a node. These
numbers are roots, so they are reals; what is under the roots is rational. The rounding of the
report is left out.

A `Fit` is what `estimate` has worked out by then (`exists_fit`).
-/

namespace DiepLab.StateEstimation

open Matrix LeastSquares

/-- No standard deviation is nought. -/
structure Options.Proper (opt : Options) : Prop where
  sigmaPMeterKw : opt.sigmaPMeterKw ≠ 0
  sigmaQMeterKvar : opt.sigmaQMeterKvar ≠ 0
  sigmaVMeterPu : opt.sigmaVMeterPu ≠ 0
  sigmaPPseudoKw : opt.sigmaPPseudoKw ≠ 0
  sigmaQPseudoKvar : opt.sigmaQPseudoKvar ≠ 0

theorem Options.proper_default : Options.Proper {} := by
  constructor <;> norm_num

/-- The rows of an estimate, with the solution of their normal equations. -/
structure Fit (t : RadialTree) (ratings : Ratings) (measurements : Dict NodeTelemetry)
    (opt : Options) where
  pu : Dict (ℚ × ℚ)
  rows : List (MeasurementRow t.ncol)
  xhat : Fin t.ncol → ℚ
  ginv : Fin t.ncol → Fin t.ncol → ℚ
  impedances_eq : impedances ratings t = .ok pu
  rows_eq : measurementRows t pu ratings measurements opt = .ok rows
  solve_eq :
    Linalg.solve (matrixHtW rows * matrixH rows) (matrixHtW rows *ᵥ vectorZ rows) = .ok xhat
  inverse_eq : Linalg.inverse (matrixHtW rows * matrixH rows) = .ok ginv

/-! ### The diagnostics -/

section Diagnostics

variable {ncol : ℕ} (rows : List (MeasurementRow ncol)) (xhat : Fin ncol → ℚ)
  (ginv : Fin ncol → Fin ncol → ℚ)

/-- `omega`: the variance of a residual. -/
def residualVariance (k : Fin rows.length) : ℚ :=
  1 / vectorW rows k - ∑ c, matrixH rows k c * (of ginv * (matrixH rows)ᵀ) c k

/-- `norm_resid`. -/
noncomputable def normResid (k : Fin rows.length) : ℝ :=
  if 1 / 10 ^ 12 < residualVariance rows ginv k then
    |(resid rows xhat k : ℝ)| / √(residualVariance rows ginv k : ℝ)
  else 0

open Classical in
/-- `bad`: the first row with the largest normalized residual, if that is above the
threshold. -/
noncomputable def badData (badDataThreshold : ℝ) : Option (Fin rows.length) :=
  ((List.finRange rows.length).argmax (normResid rows xhat ginv)).filter fun k =>
    badDataThreshold < normResid rows xhat ginv k

/-- `var_v`, of the row `hrow` of a voltage. -/
def varV (hrow : Fin ncol → ℚ) : ℚ := ∑ a, ∑ b, hrow a * ginv a b * hrow b

end Diagnostics

/-- The table of `_chi2_threshold`. -/
def chi2Table : List (ℕ × ℚ) :=
  [(1, 663 / 100), (2, 921 / 100), (3, 1134 / 100), (4, 1328 / 100), (5, 1509 / 100),
    (6, 1681 / 100), (7, 1848 / 100), (8, 2009 / 100), (9, 2167 / 100), (10, 2321 / 100),
    (12, 2622 / 100), (15, 3058 / 100), (20, 3757 / 100)]

/-- `_chi2_threshold`: Upper ~99% χ² critical value. -/
noncomputable def chi2Threshold (dof : ℕ) : ℝ :=
  match chi2Table.lookup dof with
  | some critical => critical
  -- Wilson–Hilferty normal approximation for larger dof
  | none => dof * (1 - 2 / (9 * dof) + 2326 / 1000 * √(2 / (9 * dof))) ^ 3

theorem chi2Threshold_nonneg (dof : ℕ) : 0 ≤ chi2Threshold dof := by
  unfold chi2Threshold
  split
  · rename_i critical hlookup
    have hall : ∀ entry ∈ chi2Table, 0 ≤ entry.2 := by
      simp only [chi2Table, List.forall_mem_cons]
      norm_num
    obtain ⟨before, after, htable, -⟩ := List.lookup_eq_some_iff.mp hlookup
    have hcritical := hall (dof, critical) (by rw [htable]; simp)
    exact_mod_cast hcritical
  · rcases dof.eq_zero_or_pos with rfl | hpos
    · simp
    · have hdof : (1 : ℝ) ≤ dof := by exact_mod_cast hpos
      have hsmall : 2 / (9 * (dof : ℝ)) ≤ 1 := by
        rw [div_le_one (by positivity)]
        linarith
      have hroot := Real.sqrt_nonneg (2 / (9 * (dof : ℝ)))
      have hbase : 0 ≤ 1 - 2 / (9 * (dof : ℝ)) + 2326 / 1000 * √(2 / (9 * (dof : ℝ))) := by
        linarith
      positivity

/-- `bool(measurements.get(nid))`. -/
def monitored (measurements : Dict NodeTelemetry) (nid : String) : Bool :=
  match measurements.get? nid with
  | none => false
  | some m => m.pKw.isSome || m.qKvar.isSome || m.voltagePu.isSome

/-- `conf` of a voltage with this variance. -/
noncomputable def confidenceOf (variance : ℚ) (monitored : Bool) : ℝ :=
  let stdV := √(max (variance : ℝ) 0)
  let conf := max 0 (min 1 (1 - stdV / (4 / 100)))
  if monitored then max conf (85 / 100) else conf

/-- The confidence of a node. -/
noncomputable def confidence (t : RadialTree) (pu : Dict (ℚ × ℚ))
    (measurements : Dict NodeTelemetry) (ginv : Fin t.ncol → Fin t.ncol → ℚ) (nid : String) :
    Except Exc ℝ :=
  if nid ∉ t.energized then pure 0
  else if nid = t.root then pure 1
  else do
    let hrow ← vSensitivityRow t pu nid
    pure (confidenceOf (varV ginv hrow) (monitored measurements nid))

/-! ### The fit -/

section Normal

variable {t : RadialTree} {ratings : Ratings} {measurements : Dict NodeTelemetry} {opt : Options}
  (fit : Fit t ratings measurements opt)

/-- An estimate with a state is made from a fit. -/
theorem exists_fit {nodes : List GridNode} {est : Estimate}
    (hest : estimateOn t nodes ratings measurements opt = .ok est) (hcol : t.ncol ≠ 0) :
    ∃ (fit : Fit t ratings measurements opt) (branches : List BranchFlow)
      (results : List NodeEstimate), est = {
        states := t.ncol
        rows := fit.rows
        xhat := fit.xhat
        ginv := fit.ginv
        objectiveJ := objectiveJ fit.rows fit.xhat
        dof := max (fit.rows.length - t.ncol) 1
        branches := branches
        nodes := results } := by
  obtain ⟨pu, hpu, hest⟩ := bind_eq_ok.mp hest
  rw [if_neg hcol] at hest
  obtain ⟨rows, hrows, hest⟩ := bind_eq_ok.mp hest
  obtain ⟨xhat, hsolve, hest⟩ := bind_eq_ok.mp hest
  obtain ⟨ginv, hinverse, hest⟩ := bind_eq_ok.mp hest
  obtain ⟨branch, -, hest⟩ := bind_eq_ok.mp hest
  obtain ⟨results, -, hest⟩ := bind_eq_ok.mp hest
  injection hest with hest
  exact ⟨⟨pu, rows, xhat, ginv, hpu, hrows, hsolve, hinverse⟩, branch.map Prod.snd, results,
    hest.symm⟩

namespace Fit

theorem normal_eq : matrixHtW fit.rows * matrixH fit.rows =
    normalMatrix (matrixH fit.rows) (vectorW fit.rows) := by
  rw [matrixHtW_eq]
  rfl

theorem rhs_eq : matrixHtW fit.rows *ᵥ vectorZ fit.rows =
    normalRhs (matrixH fit.rows) (vectorW fit.rows) (vectorZ fit.rows) := by
  rw [matrixHtW_eq]
  rfl

theorem inverse : normalMatrix (matrixH fit.rows) (vectorW fit.rows) * of fit.ginv = 1 := by
  rw [← fit.normal_eq]
  exact Linalg.mul_of_inverse fit.inverse_eq

/-- The state is the one solution of the normal equations. -/
theorem solves_iff (y : Fin t.ncol → ℚ) :
    normalMatrix (matrixH fit.rows) (vectorW fit.rows) *ᵥ y =
      normalRhs (matrixH fit.rows) (vectorW fit.rows) (vectorZ fit.rows) ↔ y = fit.xhat := by
  rw [← fit.normal_eq, ← fit.rhs_eq]
  exact Linalg.mulVec_iff_of_solve fit.solve_eq y

theorem solution : normalMatrix (matrixH fit.rows) (vectorW fit.rows) *ᵥ fit.xhat =
    normalRhs (matrixH fit.rows) (vectorW fit.rows) (vectorZ fit.rows) :=
  (fit.solves_iff fit.xhat).mpr rfl

theorem residualVariance_eq (k : Fin fit.rows.length) :
    residualVariance fit.rows fit.ginv k =
      residualCov (matrixH fit.rows) (vectorW fit.rows) (of fit.ginv) k k := by
  rw [residualVariance, residualCov, Matrix.sub_apply, diagonal_apply_eq, Pi.inv_apply, one_div,
    fittedCov, Matrix.mul_assoc, mul_apply]

end Fit

theorem varV_eq {ncol : ℕ} (ginv : Fin ncol → Fin ncol → ℚ) (hrow : Fin ncol → ℚ) :
    varV ginv hrow = hrow ⬝ᵥ (of ginv *ᵥ hrow) := by
  refine Finset.sum_congr rfl fun a _ => ?_
  rw [mulVec, dotProduct, Finset.mul_sum]
  exact Finset.sum_congr rfl fun b _ => mul_assoc _ _ _

end Normal

/-! ### The rows of a fit -/

section Rows

variable {net : Network} {fuel : ℕ} (hfuel : net.nodes.length ≤ fuel) {t : RadialTree}
  (hbuild : buildRadial fuel net.nodes net.edges = pure t) {ratings : Ratings}
  {measurements : Dict NodeTelemetry} {opt : Options} (fit : Fit t ratings measurements opt)

/-- The rows that a node has in the fit. -/
def rowsOf (t : RadialTree) (ratings : Ratings) (measurements : Dict NodeTelemetry)
    (opt : Options) (coeffs : String → Fin t.ncol → ℚ) (nid : String) :
    List (MeasurementRow t.ncol) :=
  injectionRows t ratings measurements opt nid ++
    (((measurements.get? nid).getD {}).voltagePu.map (voltageRow t opt nid (coeffs nid))).toList

include hfuel hbuild in
/-- Every node of the state has the row of its voltage, which is linear in the state. -/
theorem exists_coeffs (ratings : Ratings) : ∃ (pu : Dict (ℚ × ℚ))
    (coeffs : String → Fin t.ncol → ℚ), impedances ratings t = .ok pu ∧
      ∀ n ∈ t.stateNodes, vSensitivityRow t pu n = .ok (coeffs n) ∧
        ∀ x, ∃ v, voltagePu t pu x n = .ok v ∧ 1 - v = coeffs n ⬝ᵥ x := by
  obtain ⟨found, h⟩ := represents_of_buildRadial net hfuel hbuild
  obtain ⟨pu, himpedances, hpu⟩ := impedances_eq h ratings
  choose! coeffs hcoeffs hvoltage using fun n (hn : n ∈ t.stateNodes) =>
    exists_voltage h hpu (RadialTree.mem_stateNodes.mp hn).1
  exact ⟨pu, coeffs, himpedances, fun n hn => ⟨hcoeffs n hn, hvoltage n hn⟩⟩

theorem Fit.rows_eq_flatten {coeffs : String → Fin t.ncol → ℚ}
    (hcoeffs : ∀ n ∈ t.stateNodes, vSensitivityRow t fit.pu n = .ok (coeffs n)) :
    fit.rows = (t.stateNodes.map (rowsOf t ratings measurements opt coeffs)).flatten := by
  have hparts := Loops.mapM_of_forall fun nid hnid =>
    nodeRows_eq ratings measurements opt (hcoeffs nid hnid)
  have hrows := fit.rows_eq
  rw [measurementRows, hparts] at hrows
  injection hrows with hrows
  exact hrows.symm

theorem mem_rowsOf {coeffs : String → Fin t.ncol → ℚ} {nid : String}
    {row : MeasurementRow t.ncol} (h : row ∈ rowsOf t ratings measurements opt coeffs nid) :
    row ∈ injectionRows t ratings measurements opt nid ∨
      ∃ v, ((measurements.get? nid).getD {}).voltagePu = some v ∧
        voltageRow t opt nid (coeffs nid) v = row := by
  simpa [rowsOf] using h

/-- Every row weighs something. -/
theorem weight_pos_of_mem (hopt : opt.Proper) {coeffs : String → Fin t.ncol → ℚ} {nid : String}
    {row : MeasurementRow t.ncol} (h : row ∈ rowsOf t ratings measurements opt coeffs nid) :
    0 < row.w := by
  have hpos {sigma : ℚ} (hsigma : sigma ≠ 0) : 0 < 1 / sigma ^ 2 := by positivity
  rcases mem_rowsOf h with hinjection | ⟨v, -, rfl⟩
  · simp only [injectionRows, List.mem_append, List.mem_cons, List.not_mem_nil, or_false,
      Option.mem_toList, Option.map_eq_some_iff] at hinjection
    rcases hinjection with ((rfl | rfl) | ⟨p, -, rfl⟩) | ⟨q, -, rfl⟩
    · exact hpos hopt.sigmaPPseudoKw
    · exact hpos hopt.sigmaQPseudoKvar
    · exact hpos hopt.sigmaPMeterKw
    · exact hpos hopt.sigmaQMeterKvar
  · exact hpos hopt.sigmaVMeterPu

include hfuel hbuild in
theorem Fit.exists_rows : ∃ coeffs : String → Fin t.ncol → ℚ,
    (∀ n ∈ t.stateNodes, vSensitivityRow t fit.pu n = .ok (coeffs n) ∧
      ∀ x, ∃ v, voltagePu t fit.pu x n = .ok v ∧ 1 - v = coeffs n ⬝ᵥ x) ∧
    fit.rows = (t.stateNodes.map (rowsOf t ratings measurements opt coeffs)).flatten := by
  obtain ⟨pu, coeffs, hpu, hcoeffs⟩ := exists_coeffs hfuel hbuild ratings
  obtain rfl : pu = fit.pu := Except.ok.inj (hpu.symm.trans fit.impedances_eq)
  exact ⟨coeffs, hcoeffs, fit.rows_eq_flatten fun n hn => (hcoeffs n hn).1⟩

include hfuel hbuild in
theorem Fit.weight_pos (hopt : opt.Proper) (k : Fin fit.rows.length) :
    0 < vectorW fit.rows k := by
  obtain ⟨coeffs, -, hrows⟩ := fit.exists_rows hfuel hbuild
  have hall : ∀ row ∈ fit.rows, 0 < row.w := by
    rw [hrows]
    intro row hrow
    obtain ⟨part, hpart, hrow⟩ := List.mem_flatten.mp hrow
    obtain ⟨nid, -, rfl⟩ := List.mem_map.mp hpart
    exact weight_pos_of_mem hopt hrow
  exact hall _ (List.get_mem fit.rows k)

end Rows

/-- With the default deviations every network has a fit. -/
theorem nonempty_fit (net : Network) {fuel : ℕ} (hfuel : net.nodes.length ≤ fuel)
    {t : RadialTree} (hbuild : buildRadial fuel net.nodes net.edges = pure t)
    (hsize : t.ncol < 10 ^ 12) (ratings : Ratings) (measurements : Dict NodeTelemetry) :
    Nonempty (Fit t ratings measurements {}) := by
  obtain ⟨found, h⟩ := represents_of_buildRadial net hfuel hbuild
  obtain ⟨pu, coeffs, hpu, hcoeffs⟩ := exists_coeffs hfuel hbuild ratings
  obtain ⟨rows, hrows, hmem⟩ :=
    measurementRows_eq ratings measurements {} fun n hn => (hcoeffs n hn).1
  obtain ⟨xhat, ginv, hsolve, hinverse, -⟩ :=
    normal_solved hsize (form_rows (h.tree.nodup.filter _) hmem)
  exact ⟨⟨pu, rows, xhat, ginv, hpu, hrows, hsolve, hinverse⟩⟩

/-! ### The flag -/

section Flag

variable {ncol : ℕ} {rows : List (MeasurementRow ncol)} {xhat : Fin ncol → ℚ}
  {ginv : Fin ncol → Fin ncol → ℚ} {k : Fin rows.length}

theorem normResid_nonneg : 0 ≤ normResid rows xhat ginv k := by
  unfold normResid
  split
  · exact div_nonneg (abs_nonneg _) (Real.sqrt_nonneg _)
  · exact le_rfl

/-- A bound of a residual by its variance bounds it in units of its deviation. -/
theorem normResid_le {c : ℚ}
    (h : resid rows xhat k ^ 2 ≤ residualVariance rows ginv k * c) :
    normResid rows xhat ginv k ≤ √(c : ℝ) := by
  unfold normResid
  split
  · rename_i hvariance
    have hpos : (0 : ℝ) < residualVariance rows ginv k := by
      exact_mod_cast (by positivity : (0 : ℚ) < 1 / 10 ^ 12).trans hvariance
    rw [div_le_iff₀ (Real.sqrt_pos.mpr hpos), mul_comm, ← Real.sqrt_mul hpos.le]
    refine Real.abs_le_sqrt ?_
    exact_mod_cast h
  · exact Real.sqrt_nonneg _

/-- What is flagged is above the threshold, and no other residual is larger. -/
theorem badData_spec {threshold : ℝ} (h : badData rows xhat ginv threshold = some k) :
    threshold < normResid rows xhat ginv k ∧
      ∀ j, normResid rows xhat ginv j ≤ normResid rows xhat ginv k := by
  obtain ⟨hmax, habove⟩ := Option.filter_eq_some_iff.mp h
  exact ⟨of_decide_eq_true habove, fun j => List.le_of_mem_argmax (List.mem_finRange j) hmax⟩

/-- Something is flagged exactly if some residual is above the threshold. -/
theorem exists_badData_iff {threshold : ℝ} :
    (∃ j, badData rows xhat ginv threshold = some j) ↔
      ∃ j, threshold < normResid rows xhat ginv j := by
  constructor
  · rintro ⟨j, hj⟩
    exact ⟨j, (badData_spec hj).1⟩
  · rintro ⟨j, hj⟩
    cases hmax : (List.finRange rows.length).argmax (normResid rows xhat ginv) with
    | none => exact absurd (List.argmax_eq_none.mp hmax ▸ List.mem_finRange j) List.not_mem_nil
    | some top =>
        have hle := List.le_of_mem_argmax (List.mem_finRange j) hmax
        refine ⟨top, Option.filter_eq_some_iff.mpr ⟨hmax, decide_eq_true ?_⟩⟩
        exact hj.trans_le hle

end Flag

section Diagnosed

variable {net : Network} {fuel : ℕ} (hfuel : net.nodes.length ≤ fuel) {t : RadialTree}
  (hbuild : buildRadial fuel net.nodes net.edges = pure t) {ratings : Ratings}
  {measurements : Dict NodeTelemetry}
include hfuel hbuild

/-- **No variance is negative, and the objective bounds every residual.** The variance of a
residual lies between nought and the variance of its measurement, whatever has been measured.
In units of its deviation no residual exceeds the root of the objective, so that something is
flagged only if the objective is above the square of the threshold. -/
theorem residuals_bounded {opt : Options} (hopt : opt.Proper)
    (fit : Fit t ratings measurements opt) :
    (∀ k, 0 ≤ residualVariance fit.rows fit.ginv k ∧
      residualVariance fit.rows fit.ginv k ≤ 1 / vectorW fit.rows k ∧
      normResid fit.rows fit.xhat fit.ginv k ≤ √(objectiveJ fit.rows fit.xhat : ℝ)) ∧
    ∀ threshold : ℝ, 0 ≤ threshold → ∀ k, badData fit.rows fit.xhat fit.ginv threshold = some k →
      threshold ^ 2 < objectiveJ fit.rows fit.xhat := by
  have hw := fit.weight_pos hfuel hbuild hopt
  have hle (k : Fin fit.rows.length) :
      normResid fit.rows fit.xhat fit.ginv k ≤ √(objectiveJ fit.rows fit.xhat : ℝ) := by
    refine normResid_le ?_
    rw [fit.residualVariance_eq]
    exact residual_sq_le fit.inverse hw fit.solution k
  refine ⟨fun k => ⟨?_, ?_, hle k⟩, fun threshold hthreshold k hbad => ?_⟩
  · rw [fit.residualVariance_eq]
    exact residualCov_nonneg fit.inverse hw k
  · have hfitted : 0 ≤ fittedCov (matrixH fit.rows) (of fit.ginv) k k := by
      rw [fittedCov_diag fit.inverse]
      exact Finset.sum_nonneg fun j _ => mul_nonneg (hw j).le (sq_nonneg _)
    rw [fit.residualVariance_eq, residualCov, Matrix.sub_apply, diagonal_apply_eq, Pi.inv_apply,
      one_div]
    exact sub_le_self _ hfitted
  · have habove := ((badData_spec hbad).1).trans_le (hle k)
    exact (Real.lt_sqrt hthreshold).mp habove

omit hfuel hbuild in
/-- A power reading has a row beside it that measures the same. -/
theorem exists_twin {coeffs : String → Fin t.ncol → ℚ} {nid : String}
    {row : MeasurementRow t.ncol} (h : row ∈ rowsOf t ratings measurements {} coeffs nid)
    (hkind : row.kind = .meterP ∨ row.kind = .meterQ) :
    row.w = 1 / 4 ∧ ∃ twin ∈ rowsOf t ratings measurements {} coeffs nid,
      twin.coeffs = row.coeffs ∧ twin.kind ≠ row.kind ∧ 1 / 900 ≤ twin.w := by
  have hpseudoP := List.mem_append_left (((measurements.get? nid).getD {}).voltagePu.map
    (voltageRow t {} nid (coeffs nid))).toList (List.mem_append_left _ (List.mem_append_left _
      List.mem_cons_self) : _ ∈ injectionRows t ratings measurements {} nid)
  have hpseudoQ := List.mem_append_left (((measurements.get? nid).getD {}).voltagePu.map
    (voltageRow t {} nid (coeffs nid))).toList (List.mem_append_left _ (List.mem_append_left _
      (List.mem_cons_of_mem _ List.mem_cons_self)) :
        _ ∈ injectionRows t ratings measurements {} nid)
  rcases mem_rowsOf h with hinjection | ⟨v, -, rfl⟩
  · simp only [injectionRows, List.mem_append, List.mem_cons, List.not_mem_nil, or_false,
      Option.mem_toList, Option.map_eq_some_iff] at hinjection
    rcases hinjection with ((rfl | rfl) | ⟨p, -, rfl⟩) | ⟨q, -, rfl⟩
    · simp at hkind
    · simp at hkind
    · exact ⟨by norm_num, _, hpseudoP, rfl, by simp, by norm_num⟩
    · exact ⟨by norm_num, _, hpseudoQ, rfl, by simp, by norm_num⟩
  · simp [voltageRow] at hkind

/-- The residual of a power reading varies. -/
theorem variance_of_powerReading (fit : Fit t ratings measurements {}) {k : Fin fit.rows.length}
    (hkind : (fit.rows.get k).kind = .meterP ∨ (fit.rows.get k).kind = .meterQ) :
    1 / 10 ^ 12 < residualVariance fit.rows fit.ginv k := by
  have hw := fit.weight_pos hfuel hbuild Options.proper_default
  obtain ⟨coeffs, -, hrows⟩ := fit.exists_rows hfuel hbuild
  have hmem (row : MeasurementRow t.ncol) : row ∈ fit.rows ↔
      ∃ nid ∈ t.stateNodes, row ∈ rowsOf t ratings measurements {} coeffs nid := by
    rw [hrows, List.mem_flatten]
    simp only [List.mem_map, exists_exists_and_eq_and]
  obtain ⟨nid, hnid, hrow⟩ := (hmem _).mp (List.get_mem fit.rows k)
  obtain ⟨hweight, twin, htwin, hcoeffs, hne, hle⟩ := exists_twin hrow hkind
  obtain ⟨j, rfl⟩ := List.mem_iff_get.mp ((hmem twin).mpr ⟨nid, hnid, htwin⟩)
  have hkj : k ≠ j := fun heq => hne (heq ▸ rfl)
  have hbound := fittedCov_le_of_twin fit.inverse hw hkj hcoeffs.symm
  have hk : vectorW fit.rows k = 1 / 4 := hweight
  have hj : 1 / 900 ≤ vectorW fit.rows j := hle
  rw [fit.residualVariance_eq, residualCov, Matrix.sub_apply, diagonal_apply_eq, Pi.inv_apply]
  rw [hk] at hbound ⊢
  have hnonneg : 0 ≤ fittedCov (matrixH fit.rows) (of fit.ginv) k k := by
    rw [fittedCov_diag fit.inverse]
    exact Finset.sum_nonneg fun i _ => mul_nonneg (hw i).le (sq_nonneg _)
  have hfitted : fittedCov (matrixH fit.rows) (of fit.ginv) k k * (1 / 4 + 1 / 900) ≤ 1 :=
    (mul_le_mul_of_nonneg_left (add_le_add_right hj _) hnonneg).trans hbound
  linarith

/-- The readings and the base loads are those of a state of the feeder. -/
structure Agrees (t : RadialTree) (pu : Dict (ℚ × ℚ)) (ratings : Ratings)
    (measurements : Dict NodeTelemetry) (x₀ : Fin t.ncol → ℚ) (nid : String) : Prop where
  baseLoadKw : orDefault (ratings.baseLoadKw nid) 0 = inj x₀ (t.ip nid)
  baseLoadKvar : orDefault (ratings.baseLoadKvar nid) 0 = inj x₀ (t.iq nid)
  pKw : ∀ p, ((measurements.get? nid).getD {}).pKw = some p → p = inj x₀ (t.ip nid)
  qKvar : ∀ q, ((measurements.get? nid).getD {}).qKvar = some q → q = inj x₀ (t.iq nid)
  voltagePu : ∀ v, ((measurements.get? nid).getD {}).voltagePu = some v →
    voltagePu t pu x₀ nid = .ok v

/-- **The true state is recovered.** If the base loads and all readings are those of a state of
the feeder, the estimate is that state: nothing is left over, nothing is flagged, and the
objective passes the test. -/
theorem true_state_recovered {opt : Options} (fit : Fit t ratings measurements opt)
    {x₀ : Fin t.ncol → ℚ}
    (hagrees : ∀ nid ∈ t.stateNodes, Agrees t fit.pu ratings measurements x₀ nid) :
    fit.xhat = x₀ ∧ objectiveJ fit.rows fit.xhat = 0 ∧
      (∀ k, normResid fit.rows fit.xhat fit.ginv k = 0) ∧
      (∀ threshold : ℝ, 0 ≤ threshold → badData fit.rows fit.xhat fit.ginv threshold = none) ∧
      (objectiveJ fit.rows fit.xhat : ℝ) ≤
        chi2Threshold (max (fit.rows.length - t.ncol) 1) := by
  obtain ⟨coeffs, hcoeffs, hrows⟩ := fit.exists_rows hfuel hbuild
  have hrow : ∀ row ∈ fit.rows, row.z = row.coeffs ⬝ᵥ x₀ := by
    rw [hrows]
    intro row hrow
    obtain ⟨part, hpart, hrow⟩ := List.mem_flatten.mp hrow
    obtain ⟨nid, hnid, rfl⟩ := List.mem_map.mp hpart
    have ha := hagrees nid hnid
    rcases mem_rowsOf hrow with hinjection | ⟨v, hv, rfl⟩
    · simp only [injectionRows, List.mem_append, List.mem_cons, List.not_mem_nil, or_false,
        Option.mem_toList, Option.map_eq_some_iff] at hinjection
      rcases hinjection with ((rfl | rfl) | ⟨p, hp, rfl⟩) | ⟨q, hq, rfl⟩
      · rw [unitRow_dotProduct, one_mul]
        exact ha.baseLoadKw
      · rw [unitRow_dotProduct, one_mul]
        exact ha.baseLoadKvar
      · rw [unitRow_dotProduct, one_mul]
        exact ha.pKw p hp
      · rw [unitRow_dotProduct, one_mul]
        exact ha.qKvar q hq
    · obtain ⟨v', hv', heq⟩ := (hcoeffs nid hnid).2 x₀
      obtain rfl := Except.ok.inj (hv'.symm.trans (ha.voltagePu v hv))
      exact heq
  have hz : matrixH fit.rows *ᵥ x₀ = vectorZ fit.rows :=
    funext fun k => (hrow _ (List.get_mem fit.rows k)).symm
  have hxhat : x₀ = fit.xhat := by
    refine (fit.solves_iff x₀).mp ?_
    rw [normalMatrix, ← mulVec_mulVec, hz, normalRhs]
  have hresid (k : Fin fit.rows.length) : resid fit.rows fit.xhat k = 0 := by
    rw [resid, ← hxhat, hz, sub_self]
  have hzero (k : Fin fit.rows.length) : normResid fit.rows fit.xhat fit.ginv k = 0 := by
    rw [normResid, hresid k, Rat.cast_zero, abs_zero, zero_div, ite_self]
  have hobjective : objectiveJ fit.rows fit.xhat = 0 := by
    refine Finset.sum_eq_zero fun k _ => ?_
    rw [hresid k, zero_pow two_ne_zero, mul_zero]
  refine ⟨hxhat.symm, hobjective, hzero, fun threshold hthreshold => ?_, ?_⟩
  · rw [Option.eq_none_iff_forall_ne_some]
    intro k hbad
    have habove := (badData_spec hbad).1
    rw [hzero k] at habove
    exact absurd hthreshold (not_le.mpr habove)
  · rw [hobjective, Rat.cast_zero]
    exact chi2Threshold_nonneg _

end Diagnosed

/-- One line without impedance to a bus without a load. -/
def spur : Network where
  nodes := [⟨"S", .substation⟩, ⟨"A", .bus⟩]
  edges := [{ edgeId := "E1", fromNode := "S", toNode := "A" }]
  nodeKey := List.nodup_cons.mpr (by decide)
  edgeKey := by decide
  fromNode_mem := by decide
  toNode_mem := by decide

def spurRatings : Ratings where
  nominalKv _ := none
  baseLoadKw _ := none
  baseLoadKvar _ := none
  resistanceROhm _ := none
  reactanceXOhm _ := none

theorem spur_fit (measurements : Dict NodeTelemetry) :
    ∃ t, buildRadial 2 spur.nodes spur.edges = pure t ∧ t.stateNodes = ["A"] ∧
      Nonempty (Fit t spurRatings measurements {}) := by
  obtain ⟨t, hbuild, hnodes⟩ : ∃ t, buildRadial 2 spur.nodes spur.edges = pure t ∧
      t.stateNodes = ["A"] := by
    refine ⟨_, rfl, ?_⟩
    decide
  refine ⟨t, hbuild, hnodes, nonempty_fit spur (by decide) hbuild ?_ spurRatings measurements⟩
  rw [RadialTree.ncol, hnodes]
  norm_num

theorem spur_bounded : ∃ t, ∃ fit : Fit t spurRatings [("A", { pKw := some 4 })] {},
    (∀ k, 0 ≤ residualVariance fit.rows fit.ginv k ∧
      residualVariance fit.rows fit.ginv k ≤ 1 / vectorW fit.rows k ∧
      normResid fit.rows fit.xhat fit.ginv k ≤ √(objectiveJ fit.rows fit.xhat : ℝ)) ∧
    ∀ threshold : ℝ, 0 ≤ threshold → ∀ k, badData fit.rows fit.xhat fit.ginv threshold = some k →
      threshold ^ 2 < objectiveJ fit.rows fit.xhat := by
  obtain ⟨t, hbuild, -, ⟨fit⟩⟩ := spur_fit [("A", { pKw := some 4 })]
  exact ⟨t, fit, residuals_bounded (by decide) hbuild Options.proper_default fit⟩

theorem spur_recovered : ∃ t,
    ∃ fit : Fit t spurRatings [("A", { pKw := some 0, voltagePu := some 1 })] {},
      fit.xhat = 0 ∧ objectiveJ fit.rows fit.xhat = 0 ∧
        (∀ k, normResid fit.rows fit.xhat fit.ginv k = 0) ∧
        (∀ threshold : ℝ, 0 ≤ threshold → badData fit.rows fit.xhat fit.ginv threshold = none) ∧
        (objectiveJ fit.rows fit.xhat : ℝ) ≤
          chi2Threshold (max (fit.rows.length - t.ncol) 1) := by
  obtain ⟨t, hbuild, hnodes, ⟨fit⟩⟩ :=
    spur_fit [("A", { pKw := some 0, voltagePu := some 1 })]
  refine ⟨t, fit, true_state_recovered (by decide) hbuild fit fun nid hnid => ?_⟩
  have hzero (idx : Option (Fin t.ncol)) : (0 : ℚ) = inj 0 idx := by
    cases idx <;> rfl
  obtain ⟨coeffs, hcoeffs, -⟩ := fit.exists_rows (by decide) hbuild
  obtain ⟨v, hv, heq⟩ := (hcoeffs nid hnid).2 0
  rw [dotProduct_zero, sub_eq_zero] at heq
  rw [hnodes, List.mem_singleton] at hnid
  subst hnid
  refine ⟨hzero _, hzero _, fun p hp => ?_, fun q hq => ?_, fun v' hv' => ?_⟩
  · obtain rfl := Option.some.inj hp
    exact hzero _
  · cases hq
  · obtain rfl := Option.some.inj hv'
    rw [hv, ← heq]

/-! ### More telemetry -/

/-- Whatever is measured in the one is measured in the other, to whatever value. -/
def Covers (measurements more : Dict NodeTelemetry) : Prop :=
  ∀ nid, (((measurements.get? nid).getD {}).pKw.isSome → ((more.get? nid).getD {}).pKw.isSome) ∧
    (((measurements.get? nid).getD {}).qKvar.isSome → ((more.get? nid).getD {}).qKvar.isSome) ∧
    (((measurements.get? nid).getD {}).voltagePu.isSome →
      ((more.get? nid).getD {}).voltagePu.isSome)

theorem monitored_iff {measurements : Dict NodeTelemetry} {nid : String} :
    monitored measurements nid ↔ ((measurements.get? nid).getD {}).pKw.isSome ∨
      ((measurements.get? nid).getD {}).qKvar.isSome ∨
      ((measurements.get? nid).getD {}).voltagePu.isSome := by
  unfold monitored
  cases measurements.get? nid with
  | none => simp
  | some m => simp [or_assoc]

/-- What a row adds to the form of the normal equations. -/
def rowForm {ncol : ℕ} (v : Fin ncol → ℚ) (row : MeasurementRow ncol) : ℚ :=
  row.w * (row.coeffs ⬝ᵥ v) ^ 2

theorem sum_rowForm {ncol : ℕ} (rows : List (MeasurementRow ncol)) (v : Fin ncol → ℚ) :
    ∑ k, vectorW rows k * (matrixH rows *ᵥ v) k ^ 2 = (rows.map (rowForm v)).sum := by
  conv_rhs => rw [← List.ofFn_get rows, List.map_ofFn, List.sum_ofFn]
  rfl

section Optional

variable {ncol : ℕ} {v : Fin ncol → ℚ} {value value' : Option ℚ}
  {make : ℚ → MeasurementRow ncol} {c : ℚ}

/-- What is measured does not matter, only that it is. -/
theorem sum_optional (hmake : ∀ q, rowForm v (make q) = c) :
    ((value.map make).toList.map (rowForm v)).sum = if value.isSome then c else 0 := by
  cases value with
  | none => rfl
  | some q => simp [hmake]

theorem sum_optional_le (hc : 0 ≤ c) (hmake : ∀ q, rowForm v (make q) = c)
    (h : value.isSome → value'.isSome) :
    ((value.map make).toList.map (rowForm v)).sum ≤
      ((value'.map make).toList.map (rowForm v)).sum := by
  rw [sum_optional hmake, sum_optional hmake]
  split
  · rw [if_pos (h ‹_›)]
  · split
    · exact hc
    · exact le_rfl

end Optional

/-- The rows of a node with more readings have the larger form. -/
theorem sum_rowsOf_le {t : RadialTree} {ratings : Ratings} {measurements more : Dict NodeTelemetry}
    {opt : Options} {coeffs : String → Fin t.ncol → ℚ} (hmore : Covers measurements more)
    (nid : String) (v : Fin t.ncol → ℚ) :
    ((rowsOf t ratings measurements opt coeffs nid).map (rowForm v)).sum ≤
      ((rowsOf t ratings more opt coeffs nid).map (rowForm v)).sum := by
  obtain ⟨hp, hq, hv⟩ := hmore nid
  have hnonneg (sigma : ℚ) (row : Fin t.ncol → ℚ) : 0 ≤ 1 / sigma ^ 2 * (row ⬝ᵥ v) ^ 2 := by
    positivity
  simp only [rowsOf, injectionRows, List.map_append, List.sum_append]
  refine add_le_add (add_le_add (add_le_add le_rfl ?_) ?_) ?_
  · exact sum_optional_le (hnonneg _ _) (fun _ => rfl) hp
  · exact sum_optional_le (hnonneg _ _) (fun _ => rfl) hq
  · exact sum_optional_le (hnonneg _ _) (fun _ => rfl) hv

theorem confidenceOf_mono {variance variance' : ℚ} {monitored monitored' : Bool}
    (hvariance : variance' ≤ variance) (hmonitored : monitored → monitored') :
    confidenceOf variance monitored ≤ confidenceOf variance' monitored' := by
  have hroot : √(max (variance' : ℝ) 0) ≤ √(max (variance : ℝ) 0) := by
    refine Real.sqrt_le_sqrt (max_le_max ?_ le_rfl)
    exact_mod_cast hvariance
  have hconf : max 0 (min 1 (1 - √(max (variance : ℝ) 0) / (4 / 100))) ≤
      max 0 (min 1 (1 - √(max (variance' : ℝ) 0) / (4 / 100))) := by
    gcongr
  unfold confidenceOf
  cases monitored with
  | false =>
      cases monitored' with
      | false => exact hconf
      | true => exact hconf.trans (le_max_left _ _)
  | true =>
      rw [hmonitored rfl]
      exact max_le_max hconf le_rfl

theorem confidenceOf_range (variance : ℚ) (monitored : Bool) :
    0 ≤ confidenceOf variance monitored ∧ confidenceOf variance monitored ≤ 1 := by
  have hlow : 0 ≤ max 0 (min 1 (1 - √(max (variance : ℝ) 0) / (4 / 100))) := le_max_left _ _
  have hhigh : max 0 (min 1 (1 - √(max (variance : ℝ) 0) / (4 / 100))) ≤ 1 :=
    max_le zero_le_one (min_le_left _ _)
  unfold confidenceOf
  cases monitored with
  | false => exact ⟨hlow, hhigh⟩
  | true => exact ⟨hlow.trans (le_max_left _ _), max_le hhigh (by norm_num)⟩

/-- **More telemetry makes no node less certain.** If whatever is measured for the one estimate is
also measured for the other, to whatever values, the variance of every voltage is at most what
it was and never negative, and the confidence of every node is at least what it was, between
nought and one. -/
theorem confidence_grows {net : Network} {fuel : ℕ} (hfuel : net.nodes.length ≤ fuel)
    {t : RadialTree} (hbuild : buildRadial fuel net.nodes net.edges = pure t) {ratings : Ratings}
    {opt : Options} (hopt : opt.Proper) {measurements more : Dict NodeTelemetry}
    (hmore : Covers measurements more) (fit : Fit t ratings measurements opt)
    (fit' : Fit t ratings more opt) :
    (∀ hrow : Fin t.ncol → ℚ, 0 ≤ varV fit'.ginv hrow ∧
      varV fit'.ginv hrow ≤ varV fit.ginv hrow) ∧
    ∀ nid, ∃ c c', confidence t fit.pu measurements fit.ginv nid = .ok c ∧
      confidence t fit'.pu more fit'.ginv nid = .ok c' ∧ 0 ≤ c ∧ c ≤ c' ∧ c' ≤ 1 := by
  have hw := fit.weight_pos hfuel hbuild hopt
  have hw' := fit'.weight_pos hfuel hbuild hopt
  obtain ⟨pu, coeffs, hpu, hcoeffs⟩ := exists_coeffs hfuel hbuild ratings
  obtain rfl : pu = fit.pu := Except.ok.inj (hpu.symm.trans fit.impedances_eq)
  have hsame : fit'.pu = fit.pu := Except.ok.inj (fit'.impedances_eq.symm.trans hpu)
  have hform (v : Fin t.ncol → ℚ) :
      ∑ k, vectorW fit.rows k * (matrixH fit.rows *ᵥ v) k ^ 2 ≤
        ∑ k, vectorW fit'.rows k * (matrixH fit'.rows *ᵥ v) k ^ 2 := by
    rw [sum_rowForm, sum_rowForm, fit.rows_eq_flatten fun n hn => (hcoeffs n hn).1,
      fit'.rows_eq_flatten fun n hn => hsame ▸ (hcoeffs n hn).1, List.map_flatten,
      List.map_flatten, List.sum_flatten, List.sum_flatten]
    simp only [List.map_map]
    exact List.sum_le_sum fun nid _ => sum_rowsOf_le hmore nid v
  have hvariance (hrow : Fin t.ncol → ℚ) : varV fit'.ginv hrow ≤ varV fit.ginv hrow := by
    rw [varV_eq, varV_eq]
    exact inverse_form_le fit.inverse fit'.inverse (fun k => (hw k).le) hform hrow
  refine ⟨fun hrow => ⟨?_, hvariance hrow⟩, fun nid => ?_⟩
  · rw [varV_eq]
    exact form_nonneg fit'.inverse (fun k => (hw' k).le) hrow
  · unfold confidence
    by_cases hdead : nid ∉ t.energized
    · rw [if_pos hdead, if_pos hdead]
      exact ⟨0, 0, rfl, rfl, le_rfl, le_rfl, zero_le_one⟩
    · rw [if_neg hdead, if_neg hdead]
      by_cases hroot : nid = t.root
      · rw [if_pos hroot, if_pos hroot]
        exact ⟨1, 1, rfl, rfl, zero_le_one, le_rfl, le_rfl⟩
      · obtain ⟨found, h⟩ := represents_of_buildRadial net hfuel hbuild
        have hnid : nid ∈ t.stateNodes :=
          RadialTree.mem_stateNodes.mpr ⟨(h.energized nid).mp (not_not.mp hdead), hroot⟩
        rw [if_neg hroot, if_neg hroot, hsame, (hcoeffs nid hnid).1]
        refine ⟨_, _, rfl, rfl, (confidenceOf_range _ _).1, ?_, (confidenceOf_range _ _).2⟩
        refine confidenceOf_mono (hvariance _) fun hmonitored => ?_
        obtain ⟨hp, hq, hv⟩ := hmore nid
        exact monitored_iff.mpr ((monitored_iff.mp hmonitored).imp hp (Or.imp hq hv))

theorem spur_grows : ∃ t, ∃ (fit : Fit t spurRatings [] {})
    (fit' : Fit t spurRatings [("A", { pKw := some 4 })] {}),
      (∀ hrow : Fin t.ncol → ℚ, 0 ≤ varV fit'.ginv hrow ∧
        varV fit'.ginv hrow ≤ varV fit.ginv hrow) ∧
      ∀ nid, ∃ c c', confidence t fit.pu [] fit.ginv nid = .ok c ∧
        confidence t fit'.pu [("A", { pKw := some 4 })] fit'.ginv nid = .ok c' ∧
          0 ≤ c ∧ c ≤ c' ∧ c' ≤ 1 := by
  obtain ⟨t, hbuild, -, ⟨fit⟩⟩ := spur_fit []
  obtain ⟨t', hbuild', -, ⟨fit'⟩⟩ := spur_fit [("A", { pKw := some 4 })]
  obtain rfl := pure_inj.mp (hbuild.symm.trans hbuild')
  refine ⟨t, fit, fit', confidence_grows (by decide) hbuild Options.proper_default ?_ fit fit'⟩
  intro nid
  have hnone : (Dict.get? ([] : Dict NodeTelemetry) nid).getD {} = {} := rfl
  rw [hnone]
  exact ⟨fun h => Bool.noConfusion h, fun h => Bool.noConfusion h, fun h => Bool.noConfusion h⟩

end DiepLab.StateEstimation
