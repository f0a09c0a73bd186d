import DiepLab.Dms.PowerFlow
import DiepLab.Dms.StateEstimation
import DiepLab.Library.Ancestors
import DiepLab.Library.RoundedMax
import DiepLab.Library.Rounding
import Mathlib.Data.Finset.Sort
import Mathlib.Data.List.Sort
import Mathlib.Data.String.Basic

/-!
Where a fault is.

`locate` compares the nodes that report an outage with the subtree of every section of the
radial tree and takes the section with the greatest Jaccard index. The index of the candidate
is stored rounded to three decimals and the next one is compared with it unrounded, which is
the scan of `Library.RoundedMax`; indices are doubles. The section is a best match exactly if
no near tie stands on the wrong side (`locate_best_iff`).

The estimate of a section from the fault current works with square roots of floating-point
numbers and enters as a function.
-/

namespace DiepLab.FaultLocation

open SpanningTree StateEstimation

/-! ### The impedance ranking -/

/-- What the impedance of the way to a node says of a fault there. -/
structure Estimate where
  distanceKm : ℚ
  zPu : ℚ
  estimatedFaultCurrentA : ℚ
  errorPct : ℚ
  deriving DecidableEq

structure ImpedanceCandidate extends Estimate where
  sectionId : String
  toNode : String
  deriving DecidableEq

/-- The estimate at a node for a measured current, none where the way has no impedance. -/
abbrev Estimator := ℚ → List GridEdge → GridNode → Option Estimate

/-- The candidate at a node. -/
def candidateAt (estimate : Estimator) (current : ℚ) (t : RadialTree) (n : String) :
    Except Exc (Option ImpedanceCandidate) :=
  if n = t.root then pure none
  else do
    let path ← lookup t.pathEdges n
    let node ← lookup t.byId n
    match estimate current path node with
    | none => pure none
    | some found => do
        let e ← lookup t.parentEdge n
        pure (some { found with sectionId := e.edgeId, toNode := n })

def impedanceCandidates (estimate : Estimator) (faultCurrentA : Option ℚ) (t : RadialTree) :
    Except Exc (List ImpedanceCandidate) :=
  match faultCurrentA with
  | none => pure []
  | some current =>
      if 0 < current then do
        let candidates ← t.order.mapM (candidateAt estimate current t)
        pure ((candidates.filterMap id).insertionSort fun a b => a.errorPct ≤ b.errorPct)
      else pure []

/-! ### The topological match -/

structure Topological where
  sectionId : String
  isolatesSubtree : List String
  score : ℚ
  matchesReport : Bool
  deriving DecidableEq

/-- `inter / union if union else 0.0`. -/
def jacc (sub oset : Finset String) : ℚ :=
  let inter : ℕ := (sub ∩ oset).card
  let union : ℕ := (sub ∪ oset).card
  if union = 0 then 0 else binary64.round (inter / union)

/-- `round(x, 3)`. -/
def round3 (x : ℚ) : ℚ := binary64.round (roundTo 3 x)

/-- One section is compared with the best one so far. -/
def consider (oset : Finset String) (best : Option Topological) (sectionId : String)
    (sub : Finset String) : Option Topological :=
  let candidate : Topological :=
    { sectionId := sectionId
      isolatesSubtree := sub.sort (· ≤ ·)
      score := round3 (jacc sub oset)
      matchesReport := sub = oset }
  match best with
  | none => some candidate
  | some b => if b.score < jacc sub oset then some candidate else some b

/-- One turn of the loop over the order. -/
def considerNode (oset : Finset String) (t : RadialTree) (best : Option Topological)
    (n : String) : Except Exc (Option Topological) :=
  if n = t.root then pure best
  else do
    let e ← lookup t.parentEdge n
    let sub ← lookup t.subtree e.edgeId
    pure (consider oset best e.edgeId sub)

def topologicalMatch (outageNodes : List String) (t : RadialTree) :
    Except Exc (Option Topological) :=
  if outageNodes = [] then pure none
  else t.order.foldlM (considerNode outageNodes.toFinset t) none

/-! ### The answer -/

structure BestEstimate where
  method : String
  sectionId : String
  distanceKm : Option ℚ
  deriving DecidableEq

structure Location where
  faultCurrentA : Option ℚ
  outageNodes : List String
  impedanceCandidates : List ImpedanceCandidate
  topological : Option Topological
  bestEstimate : Option BestEstimate
  deriving DecidableEq

/-- A match narrows the candidates to its lateral; else the nearest current counts, and an
imperfect match only where there is no candidate. -/
def bestEstimate (candidates : List ImpedanceCandidate) (topological : Option Topological) :
    Option BestEstimate :=
  match topological.filter Topological.matchesReport, candidates, topological with
  | some m, _, _ =>
      let inLateral := candidates.filter fun c => c.toNode ∈ m.isolatesSubtree
      some { method := "topological+impedance"
             sectionId := m.sectionId
             distanceKm := inLateral.head?.map fun c => c.distanceKm }
  | none, c :: _, _ =>
      some { method := "impedance", sectionId := c.sectionId, distanceKm := some c.distanceKm }
  | none, [], some m =>
      some { method := "topological", sectionId := m.sectionId, distanceKm := none }
  | none, [], none => none

def locate (estimate : Estimator) (fuel : ℕ) (nodes : List GridNode) (edges : List GridEdge)
    (faultCurrentA : Option ℚ) (outageNodes : List String) : Looping Location := do
  let net ← buildRadial fuel nodes edges
  let candidates ← (impedanceCandidates estimate faultCurrentA net : Except Exc _)
  let topological ← (topologicalMatch outageNodes net : Except Exc _)
  pure {
    faultCurrentA := faultCurrentA
    outageNodes := outageNodes.insertionSort (· ≤ ·)
    impedanceCandidates := candidates.take 5
    topological := topological
    bestEstimate := bestEstimate candidates topological }

/-! ### Sections -/

/-- The section that ends at a node, with the nodes behind it. -/
def sectionAt (t : RadialTree) (n : String) : Option (String × Finset String) := do
  let e ← t.parentEdge.get? n
  let sub ← t.subtree.get? e.edgeId
  pure (e.edgeId, sub)

/-- The sections of the tree, in the order of the walk. -/
def sections (t : RadialTree) : List (String × Finset String) := t.order.filterMap (sectionAt t)

/-- The Jaccard index. -/
def jaccard (sub oset : Finset String) : ℚ := (sub ∩ oset).card / (sub ∪ oset).card

/-- The selected section is a best match, and it is the exact match if there is one. -/
structure SelectsBest (t : RadialTree) (oset : Finset String) (selected : Option Topological) :
    Prop where
  maximal : ∀ s ∈ sections t, ∃ best, selected = some best ∧
    ∃ b ∈ sections t, best.sectionId = b.1 ∧ jaccard s.2 oset ≤ jaccard b.2 oset
  exact : ∀ s ∈ sections t, s.2 = oset →
    ∃ best, selected = some best ∧ best.sectionId = s.1 ∧ best.matchesReport = true

/-! ### Rounding to three decimals -/

theorem roundHalfEven_eq (x : ℚ) : roundHalfEven x = Double.roundEven x := by
  have htwice : x - ⌊x⌋ < 1 / 2 ↔ 2 * (x - ⌊x⌋) < 1 := by
    constructor <;> intro h <;> linarith
  unfold roundHalfEven Double.roundEven
  by_cases hlt : x - ⌊x⌋ < 1 / 2
  · rw [if_pos hlt, if_pos (Or.inl (htwice.mp hlt))]
  · rw [if_neg hlt]
    by_cases hgt : 1 / 2 < x - ⌊x⌋
    · rw [if_pos hgt, if_neg]
      rintro (h | ⟨h, -⟩) <;> linarith
    · have htie : 2 * (x - ⌊x⌋) = 1 := by linarith
      rw [if_neg hgt]
      by_cases heven : Even ⌊x⌋
      · rw [if_pos heven, if_pos (Or.inr ⟨htie, Int.even_iff.mp heven⟩)]
      · rw [if_neg heven, if_neg]
        rintro (h | ⟨-, h⟩)
        · linarith
        · exact heven (Int.even_iff.mpr h)

theorem round3_mono : Monotone round3 := by
  intro x y h
  refine BinaryFormat.round_mono (div_le_div_of_nonneg_right ?_ (by norm_num))
  rw [roundHalfEven_eq, roundHalfEven_eq, Int.cast_le]
  exact Double.roundEven_mono (mul_le_mul_of_nonneg_right h (by norm_num))

/-- A thousandth keeps its place when it is stored as a double. -/
theorem round3_round3 {x : ℚ} (h0 : 0 ≤ x) (h1 : x ≤ 1) : round3 (round3 x) = round3 x := by
  have hle : (0 : ℤ) ≤ roundHalfEven (x * 10 ^ 3) ∧ roundHalfEven (x * 10 ^ 3) ≤ 1000 := by
    rw [roundHalfEven_eq]
    constructor
    · exact Double.le_roundEven (by push_cast; linarith)
    · exact Double.roundEven_le (by push_cast; linarith)
  have hsame : roundHalfEven (round3 x * 10 ^ 3) = roundHalfEven (x * 10 ^ 3) := by
    generalize hk : roundHalfEven (x * 10 ^ 3) = k at hle
    have hround : round3 x = binary64.round (k / 10 ^ 3) := by rw [round3, roundTo, hk]
    have hk0 : (0 : ℚ) ≤ k := Int.cast_nonneg hle.1
    have hk1 : (k : ℚ) ≤ 1000 := by exact_mod_cast hle.2
    have hunit : |(k : ℚ) / 10 ^ 3| ≤ 1 := by
      rw [abs_of_nonneg (by positivity), div_le_one (by norm_num)]
      linarith
    have herror : |round3 x - k / 10 ^ 3| ≤ 2 ^ (-52 : ℤ) / 2 := by
      rw [hround]
      refine (BinaryFormat.abs_round_sub_le _).trans (div_le_div_of_nonneg_right ?_ two_pos.le)
      exact zpow_le_zpow_right₀ one_le_two
        (BinaryFormat.lastPlace_le_of_abs_le_one (by decide) hunit)
    rw [roundHalfEven_eq]
    refine Double.roundEven_eq_of_abs_sub_lt ?_
    have hscale : round3 x * 10 ^ 3 - k = (round3 x - k / 10 ^ 3) * 10 ^ 3 := by ring
    rw [hscale, abs_mul, abs_of_pos (by norm_num : (0 : ℚ) < 10 ^ 3)]
    calc |round3 x - k / 10 ^ 3| * 10 ^ 3 ≤ 2 ^ (-52 : ℤ) / 2 * 10 ^ 3 :=
          mul_le_mul_of_nonneg_right herror (by norm_num)
      _ < 1 / 2 := by norm_num
  conv_lhs => rw [round3, roundTo, hsame]
  rfl

theorem jaccard_nonneg (sub oset : Finset String) : 0 ≤ jaccard sub oset := by
  unfold jaccard
  positivity

theorem jaccard_le_one (sub oset : Finset String) : jaccard sub oset ≤ 1 := by
  refine div_le_one_of_le₀ (Nat.cast_le.mpr (Finset.card_le_card ?_)) (Nat.cast_nonneg _)
  exact Finset.inter_subset_left.trans Finset.subset_union_left

/-- The index of two sets is one exactly if they are one set. -/
theorem jaccard_eq_one_iff {sub oset : Finset String} (hne : oset ≠ ∅) :
    jaccard sub oset = 1 ↔ sub = oset := by
  have hcard : ((sub ∪ oset).card : ℚ) ≠ 0 := by
    rw [Nat.cast_ne_zero, Finset.card_ne_zero]
    exact (Finset.nonempty_iff_ne_empty.mpr hne).mono Finset.subset_union_right
  rw [jaccard, div_eq_one_iff_eq hcard, Nat.cast_inj]
  constructor
  · intro h
    have hsame : sub ∩ oset = sub ∪ oset :=
      Finset.eq_of_subset_of_card_le
        (Finset.inter_subset_left.trans Finset.subset_union_left) h.ge
    exact inf_eq_sup.mp hsame
  · rintro rfl
    rw [Finset.inter_self, Finset.union_self]

/-- `jacc` is the double that is nearest to the index. -/
theorem jacc_eq (sub oset : Finset String) :
    jacc sub oset = binary64.round (jaccard sub oset) := by
  unfold jacc jaccard
  by_cases hunion : (sub ∪ oset).card = 0
  · have hzero : binary64.round 0 = 0 := by decide +kernel
    simp [hunion, hzero]
  · simp [hunion]

theorem jacc_mono {a b oset : Finset String} (h : jaccard a oset ≤ jaccard b oset) :
    jacc a oset ≤ jacc b oset := by
  rw [jacc_eq, jacc_eq]
  exact BinaryFormat.round_mono h

theorem jacc_nonneg (sub oset : Finset String) : 0 ≤ jacc sub oset := by
  rw [jacc_eq]
  exact BinaryFormat.round_nonneg (jaccard_nonneg sub oset)

theorem jacc_le_one (sub oset : Finset String) : jacc sub oset ≤ 1 := by
  have hone : binary64.round 1 = 1 := by decide +kernel
  rw [jacc_eq, ← hone]
  exact BinaryFormat.round_mono (jaccard_le_one sub oset)

/-! ### The scan -/

/-- The score of a section. -/
def scoreOf (oset : Finset String) (s : String × Finset String) : ℚ := jacc s.2 oset

/-- What is reported of a section with a stored score. -/
def report (oset : Finset String) (best : (String × Finset String) × ℚ) : Topological where
  sectionId := best.1.1
  isolatesSubtree := best.1.2.sort (· ≤ ·)
  score := best.2
  matchesReport := best.1.2 = oset

theorem round3_scoreOf (oset : Finset String) (s : String × Finset String) :
    round3 (round3 (scoreOf oset s)) = round3 (scoreOf oset s) :=
  round3_round3 (jacc_nonneg s.2 oset) (jacc_le_one s.2 oset)

theorem consider_report (oset : Finset String) (best : Option ((String × Finset String) × ℚ))
    (s : String × Finset String) :
    consider oset (best.map (report oset)) s.1 s.2 =
      (RoundedMax.turn (scoreOf oset) round3 best s).map (report oset) := by
  cases best with
  | none => rfl
  | some b =>
      rw [Option.map_some, RoundedMax.turn, apply_ite (Option.map (report oset))]
      rfl

section Tree

variable {net : Network} {t : RadialTree} {found : List (Found String GridEdge)}
  (h : Represents net t found)
include h

theorem sectionAt_root : sectionAt t t.root = none := by
  have hnone : t.parentEdge.get? t.root = none := by
    rw [h.parentEdge]
    refine Dict.get?_eq_none ?_
    rw [List.map_map]
    exact (List.nodup_cons.mp h.tree.fresh).1
  rw [sectionAt, hnone]
  rfl

theorem sectionAt_found {f : Found String GridEdge} (hf : f ∈ found) :
    ∃ sub, sectionAt t f.node = some (f.edge.edgeId, sub) ∧
      (∀ oset best, considerNode oset t best f.node =
        .ok (consider oset best f.edge.edgeId sub)) ∧
      ∀ k, k ∈ sub ↔ Descends found f.node k := by
  obtain ⟨sub, hsub, hbelow⟩ := h.subtree f hf
  have hedge := h.parentEdge_get? hf
  refine ⟨sub, ?_, fun oset best => ?_, hbelow⟩
  · rw [sectionAt, hedge, Option.bind_eq_bind, Option.bind_some, hsub]
    rfl
  · rw [considerNode, if_neg (h.tree.node_ne_root hf)]
    simp only [lookup_eq hedge, lookup_eq hsub, bind, Except.bind, pure, Except.pure]

theorem exists_of_mem_sections {s : String × Finset String} (hs : s ∈ sections t) :
    ∃ f ∈ found, s.1 = f.edge.edgeId ∧ ∀ k, k ∈ s.2 ↔ Descends found f.node k := by
  obtain ⟨n, hn, hsection⟩ := List.mem_filterMap.mp hs
  have hne : n ≠ t.root := by
    rintro rfl
    exact nomatch (sectionAt_root h).symm.trans hsection
  obtain ⟨f, hf, rfl⟩ := h.tree.exists_found hn hne
  obtain ⟨sub, hsome, -, hbelow⟩ := sectionAt_found h hf
  obtain rfl := Option.some.inj (hsection.symm.trans hsome)
  exact ⟨f, hf, rfl, hbelow⟩

/-- Two sections have different nodes behind them. -/
theorem section_eq {a b : String × Finset String} (ha : a ∈ sections t) (hb : b ∈ sections t)
    (heq : a.2 = b.2) : a = b := by
  obtain ⟨f, hf, hfid, hfbelow⟩ := exists_of_mem_sections h ha
  obtain ⟨g, hg, hgid, hgbelow⟩ := exists_of_mem_sections h hb
  have hfg : Descends found f.node g.node :=
    (hfbelow g.node).mp (heq ▸ (hgbelow g.node).mpr .refl)
  have hgf : Descends found g.node f.node :=
    (hgbelow f.node).mp (heq ▸ (hfbelow f.node).mpr .refl)
  have hsame : f = g := h.tree.found_eq hf hg (h.tree.descends_antisymm hfg hgf)
  exact Prod.ext (by rw [hfid, hgid, hsame]) heq

theorem section_eq_of_id {a b : String × Finset String} (ha : a ∈ sections t)
    (hb : b ∈ sections t) (hid : a.1 = b.1) : a = b := by
  obtain ⟨f, hf, hfid, hfbelow⟩ := exists_of_mem_sections h ha
  obtain ⟨g, hg, hgid, hgbelow⟩ := exists_of_mem_sections h hb
  have hsame : f = g :=
    found_eq_of_edgeId net h.tree hf hg (by rw [← hfid, ← hgid, hid])
  refine Prod.ext hid (Finset.ext fun k => ?_)
  rw [hfbelow, hgbelow, hsame]

/-- The loop over the order is the scan of the sections. -/
theorem foldlM_considerNode (oset : Finset String) {nodes : List String}
    (hnodes : ∀ n ∈ nodes, n ∈ t.order) (best : Option ((String × Finset String) × ℚ)) :
    nodes.foldlM (considerNode oset t) (best.map (report oset)) =
      .ok (((nodes.filterMap (sectionAt t)).foldl (RoundedMax.turn (scoreOf oset) round3)
        best).map (report oset)) := by
  induction nodes generalizing best with
  | nil => rfl
  | cons n nodes ih =>
      rw [List.forall_mem_cons] at hnodes
      rw [List.foldlM_cons]
      by_cases hroot : n = t.root
      · subst hroot
        rw [considerNode, if_pos rfl, List.filterMap_cons_none (sectionAt_root h)]
        exact ih hnodes.2 best
      · obtain ⟨f, hf, rfl⟩ := h.tree.exists_found hnodes.1 hroot
        obtain ⟨sub, hsome, hconsider, -⟩ := sectionAt_found h hf
        rw [hconsider, consider_report oset best (f.edge.edgeId, sub),
          List.filterMap_cons_some hsome]
        exact ih hnodes.2 _

theorem topologicalMatch_eq {outageNodes : List String} (hne : outageNodes ≠ []) :
    topologicalMatch outageNodes t = .ok ((RoundedMax.scan (scoreOf outageNodes.toFinset) round3
      (sections t)).map (report outageNodes.toFinset)) := by
  rw [topologicalMatch, if_neg hne]
  exact foldlM_considerNode h _ (fun _ hn => hn) none

/-- The selected section is a best match exactly if there is no near tie. -/
theorem selectsBest_iff {oset : Finset String} (hne : oset ≠ ∅) :
    SelectsBest t oset ((RoundedMax.scan (scoreOf oset) round3 (sections t)).map (report oset)) ↔
      RoundedMax.NoNearTie (scoreOf oset) round3 (fun s => jaccard s.2 oset) (sections t) := by
  have hholds := RoundedMax.holds_scan round3_mono (round3_scoreOf oset) (sections t)
  cases hscan : RoundedMax.scan (scoreOf oset) round3 (sections t) with
  | none =>
      rw [hscan] at hholds
      have hempty : sections t = [] := hholds
      refine iff_of_true ⟨?_, ?_⟩ ?_
      · rw [hempty]
        exact nofun
      · rw [hempty]
        exact nofun
      · intro left s right hs
        rw [hempty] at hs
        simp at hs
  | some best =>
      obtain ⟨b, stored⟩ := best
      rw [hscan] at hholds
      obtain ⟨-, left, right, hsplit, hchosen⟩ := hholds
      rw [← hchosen.greatest_iff round3_mono (round3_scoreOf oset) (fun x y => jacc_mono) hsplit]
      have hb : b ∈ sections t := hsplit ▸ List.mem_append_right left List.mem_cons_self
      constructor
      · intro hbest x hx
        obtain ⟨reported, hreported, b', hb', hid, hle⟩ := hbest.maximal x hx
        have hsame : report oset (b, stored) = reported := Option.some.inj hreported
        have hid' : b.1 = b'.1 := by rw [← hid, ← hsame, report]
        rwa [section_eq_of_id h hb hb' hid']
      · intro hmax
        refine ⟨fun s hs => ⟨_, rfl, b, hb, rfl, hmax s hs⟩, fun s hs heq => ?_⟩
        have hone : jaccard b.2 oset = 1 := by
          refine le_antisymm (jaccard_le_one _ _) ?_
          rw [← (jaccard_eq_one_iff hne).mpr heq]
          exact hmax s hs
        have hmatch := (jaccard_eq_one_iff hne).mp hone
        have hsame := section_eq h hs hb (heq.trans hmatch.symm)
        exact ⟨_, rfl, by rw [hsame]; rfl, decide_eq_true hmatch⟩

/-- Every node of the order has what its estimate is made of. -/
theorem exists_candidateAt (estimate : Estimator) (current : ℚ) {fuel : ℕ}
    (hbuild : buildRadial fuel net.nodes net.edges = pure t) {n : String} (hn : n ∈ t.order) :
    ∃ candidate, candidateAt estimate current t n = .ok candidate := by
  by_cases hroot : n = t.root
  · exact ⟨none, if_pos hroot⟩
  · obtain ⟨f, hf, rfl⟩ := h.tree.exists_found hn hroot
    obtain ⟨path, hpath⟩ := h.tree.exists_path hn
    obtain ⟨node, hnode⟩ : ∃ node, t.byId.get? f.node = some node := by
      rw [byId_of_buildRadial hbuild]
      refine Dict.exists_get?_update (Or.inr ?_)
      rw [List.map_map]
      exact h.mem_nodes hn
    have hpath := lookup_eq (h.pathEdges f.node path (Or.inr hn) hpath)
    have hedge := lookup_eq (h.parentEdge_get? hf)
    rw [candidateAt, if_neg hroot]
    simp only [hpath, lookup_eq hnode, hedge, bind, Except.bind, pure, Except.pure]
    cases estimate current (path.map Found.edge) node with
    | none => exact ⟨_, rfl⟩
    | some found => exact ⟨_, rfl⟩

theorem exists_impedanceCandidates (estimate : Estimator) (faultCurrentA : Option ℚ) {fuel : ℕ}
    (hbuild : buildRadial fuel net.nodes net.edges = pure t) :
    ∃ candidates, impedanceCandidates estimate faultCurrentA t = .ok candidates := by
  cases faultCurrentA with
  | none => exact ⟨[], rfl⟩
  | some current =>
      by_cases hpos : 0 < current
      · obtain ⟨out, hout⟩ : ∃ out, t.order.mapM (candidateAt estimate current t) = pure out :=
          Loops.exists_mapM fun n hn => exists_candidateAt h estimate current hbuild hn
        rw [impedanceCandidates, if_pos hpos, hout]
        exact ⟨_, rfl⟩
      · exact ⟨[], if_neg hpos⟩

end Tree

/-- What `locate` says of the reports is what the scan of the sections has found. -/
theorem exists_locate (net : Network) (hsource : net.substations ≠ []) (estimate : Estimator)
    {fuel : ℕ} (hfuel : net.nodes.length ≤ fuel) (faultCurrentA : Option ℚ)
    {outageNodes : List String} (hne : outageNodes ≠ []) :
    ∃ t found location, buildRadial fuel net.nodes net.edges = pure t ∧ Represents net t found ∧
      locate estimate fuel net.nodes net.edges faultCurrentA outageNodes = pure location ∧
      location.topological = (RoundedMax.scan (scoreOf outageNodes.toFinset) round3
        (sections t)).map (report outageNodes.toFinset) := by
  obtain ⟨t, found, hbuild, hrep⟩ := buildRadial_represents net hsource hfuel
  obtain ⟨candidates, hcandidates⟩ :=
    exists_impedanceCandidates hrep estimate faultCurrentA hbuild
  let topological := (RoundedMax.scan (scoreOf outageNodes.toFinset) round3 (sections t)).map
    (report outageNodes.toFinset)
  let location : Location := {
    faultCurrentA := faultCurrentA
    outageNodes := outageNodes.insertionSort (· ≤ ·)
    impedanceCandidates := candidates.take 5
    topological := topological
    bestEstimate := bestEstimate candidates topological }
  refine ⟨t, found, location, hbuild, hrep, ?_, rfl⟩
  rw [locate, hbuild, pure_bind, hcandidates, topologicalMatch_eq hrep hne, lift_ok_bind,
    lift_ok_bind]

/-- **When the best section is selected.** `locate` takes a section with the greatest Jaccard
index, and the exact match if there is one, exactly when no section that falls short of the
greatest index, and rounds to the same three decimals, stands on the wrong side of those that
have it. -/
theorem locate_best_iff (net : Network) (hsource : net.substations ≠ []) (estimate : Estimator)
    {fuel : ℕ} (hfuel : net.nodes.length ≤ fuel) (faultCurrentA : Option ℚ)
    {outageNodes : List String} (hne : outageNodes ≠ []) :
    ∃ t location, buildRadial fuel net.nodes net.edges = pure t ∧
      locate estimate fuel net.nodes net.edges faultCurrentA outageNodes = pure location ∧
      (SelectsBest t outageNodes.toFinset location.topological ↔
        RoundedMax.NoNearTie (scoreOf outageNodes.toFinset) round3
          (fun s => jaccard s.2 outageNodes.toFinset) (sections t)) := by
  obtain ⟨t, found, location, hbuild, hrep, hlocate, htopological⟩ :=
    exists_locate net hsource estimate hfuel faultCurrentA hne
  refine ⟨t, location, hbuild, hlocate, ?_⟩
  rw [htopological]
  refine selectsBest_iff hrep ?_
  rwa [ne_eq, List.toFinset_eq_empty_iff]

/-- The meters of a service transformer, each named by a character. -/
def meterIds : List String := (List.range 49).map fun i => String.singleton (Char.ofNat (48 + i))

/-- A feeder with one service transformer behind its head. -/
def serviceFeeder : Network where
  nodes := [⟨"SUB-1", .substation⟩, ⟨"FDR-1", .feeder⟩, ⟨"TX-1", .transformer⟩] ++
    meterIds.map fun m => ⟨m, .meter⟩
  edges := [{ edgeId := "LN-1", fromNode := "SUB-1", toNode := "FDR-1" },
      { edgeId := "LN-2", fromNode := "FDR-1", toNode := "TX-1" }] ++
    meterIds.map fun m => { edgeId := m, fromNode := "TX-1", toNode := m }
  nodeKey := by decide +kernel
  edgeKey := by decide +kernel
  fromNode_mem := by decide +kernel
  toNode_mem := by decide +kernel

theorem serviceFeeder_best :
    ∃ t location, buildRadial 52 serviceFeeder.nodes serviceFeeder.edges = pure t ∧
      locate (fun _ _ _ => none) 52 serviceFeeder.nodes serviceFeeder.edges none ["TX-1"] =
        pure location ∧
      (SelectsBest t ["TX-1"].toFinset location.topological ↔
        RoundedMax.NoNearTie (scoreOf ["TX-1"].toFinset) round3
          (fun s => jaccard s.2 ["TX-1"].toFinset) (sections t)) :=
  locate_best_iff serviceFeeder (by decide) (fun _ _ _ => none) (by decide) none (by decide)

/-- The transformer reports, and the line in front of the feeder head is selected: one in fifty
and one in fifty-one are both two hundredths. -/
theorem serviceFeeder_missed :
    ∃ t location, buildRadial 52 serviceFeeder.nodes serviceFeeder.edges = pure t ∧
      locate (fun _ _ _ => none) 52 serviceFeeder.nodes serviceFeeder.edges none ["TX-1"] =
        pure location ∧
      ¬ SelectsBest t ["TX-1"].toFinset location.topological := by
  obtain ⟨t, found, location, hbuild, -, hlocate, htopological⟩ :=
    exists_locate serviceFeeder (by decide) (fun _ _ _ => none)
      (show serviceFeeder.nodes.length ≤ 52 by decide) none (show ["TX-1"] ≠ [] by decide)
  obtain ⟨t', hbuild', hselected, s, hs, hless⟩ :
      ∃ t, buildRadial 52 serviceFeeder.nodes serviceFeeder.edges = pure t ∧
        ((RoundedMax.scan (scoreOf ["TX-1"].toFinset) round3 (sections t)).map fun b => b.1.1) =
          some "LN-1" ∧
        ∃ s ∈ sections t, ∀ b ∈ sections t, b.1 = "LN-1" →
          jaccard b.2 ["TX-1"].toFinset < jaccard s.2 ["TX-1"].toFinset := by
    decide +kernel
  obtain rfl := pure_inj.mp (hbuild'.symm.trans hbuild)
  refine ⟨t', location, hbuild, hlocate, fun hbest => ?_⟩
  obtain ⟨best, hbest, b, hb, hid, hle⟩ := hbest.maximal s hs
  have hline : best.sectionId = "LN-1" := by
    rw [htopological] at hbest
    obtain ⟨candidate, hcandidate, rfl⟩ := Option.map_eq_some_iff.mp hbest
    rw [hcandidate] at hselected
    exact Option.some.inj hselected
  exact not_lt.mpr hle (hless b hb (hid.symm.trans hline))

end DiepLab.FaultLocation
