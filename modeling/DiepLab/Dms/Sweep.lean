import DiepLab.Dms.LinDistFlow
import DiepLab.Library.Ancestors
import Mathlib.Algebra.Star.Basic
import Mathlib.Analysis.SpecialFunctions.Complex.Circle

/-!
The three-phase power flow.

`solve` walks the radial tree back and forth: the load currents follow from the voltages of
the iteration before, the current of a branch is the sum of the load currents behind it on
the phases that the branch carries, and the voltages are updated in place in the order of the
walk. A parent comes before its children, so the voltage of a node is its parent's of the same
iteration less the drop over the branch (`Updated`), and with that the source's less the drops
on the way (`voltages_along`).

The sweep is stated over any field with an involution; what it uses of the complex plane
beyond that is a `Plane`, of which `complexPlane` is the one of the code. The rounding of the
report and its limits are left out.
-/

namespace DiepLab.Sweep

open SpanningTree StateEstimation

inductive Phase where
  | a | b | c
  deriving DecidableEq, Repr

namespace Phase

/-- `PHASES`. -/
def all : List Phase := [.a, .b, .c]

def letter : Phase → Char
  | .a => 'a'
  | .b => 'b'
  | .c => 'c'

end Phase

/-- `_phase_set`. -/
def phaseSet (s : Option String) : List Phase :=
  let text := match s with
    | none | some "" => "ABC"
    | some text => text
  Phase.all.filter fun p => p.letter ∈ text.toLower.toList

/-- The column `phases` of nodes and edges, by the id of the row. -/
structure Phasing where
  ofNode : String → Option String
  ofEdge : String → Option String

def Phasing.nodePhases (phasing : Phasing) (n : String) : List Phase := phaseSet (phasing.ofNode n)

def Phasing.edgePhases (phasing : Phasing) (e : String) : List Phase := phaseSet (phasing.ofEdge e)

/-- `SBASE_1PH_KW`. -/
def sbase1phKw : ℚ := sbaseKw / 3

/-- What the sweep takes from complex numbers besides the operations of a field. -/
structure Plane (K R : Type) where
  slack : Phase → K
  complex : ℚ → ℚ → K
  abs : K → R

/-- A dictionary by phase. -/
abbrev Phasors (K : Type) := Phase → Option K

abbrev Voltages (K : Type) := String → Phasors K

/-- What a power flow is solved for. -/
structure Study (K R : Type) where
  ratings : Ratings
  phasing : Phasing
  loads : String → Phasors K
  tolPu : R
  maxIter : ℕ

/-! ### Before the first iteration -/

/-- `child_of[parent_edge[n]["edge_id"]] = n`. -/
def addChild (t : RadialTree) (childOf : Dict String) (n : String) : Except Exc (Dict String) :=
  if n = t.root then pure childOf
  else do
    let e ← lookup t.parentEdge n
    pure (childOf.set e.edgeId n)

/-- The phases that the branch `eid` to the node `c` carries. -/
def carries (phasing : Phasing) (eid c : String) : List Phase :=
  (phasing.nodePhases c).filter fun p => p ∈ phasing.edgePhases eid

/-- The dictionaries of the branches. -/
structure Branches (K : Type) where
  zPu : Dict K
  childOf : Dict String
  branchPhase : Dict (List Phase)

section Solve

variable {K R : Type} [Field K] [StarRing K] [DecidableEq K] [LinearOrder R] [Zero R]
  (plane : Plane K R) (study : Study K R)

def branches (t : RadialTree) : Except Exc (Branches K) := do
  let pu ← impedances study.ratings t
  let childOf ← t.order.foldlM (addChild t) []
  pure {
    zPu := pu.map fun kv => (kv.1, plane.complex kv.2.1 kv.2.2)
    childOf := childOf
    branchPhase := childOf.map fun kv => (kv.1, carries study.phasing kv.1 kv.2) }

/-- Every phase of an energised node starts at the slack. -/
def flatStart (t : RadialTree) : Voltages K := fun n p =>
  if n ∈ t.energized ∧ p ∈ study.phasing.nodePhases n then some (plane.slack p) else none

/-! ### One iteration -/

/-- `v or SLACK[p]`. -/
def orSlack (v : Option K) (p : Phase) : K :=
  match v with
  | none => plane.slack p
  | some v => if v = 0 then plane.slack p else v

/-- `i_load.get(n, {}).get(p, 0j)`. -/
def loadCurrent (t : RadialTree) (V : Voltages K) (n : String) (p : Phase) : K :=
  if n ∈ t.energized ∧ p ∈ study.phasing.nodePhases n then
    match study.loads n p with
    | none => 0
    | some s => star (s / (sbase1phKw : K) / orSlack plane (V n p) p)
  else 0

/-- `J`: the sums of the load currents behind the branches. -/
def branchCurrents (t : RadialTree) (b : Branches K) (iLoad : String → Phase → K) :
    Except Exc (Dict (Phasors K)) :=
  b.childOf.mapM fun kv => do
    let below ← lookup t.subtree kv.1
    let carried ← lookup b.branchPhase kv.1
    pure (kv.1, fun p => if p ∈ carried then some (∑ k ∈ below, iLoad k p) else none)

/-- The other end of an edge. -/
def otherEnd (e : GridEdge) (n : String) : String := if e.toNode = n then e.fromNode else e.toNode

/-- `V[n][p] = v`. -/
def setPhase (V : Voltages K) (n : String) (p : Phase) (v : K) : Voltages K :=
  fun m q => if m = n ∧ q = p then some v else V m q

/-- The voltages and the mismatch after one phase of a node. -/
def updatePhase (parent n : String) (z : K) (jb : Phase → K) (s : Voltages K × R) (p : Phase) :
    Voltages K × R :=
  let vparent := (s.1 parent p).getD (plane.slack p)
  let vnew := vparent - z * jb p
  (setPhase s.1 n p vnew, max s.2 (plane.abs (vnew - (s.1 n p).getD 0)))

def updateNode (t : RadialTree) (b : Branches K) (J : Dict (Phasors K)) (s : Voltages K × R)
    (n : String) : Except Exc (Voltages K × R) :=
  if n = t.root then pure s
  else do
    let e ← lookup t.parentEdge n
    let z ← lookup b.zPu e.edgeId
    let carried ← lookup b.branchPhase e.edgeId
    let j ← lookup J e.edgeId
    let jb := fun p => if p ∈ carried then (j p).getD 0 else 0
    pure ((study.phasing.nodePhases n).foldl (updatePhase plane (otherEnd e n) n z jb) s)

/-- What an iteration works out. -/
structure Iteration (K R : Type) where
  iLoad : String → Phase → K
  J : Dict (Phasors K)
  V : Voltages K
  mismatch : R

def iteration (t : RadialTree) (b : Branches K) (V : Voltages K) :
    Except Exc (Iteration K R) := do
  let iLoad := loadCurrent plane study t V
  let J ← branchCurrents t b iLoad
  let (V', mismatch) ← t.order.foldlM (updateNode plane study t b J) (V, 0)
  pure { iLoad := iLoad, J := J, V := V', mismatch := mismatch }

/-! ### The loop -/

/-- The iterations that are made from the voltages `V`, with `turns` left. -/
def iterations (t : RadialTree) (b : Branches K) :
    (turns : ℕ) → (V : Voltages K) → Except Exc (List (Iteration K R))
  | 0, _ => pure []
  | turns + 1, V => do
      let it ← iteration plane study t b V
      if it.mismatch < study.tolPu then pure [it]
      else do
        let rest ← iterations t b turns it.V
        pure (it :: rest)

/-- What `solve` has when it puts its report together. -/
structure Solution (K R : Type) where
  tree : RadialTree
  branches : Branches K
  iterations : List (Iteration K R)
  converged : Bool

def solve (fuel : ℕ) (nodes : List GridNode) (edges : List GridEdge) :
    Looping (Solution K R) := do
  let net ← buildRadial fuel nodes edges
  let b ← (branches plane study net : Except Exc _)
  let its ← (iterations plane study net b study.maxIter (flatStart plane study net) : Except Exc _)
  pure {
    tree := net
    branches := b
    iterations := its
    converged := its.getLast?.any fun it => it.mismatch < study.tolPu }

end Solve

/-! ### The dictionaries of the branches -/

section Tree

variable {net : Network} {t : RadialTree} {found : List (Found String GridEdge)}
  (h : Represents net t found)

/-- The phases that a branch of the tree carries. -/
def carriedBy (phasing : Phasing) (f : Found String GridEdge) : List Phase :=
  carries phasing f.edge.edgeId f.node

include h

theorem otherEnd_found {f : Found String GridEdge} (hf : f ∈ found) :
    otherEnd f.edge f.node = f.parent := by
  have hne := h.tree.parent_ne_node hf
  obtain ⟨-, -, ⟨hfrom, hto⟩ | ⟨hto, hfrom⟩⟩ := mem_adjacency.mp (h.tree.linked f hf)
  · rw [otherEnd, if_pos hto, hfrom]
  · rw [otherEnd, if_neg (fun heq => hne (hto.symm.trans heq)), hto]

/-- `child_of` names the end of every branch, and of nothing else. -/
theorem foldlM_addChild : ∃ childOf, t.order.foldlM (addChild t) [] = .ok childOf ∧
    (∀ f ∈ found, Dict.get? childOf f.edge.edgeId = some f.node) ∧
    ∀ kv ∈ childOf, ∃ f ∈ found, kv.1 = f.edge.edgeId := by
  have hadd (f : Found String GridEdge) (hf : f ∈ found) (d : Dict String) :
      addChild t d f.node = .ok (d.set f.edge.edgeId f.node) := by
    rw [addChild, if_neg (h.tree.node_ne_root hf), lookup_eq (h.parentEdge_get? hf)]
    rfl
  obtain ⟨childOf, hrun, hchild⟩ : ∃ childOf : Dict String,
      t.order.foldlM (addChild t) [] = (.ok childOf : Except Exc _) ∧
      ∀ f ∈ found, ∃ c, childOf.get? f.edge.edgeId = some c ∧ c = f.node :=
    foldlM_edges h.tree (fun f hf g hg => found_eq_of_edgeId net h.tree hf hg)
      (fun d => if_pos rfl) fun f hf d => ⟨f.node, hadd f hf d, rfl⟩
  obtain ⟨childOf', hrun', hkeys⟩ : ∃ childOf : Dict String,
      t.order.foldlM (addChild t) [] = (.ok childOf : Except Exc _) ∧
      ∀ kv ∈ childOf, ∃ f ∈ found, kv.1 = f.edge.edgeId := by
    refine Loops.foldlM_prefix (P := fun _ (d : Dict String) =>
      ∀ kv ∈ d, ∃ f ∈ found, kv.1 = f.edge.edgeId) nofun ?_
    intro left n right d hsplit hd
    by_cases hroot : n = t.root
    · exact ⟨d, if_pos hroot, hd⟩
    · have hn : n ∈ t.order := hsplit ▸ List.mem_append_right left List.mem_cons_self
      obtain ⟨f, hf, rfl⟩ := h.tree.exists_found hn hroot
      refine ⟨_, hadd f hf d, fun kv hkv => ?_⟩
      rcases Dict.mem_set hkv with hkv | rfl
      · exact hd kv hkv
      · exact ⟨f, hf, rfl⟩
  obtain rfl := Except.ok.inj (hrun'.symm.trans hrun)
  refine ⟨childOf', hrun', fun f hf => ?_, hkeys⟩
  obtain ⟨c, hc, rfl⟩ := hchild f hf
  exact hc

variable {K R : Type} (plane : Plane K R) (study : Study K R)

/-- The impedance of a branch. -/
def branchZ (f : Found String GridEdge) : K :=
  let z := impedance study.ratings f.node f.edge
  plane.complex z.1 z.2

/-- What the dictionaries say of the branches. -/
structure Prepared (found : List (Found String GridEdge)) (b : Branches K) : Prop where
  zPu : ∀ f ∈ found, b.zPu.get? f.edge.edgeId = some (branchZ plane study f)
  keys : ∀ kv ∈ b.childOf, ∃ f ∈ found, kv.1 = f.edge.edgeId
  childOf : ∀ f ∈ found, b.childOf.get? f.edge.edgeId = some f.node
  branchPhase : ∀ f ∈ found, b.branchPhase.get? f.edge.edgeId = some (carriedBy study.phasing f)

theorem exists_branches : ∃ b, branches plane study t = .ok b ∧ Prepared plane study found b := by
  obtain ⟨pu, hpu, hz⟩ := impedances_eq h study.ratings
  obtain ⟨childOf, hchild, hget, hkeys⟩ := foldlM_addChild h
  refine ⟨{
    zPu := pu.map fun kv => (kv.1, plane.complex kv.2.1 kv.2.2)
    childOf := childOf
    branchPhase := childOf.map fun kv => (kv.1, carries study.phasing kv.1 kv.2) }, ?_,
    fun f hf => ?_, hkeys, hget, fun f hf => ?_⟩
  · rw [branches, hpu]
    simp only [bind, Except.bind, hchild, pure, Except.pure]
  · exact (Dict.get?_map (fun _ z => plane.complex z.1 z.2) pu _).trans
      (congrArg (Option.map _) (hz f hf))
  · exact (Dict.get?_map (carries study.phasing) childOf _).trans
      (congrArg (Option.map _) (hget f hf))

variable [Field K]

/-- What `J` says of the branches. -/
structure Summed (found : List (Found String GridEdge)) (iLoad : String → Phase → K)
    (J : Dict (Phasors K)) : Prop where
  J : ∀ f ∈ found, ∃ below : Finset String, (∀ k, k ∈ below ↔ Descends found f.node k) ∧
    J.get? f.edge.edgeId = some fun p =>
      if p ∈ carriedBy study.phasing f then some (∑ k ∈ below, iLoad k p) else none

theorem exists_branchCurrents {b : Branches K} (hb : Prepared plane study found b)
    (iLoad : String → Phase → K) :
    ∃ J, branchCurrents t b iLoad = .ok J ∧ Summed study found iLoad J := by
  let value (eid : String) : Phasors K := fun p =>
    if p ∈ (b.branchPhase.get? eid).getD [] then
      some (∑ k ∈ (t.subtree.get? eid).getD ∅, iLoad k p) else none
  have hrun : branchCurrents t b iLoad = .ok (b.childOf.map fun kv => (kv.1, value kv.1)) := by
    refine Loops.mapM_of_forall fun kv hkv => ?_
    obtain ⟨f, hf, hid⟩ := hb.keys kv hkv
    obtain ⟨below, hbelow, -⟩ := h.subtree f hf
    rw [← hid] at hbelow
    have hphase := hb.branchPhase f hf
    rw [← hid] at hphase
    simp only [lookup_eq hbelow, lookup_eq hphase, bind, Except.bind, value, hbelow, hphase,
      Option.getD_some]
  refine ⟨_, hrun, ⟨fun f hf => ?_⟩⟩
  obtain ⟨below, hbelow, hmem⟩ := h.subtree f hf
  have hget := Dict.get?_map (fun eid _ => value eid) b.childOf f.edge.edgeId
  refine ⟨below, hmem, ?_⟩
  rw [hget, hb.childOf f hf, Option.map_some]
  simp only [value, hbelow, hb.branchPhase f hf, Option.getD_some]

/-! ### The voltages after an iteration -/

/-- The current of a branch, nought on a phase that it does not carry. -/
def current (J : Dict (Phasors K)) (eid : String) (p : Phase) : K :=
  ((J.get? eid).bind fun j => j p).getD 0

/-- The drop over a branch. -/
def drop (b : Branches K) (J : Dict (Phasors K)) (eid : String) (p : Phase) : K :=
  (b.zPu.get? eid).getD 0 * current J eid p

/-- The voltages are those of the parents less the drops over the branches. -/
structure Updated (root : String) (found : List (Found String GridEdge)) (b : Branches K)
    (J : Dict (Phasors K)) (V V' : Voltages K) : Prop where
  root : V' root = V root
  node : ∀ f ∈ found, ∀ p ∈ study.phasing.nodePhases f.node,
    V' f.node p = some ((V' f.parent p).getD (plane.slack p) - drop b J f.edge.edgeId p)

omit h in
theorem foldl_updatePhase [LinearOrder R] {parent n : String} (hne : parent ≠ n) (z : K)
    (jb : Phase → K) (phases : List Phase) (s : Voltages K × R) :
    (phases.foldl (updatePhase plane parent n z jb) s).1 = fun m q =>
      if m = n ∧ q ∈ phases then some ((s.1 parent q).getD (plane.slack q) - z * jb q)
      else s.1 m q := by
  induction phases generalizing s with
  | nil =>
      funext m q
      simp
  | cons p phases ih =>
      rw [List.foldl_cons, ih]
      funext m q
      have hparent : (updatePhase plane parent n z jb s p).1 parent = s.1 parent := by
        funext q'
        exact if_neg fun hp => hne hp.1
      rw [hparent]
      by_cases hq : m = n ∧ q ∈ phases
      · rw [if_pos hq, if_pos ⟨hq.1, List.mem_cons_of_mem p hq.2⟩]
      · rw [if_neg hq]
        by_cases hp : m = n ∧ q = p
        · rw [if_pos ⟨hp.1, List.mem_cons.mpr (Or.inl hp.2)⟩, hp.2]
          exact if_pos ⟨hp.1, rfl⟩
        · rw [if_neg fun hc => (List.mem_cons.mp hc.2).elim (fun heq => hp ⟨hc.1, heq⟩)
            fun hmem => hq ⟨hc.1, hmem⟩]
          exact if_neg hp

section Forward

variable [LinearOrder R] {b : Branches K} (hb : Prepared plane study found b)
  {iLoad : String → Phase → K} {J : Dict (Phasors K)} (hJ : Summed study found iLoad J)
include hb hJ

/-- A turn writes the phases of one node. -/
theorem updateNode_found {f : Found String GridEdge} (hf : f ∈ found) (s : Voltages K × R) :
    ∃ s', updateNode plane study t b J s f.node = .ok s' ∧
      s'.1 = fun m q => if m = f.node ∧ q ∈ study.phasing.nodePhases f.node then
        some ((s.1 f.parent q).getD (plane.slack q) - drop b J f.edge.edgeId q) else s.1 m q := by
  obtain ⟨below, -, hcurrent⟩ := hJ.J f hf
  have hne := h.tree.parent_ne_node hf
  let j : Phasors K := fun p =>
    if p ∈ carriedBy study.phasing f then some (∑ k ∈ below, iLoad k p) else none
  let jb : Phase → K := fun p => if p ∈ carriedBy study.phasing f then (j p).getD 0 else 0
  have hdrop (q : Phase) : branchZ plane study f * jb q = drop b J f.edge.edgeId q := by
    rw [drop, hb.zPu f hf, current, hcurrent]
    by_cases hq : q ∈ carriedBy study.phasing f
    · simp [jb, j, hq]
    · simp [jb, hq]
  refine ⟨(study.phasing.nodePhases f.node).foldl
    (updatePhase plane f.parent f.node (branchZ plane study f) jb) s, ?_, ?_⟩
  · rw [updateNode, if_neg (h.tree.node_ne_root hf)]
    simp only [lookup_eq (h.parentEdge_get? hf), lookup_eq (hb.zPu f hf),
      lookup_eq (hb.branchPhase f hf), lookup_eq hcurrent, bind, Except.bind, pure, Except.pure,
      otherEnd_found h hf]
    rfl
  · rw [foldl_updatePhase plane hne]
    simp only [hdrop]

omit h hb hJ in
theorem updateNode_root (s : Voltages K × R) : updateNode plane study t b J s t.root = .ok s := by
  rw [updateNode, if_pos rfl]
  rfl

/-- The nodes gone through so far have the voltages of their parents less the drops. -/
def UpdatedSo (found : List (Found String GridEdge)) (b : Branches K) (J : Dict (Phasors K))
    (left : List String) (V : Voltages K) : Prop :=
  ∀ f ∈ found, f.node ∈ left → ∀ p ∈ study.phasing.nodePhases f.node,
    V f.node p = some ((V f.parent p).getD (plane.slack p) - drop b J f.edge.edgeId p)

/-- In the order of the walk every voltage is read after it has been written. -/
theorem updatedSo_step {left right : List String} {f : Found String GridEdge} (hf : f ∈ found)
    (hsplit : t.order = left ++ f.node :: right) {s : Voltages K × R}
    (hleft : UpdatedSo plane study found b J left s.1) :
    ∃ s', updateNode plane study t b J s f.node = .ok s' ∧ s'.1 t.root = s.1 t.root ∧
      UpdatedSo plane study found b J (left ++ [f.node]) s'.1 := by
  obtain ⟨s', hturn, hV⟩ := updateNode_found h plane study hb hJ hf s
  -- what is not this node keeps its voltage, the parents so far among others
  have hkeep {m : String} (hm : m ≠ f.node) : s'.1 m = s.1 m := by
    funext q
    rw [hV]
    exact if_neg fun hc => hm hc.1
  have hparent {g : Found String GridEdge} (hg : g ∈ found) (hmem : g.node ∈ left ++ [f.node]) :
      g.parent ≠ f.node := by
    intro heq
    rcases List.mem_append.mp hmem with hmem | hmem
    · obtain ⟨before, behind, rfl⟩ := List.append_of_mem hmem
      have hbefore : g.parent ∈ before := h.tree.parent_mem_left hg (by
        rw [hsplit, List.append_assoc, List.cons_append])
      have hnodup := h.tree.nodup
      rw [hsplit, List.nodup_append] at hnodup
      exact hnodup.2.2 f.node (List.mem_append_left _ (heq ▸ hbefore)) f.node
        List.mem_cons_self rfl
    · exact h.tree.parent_ne_node hg (heq.trans (List.mem_singleton.mp hmem).symm)
  refine ⟨s', hturn, hkeep (h.tree.node_ne_root hf).symm, fun g hg hmem p hp => ?_⟩
  rw [hkeep (hparent hg hmem)]
  by_cases hgf : g.node = f.node
  · obtain rfl := h.tree.found_eq hg hf hgf
    rw [hV]
    exact if_pos ⟨rfl, hp⟩
  · rw [hkeep hgf]
    refine hleft g hg ((List.mem_append.mp hmem).resolve_right fun hmem => ?_) p hp
    exact hgf (List.mem_singleton.mp hmem)

theorem foldlM_updateNode (V : Voltages K) (mismatch : R) :
    ∃ s', t.order.foldlM (updateNode plane study t b J) (V, mismatch) = .ok s' ∧
      Updated plane study t.root found b J V s'.1 := by
  obtain ⟨s', hrun, hroot, hall⟩ : ∃ s' : Voltages K × R,
      t.order.foldlM (updateNode plane study t b J) (V, mismatch) = pure s' ∧
      s'.1 t.root = V t.root ∧ UpdatedSo plane study found b J t.order s'.1 := by
    refine Loops.foldlM_prefix (P := fun left (s : Voltages K × R) => s.1 t.root = V t.root ∧
      UpdatedSo plane study found b J left s.1)
      ⟨rfl, fun _ _ hmem => absurd hmem List.not_mem_nil⟩ ?_
    rintro left n right s hsplit ⟨hroot, hleft⟩
    by_cases hn : n = t.root
    · subst hn
      refine ⟨s, updateNode_root plane study s, hroot, fun f hf hmem => hleft f hf ?_⟩
      refine (List.mem_append.mp hmem).resolve_right fun hmem => ?_
      exact h.tree.node_ne_root hf (List.mem_singleton.mp hmem)
    · obtain ⟨f, hf, rfl⟩ := h.tree.exists_found
        (hsplit ▸ List.mem_append_right left List.mem_cons_self) hn
      obtain ⟨s', hturn, hkeep, hdone⟩ := updatedSo_step h plane study hb hJ hf hsplit hleft
      exact ⟨s', hturn, hkeep.trans hroot, hdone⟩
  exact ⟨s', hrun, hroot, fun f hf => hall f hf (h.tree.node_mem hf)⟩

end Forward

omit h in
/-- On a phase that all nodes of the way have, the voltage is the slack less the drops. -/
theorem voltages_along {b : Branches K} {J : Dict (Phasors K)} {V V' : Voltages K}
    (hV : Updated plane study t.root found b J V V') {n : String}
    {path : List (Found String GridEdge)} (hp : PathTo t.root found n path) {p : Phase}
    (hslack : V t.root p = some (plane.slack p))
    (hphases : ∀ m ∈ path.map Found.parent ++ [n], p ∈ study.phasing.nodePhases m) :
    V' n p = some (plane.slack p - (path.map fun f => drop b J f.edge.edgeId p).sum) := by
  induction hp with
  | root => rw [hV.root, hslack, List.map_nil, List.sum_nil, sub_zero]
  | @step f path hf _ ih =>
      rw [List.map_append, List.map_singleton] at hphases
      have hparent := ih fun m hm => hphases m (List.mem_append_left _ hm)
      have hnode := hphases f.node (List.mem_append_right _ List.mem_cons_self)
      rw [hV.node f hf p hnode, hparent, Option.getD_some, List.map_append, List.sum_append,
        List.map_singleton, List.sum_singleton, sub_sub]

/-! ### The iterations -/

section Loop

variable [StarRing K] [DecidableEq K] [LinearOrder R] [Zero R]

/-- What an iteration from the voltages `V` has worked out. -/
structure Follows (t : RadialTree) (found : List (Found String GridEdge)) (b : Branches K)
    (V : Voltages K) (it : Iteration K R) : Prop where
  iLoad : it.iLoad = loadCurrent plane study t V
  summed : Summed study found it.iLoad it.J
  updated : Updated plane study t.root found b it.J V it.V

variable {b : Branches K} (hb : Prepared plane study found b)
include hb

theorem exists_iteration (V : Voltages K) :
    ∃ it, iteration plane study t b V = .ok it ∧ Follows plane study t found b V it := by
  obtain ⟨J, hJ, hsummed⟩ := exists_branchCurrents h plane study hb (loadCurrent plane study t V)
  obtain ⟨s', hrun, hupdated⟩ := foldlM_updateNode h plane study hb hsummed V (0 : R)
  refine ⟨{ iLoad := loadCurrent plane study t V, J := J, V := s'.1, mismatch := s'.2 }, ?_,
    rfl, hsummed, hupdated⟩
  rw [iteration, hJ]
  simp only [bind, Except.bind, hrun]
  rfl

/-- Every iteration follows from voltages with the slack at the root, the first one from those
that the loop starts with. -/
theorem exists_iterations (turns : ℕ) (V : Voltages K) :
    ∃ its, iterations plane study t b turns V = .ok its ∧
      (∀ it ∈ its, ∃ V₀, V₀ t.root = V t.root ∧ Follows plane study t found b V₀ it) ∧
      (0 < turns → ∃ it ∈ its, Follows plane study t found b V it) := by
  induction turns generalizing V with
  | zero =>
      exact ⟨[], rfl, fun _ hit => absurd hit List.not_mem_nil,
        fun hpos => absurd hpos (lt_irrefl 0)⟩
  | succ turns ih =>
      obtain ⟨it, hit, hfollows⟩ := exists_iteration h plane study hb V
      rw [iterations, hit]
      by_cases hsmall : it.mismatch < study.tolPu
      · refine ⟨[it], if_pos hsmall, fun it' hit' => ?_,
          fun _ => ⟨it, List.mem_cons_self, hfollows⟩⟩
        rw [List.mem_singleton.mp hit']
        exact ⟨V, rfl, hfollows⟩
      · obtain ⟨rest, hrest, hall, -⟩ := ih it.V
        refine ⟨it :: rest, ?_, fun it' hit' => ?_, fun _ => ⟨it, List.mem_cons_self, hfollows⟩⟩
        · refine (if_neg hsmall).trans ?_
          rw [hrest]
          rfl
        · rcases List.mem_cons.mp hit' with rfl | hit'
          · exact ⟨V, rfl, hfollows⟩
          · obtain ⟨V₀, hroot, hV₀⟩ := hall it' hit'
            exact ⟨V₀, hroot.trans hfollows.updated.root, hV₀⟩

end Loop

end Tree

section Solved

variable {K R : Type} [Field K] [StarRing K] [DecidableEq K] [LinearOrder R] [Zero R]
  (plane : Plane K R) (study : Study K R)

/-- What `solve` has worked out. -/
structure Solved (net : Network) (found : List (Found String GridEdge)) (sol : Solution K R) :
    Prop where
  represents : Represents net sol.tree found
  prepared : Prepared plane study found sol.branches
  follows : ∀ it ∈ sol.iterations, ∃ V, V sol.tree.root = flatStart plane study sol.tree
    sol.tree.root ∧ Follows plane study sol.tree found sol.branches V it
  first : 0 < study.maxIter → ∃ it ∈ sol.iterations, Follows plane study sol.tree found
    sol.branches (flatStart plane study sol.tree) it

/-- `solve` returns: no lookup fails. -/
theorem exists_solve (net : Network) (hsource : net.substations ≠ []) {fuel : ℕ}
    (hfuel : net.nodes.length ≤ fuel) :
    ∃ sol found, solve plane study fuel net.nodes net.edges = pure sol ∧
      Solved plane study net found sol := by
  obtain ⟨t, found, hbuild, hrep⟩ := buildRadial_represents net hsource hfuel
  obtain ⟨b, hb, hprepared⟩ := exists_branches hrep plane study
  obtain ⟨its, hits, hall, hfirst⟩ :=
    exists_iterations hrep plane study hprepared study.maxIter (flatStart plane study t)
  refine ⟨{
    tree := t
    branches := b
    iterations := its
    converged := its.getLast?.any fun it => it.mismatch < study.tolPu }, found, ?_,
    hrep, hprepared, hall, hfirst⟩
  rw [solve, hbuild, pure_bind, hb, lift_ok_bind, hits, lift_ok_bind]

end Solved

/-! ### The complex plane -/

/-- `cmath.rect(1.0, math.radians(degrees))`. -/
noncomputable def rectDegrees (degrees : ℝ) : ℂ :=
  Complex.exp ((degrees * (Real.pi / 180) : ℝ) * Complex.I)

/-- `SLACK` and the numbers of `solve`. -/
noncomputable def complexPlane : Plane ℂ ℝ where
  slack
    | .a => rectDegrees 0
    | .b => rectDegrees (-120)
    | .c => rectDegrees 120
  complex r x := ⟨r, x⟩
  abs z := ‖z‖

/-- **The voltages follow from the currents.** After every iteration the voltage of an energised
node is the slack less the drops over the branches on its way, on every phase that all nodes of
the way have. -/
theorem voltages_follow (net : Network) (hsource : net.substations ≠ []) {fuel : ℕ}
    (hfuel : net.nodes.length ≤ fuel) (study : Study ℂ ℝ) :
    ∃ sol, solve complexPlane study fuel net.nodes net.edges = pure sol ∧
      ∀ it ∈ sol.iterations, ∀ n ∈ sol.tree.energized, ∃ via path,
        sol.tree.pathEdges.get? n = some path ∧
        ClosedWay net.edges sol.tree.root via path n ∧
        ∀ p, (∀ m ∈ via ++ [n], p ∈ study.phasing.nodePhases m) →
          it.V n p = some (complexPlane.slack p -
            (path.map fun e => drop sol.branches it.J e.edgeId p).sum) := by
  obtain ⟨sol, found, hsolve, hsolved⟩ := exists_solve complexPlane study net hsource hfuel
  have hrep := hsolved.represents
  refine ⟨sol, hsolve, fun it hit n hn => ?_⟩
  rw [hrep.energized] at hn
  obtain ⟨path, hpath⟩ := hrep.tree.exists_path hn
  obtain ⟨V, hroot, hfollows⟩ := hsolved.follows it hit
  refine ⟨path.map Found.parent, path.map Found.edge, hrep.pathEdges n path (Or.inr hn) hpath,
    closedWay_of_path hrep.tree hpath, fun p hphases => ?_⟩
  have hphase : p ∈ study.phasing.nodePhases sol.tree.root :=
    hphases _ ((hrep.tree.mem_way_iff hpath).mpr (hrep.tree.root_descends hn))
  have hslack : V sol.tree.root p = some (complexPlane.slack p) := by
    rw [hroot]
    exact if_pos ⟨(hrep.energized _).mpr hrep.tree.root_mem, hphase⟩
  rw [voltages_along complexPlane study hfollows.updated hpath hslack hphases, List.map_map]
  rfl

/-- One line from the substation. -/
def lateral : Network where
  nodes := [⟨"SUB-1", .substation⟩, ⟨"BUS-1", .bus⟩]
  edges := [{ edgeId := "LN-1", fromNode := "SUB-1", toNode := "BUS-1" }]
  nodeKey := List.nodup_cons.mpr (by decide)
  edgeKey := by decide
  fromNode_mem := by decide
  toNode_mem := by decide

/-- The line is stored with the phase a alone, and the bus has a load of 30 kW on b. -/
noncomputable def lateralStudy : Study ℂ ℝ where
  ratings := ⟨fun _ => none, fun _ => none, fun _ => none, fun _ => some 1, fun _ => some 2⟩
  phasing := ⟨fun _ => none, fun _ => some "A"⟩
  loads n p := if n = "BUS-1" ∧ p = .b then some 30 else none
  tolPu := 1 / 1000000
  maxIter := 100

theorem lateral_voltages :
    ∃ sol, solve complexPlane lateralStudy 2 lateral.nodes lateral.edges = pure sol ∧
      ∀ it ∈ sol.iterations, ∀ n ∈ sol.tree.energized, ∃ via path,
        sol.tree.pathEdges.get? n = some path ∧
        ClosedWay lateral.edges sol.tree.root via path n ∧
        ∀ p, (∀ m ∈ via ++ [n], p ∈ lateralStudy.phasing.nodePhases m) →
          it.V n p = some (complexPlane.slack p -
            (path.map fun e => drop sol.branches it.J e.edgeId p).sum) :=
  voltages_follow lateral (by decide) (by decide) lateralStudy

end DiepLab.Sweep
