import DiepLab.Dms.OutageInference
import DiepLab.Library.Ancestors
import DiepLab.Library.Grouping

/-!
What one inference pass reports.

The helpers of the pass climb from a node towards the root. In terms of the way to the
node, `_ancestors` is its last thousand nodes in reverse (`ancestors_eq`), `_lca` is the
deepest node over the group where no way is longer than that (`exists_lca`), and the
device that is blamed is the last open edge of the way to that node, or its last edge
(`deviceEdge_eq`). `Reports` puts together what is said of one group, and
`forall₂_of_inferPass` says it of a pass.
-/

namespace DiepLab.OutageInference

open SpanningTree StateEstimation

/-- No node is a thousand edges away from the root. -/
def Shallow (t : RadialTree) : Prop :=
  ∀ n ∈ t.order, ∀ path, t.pathEdges.get? n = some path → path.length < 1000

/-- The section that an outage names, in the tree that it was inferred from. -/
def Outage.section (t : RadialTree) (o : Outage) : Finset String :=
  match o.probableDevice with
  | some d => (t.subtree.get? d.edgeId).getD ∅
  | none => t.energized

/-- What is blamed on the way to the deepest node: the last open piece, or else the
last one. -/
def blamed {γ : Type} (edgeId : γ → String) (openEdgeIds : Finset String) (way : List γ) :
    Option γ :=
  (way.reverse.find? fun x => edgeId x ∈ openEdgeIds).or way.getLast?

section Blamed

variable {γ : Type} {edgeId : γ → String} {openEdgeIds : Finset String} {way : List γ}

theorem mem_of_blamed {x : γ} (h : blamed edgeId openEdgeIds way = some x) : x ∈ way := by
  rw [blamed, Option.or_eq_some_iff] at h
  rcases h with h | ⟨-, h⟩
  · exact List.mem_reverse.mp (List.mem_of_find?_eq_some h)
  · exact List.mem_of_getLast? h

theorem find?_open_empty (edgeId : γ → String) (way : List γ) :
    (way.find? fun x => edgeId x ∈ (∅ : Finset String)) = none :=
  List.find?_eq_none.mpr fun x _ => by simp

/-- With no open edge it is the last edge that is blamed. -/
theorem blamed_empty (edgeId : γ → String) (way : List γ) :
    blamed edgeId ∅ way = way.getLast? := by
  rw [blamed, find?_open_empty, Option.none_or]

theorem blamed_map {δ : Type} (f : δ → γ) (way : List δ) :
    blamed edgeId openEdgeIds (way.map f) =
      (blamed (fun x => edgeId (f x)) openEdgeIds way).map f := by
  rw [blamed, blamed, ← List.map_reverse, List.find?_map, List.getLast?_map, ← Option.map_or]
  rfl

end Blamed

/-- The discovery that is blamed. -/
abbrev blamedFound (openEdgeIds : Finset String) (path : List (Found String GridEdge)) :
    Option (Found String GridEdge) :=
  blamed (fun f => f.edge.edgeId) openEdgeIds path

/-! ### Climbing -/

section Climb

variable {net : Network} {t : RadialTree} {found : List (Found String GridEdge)}
  (h : Represents net t found)
include h

theorem chainFrom_eq {n : String} {path : List (Found String GridEdge)}
    (hp : PathTo t.root found n path) (guard : ℕ) :
    chainFrom (parentNodeMap t) t.root guard (some n) =
      (path.map Found.parent ++ [n]).reverse.take guard := by
  induction hp generalizing guard with
  | root =>
      cases guard with
      | zero => rfl
      | succ guard => simp [chainFrom]
  | @step f path hf _ ih =>
      cases guard with
      | zero => rfl
      | succ guard =>
          have hway : ((path ++ [f]).map Found.parent ++ [f.node]).reverse =
              f.node :: (path.map Found.parent ++ [f.parent]).reverse := by simp
          rw [chainFrom, if_neg (h.tree.node_ne_root hf), parentNodeMap_get? h hf, ih, hway,
            List.take_succ_cons]

theorem ancestors_eq {n : String} {path : List (Found String GridEdge)}
    (hp : PathTo t.root found n path) :
    ancestors (parentNodeMap t) t.root n = (path.map Found.parent ++ [n]).reverse.take 1000 :=
  chainFrom_eq h hp 1000

theorem descends_of_mem_ancestors {n : String} (hn : n ∈ t.order) {a : String}
    (ha : a ∈ ancestors (parentNodeMap t) t.root n) : Descends found a n := by
  obtain ⟨path, hp⟩ := h.tree.exists_path hn
  rw [ancestors_eq h hp] at ha
  exact (h.tree.mem_way_iff hp).mp (List.mem_reverse.mp (List.mem_of_mem_take ha))

theorem length_path_lt (hshallow : Shallow t) {n : String} (hn : n ∈ t.order)
    {path : List (Found String GridEdge)} (hp : PathTo t.root found n path) :
    path.length < 1000 := by
  have hlt := hshallow n hn _ (h.pathEdges n path (Or.inr hn) hp)
  rwa [List.length_map] at hlt

theorem mem_ancestors_iff (hshallow : Shallow t) {n : String} (hn : n ∈ t.order) {a : String} :
    a ∈ ancestors (parentNodeMap t) t.root n ↔ Descends found a n := by
  obtain ⟨path, hp⟩ := h.tree.exists_path hn
  have hlen : (path.map Found.parent ++ [n]).reverse.length ≤ 1000 := by
    have hlt := length_path_lt h hshallow hn hp
    rw [List.length_reverse, List.length_append, List.length_map, List.length_singleton]
    exact hlt
  rw [ancestors_eq h hp, List.take_of_length_le hlen, List.mem_reverse, h.tree.mem_way_iff hp]

theorem length_ancestors (hshallow : Shallow t) {n : String} (hn : n ∈ t.order)
    {path : List (Found String GridEdge)} (hp : PathTo t.root found n path) :
    (ancestors (parentNodeMap t) t.root n).length = path.length + 1 := by
  have hlt := length_path_lt h hshallow hn hp
  rw [ancestors_eq h hp, List.length_take, List.length_reverse, List.length_append,
    List.length_map, List.length_singleton]
  omega

end Climb

theorem mem_commonAncestors {parentNode : Dict String} {root : String} {dark : List String}
    (hne : dark ≠ []) {a : String} :
    a ∈ commonAncestors parentNode root dark ↔ ∀ d ∈ dark, a ∈ ancestors parentNode root d := by
  have hloop (dark : List String) (common : Finset String) :
      a ∈ dark.foldl (fun common d => common ∩ (ancestors parentNode root d).toFinset) common ↔
        a ∈ common ∧ ∀ d ∈ dark, a ∈ ancestors parentNode root d := by
    induction dark generalizing common with
    | nil => simp
    | cons d dark ih =>
        rw [List.foldl_cons, ih, Finset.mem_inter, List.mem_toFinset, List.forall_mem_cons,
          and_assoc]
  obtain ⟨d, dark, rfl⟩ := List.exists_cons_of_ne_nil hne
  rw [commonAncestors, hloop, List.mem_toFinset, List.forall_mem_cons]

/-! ### The deepest node of a group -/

theorem lca_eq_ok {iter : Finset String → List String} {parentNode : Dict String} {root : String}
    {dark : List String} (hne : dark ≠ []) {n : String} :
    lca iter parentNode root dark = .ok n ↔
      (iter (commonAncestors parentNode root dark)).argmax
        (fun n => (ancestors parentNode root n).length) = some n := by
  rw [lca, if_neg hne]
  cases (iter (commonAncestors parentNode root dark)).argmax
      fun n => (ancestors parentNode root n).length with
  | none => exact iff_of_false nofun nofun
  | some m => simp

theorem mem_order_of_covers {net : Network} {t : RadialTree}
    {found : List (Found String GridEdge)} (h : Represents net t found) {n : String}
    {dark : List String} (hne : dark ≠ []) (hdark : ∀ d ∈ dark, d ∈ t.order)
    (hcovers : Covers found n dark) : n ∈ t.order := by
  obtain ⟨d, hd⟩ := List.exists_mem_of_ne_nil dark hne
  obtain ⟨path, hp⟩ := h.tree.exists_path (hdark d hd)
  rcases List.mem_append.mp ((h.tree.mem_way_iff hp).mpr (hcovers d hd)) with hway | hway
  · obtain ⟨f, hf, rfl⟩ := List.mem_map.mp hway
    exact h.tree.parent_mem (Tree.of_mem_path hp hf)
  · exact List.mem_singleton.mp hway ▸ hdark d hd

section Lca

variable {iter : Finset String → List String} (hiter : ∀ s n, n ∈ iter s ↔ n ∈ s)
include hiter

variable {net : Network} {t : RadialTree} {found : List (Found String GridEdge)}
  (h : Represents net t found)
include h

/-- Whatever node is chosen, the group descends from it. -/
theorem covers_of_lca {dark : List String} (hne : dark ≠ []) (hdark : ∀ d ∈ dark, d ∈ t.order)
    {n : String} (hlca : lca iter (parentNodeMap t) t.root dark = .ok n) :
    Covers found n dark := by
  have hmem := List.argmax_mem ((lca_eq_ok hne).mp hlca)
  rw [hiter, mem_commonAncestors hne] at hmem
  exact fun d hd => descends_of_mem_ancestors h (hdark d hd) (hmem d hd)

/-- In a shallow tree the deepest node is found. -/
theorem exists_lca (hshallow : Shallow t) {dark : List String} (hne : dark ≠ [])
    (hdark : ∀ d ∈ dark, d ∈ t.order) :
    ∃ n, lca iter (parentNodeMap t) t.root dark = .ok n ∧ Deepest found n dark := by
  have hcommon {c : String} : c ∈ iter (commonAncestors (parentNodeMap t) t.root dark) ↔
      Covers found c dark := by
    rw [hiter, mem_commonAncestors hne]
    exact forall₂_congr fun d hd => mem_ancestors_iff h hshallow (hdark d hd)
  cases hmax : (iter (commonAncestors (parentNodeMap t) t.root dark)).argmax
      fun n => (ancestors (parentNodeMap t) t.root n).length with
  | none =>
      -- the root is a common ancestor
      have hroot := hcommon.mpr fun d hd => h.tree.root_descends (hdark d hd)
      rw [List.argmax_eq_none.mp hmax] at hroot
      exact absurd hroot List.not_mem_nil
  | some n =>
      have hcovers := hcommon.mp (List.argmax_mem hmax)
      refine ⟨n, (lca_eq_ok hne).mpr hmax, h.tree.deepest_of_longest hne hdark hcovers ?_⟩
      intro c hc pc pn hpc hpn
      have hle := List.le_of_mem_argmax (hcommon.mpr hc) hmax
      rw [length_ancestors h hshallow (mem_order_of_covers h hne hdark hc) hpc,
        length_ancestors h hshallow (mem_order_of_covers h hne hdark hcovers) hpn] at hle
      exact Nat.le_of_succ_le_succ hle

end Lca

/-! ### The device -/

section Device

variable {net : Network} {t : RadialTree} {found : List (Found String GridEdge)}
  (h : Represents net t found)
include h

/-- The walk finds the last open edge of the way. -/
theorem isolatingOpenEdge_eq (openEdgeIds : Finset String) {n : String}
    {path : List (Found String GridEdge)} (hp : PathTo t.root found n path) {fuel : ℕ}
    (hfuel : path.length ≤ fuel) :
    isolatingOpenEdge t.parentEdge (parentNodeMap t) t.root openEdgeIds fuel (some n) =
      some ((path.reverse.find? fun f => f.edge.edgeId ∈ openEdgeIds).map Found.edge) := by
  induction hp generalizing fuel with
  | root =>
      unfold isolatingOpenEdge
      rw [if_pos rfl]
      rfl
  | @step f path hf _ ih =>
      rw [List.length_append, List.length_singleton] at hfuel
      obtain ⟨fuel, rfl⟩ := Nat.exists_eq_add_of_lt (Nat.lt_of_lt_of_le (Nat.succ_pos _) hfuel)
      rw [isolatingOpenEdge, if_neg (h.tree.node_ne_root hf)]
      simp only [Nat.zero_add, h.parentEdge_get? hf, List.reverse_append, List.reverse_singleton,
        List.singleton_append, List.find?_cons]
      by_cases hopen : f.edge.edgeId ∈ openEdgeIds
      · simp [hopen]
      · simp only [hopen, if_false, decide_false, parentNodeMap_get? h hf]
        exact ih (by omega)

/-- The device of a group is the edge blamed on the way to the node chosen. -/
theorem deviceEdge_eq {iter : Finset String → List String} {fuel : ℕ} {source : Source}
    {openEdgeIds : Finset String} (hsource : source = .energized → openEdgeIds = ∅)
    {members : List String} {n : String}
    (hlca : lca iter (parentNodeMap t) t.root members = .ok n)
    {path : List (Found String GridEdge)} (hp : PathTo t.root found n path)
    (hfuel : path.length ≤ fuel) :
    deviceEdge iter fuel t source openEdgeIds members =
      pure ((blamedFound openEdgeIds path).map Found.edge) := by
  have hisolating : (if source = .structural ∧ openEdgeIds ≠ ∅ then
      isolatingOpenEdge t.parentEdge (parentNodeMap t) t.root openEdgeIds fuel (some n)
      else some none) =
        some ((path.reverse.find? fun f => f.edge.edgeId ∈ openEdgeIds).map Found.edge) := by
    split
    · exact isolatingOpenEdge_eq h openEdgeIds hp hfuel
    · rename_i hnot
      have hempty : openEdgeIds = ∅ := by
        cases source with
        | energized => exact hsource rfl
        | structural => exact not_not.mp fun hne => hnot ⟨rfl, hne⟩
      rw [hempty, find?_open_empty]
      rfl
  rw [deviceEdge, hlca, lift_ok_bind, hisolating, lift_some_bind, blamedFound, blamed]
  cases hfind : path.reverse.find? fun f => f.edge.edgeId ∈ openEdgeIds with
  | some f => rfl
  | none =>
      rw [Option.none_or]
      cases hp with
      | root => exact if_pos rfl
      | @step f path hf _ =>
          dsimp only [Option.map_none]
          rw [if_neg (h.tree.node_ne_root hf), lookup_eq (h.parentEdge_get? hf), lift_ok_bind,
            List.getLast?_concat]
          rfl

theorem length_path_le {n : String} (hn : n ∈ t.order) {path : List (Found String GridEdge)}
    (hp : PathTo t.root found n path) : path.length ≤ net.nodes.length := by
  have horder := length_order_le net h.tree (substation_mem_nodes net h.root_mem)
  have hsub : path.map Found.parent ++ [n] ⊆ t.order := by
    intro x hx
    rcases List.mem_append.mp hx with hx | hx
    · obtain ⟨f, hf, rfl⟩ := List.mem_map.mp hx
      exact h.tree.parent_mem (Tree.of_mem_path hp hf)
    · exact List.mem_singleton.mp hx ▸ hn
  have hle := (List.subperm_of_subset (h.tree.nodup_path hp) hsub).length_le
  rw [List.length_append, List.length_map, List.length_singleton] at hle
  omega

end Device

/-! ### One group -/

/-- What is said of a group, in terms of the way to the node chosen. -/
structure Reports (iter : Finset String → List String) (t : RadialTree)
    (found : List (Found String GridEdge)) (sig : Signals) (source : Source)
    (openEdgeIds : Finset String) (members : List String) (o : Outage) : Prop where
  way : ∃ n path, lca iter (parentNodeMap t) t.root members = .ok n ∧
    PathTo t.root found n path ∧
    o.probableDevice = (blamedFound openEdgeIds path).map (fun f => deviceOf f.edge) ∧
    o.sectionNode = ((blamedFound openEdgeIds path).map fun f => f.edge.toNode).getD t.root
  source_eq : o.source = source
  darkMeters : o.darkMeters = members.insertionSort (· ≤ ·)
  reported : o.reportedCustomers = sig.customersIn members.toFinset
  estimated : o.estimatedCustomersAffected = sig.customersIn (o.section t)

theorem Reports.mem_darkMeters {iter : Finset String → List String} {t : RadialTree}
    {found : List (Found String GridEdge)} {sig : Signals} {source : Source}
    {openEdgeIds : Finset String} {members : List String} {o : Outage}
    (h : Reports iter t found sig source openEdgeIds members o) {d : String} :
    d ∈ o.darkMeters ↔ d ∈ members := by
  rw [h.darkMeters, List.mem_insertionSort]

section Group

variable {net : Network} {t : RadialTree} {found : List (Found String GridEdge)}
  (h : Represents net t found)
include h

theorem inferCluster_eq {iter : Finset String → List String} {fuel : ℕ} {source : Source}
    {openEdgeIds : Finset String} (hsource : source = .energized → openEdgeIds = ∅)
    (sig : Signals) {cluster : String × List String} {n : String}
    (hlca : lca iter (parentNodeMap t) t.root cluster.2 = .ok n)
    {path : List (Found String GridEdge)} (hp : PathTo t.root found n path)
    (hfuel : path.length ≤ fuel) :
    ∃ o, inferCluster iter fuel t sig source openEdgeIds cluster = pure o ∧
      Reports iter t found sig source openEdgeIds cluster.2 o := by
  have hdevice := deviceEdge_eq h hsource hlca hp hfuel
  cases hblamed : blamedFound openEdgeIds path with
  | none =>
      rw [hblamed] at hdevice
      refine ⟨outageOf sig source cluster.1 cluster.2 none t.root t.energized, ?_, ?_⟩
      · exact bind_eq_pure.mpr ⟨none, hdevice, rfl⟩
      · exact ⟨⟨n, path, hlca, hp, by rw [hblamed]; rfl, by rw [hblamed]; rfl⟩, rfl, rfl, rfl, rfl⟩
  | some f =>
      rw [hblamed] at hdevice
      obtain ⟨below, hbelow, -⟩ := h.subtree f (Tree.of_mem_path hp (mem_of_blamed hblamed))
      refine ⟨outageOf sig source cluster.1 cluster.2 (some f.edge) f.edge.toNode below, ?_, ?_⟩
      · exact bind_eq_pure.mpr ⟨some f.edge, hdevice,
          bind_eq_pure.mpr ⟨below, lift_ok_eq_pure.mpr (lookup_eq hbelow), rfl⟩⟩
      · refine ⟨⟨n, path, hlca, hp, by rw [hblamed]; rfl, by rw [hblamed]; rfl⟩, rfl, rfl, rfl, ?_⟩
        simp [outageOf, Outage.section, deviceOf, hbelow]

end Group

/-! ### The groups -/

/-- The transformer that feeds a meter, by which the dark meters are grouped. -/
def feeder (t : RadialTree) (d : String) : String :=
  (given (nearestTransformer t.byId (parentNodeMap t) t.root d)).getD "ROOT"

/-- The dark meters that are in one group with `d`. -/
def groupOf (t : RadialTree) (dark : List String) (d : String) : List String :=
  dark.filter fun e => feeder t e = feeder t d

theorem set_eq_tally (t : RadialTree) (groups : Dict (List String)) (d : String) :
    groups.set (feeder t d) ((groups.get? (feeder t d)).getD [] ++ [d]) =
      Grouping.tally (feeder t) (fun _ => []) (fun members d => members ++ [d]) groups d := by
  induction groups with
  | nil => rfl
  | cons group groups ih =>
      obtain ⟨tx, members⟩ := group
      rw [Dict.get?_cons, Dict.set, Grouping.tally]
      by_cases htx : tx = feeder t d
      · rw [if_pos htx, if_pos htx, if_pos htx, htx]
        rfl
      · rw [if_neg htx, if_neg htx, if_neg htx, ih]

theorem clusters_eq (t : RadialTree) (dark : List String) :
    clusters t dark = (Grouping.leaders (feeder t) dark).map fun l =>
      (feeder t l, groupOf t dark l) := by
  have happend (l acc : List String) :
      l.foldl (fun members d => members ++ [d]) acc = acc ++ l := by
    induction l generalizing acc with
    | nil => rw [List.foldl_nil, List.append_nil]
    | cons d l ih => rw [List.foldl_cons, ih, List.append_assoc, List.singleton_append]
  have hloop : clusters t dark = Grouping.group (feeder t) (fun _ => [])
      (fun members d => members ++ [d]) dark :=
    List.foldl_ext _ _ _ fun groups d _ => set_eq_tally t groups d
  rw [hloop, Grouping.group_eq]
  refine List.map_congr_left fun l _ => ?_
  rw [happend, List.nil_append, groupOf]

theorem mem_clusters {t : RadialTree} {dark : List String} {cluster : String × List String}
    (hc : cluster ∈ clusters t dark) : ∃ d ∈ dark, cluster.2 = groupOf t dark d := by
  rw [clusters_eq] at hc
  obtain ⟨l, hl, rfl⟩ := List.mem_map.mp hc
  exact ⟨l, Grouping.mem_of_mem_leaders hl, rfl⟩

theorem groupOf_ne_nil {t : RadialTree} {dark : List String} {d : String} (hd : d ∈ dark) :
    groupOf t dark d ≠ [] :=
  List.ne_nil_of_mem (List.mem_filter.mpr ⟨hd, decide_eq_true rfl⟩)

theorem members_of_cluster {t : RadialTree} {dark : List String}
    (hdark : ∀ d ∈ dark, d ∈ t.order) {cluster : String × List String}
    (hc : cluster ∈ clusters t dark) :
    cluster.2 ≠ [] ∧ ∀ d ∈ cluster.2, d ∈ t.order := by
  obtain ⟨d, hd, hmembers⟩ := mem_clusters hc
  rw [hmembers]
  exact ⟨groupOf_ne_nil hd, fun e he => hdark e (List.mem_of_mem_filter he)⟩

theorem exists_cluster {t : RadialTree} {dark : List String} {d : String} (hd : d ∈ dark) :
    ∃ cluster ∈ clusters t dark, cluster.2 = groupOf t dark d := by
  obtain ⟨l, hl, hld⟩ := Grouping.exists_leader (feeder t) hd
  refine ⟨_, by rw [clusters_eq]; exact List.mem_map_of_mem hl, ?_⟩
  simp only [groupOf, hld]

/-- Every dark meter is in one group. -/
theorem length_filter_clusters {t : RadialTree} {dark : List String} {d : String}
    (hd : d ∈ dark) : ((clusters t dark).filter fun cluster => d ∈ cluster.2).length = 1 := by
  obtain ⟨l, hl, hld⟩ := Grouping.exists_leader (feeder t) hd
  have hfilter : (Grouping.leaders (feeder t) dark).filter
      ((fun cluster => decide (d ∈ cluster.2)) ∘ fun l => (feeder t l, groupOf t dark l)) =
        (Grouping.leaders (feeder t) dark).filter fun l' => l' = l := by
    refine List.filter_congr fun l' hl' => ?_
    rw [Function.comp_apply, decide_eq_decide, groupOf, List.mem_filter, decide_eq_true_eq]
    constructor
    · rintro ⟨-, hdl⟩
      exact Grouping.leader_eq hl' hl (hdl.symm.trans hld.symm)
    · rintro rfl
      exact ⟨hd, hld.symm⟩
  have hnodup : (Grouping.leaders (feeder t) dark).Nodup :=
    .of_map _ (Grouping.nodup_map_leaders dark)
  rw [clusters_eq, List.filter_map, List.length_map, hfilter]
  rw [List.filter_eq, List.count_eq_one_of_mem hnodup hl]
  rfl

/-! ### The pass -/

section Pass

variable {iter : Finset String → List String} (hiter : ∀ s n, n ∈ iter s ↔ n ∈ s)
  {net : Network} {t : RadialTree} {found : List (Found String GridEdge)}
  (h : Represents net t found) {fuel : ℕ} (hfuel : net.nodes.length < fuel) {dark : List String}
  (hdark : ∀ d ∈ dark, d ∈ t.order) (sig : Signals) {source : Source}
  {openEdgeIds : Finset String} (hsource : source = .energized → openEdgeIds = ∅)
include hiter h hfuel hdark hsource

theorem reports_of_inferCluster {cluster : String × List String}
    (hcluster : cluster ∈ clusters t dark) {o : Outage}
    (ho : inferCluster iter fuel t sig source openEdgeIds cluster = pure o) :
    Reports iter t found sig source openEdgeIds cluster.2 o := by
  obtain ⟨hne, hmembers⟩ := members_of_cluster hdark hcluster
  obtain ⟨device, hdevice, -⟩ := bind_eq_pure.mp ho
  obtain ⟨n, hn, -⟩ := bind_eq_pure.mp hdevice
  have hlca := lift_ok_eq_pure.mp hn
  have horder := mem_order_of_covers h hne hmembers (covers_of_lca hiter h hne hmembers hlca)
  obtain ⟨path, hp⟩ := h.tree.exists_path horder
  obtain ⟨o', ho', hreports⟩ := inferCluster_eq h hsource sig hlca hp
    ((length_path_le h horder hp).trans hfuel.le)
  rwa [pure_inj.mp (ho.symm.trans ho')]

/-- The outages of a pass report its groups, one after the other. -/
theorem forall₂_of_inferPass {outages : List Outage}
    (hpass : inferPass iter fuel dark t sig source openEdgeIds = pure outages) :
    List.Forall₂ (fun cluster o => cluster ∈ clusters t dark ∧
      Reports iter t found sig source openEdgeIds cluster.2 o) (clusters t dark) outages := by
  rw [inferPass] at hpass
  split at hpass
  · rename_i hnil
    rw [← pure_inj.mp hpass, hnil]
    exact .nil
  · refine (List.forall₂_and_left _ _).mpr ⟨fun _ => id, ?_⟩
    have hall := (List.forall₂_and_left _ _).mpr
      ⟨fun cluster (hcluster : cluster ∈ clusters t dark) => hcluster, forall₂_of_mapM hpass⟩
    exact hall.imp fun cluster o ho =>
      reports_of_inferCluster hiter h hfuel hdark sig hsource ho.1 ho.2

theorem reports_of_inferPass {outages : List Outage}
    (hpass : inferPass iter fuel dark t sig source openEdgeIds = pure outages) {o : Outage}
    (ho : o ∈ outages) : ∃ cluster ∈ clusters t dark,
      Reports iter t found sig source openEdgeIds cluster.2 o := by
  obtain ⟨i, hi, rfl⟩ := List.mem_iff_getElem.mp ho
  have hall := forall₂_of_inferPass hiter h hfuel hdark sig hsource hpass
  have hlen := hall.length_eq
  obtain ⟨hcluster, hreports⟩ := hall.get (hlen ▸ hi) hi
  exact ⟨_, hcluster, hreports⟩

theorem exists_report {outages : List Outage}
    (hpass : inferPass iter fuel dark t sig source openEdgeIds = pure outages)
    {cluster : String × List String} (hcluster : cluster ∈ clusters t dark) :
    ∃ o ∈ outages, Reports iter t found sig source openEdgeIds cluster.2 o := by
  obtain ⟨i, hi, rfl⟩ := List.mem_iff_getElem.mp hcluster
  have hall := forall₂_of_inferPass hiter h hfuel hdark sig hsource hpass
  have hlen := hall.length_eq
  exact ⟨_, List.getElem_mem (hlen ▸ hi), (hall.get hi (hlen ▸ hi)).2⟩

/-- A dark meter is in one outage of the pass. -/
theorem length_filter_outages {outages : List Outage}
    (hpass : inferPass iter fuel dark t sig source openEdgeIds = pure outages) (d : String) :
    (outages.filter fun o => d ∈ o.darkMeters).length = if d ∈ dark then 1 else 0 := by
  have hall := forall₂_of_inferPass hiter h hfuel hdark sig hsource hpass
  have hfilter := List.rel_filter (p := fun cluster => d ∈ cluster.2)
    (q := fun o => d ∈ o.darkMeters) (fun cluster o ho => by simp [ho.2.mem_darkMeters]) hall
  rw [← hfilter.length_eq]
  split
  · rename_i hd
    exact length_filter_clusters hd
  · rename_i hd
    rw [List.length_eq_zero_iff, List.filter_eq_nil_iff]
    intro cluster hcluster hmem
    obtain ⟨e, -, hmembers⟩ := mem_clusters hcluster
    rw [decide_eq_true_eq, hmembers] at hmem
    exact hd (List.mem_of_mem_filter hmem)

/-- A pass over a shallow tree comes to its end. -/
theorem exists_inferPass (hshallow : Shallow t) :
    ∃ outages, inferPass iter fuel dark t sig source openEdgeIds = pure outages := by
  rw [inferPass]
  split
  · exact ⟨[], rfl⟩
  · refine Loops.exists_mapM fun cluster hcluster => ?_
    obtain ⟨hne, hmembers⟩ := members_of_cluster hdark hcluster
    obtain ⟨n, hlca, hdeepest⟩ := exists_lca hiter h hshallow hne hmembers
    have horder := mem_order_of_covers h hne hmembers hdeepest.covers
    obtain ⟨path, hp⟩ := h.tree.exists_path horder
    obtain ⟨o, ho, -⟩ := inferCluster_eq h hsource sig hlca hp
      ((length_path_le h horder hp).trans hfuel.le)
    exact ⟨o, ho⟩

end Pass

end DiepLab.OutageInference
