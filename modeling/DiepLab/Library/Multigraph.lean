import Mathlib.Data.Set.Function
import Mathlib.Order.BooleanAlgebra.Set
import Mathlib.Logic.Relation

/-!
Multigraphs whose edges have a stored direction.

An edge has two named ends. Sets of edges are arguments, not part of the
graph, because the development that uses this file keeps one network and
opens and closes edges of it. Over an edge set `S` there are two notions of
being connected: `Reach S` follows edges from source to target only,
`Conn S` follows them both ways. `Forest S` says that every edge of `S` is a
bridge of `S`, so parallel edges and self-loops are cycles.

The rules come in pairs: what one more edge adds to a relation
(`reach_insert_iff`, `conn_insert_iff`, `forest_insert_iff`) and what is left
when the set shrinks (`mono`). `Turns` is about giving edges another
direction, which connection does not see. The last section is about rooted forests whose
edges point away from their root: there the two notions of connectedness
coincide, and what leads to a node forms a chain.
-/

/-- The ends of every edge. -/
structure Multigraph (V E : Type) where
  src : E → V
  tgt : E → V

namespace Multigraph

variable {V E : Type} (G : Multigraph V E)

/-- Some edge of `S` leads from `a` to `b`. -/
def Link (S : Set E) (a b : V) : Prop := ∃ e ∈ S, G.src e = a ∧ G.tgt e = b

/-- Reachability along the stored direction. -/
def Reach (S : Set E) : V → V → Prop := Relation.ReflTransGen (G.Link S)

/-- Connection in either direction. -/
def Conn (S : Set E) : V → V → Prop :=
  Relation.ReflTransGen fun a b => G.Link S a b ∨ G.Link S b a

/-- Every edge is a bridge: its ends fall apart without it. -/
def Forest (S : Set E) : Prop := ∀ e ∈ S, ¬ G.Conn (S \ {e}) (G.src e) (G.tgt e)

variable {G}

/-! ### Reachability and connection -/

theorem Link.mono {S T : Set E} (h : S ⊆ T) {a b : V} (hl : G.Link S a b) : G.Link T a b := by
  obtain ⟨e, he, hs, ht⟩ := hl
  exact ⟨e, h he, hs, ht⟩

theorem Reach.mono {S T : Set E} (h : S ⊆ T) {a b : V} (hr : G.Reach S a b) : G.Reach T a b :=
  Relation.ReflTransGen.mono (fun _ _ => Link.mono h) _ _ hr

theorem Conn.mono {S T : Set E} (h : S ⊆ T) {a b : V} (hc : G.Conn S a b) : G.Conn T a b :=
  Relation.ReflTransGen.mono (fun _ _ => Or.imp (Link.mono h) (Link.mono h)) _ _ hc

theorem Reach.conn {S : Set E} {a b : V} (h : G.Reach S a b) : G.Conn S a b :=
  Relation.ReflTransGen.mono (fun _ _ => Or.inl) _ _ h

theorem Conn.symm {S : Set E} {a b : V} (h : G.Conn S a b) : G.Conn S b a :=
  Relation.reflTransGen_swap.mp
    (Relation.ReflTransGen.mono (fun _ _ => Or.symm) _ _ h)

theorem Conn.trans {S : Set E} {a b c : V} (hab : G.Conn S a b) (hbc : G.Conn S b c) :
    G.Conn S a c := Relation.ReflTransGen.trans hab hbc

theorem Reach.trans {S : Set E} {a b c : V} (hab : G.Reach S a b) (hbc : G.Reach S b c) :
    G.Reach S a c := Relation.ReflTransGen.trans hab hbc

theorem link_of_mem {S : Set E} {e : E} (he : e ∈ S) : G.Link S (G.src e) (G.tgt e) :=
  ⟨e, he, rfl, rfl⟩

theorem reach_of_mem {S : Set E} {e : E} (he : e ∈ S) : G.Reach S (G.src e) (G.tgt e) :=
  .single (link_of_mem he)

theorem conn_of_mem {S : Set E} {e : E} (he : e ∈ S) : G.Conn S (G.src e) (G.tgt e) :=
  (reach_of_mem he).conn

/-! ### One more edge -/

theorem link_insert_iff {S : Set E} {e : E} {a b : V} :
    G.Link (insert e S) a b ↔ G.Link S a b ∨ (G.src e = a ∧ G.tgt e = b) := by
  constructor
  · rintro ⟨f, rfl | hf, hs, ht⟩
    · exact Or.inr ⟨hs, ht⟩
    · exact Or.inl ⟨f, hf, hs, ht⟩
  · rintro (⟨f, hf, hs, ht⟩ | ⟨hs, ht⟩)
    · exact ⟨f, Or.inr hf, hs, ht⟩
    · exact ⟨e, Or.inl rfl, hs, ht⟩

/-- A directed walk through a new edge `e` reaches its source without `e`
and goes on from its target without `e`. -/
theorem reach_insert_iff {S : Set E} {e : E} {a b : V} :
    G.Reach (insert e S) a b ↔
      G.Reach S a b ∨ (G.Reach S a (G.src e) ∧ G.Reach S (G.tgt e) b) := by
  constructor
  · intro h
    induction h with
    | refl => exact Or.inl .refl
    | tail _ hbc ih =>
        rcases link_insert_iff.mp hbc with hbc | ⟨rfl, rfl⟩
        · exact ih.imp (fun h => h.tail hbc) (fun h => ⟨h.1, h.2.tail hbc⟩)
        · rcases ih with ih | ih
          · exact Or.inr ⟨ih, .refl⟩
          · exact Or.inr ⟨ih.1, .refl⟩
  · have hsub : S ⊆ insert e S := Set.subset_insert e S
    rintro (h | ⟨ha, hb⟩)
    · exact h.mono hsub
    · exact (ha.mono hsub).trans
        ((reach_of_mem (Set.mem_insert e S)).trans (hb.mono hsub))

/-- What the target of an edge reaches, it reaches without the edge. -/
theorem Reach.of_tgt {S : Set E} {e : E} (he : e ∈ S) {x : V} (h : G.Reach S (G.tgt e) x) :
    G.Reach (S \ {e}) (G.tgt e) x := by
  rw [← Set.insert_sdiff_self_of_mem he, reach_insert_iff] at h
  exact h.elim id And.right

theorem conn_insert_iff {S : Set E} {e : E} {a b : V} :
    G.Conn (insert e S) a b ↔
      G.Conn S a b ∨ (G.Conn S a (G.src e) ∧ G.Conn S (G.tgt e) b) ∨
        (G.Conn S a (G.tgt e) ∧ G.Conn S (G.src e) b) := by
  constructor
  · intro h
    induction h with
    | refl => exact Or.inl .refl
    | tail _ hbc ih =>
        rw [link_insert_iff, link_insert_iff] at hbc
        rcases hbc with (hbc | ⟨rfl, rfl⟩) | (hbc | ⟨rfl, rfl⟩)
        · exact ih.imp (fun h => h.tail (Or.inl hbc))
            (Or.imp (fun h => ⟨h.1, h.2.tail (Or.inl hbc)⟩) fun h => ⟨h.1, h.2.tail (Or.inl hbc)⟩)
        · rcases ih with ih | ih | ih
          · exact Or.inr (Or.inl ⟨ih, .refl⟩)
          · exact Or.inr (Or.inl ⟨ih.1, .refl⟩)
          · exact Or.inl ih.1
        · exact ih.imp (fun h => h.tail (Or.inr hbc))
            (Or.imp (fun h => ⟨h.1, h.2.tail (Or.inr hbc)⟩) fun h => ⟨h.1, h.2.tail (Or.inr hbc)⟩)
        · rcases ih with ih | ih | ih
          · exact Or.inr (Or.inr ⟨ih, .refl⟩)
          · exact Or.inl ih.1
          · exact Or.inr (Or.inr ⟨ih.1, .refl⟩)
  · have hsub : S ⊆ insert e S := Set.subset_insert e S
    have hlink : G.Conn (insert e S) (G.src e) (G.tgt e) := conn_of_mem (Set.mem_insert e S)
    rintro (h | ⟨ha, hb⟩ | ⟨ha, hb⟩)
    · exact h.mono hsub
    · exact (ha.mono hsub).trans (hlink.trans (hb.mono hsub))
    · exact (ha.mono hsub).trans (hlink.symm.trans (hb.mono hsub))

/-! ### Many edges at once -/

/-- Some root reaches `x`. -/
def Fed (G : Multigraph V E) (roots : Set V) (S : Set E) (x : V) : Prop :=
  ∃ r ∈ roots, G.Reach S r x

theorem Fed.mono {roots : Set V} {S T : Set E} (h : S ⊆ T) {x : V} (hx : G.Fed roots S x) :
    G.Fed roots T x := by
  obtain ⟨r, hr, hrx⟩ := hx
  exact ⟨r, hr, hrx.mono h⟩

theorem Fed.trans {roots : Set V} {S : Set E} {x y : V} (hx : G.Fed roots S x)
    (hxy : G.Reach S x y) : G.Fed roots S y := by
  obtain ⟨r, hr, hrx⟩ := hx
  exact ⟨r, hr, hrx.trans hxy⟩

theorem fed_insert_iff {roots : Set V} {S : Set E} {e : E} {x : V} :
    G.Fed roots (insert e S) x ↔
      G.Fed roots S x ∨ (G.Fed roots S (G.src e) ∧ G.Reach S (G.tgt e) x) := by
  simp only [Fed, reach_insert_iff]
  constructor
  · rintro ⟨r, hr, h | ⟨hs, ht⟩⟩
    · exact Or.inl ⟨r, hr, h⟩
    · exact Or.inr ⟨⟨r, hr, hs⟩, ht⟩
  · rintro (⟨r, hr, h⟩ | ⟨⟨r, hr, hs⟩, ht⟩)
    · exact ⟨r, hr, Or.inl h⟩
    · exact ⟨r, hr, Or.inr ⟨hs, ht⟩⟩

/-- A walk that uses edges out of fed nodes is fed from the first such edge
on. -/
theorem Reach.fed_or_reach {roots : Set V} {S T : Set E} (hT : ∀ t ∈ T, G.Fed roots S (G.src t))
    {a x : V} (h : G.Reach (S ∪ T) a x) : G.Fed roots (S ∪ T) x ∨ G.Reach S a x := by
  induction h with
  | refl => exact Or.inr .refl
  | tail _ hlink ih =>
      obtain ⟨e, he | he, rfl, rfl⟩ := hlink
      · rcases ih with ih | ih
        · exact Or.inl (ih.trans (reach_of_mem (Or.inl he)))
        · exact Or.inr (ih.tail (link_of_mem he))
      · have hsrc := (hT e he).mono (Set.subset_union_left (t := T))
        exact Or.inl (hsrc.trans (reach_of_mem (Or.inr he)))

/-- Edges out of fed nodes feed what their targets reach. -/
theorem fed_union_iff {roots : Set V} {S T : Set E} (hT : ∀ t ∈ T, G.Fed roots S (G.src t))
    {x : V} :
    G.Fed roots (S ∪ T) x ↔ G.Fed roots S x ∨ ∃ t ∈ T, G.Reach S (G.tgt t) x := by
  have hsub : S ⊆ S ∪ T := Set.subset_union_left
  constructor
  · rintro ⟨r, hr, h⟩
    induction h with
    | refl => exact Or.inl ⟨r, hr, .refl⟩
    | tail _ hlink ih =>
        obtain ⟨e, he | he, rfl, rfl⟩ := hlink
        · rcases ih with ih | ⟨t, ht, ih⟩
          · exact Or.inl (ih.trans (reach_of_mem he))
          · exact Or.inr ⟨t, ht, ih.tail (link_of_mem he)⟩
        · exact Or.inr ⟨e, he, .refl⟩
  · rintro (h | ⟨t, ht, h⟩)
    · exact h.mono hsub
    · have hsrc := (hT t ht).mono hsub
      exact (hsrc.trans (reach_of_mem (Or.inr ht))).trans (h.mono hsub)

/-- Being fed and being connected to a root are the same exactly when no edge
leads from an unfed node into a fed one. -/
theorem fed_iff_conn_iff (roots : Set V) (S : Set E) :
    (∀ x, G.Fed roots S x ↔ ∃ r ∈ roots, G.Conn S r x) ↔
      ∀ e ∈ S, G.Fed roots S (G.tgt e) → G.Fed roots S (G.src e) := by
  constructor
  · intro h e he hfed
    obtain ⟨r, hr, hrt⟩ := (h (G.tgt e)).mp hfed
    exact (h (G.src e)).mpr ⟨r, hr, hrt.trans (conn_of_mem he).symm⟩
  · intro h x
    constructor
    · rintro ⟨r, hr, hrx⟩
      exact ⟨r, hr, hrx.conn⟩
    · rintro ⟨r, hr, hrx⟩
      induction hrx with
      | refl => exact ⟨r, hr, .refl⟩
      | tail _ hstep ih =>
          rcases hstep with hstep | ⟨e, he, rfl, rfl⟩
          · exact ih.trans (.single hstep)
          · exact h e he ih

/-- Edges that all lead into the component of `v` connect to it the
components of their sources. -/
theorem conn_union_hub_iff {S T : Set E} {v : V} (hT : ∀ t ∈ T, G.Conn S (G.tgt t) v) {a : V} :
    G.Conn (S ∪ T) a v ↔ G.Conn S a v ∨ ∃ t ∈ T, G.Conn S a (G.src t) := by
  have hsub : S ⊆ S ∪ T := Set.subset_union_left
  constructor
  · intro h
    induction h using Relation.ReflTransGen.head_induction_on with
    | refl => exact Or.inl .refl
    | head hlink _ ih =>
        obtain ⟨e, he | he, rfl, rfl⟩ | ⟨e, he | he, rfl, rfl⟩ := hlink
        · have hstep := conn_of_mem (G := G) he
          exact ih.imp hstep.trans fun ⟨t, ht, h⟩ => ⟨t, ht, hstep.trans h⟩
        · exact Or.inr ⟨e, he, .refl⟩
        · have hstep := (conn_of_mem (G := G) he).symm
          exact ih.imp hstep.trans fun ⟨t, ht, h⟩ => ⟨t, ht, hstep.trans h⟩
        · exact Or.inl (hT e he)
  · rintro (h | ⟨t, ht, h⟩)
    · exact h.mono hsub
    · have hcross : G.Conn (S ∪ T) (G.src t) (G.tgt t) := conn_of_mem (Or.inr ht)
      exact (h.mono hsub).trans (hcross.trans ((hT t ht).mono hsub))

/-- A walk that starts in a set of nodes stays in it when no edge leaves it. -/
theorem Conn.within {S : Set E} {N : Set V} (hN : ∀ e ∈ S, G.src e ∈ N ↔ G.tgt e ∈ N) {a b : V}
    (ha : a ∈ N) (h : G.Conn S a b) :
    b ∈ N ∧ G.Conn { e | e ∈ S ∧ G.src e ∈ N ∧ G.tgt e ∈ N } a b := by
  induction h with
  | refl => exact ⟨ha, .refl⟩
  | tail _ hstep ih =>
      obtain ⟨hb, hconn⟩ := ih
      rcases hstep with ⟨e, he, rfl, rfl⟩ | ⟨e, he, rfl, rfl⟩
      · have ht := (hN e he).mp hb
        exact ⟨ht, hconn.tail (Or.inl (link_of_mem ⟨he, hb, ht⟩))⟩
      · have hs := (hN e he).mpr hb
        exact ⟨hs, hconn.tail (Or.inr (link_of_mem ⟨he, hs, hb⟩))⟩

/-! ### Forests -/

theorem Forest.mono {S T : Set E} (h : S ⊆ T) (hT : G.Forest T) : G.Forest S :=
  fun e he hc => hT e (h he) (hc.mono (Set.sdiff_subset_sdiff_left h))

/-- A new edge keeps a forest a forest exactly when it joins two trees. -/
theorem forest_insert_iff {S : Set E} {e : E} (he : e ∉ S) :
    G.Forest (insert e S) ↔ G.Forest S ∧ ¬ G.Conn S (G.src e) (G.tgt e) := by
  constructor
  · intro h
    refine ⟨h.mono (Set.subset_insert e S), fun hc => ?_⟩
    refine h e (Set.mem_insert e S) ?_
    rwa [Set.insert_sdiff_self_of_notMem he]
  · rintro ⟨hS, hjoin⟩ f (rfl | hf) hc
    · rw [Set.insert_sdiff_self_of_notMem he] at hc
      exact hjoin hc
    · have hfe : f ≠ e := fun h => he (h ▸ hf)
      have hset : insert e S \ {f} = insert e (S \ {f}) :=
        Set.insert_sdiff_of_notMem S (fun h => hfe h.symm)
      have hsub : S \ {f} ⊆ S := Set.sdiff_subset
      rw [hset, conn_insert_iff] at hc
      rcases hc with hc | ⟨ha, hb⟩ | ⟨ha, hb⟩
      · exact hS f hf hc
      · exact hjoin ((ha.mono hsub).symm.trans ((conn_of_mem hf).trans (hb.mono hsub).symm))
      · exact hjoin ((hb.mono hsub).trans ((conn_of_mem hf).symm.trans (ha.mono hsub)))

/-- Putting an edge back. -/
theorem insert_diff_self {S : Set E} {e : E} (he : e ∈ S) : insert e (S \ {e}) = S :=
  Set.insert_sdiff_self_of_mem he

/-! ### Edges turned round -/

/-- `φ` gives every edge of `S` an edge with the same two ends, in either
order. -/
def Turns (G : Multigraph V E) (φ : E → E) (S : Set E) : Prop :=
  ∀ e ∈ S, (G.src (φ e) = G.src e ∧ G.tgt (φ e) = G.tgt e) ∨
    (G.src (φ e) = G.tgt e ∧ G.tgt (φ e) = G.src e)

namespace Turns

variable {φ : E → E} {S T : Set E}

theorem mono (hTS : T ⊆ S) (h : G.Turns φ S) : G.Turns φ T := fun e he => h e (hTS he)

theorem conn_ends (h : G.Turns φ S) {e : E} (he : e ∈ S) :
    G.Conn (φ '' S) (G.src e) (G.tgt e) := by
  have hmem : φ e ∈ φ '' S := Set.mem_image_of_mem φ he
  rcases h e he with ⟨hs, ht⟩ | ⟨hs, ht⟩
  · rw [← hs, ← ht]
    exact conn_of_mem hmem
  · rw [← hs, ← ht]
    exact (conn_of_mem hmem).symm

/-- Connection does not see the directions. -/
theorem conn_iff (h : G.Turns φ S) {a b : V} : G.Conn (φ '' S) a b ↔ G.Conn S a b := by
  have hback : ∀ e ∈ S, G.Conn S (G.src (φ e)) (G.tgt (φ e)) := by
    intro e he
    rcases h e he with ⟨hs, ht⟩ | ⟨hs, ht⟩
    · rw [hs, ht]
      exact conn_of_mem he
    · rw [hs, ht]
      exact (conn_of_mem he).symm
  constructor
  · intro hab
    induction hab with
    | refl => exact .refl
    | tail _ hstep ih =>
        rcases hstep with ⟨-, ⟨e, he, rfl⟩, rfl, rfl⟩ | ⟨-, ⟨e, he, rfl⟩, rfl, rfl⟩
        · exact ih.trans (hback e he)
        · exact ih.trans (hback e he).symm
  · intro hab
    induction hab with
    | refl => exact .refl
    | tail _ hstep ih =>
        rcases hstep with ⟨e, he, rfl, rfl⟩ | ⟨e, he, rfl, rfl⟩
        · exact ih.trans (h.conn_ends he)
        · exact ih.trans (h.conn_ends he).symm

/-- Over a forest no two edges are turned into one. -/
theorem injOn (h : G.Turns φ S) (hS : G.Forest S) : Set.InjOn φ S := by
  intro e he f hf heq
  by_contra hne
  have hfe : f ∈ S \ {e} := ⟨hf, fun h => hne h.symm⟩
  have hturn : G.Turns φ (S \ {e}) := h.mono Set.sdiff_subset
  -- `f` would join the ends of `e`
  refine hS e he (hturn.conn_iff.mp ?_)
  have hmem : φ e ∈ φ '' (S \ {e}) := heq ▸ Set.mem_image_of_mem φ hfe
  rcases h e he with ⟨hs, ht⟩ | ⟨hs, ht⟩
  · rw [← hs, ← ht]
    exact conn_of_mem hmem
  · rw [← hs, ← ht]
    exact (conn_of_mem hmem).symm

theorem image_diff (h : G.Turns φ S) (hS : G.Forest S) {e : E} (he : e ∈ S) :
    φ '' S \ {φ e} = φ '' (S \ {e}) := by
  rw [← Set.image_singleton, (h.injOn hS).image_sdiff_subset (Set.singleton_subset_iff.mpr he)]

theorem forest (h : G.Turns φ S) (hS : G.Forest S) : G.Forest (φ '' S) := by
  rintro - ⟨e, he, rfl⟩ hc
  rw [h.image_diff hS he, (h.mono Set.sdiff_subset).conn_iff] at hc
  rcases h e he with ⟨hs, ht⟩ | ⟨hs, ht⟩
  · rw [hs, ht] at hc
    exact hS e he hc
  · rw [hs, ht] at hc
    exact hS e he hc.symm

end Turns

/-! ### Rooted forests

`Rooted roots S`: the closed edges form a forest, no tree holds two roots, and
every edge of a tree that holds a root points away from it, that is, the root
is connected to the source end without the edge. Trees without a root may be
oriented in any way. -/

structure Rooted (G : Multigraph V E) (roots : Set V) (S : Set E) : Prop where
  forest : G.Forest S
  root_unique : ∀ r ∈ roots, ∀ r' ∈ roots, G.Conn S r r' → r = r'
  away : ∀ r ∈ roots, ∀ e ∈ S, G.Conn S r (G.src e) → G.Conn (S \ {e}) r (G.src e)

namespace Rooted

variable {roots : Set V} {S T : Set E}

/-- The target end of an edge is cut off from the root when the edge goes. -/
theorem not_conn_tgt (h : G.Rooted roots S) {r : V} (hr : r ∈ roots) {e : E} (he : e ∈ S)
    (hc : G.Conn S r (G.src e)) : ¬ G.Conn (S \ {e}) r (G.tgt e) :=
  fun ht => h.forest e he ((h.away r hr e he hc).symm.trans ht)

theorem mono (hTS : T ⊆ S) (h : G.Rooted roots S) : G.Rooted roots T where
  forest := h.forest.mono hTS
  root_unique r hr r' hr' hc := h.root_unique r hr r' hr' (hc.mono hTS)
  away r hr e he hc := by
    have heS : e ∈ S := hTS he
    have hsub : T \ {e} ⊆ S \ {e} := Set.sdiff_subset_sdiff_left hTS
    have hcS : G.Conn S r (G.src e) := hc.mono hTS
    rw [← insert_diff_self he, conn_insert_iff] at hc
    rcases hc with hc | ⟨hc, -⟩ | ⟨ht, -⟩
    · exact hc
    · exact hc
    · -- the root would still be connected to the target end
      exact absurd (ht.mono hsub) (h.not_conn_tgt hr heS hcS)

/-- In the tree of a root everything connected to the root is reached from it
along the stored directions. -/
theorem reach_of_conn (h : G.Rooted roots S) {r x : V} (hr : r ∈ roots) (hc : G.Conn S r x) :
    G.Reach S r x := by
  induction hc with
  | refl => exact .refl
  | @tail b c hrb hbc ih =>
      rcases hbc with hbc | ⟨e, he, rfl, rfl⟩
      · exact ih.tail hbc
      · -- `e` leads back from `b`: the walk to `b` must have come through it
        rw [← insert_diff_self he, reach_insert_iff] at ih
        rcases ih with ih | ⟨ih, -⟩
        · have hsrc : G.Conn S r (G.src e) := hrb.tail (Or.inr (link_of_mem he))
          exact absurd ih.conn (h.not_conn_tgt hr he hsrc)
        · exact ih.mono Set.sdiff_subset

theorem reach_iff_conn (h : G.Rooted roots S) {r x : V} (hr : r ∈ roots) :
    G.Reach S r x ↔ G.Conn S r x :=
  ⟨Reach.conn, h.reach_of_conn hr⟩

/-- No two edges of a rooted tree lead into the same node. -/
theorem edge_unique (h : G.Rooted roots S) {r : V} (hr : r ∈ roots) {e f : E}
    (he : e ∈ S) (hf : f ∈ S) (htgt : G.tgt e = G.tgt f) (hc : G.Conn S r (G.tgt e)) :
    e = f := by
  by_contra hne
  have hce : G.Conn S r (G.src e) := hc.trans (conn_of_mem he).symm
  have hcf : G.Conn S r (G.src f) := (htgt ▸ hc).trans (conn_of_mem hf).symm
  have hfe : f ∈ S \ {e} := ⟨hf, fun h => hne h.symm⟩
  have hset : insert f ((S \ {e}) \ {f}) = S \ {e} := insert_diff_self hfe
  -- without `e` the root still reaches the source of `f`, hence its target
  refine h.not_conn_tgt hr he hce ?_
  rw [htgt]
  have hsplit := h.away r hr f hf hcf
  have hset' : insert e ((S \ {f}) \ {e}) = S \ {f} :=
    insert_diff_self ⟨he, hne⟩
  rw [← hset', conn_insert_iff] at hsplit
  have hsub : (S \ {f}) \ {e} ⊆ S \ {e} := Set.sdiff_subset_sdiff_left Set.sdiff_subset
  rcases hsplit with hs | ⟨-, hs⟩ | ⟨hs, -⟩
  · exact (hs.mono hsub).trans (conn_of_mem hfe)
  · -- then `f` would close a cycle
    refine absurd ?_ (h.forest f hf)
    exact htgt ▸ (hs.symm.mono Set.sdiff_subset)
  · exact absurd (hs.mono hsub) (h.not_conn_tgt hr he hce)

/-- What leads to a node of a rooted tree forms a chain. -/
theorem reach_total (h : G.Rooted roots S) {r x a b : V} (hr : r ∈ roots) (hx : G.Conn S r x)
    (ha : G.Reach S a x) (hb : G.Reach S b x) : G.Reach S a b ∨ G.Reach S b a := by
  -- walk backwards inside the tree of `r`, where the predecessor is unique
  let back : V → V → Prop := fun y z => G.Link S z y ∧ G.Conn S r y
  have hunique : Relator.RightUnique back := by
    rintro y z z' ⟨⟨e, he, rfl, ht⟩, hy⟩ ⟨⟨f, hf, rfl, ht'⟩, -⟩
    rw [h.edge_unique hr he hf (ht.trans ht'.symm) (ht ▸ hy)]
  have toBack {c : V} (hc : G.Reach S c x) : Relation.ReflTransGen back x c := by
    induction hc using Relation.ReflTransGen.head_induction_on with
    | refl => exact .refl
    | @head c d hcd hdx ih =>
        refine ih.tail ⟨hcd, hx.trans (Reach.conn hdx).symm⟩
  have ofBack {c d : V} (hc : Relation.ReflTransGen back c d) : G.Reach S d c :=
    Relation.reflTransGen_swap.mp
      (Relation.ReflTransGen.mono (fun _ _ h => h.1) _ _ hc)
  exact ((Relation.ReflTransGen.total_of_right_unique hunique (toBack ha) (toBack hb)).imp
    ofBack ofBack).symm

/-- Who is fed without the edges into `n` is not reached from it. -/
theorem not_reach_of_feds (h : G.Rooted roots S) {r x n : V} (hr : r ∈ roots) (hn : n ∉ roots)
    (hx : G.Reach { e ∈ S | G.tgt e ≠ n } r x) : ¬ G.Reach S n x := by
  have hsub : { e ∈ S | G.tgt e ≠ n } ⊆ S := Set.sep_subset S _
  induction hx with
  | refl =>
      intro hnr
      rcases hnr.cases_tail with heq | ⟨b, -, e, he, rfl, htgt⟩
      · exact hn (heq ▸ hr)
      · -- nothing leads into a root
        have hc : G.Conn S r (G.src e) := htgt ▸ (conn_of_mem he).symm
        exact h.not_conn_tgt hr he hc (htgt ▸ .refl)
  | @tail b c hrb hbc ih =>
      obtain ⟨e, ⟨he, hne⟩, rfl, rfl⟩ := hbc
      intro hnc
      rcases hnc.cases_tail with heq | ⟨b', hnb, f, hf, rfl, htgt⟩
      · exact hne heq
      · have hc : G.Conn S r (G.tgt e) :=
          (Reach.conn (Reach.mono hsub hrb)).trans (conn_of_mem he)
        rw [h.edge_unique hr hf he htgt (htgt ▸ hc)] at hnb
        exact ih hnb

/-- What loses its supply with the edges into a fed node is what is reached from the node. -/
theorem loses_iff (h : G.Rooted roots S) {n x : V} (hfed : G.Fed roots S n) (hn : n ∉ roots) :
    G.Fed roots S x ∧ ¬ G.Fed roots { e ∈ S | G.tgt e ≠ n } x ↔ G.Reach S n x := by
  constructor
  · rintro ⟨⟨r, hr, hrx⟩, hnot⟩
    -- a way to `x` comes through `n`, or does without the edges into it
    have hway : G.Reach { e ∈ S | G.tgt e ≠ n } r x ∨ G.Reach S n x := by
      clear hnot
      induction hrx with
      | refl => exact Or.inl .refl
      | @tail b c _ hbc ih =>
          obtain ⟨e, he, rfl, rfl⟩ := hbc
          by_cases htgt : G.tgt e = n
          · exact Or.inr (htgt ▸ .refl)
          · exact ih.imp (fun hb => hb.tail ⟨e, ⟨he, htgt⟩, rfl, rfl⟩)
              fun hb => hb.tail ⟨e, he, rfl, rfl⟩
    exact hway.resolve_left fun hrx => hnot ⟨r, hr, hrx⟩
  · intro hnx
    refine ⟨hfed.trans hnx, ?_⟩
    rintro ⟨r, hr, hrx⟩
    exact h.not_reach_of_feds hr hn hrx hnx

end Rooted

end Multigraph
