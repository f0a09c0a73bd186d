import DiepLab.Library.Multigraph
import Mathlib.Data.Finset.Card
import Mathlib.Data.Finset.Image
import Mathlib.Data.Finset.Lattice.Lemmas

/-!
Counting the components of a finite multigraph.

`components S V` is the set of connected components into which the edge set
`S` divides the nodes `V`. One more edge merges two components or closes a
cycle (`card_components_insert`), so nodes never outnumber edges plus
components, and they are as many exactly over a forest
(`card_nodes_le`, `forest_iff_card`). Components are counted in practice by
one node for each: `card_components_le_roots` and `card_components_eq_roots`
compare their number with that of any set of roots that meets all of them.
-/

namespace Multigraph

variable {V E : Type} (G : Multigraph V E)

open Classical in
/-- The nodes among `N` that are connected to `v`. -/
noncomputable def component (S : Set E) (N : Finset V) (v : V) : Finset V :=
  N.filter fun w => G.Conn S v w

open Classical in
/-- The components of `N`. -/
noncomputable def components (S : Set E) (N : Finset V) : Finset (Finset V) :=
  N.image (G.component S N)

variable {G} {S T : Set E} {N : Finset V}

theorem mem_component {v w : V} : w ∈ G.component S N v ↔ w ∈ N ∧ G.Conn S v w := by
  simp [component]

theorem component_eq_iff {v w : V} (hw : w ∈ N) :
    G.component S N v = G.component S N w ↔ G.Conn S v w := by
  constructor
  · intro h
    have hmem : w ∈ G.component S N w := mem_component.mpr ⟨hw, .refl⟩
    rw [← h] at hmem
    exact (mem_component.mp hmem).2
  · intro h
    ext x
    rw [mem_component, mem_component]
    exact and_congr_right fun _ => ⟨fun hx => h.symm.trans hx, fun hx => h.trans hx⟩

theorem mem_components {c : Finset V} :
    c ∈ G.components S N ↔ ∃ v ∈ N, G.component S N v = c := by
  simp [components]

theorem component_mem {v : V} (hv : v ∈ N) : G.component S N v ∈ G.components S N :=
  mem_components.mpr ⟨v, hv, rfl⟩

/-- Components depend on the edges through connection only. -/
theorem components_congr (h : ∀ a b, G.Conn S a b ↔ G.Conn T a b) :
    G.components S N = G.components T N := by
  have hc : G.component S N = G.component T N := by
    funext v
    ext w
    rw [mem_component, mem_component, h]
  rw [components, components, hc]

/-! ### One more edge -/

theorem conn_insert_of_conn {e : E} (h : G.Conn S (G.src e) (G.tgt e)) (a b : V) :
    G.Conn (insert e S) a b ↔ G.Conn S a b := by
  rw [conn_insert_iff]
  constructor
  · rintro (hab | ⟨ha, hb⟩ | ⟨ha, hb⟩)
    · exact hab
    · exact ha.trans (h.trans hb)
    · exact ha.trans (h.symm.trans hb)
  · exact Or.inl

section Join

variable {e : E} (hs : G.src e ∈ N) (ht : G.tgt e ∈ N)

/-- Away from its ends a new edge changes no component. -/
theorem component_insert_of_not_conn {v : V} (hvs : ¬ G.Conn S v (G.src e))
    (hvt : ¬ G.Conn S v (G.tgt e)) : G.component (insert e S) N v = G.component S N v := by
  ext x
  rw [mem_component, mem_component, conn_insert_iff]
  refine and_congr_right fun _ => ⟨?_, Or.inl⟩
  rintro (h | ⟨h, -⟩ | ⟨h, -⟩)
  · exact h
  · exact absurd h hvs
  · exact absurd h hvt

include hs ht

open Classical in
/-- A joining edge replaces the components of its two ends by one. -/
theorem components_insert :
    G.components (insert e S) N =
      insert (G.component (insert e S) N (G.src e))
        (((G.components S N).erase (G.component S N (G.src e))).erase
          (G.component S N (G.tgt e))) := by
  have hjoin : G.Conn (insert e S) (G.src e) (G.tgt e) := conn_of_mem (Set.mem_insert e S)
  have hsub : S ⊆ insert e S := Set.subset_insert e S
  ext c
  rw [mem_components, Finset.mem_insert, Finset.mem_erase, Finset.mem_erase, mem_components]
  constructor
  · rintro ⟨v, hv, rfl⟩
    by_cases hvs : G.Conn S v (G.src e)
    · exact Or.inl ((component_eq_iff hs).mpr (hvs.mono hsub))
    · by_cases hvt : G.Conn S v (G.tgt e)
      · exact Or.inl ((component_eq_iff hs).mpr ((hvt.mono hsub).trans hjoin.symm))
      · rw [component_insert_of_not_conn hvs hvt]
        exact Or.inr ⟨fun h => hvt ((component_eq_iff ht).mp h),
          fun h => hvs ((component_eq_iff hs).mp h), v, hv, rfl⟩
  · rintro (rfl | ⟨hct, hcs, v, hv, rfl⟩)
    · exact ⟨G.src e, hs, rfl⟩
    · have hvs : ¬ G.Conn S v (G.src e) := fun h => hcs ((component_eq_iff hs).mpr h)
      have hvt : ¬ G.Conn S v (G.tgt e) := fun h => hct ((component_eq_iff ht).mpr h)
      exact ⟨v, hv, component_insert_of_not_conn hvs hvt⟩

theorem card_components_insert (hne : ¬ G.Conn S (G.src e) (G.tgt e)) :
    (G.components (insert e S) N).card + 1 = (G.components S N).card := by
  classical
  have hsrc : G.component S N (G.src e) ∈ G.components S N := component_mem hs
  have htgt : G.component S N (G.tgt e) ∈
      (G.components S N).erase (G.component S N (G.src e)) := by
    refine Finset.mem_erase.mpr ⟨fun h => hne ?_, component_mem ht⟩
    exact (component_eq_iff ht).mp h.symm
  have hnew : G.component (insert e S) N (G.src e) ∉
      ((G.components S N).erase (G.component S N (G.src e))).erase
        (G.component S N (G.tgt e)) := by
    -- an old component that holds the source is the component of the source
    intro h
    obtain ⟨hold, hmem⟩ := Finset.mem_erase.mp (Finset.mem_of_mem_erase h)
    obtain ⟨v, hv, hveq⟩ := mem_components.mp hmem
    have hin : G.src e ∈ G.component S N v := by
      rw [hveq]
      exact mem_component.mpr ⟨hs, .refl⟩
    refine hold (hveq.symm.trans ?_)
    exact (component_eq_iff hs).mpr (mem_component.mp hin).2
  rw [components_insert hs ht, Finset.card_insert_of_notMem hnew,
    Finset.card_erase_of_mem htgt, Finset.card_erase_of_mem hsrc]
  have hpos := Finset.card_pos.mpr ⟨_, htgt⟩
  rw [Finset.card_erase_of_mem hsrc] at hpos
  omega

end Join

/-! ### Nodes, edges and components -/

theorem conn_empty_iff {a b : V} : G.Conn (∅ : Set E) a b ↔ a = b := by
  constructor
  · intro h
    induction h with
    | refl => rfl
    | tail _ hstep _ =>
        rcases hstep with ⟨f, hf, -⟩ | ⟨f, hf, -⟩
        · exact absurd hf (Set.notMem_empty f)
        · exact absurd hf (Set.notMem_empty f)
  · rintro rfl
    exact .refl

theorem card_components_empty : (G.components (∅ : Set E) N).card = N.card := by
  classical
  refine Finset.card_image_of_injOn fun v _ w hw h => ?_
  exact conn_empty_iff.mp ((component_eq_iff hw).mp h)

/-- Nodes never outnumber edges plus components; they are as many exactly
over a forest. -/
theorem card_nodes_le_and_forest_iff (B : Finset E)
    (hends : ∀ e ∈ B, G.src e ∈ N ∧ G.tgt e ∈ N) :
    N.card ≤ B.card + (G.components (B : Set E) N).card ∧
      (G.Forest (B : Set E) ↔ N.card = B.card + (G.components (B : Set E) N).card) := by
  classical
  induction B using Finset.induction_on with
  | empty =>
      rw [Finset.coe_empty, card_components_empty, Finset.card_empty, Nat.zero_add]
      exact ⟨Nat.le_refl _, iff_of_true (fun e he => absurd he (Set.notMem_empty e)) rfl⟩
  | insert e B he ih =>
      obtain ⟨hle, hforest⟩ := ih fun f hf => hends f (Finset.mem_insert_of_mem hf)
      obtain ⟨hs, ht⟩ := hends e (Finset.mem_insert_self e B)
      have he' : e ∉ (B : Set E) := fun h => he (Finset.mem_coe.mp h)
      rw [Finset.coe_insert, Finset.card_insert_of_notMem he, forest_insert_iff he', hforest]
      by_cases hconn : G.Conn (B : Set E) (G.src e) (G.tgt e)
      · -- a cycle: one more edge and no component less
        rw [components_congr (conn_insert_of_conn hconn)]
        refine ⟨by omega, iff_of_false (fun h => h.2 hconn) (by omega)⟩
      · have hcard := card_components_insert hs ht hconn
        refine ⟨by omega, ⟨fun h => by omega, fun h => ⟨by omega, hconn⟩⟩⟩

theorem card_nodes_le (B : Finset E) (hends : ∀ e ∈ B, G.src e ∈ N ∧ G.tgt e ∈ N) :
    N.card ≤ B.card + (G.components (B : Set E) N).card :=
  (card_nodes_le_and_forest_iff B hends).1

theorem forest_iff_card (B : Finset E) (hends : ∀ e ∈ B, G.src e ∈ N ∧ G.tgt e ∈ N) :
    G.Forest (B : Set E) ↔ N.card = B.card + (G.components (B : Set E) N).card :=
  (card_nodes_le_and_forest_iff B hends).2

/-! ### One root for each component -/

section Roots

variable {R : Finset V} (hR : R ⊆ N) (hspan : ∀ v ∈ N, ∃ r ∈ R, G.Conn S r v)

include hR hspan

open Classical in
theorem components_eq_image : G.components S N = R.image (G.component S N) := by
  ext c
  rw [mem_components, Finset.mem_image]
  constructor
  · rintro ⟨v, hv, rfl⟩
    obtain ⟨r, hr, hrv⟩ := hspan v hv
    exact ⟨r, hr, (component_eq_iff hv).mpr hrv⟩
  · rintro ⟨r, hr, rfl⟩
    exact ⟨r, hR hr, rfl⟩

theorem card_components_le_roots : (G.components S N).card ≤ R.card := by
  classical
  rw [components_eq_image hR hspan]
  exact Finset.card_image_le

/-- There are as many components as roots exactly when no two roots are
connected. -/
theorem card_components_eq_roots :
    (G.components S N).card = R.card ↔ ∀ r ∈ R, ∀ r' ∈ R, G.Conn S r r' → r = r' := by
  classical
  rw [components_eq_image hR hspan, Finset.card_image_iff]
  constructor
  · exact fun h r hr r' hr' hc => h hr hr' ((component_eq_iff (hR hr')).mpr hc)
  · exact fun h r hr r' hr' heq => h r hr r' hr' ((component_eq_iff (hR hr')).mp heq)

end Roots

end Multigraph
