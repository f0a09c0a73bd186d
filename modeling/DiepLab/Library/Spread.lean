import DiepLab.Library.Multigraph
import Mathlib.Logic.Function.Basic

/-!
Labels that spread over a multigraph.

Some vertices have a label, and an edge of `S` with one labelled end gives the
label to the other end. `Spread` is what any number of such turns can make of
the labels, and `Settled` holds where no turn is left. Which vertices are
labelled in the end does not depend on the order of the turns
(`Spread.isSome_iff`), what label they get may.
-/

namespace Multigraph

variable {V E α : Type} {G : Multigraph V E} {S : Set E} {f g h : V → Option α}

/-- The labels of `f` are still there, and every label of `g` is that of a vertex
connected to it. -/
structure Spread (G : Multigraph V E) (S : Set E) (f g : V → Option α) : Prop where
  kept : ∀ x v, f x = some v → g x = some v
  origin : ∀ x v, g x = some v → ∃ y, f y = some v ∧ G.Conn S y x

/-- Every edge has a label at both ends or at neither. -/
def Settled (G : Multigraph V E) (S : Set E) (f : V → Option α) : Prop :=
  ∀ e ∈ S, (f (G.src e)).isSome ↔ (f (G.tgt e)).isSome

namespace Spread

theorem refl (G : Multigraph V E) (S : Set E) (f : V → Option α) : G.Spread S f f :=
  ⟨fun _ _ h => h, fun x _ h => ⟨x, h, .refl⟩⟩

theorem trans (hfg : G.Spread S f g) (hgh : G.Spread S g h) : G.Spread S f h where
  kept x v hx := hgh.kept x v (hfg.kept x v hx)
  origin x v hx := by
    obtain ⟨y, hy, hyx⟩ := hgh.origin x v hx
    obtain ⟨z, hz, hzy⟩ := hfg.origin y v hy
    exact ⟨z, hz, hzy.trans hyx⟩

/-- A vertex without a label takes that of a neighbour. -/
theorem carry [DecidableEq V] {x y : V} {v : α} (hxy : G.Conn S x y) (hx : f x = some v)
    (hy : f y = none) : G.Spread S f (Function.update f y (some v)) where
  kept z w hz := by
    have hne : z ≠ y := by
      rintro rfl
      exact nomatch hy.symm.trans hz
    rw [Function.update_of_ne hne, hz]
  origin z w hz := by
    by_cases heq : z = y
    · subst heq
      rw [Function.update_self] at hz
      injection hz with hz
      exact ⟨x, hz ▸ hx, hxy⟩
    · rw [Function.update_of_ne heq] at hz
      exact ⟨z, hz, .refl⟩

/-- When the labels have settled, they are where they can come to. -/
theorem isSome_iff (hfg : G.Spread S f g) (hg : G.Settled S g) {x : V} :
    (g x).isSome ↔ ∃ y, (f y).isSome ∧ G.Conn S y x := by
  constructor
  · intro hx
    obtain ⟨v, hv⟩ := Option.isSome_iff_exists.mp hx
    obtain ⟨y, hy, hyx⟩ := hfg.origin x v hv
    exact ⟨y, Option.isSome_iff_exists.mpr ⟨v, hy⟩, hyx⟩
  · rintro ⟨y, hy, hyx⟩
    obtain ⟨v, hv⟩ := Option.isSome_iff_exists.mp hy
    have hlabelled : (g y).isSome := Option.isSome_iff_exists.mpr ⟨v, hfg.kept y v hv⟩
    exact (Conn.within (N := { x | (g x).isSome }) hg hlabelled hyx).1

end Spread

end Multigraph
