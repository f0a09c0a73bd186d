import Mathlib.Data.List.FinRange

/-!
Loops that go through a list in a monad.

An invariant of a loop may speak of the items that have been gone through
(`foldlM_prefix`); over the indices of an array these are the smaller ones
(`foldlM_finRange`, and `of_foldlM_finRange` where a turn may raise).
-/

namespace Loops

variable {m : Type → Type} [Monad m] [LawfulMonad m] {σ α β : Type}

/-- A loop each of whose turns succeeds, with what holds after the items so far. -/
theorem foldlM_prefix {f : σ → α → m σ} {P : List α → σ → Prop} {items : List α} {s : σ}
    (start : P [] s)
    (turn : ∀ left a right s, items = left ++ a :: right → P left s →
      ∃ s', f s a = pure s' ∧ P (left ++ [a]) s') :
    ∃ s', items.foldlM f s = pure s' ∧ P items s' := by
  have hrest (right left : List α) (s : σ) (hsplit : items = left ++ right) (hs : P left s) :
      ∃ s', right.foldlM f s = pure s' ∧ P items s' := by
    induction right generalizing left s with
    | nil =>
        rw [List.append_nil] at hsplit
        exact ⟨s, rfl, hsplit ▸ hs⟩
    | cons a right ih =>
        obtain ⟨next, hnext, hP⟩ := turn left a right s hsplit hs
        have hsplit' : items = (left ++ [a]) ++ right := by
          rw [hsplit, List.append_assoc, List.singleton_append]
        obtain ⟨s', hrun, hs'⟩ := ih (left ++ [a]) next hsplit' hP
        refine ⟨s', ?_, hs'⟩
        rw [List.foldlM_cons, hnext, pure_bind, hrun]
  exact hrest items [] s rfl start

/-- The indices that come before one are as many as it says. -/
theorem length_of_finRange_eq {n : ℕ} {left right : List (Fin n)} {i : Fin n}
    (hsplit : List.finRange n = left ++ i :: right) : left.length = i.val := by
  have hlt : left.length < (List.finRange n).length := by
    rw [hsplit, List.length_append, List.length_cons]
    omega
  have hget : (List.finRange n)[left.length] = i := by simp [hsplit]
  rw [← hget, List.getElem_finRange]
  rfl

/-- A loop over the indices, with what holds after the smaller ones. -/
theorem foldlM_finRange {n : ℕ} {f : σ → Fin n → m σ} {P : ℕ → σ → Prop} {s : σ}
    (start : P 0 s)
    (turn : ∀ (i : Fin n) s, P i.val s → ∃ s', f s i = pure s' ∧ P (i.val + 1) s') :
    ∃ s', (List.finRange n).foldlM f s = pure s' ∧ P n s' := by
  obtain ⟨s', hrun, hs'⟩ : ∃ s', (List.finRange n).foldlM f s = pure s' ∧
      P (List.finRange n).length s' :=
    foldlM_prefix (P := fun left s => P left.length s) start fun left i right s hsplit hs => by
      have hi := length_of_finRange_eq hsplit
      rw [List.length_append, List.length_singleton, hi]
      exact turn i s (hi ▸ hs)
  rw [List.length_finRange] at hs'
  exact ⟨s', hrun, hs'⟩

/-- What holds after the indices that a loop which may raise has gone through. -/
theorem of_foldlM_finRange {ε : Type} {n : ℕ} {f : σ → Fin n → Except ε σ} {P : ℕ → σ → Prop}
    {s s' : σ} (hrun : (List.finRange n).foldlM f s = .ok s') (start : P 0 s)
    (turn : ∀ (i : Fin n) s s', P i.val s → f s i = .ok s' → P (i.val + 1) s') : P n s' := by
  have hrest (right left : List (Fin n)) (s : σ) (hsplit : List.finRange n = left ++ right)
      (hs : P left.length s) (hrun : right.foldlM f s = .ok s') : P n s' := by
    induction right generalizing left s with
    | nil =>
        rw [List.append_nil] at hsplit
        rw [← hsplit, List.length_finRange] at hs
        injection hrun with hrun
        exact hrun ▸ hs
    | cons i right ih =>
        have hi := length_of_finRange_eq hsplit
        rw [List.foldlM_cons] at hrun
        cases hturn : f s i with
        | error e =>
            rw [hturn] at hrun
            exact nomatch hrun
        | ok next =>
            rw [hturn] at hrun
            refine ih (left ++ [i]) next ?_ ?_ hrun
            · rw [hsplit, List.append_assoc, List.singleton_append]
            · rw [List.length_append, List.length_singleton, hi]
              exact turn i s next (hi ▸ hs) hturn
  exact hrest (List.finRange n) [] s rfl start hrun

/-- What a loop raises, one of its turns has raised. -/
theorem exists_of_foldlM_error {ε : Type} {f : σ → α → Except ε σ} {items : List α} {s : σ} {e : ε}
    (hrun : items.foldlM f s = .error e) : ∃ s, ∃ a ∈ items, f s a = .error e := by
  induction items generalizing s with
  | nil => exact nomatch hrun
  | cons a items ih =>
      rw [List.foldlM_cons] at hrun
      cases hturn : f s a with
      | error e' =>
          rw [hturn] at hrun
          injection hrun with hrun
          exact ⟨s, a, List.mem_cons_self, hrun ▸ hturn⟩
      | ok next =>
          rw [hturn] at hrun
          obtain ⟨s', b, hb, herror⟩ := ih hrun
          exact ⟨s', b, List.mem_cons_of_mem a hb, herror⟩

theorem mapM_of_forall {f : α → m β} {g : α → β} {items : List α}
    (h : ∀ a ∈ items, f a = pure (g a)) : items.mapM f = pure (items.map g) := by
  induction items with
  | nil => exact List.mapM_nil
  | cons a items ih =>
      obtain ⟨ha, hitems⟩ := List.forall_mem_cons.mp h
      rw [List.mapM_cons, ha, pure_bind, ih hitems, pure_bind, List.map_cons]

theorem mapM_congr {f g : α → m β} {items : List α} (h : ∀ a ∈ items, f a = g a) :
    items.mapM f = items.mapM g := by
  induction items with
  | nil => rw [List.mapM_nil, List.mapM_nil]
  | cons a items ih =>
      obtain ⟨ha, hitems⟩ := List.forall_mem_cons.mp h
      rw [List.mapM_cons, List.mapM_cons, ha, ih hitems]

theorem exists_mapM {f : α → m β} {items : List α} (h : ∀ a ∈ items, ∃ b, f a = pure b) :
    ∃ out, items.mapM f = pure out := by
  induction items with
  | nil => exact ⟨[], List.mapM_nil⟩
  | cons a items ih =>
      obtain ⟨⟨b, hb⟩, hitems⟩ := List.forall_mem_cons.mp h
      obtain ⟨out, hout⟩ := ih hitems
      refine ⟨b :: out, ?_⟩
      rw [List.mapM_cons, hb, pure_bind, hout, pure_bind]

end Loops
