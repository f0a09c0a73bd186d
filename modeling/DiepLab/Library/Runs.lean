import Mathlib.Data.List.Basic

/-!
Runs of a step function.

A run is the fold of a step over a list of events. `Meets` says of a run that
each of its steps satisfies a condition in the state before it; an invariant
that such steps keep holds at the end of the run (`Meets.invariant`), and a run that
does not meet the condition has a first step that does not (`exists_of_not_meets`). Where a
step that does not meet it ends in a bad state, the condition is exact
(`forall_prefix_iff_meets`). `forall_split_iff` compares two properties of the events
themselves.
-/

namespace Runs

variable {σ ε : Type} {step : σ → ε → σ} {P : σ → ε → Prop}

def Meets (step : σ → ε → σ) (P : σ → ε → Prop) : σ → List ε → Prop
  | _, [] => True
  | s, e :: events => P s e ∧ Meets step P (step s e) events

instance decidableMeets (step : σ → ε → σ) (P : σ → ε → Prop) [∀ s e, Decidable (P s e)] :
    (s : σ) → (events : List ε) → Decidable (Meets step P s events)
  | _, [] => isTrue trivial
  | s, e :: events =>
      have := decidableMeets step P (step s e) events
      inferInstanceAs (Decidable (P s e ∧ _))

theorem Meets.invariant {I : σ → Prop} (hstep : ∀ s e, I s → P s e → I (step s e)) {s : σ}
    (hs : I s) {events : List ε} (h : Meets step P s events) : I (events.foldl step s) := by
  induction events generalizing s with
  | nil => exact hs
  | cons e events ih => exact ih (hstep s e hs h.1) h.2

/-- A step that fails to meet the condition, if there is one. -/
theorem exists_of_not_meets {s : σ} {events : List ε} (h : ¬Meets step P s events) :
    ∃ before e after, events = before ++ e :: after ∧ Meets step P s before ∧
      ¬P (before.foldl step s) e := by
  induction events generalizing s with
  | nil => exact absurd trivial h
  | cons e events ih =>
      by_cases he : P s e
      · obtain ⟨before, e', after, rfl, hbefore, he'⟩ := ih fun hrest => h ⟨he, hrest⟩
        exact ⟨e :: before, e', after, rfl, ⟨he, hbefore⟩, he'⟩
      · exact ⟨[], e, events, rfl, trivial, he⟩

/-- The condition is exact: what the invariant gives holds in all states of a run if and only
if every step meets the condition. -/
theorem forall_prefix_iff_meets {I Good : σ → Prop}
    (hstep : ∀ s e, I s → P s e → I (step s e)) (hgood : ∀ s, I s → Good s)
    (hbad : ∀ s e, I s → ¬P s e → ¬Good (step s e)) {s : σ} (hs : I s) (events : List ε) :
    (∀ before after, events = before ++ after → Good (before.foldl step s)) ↔
      Meets step P s events := by
  induction events generalizing s with
  | nil =>
      refine iff_of_true (fun before after h => ?_) trivial
      rw [(List.append_eq_nil_iff.mp h.symm).1]
      exact hgood s hs
  | cons e events ih =>
      rw [Meets]
      constructor
      · intro h
        have he : P s e := by
          by_contra hnot
          exact hbad s e hs hnot (h [e] events rfl)
        refine ⟨he, (ih (hstep s e hs he)).mp fun before after heq => ?_⟩
        exact h (e :: before) after (by rw [heq, List.cons_append])
      · rintro ⟨he, hrest⟩ before after heq
        cases before with
        | nil => exact hgood s hs
        | cons b before =>
            injection heq with hb heq
            subst hb
            exact (ih (hstep s e hs he)).mpr hrest before after heq

/-- Two properties of every event and the events before it are the same all along a run, if
they are the same after events that are known to have gone well. -/
theorem forall_split_iff {A : List ε → Prop} {R C : List ε → ε → Prop}
    (hiff : ∀ before e, A before → (R before e ↔ C before e))
    (hnext : ∀ before e, A before → R before e → A (before ++ [e])) {before : List ε}
    (hstart : A before) (events : List ε) :
    (∀ more e after, events = more ++ e :: after → R (before ++ more) e) ↔
      ∀ more e after, events = more ++ e :: after → C (before ++ more) e := by
  induction events generalizing before with
  | nil => exact iff_of_true (by simp) (by simp)
  | cons e events ih =>
      -- the first event, and then the others
      have hsplit (P : List ε → ε → Prop) :
          (∀ more e' after, e :: events = more ++ e' :: after → P (before ++ more) e') ↔
            P before e ∧ ∀ more e' after, events = more ++ e' :: after →
              P ((before ++ [e]) ++ more) e' := by
        constructor
        · intro h
          refine ⟨by simpa using h [] e events rfl, fun more e' after heq => ?_⟩
          have := h (e :: more) e' after (by rw [heq, List.cons_append])
          rwa [List.append_cons] at this
        · rintro ⟨hfirst, hrest⟩ more e' after heq
          cases more with
          | nil =>
              injection heq with he _
              rw [← he, List.append_nil]
              exact hfirst
          | cons e'' more =>
              injection heq with he heq
              rw [List.append_cons, ← he]
              exact hrest more e' after heq
      rw [hsplit R, hsplit C, ← hiff before e hstart]
      exact and_congr_right fun hfirst => ih (hnext before e hstart hfirst)

/-- What every step keeps holds at the end of every run. -/
theorem foldl_invariant {I : σ → Prop} (hstep : ∀ s e, I s → I (step s e)) {s : σ} (hs : I s)
    (events : List ε) : I (events.foldl step s) := by
  induction events generalizing s with
  | nil => exact hs
  | cons e events ih => exact ih (hstep s e hs)

end Runs
