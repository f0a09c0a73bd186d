import Mathlib.Data.List.Pairwise

/-!
Patches of a memory, and runs of them that stop.

A patch gives new values to some addresses. Patches that share no address leave a memory as
it is only if each of them writes what is there already (`applyAll_eq_self_iff`). A run makes
one request after the other until one fails: a request that is refused has no effect, one
that is not answered has its own.
-/

variable {α β ε ω : Type}

/-- New values for some addresses. -/
def Patch (α β : Type) := α → Option β

namespace Patch

def apply (memory : α → β) (p : Patch α β) : α → β := fun a => (p a).getD (memory a)

def applyAll (memory : α → β) (ps : List (Patch α β)) : α → β := ps.foldl apply memory

/-- No address is in both. -/
def Apart (p q : Patch α β) : Prop := ∀ a, p a = none ∨ q a = none

/-- The values are there already. -/
def Idle (memory : α → β) (p : Patch α β) : Prop := ∀ a v, p a = some v → memory a = v

theorem apply_of_none {memory : α → β} {p : Patch α β} {a : α} (h : p a = none) :
    apply memory p a = memory a := by
  rw [apply, h, Option.getD_none]

theorem apply_of_some {memory : α → β} {p : Patch α β} {a : α} {v : β} (h : p a = some v) :
    apply memory p a = v := by
  rw [apply, h, Option.getD_some]

theorem Idle.apply_eq {memory : α → β} {p : Patch α β} (h : p.Idle memory) :
    apply memory p = memory := by
  funext a
  cases hp : p a with
  | none => exact apply_of_none hp
  | some v => exact (apply_of_some hp).trans (h a v hp).symm

/-- Outside of all patches nothing changes. -/
theorem applyAll_of_none {memory : α → β} {ps : List (Patch α β)} {a : α}
    (h : ∀ p ∈ ps, p a = none) : applyAll memory ps a = memory a := by
  induction ps generalizing memory with
  | nil => rfl
  | cons p ps ih =>
      obtain ⟨hp, hps⟩ := List.forall_mem_cons.mp h
      rw [applyAll, List.foldl_cons, ← applyAll, ih hps, apply_of_none hp]

theorem applyAll_eq_self_iff {memory : α → β} {ps : List (Patch α β)}
    (hapart : ps.Pairwise Apart) : applyAll memory ps = memory ↔ ∀ p ∈ ps, p.Idle memory := by
  induction ps generalizing memory with
  | nil => exact iff_of_true rfl nofun
  | cons p ps ih =>
      obtain ⟨hp, hps⟩ := List.pairwise_cons.mp hapart
      rw [List.forall_mem_cons, applyAll, List.foldl_cons, ← applyAll]
      constructor
      · intro h
        have hidle : p.Idle memory := by
          intro a v hv
          -- no later patch hides what this one writes
          have hrest : ∀ q ∈ ps, q a = none := fun q hq =>
            (hp q hq a).resolve_left (by rw [hv]; exact Option.some_ne_none v)
          rw [← h, applyAll_of_none hrest, apply_of_some hv]
        rw [hidle.apply_eq] at h
        exact ⟨hidle, (ih hps).mp h⟩
      · rintro ⟨hidle, hrest⟩
        rw [hidle.apply_eq]
        exact (ih hps).mpr hrest

end Patch

/-! ### Runs that stop -/

namespace Requests

/-- What becomes of a request. -/
inductive Outcome (ε : Type) where
  | done
  | refused (raised : ε)
  /-- It is done, but that is not known. -/
  | unanswered (raised : ε)

/-- What a run raises, and which of its requests have had an effect; the first is the `n`-th.
A request that cannot be made raises, too. -/
def attempt (outcome : ℕ → Outcome ε) : ℕ → List (Except ε ω) → Option ε × List ω
  | _, [] => (none, [])
  | _, .error raised :: _ => (some raised, [])
  | n, .ok w :: rest =>
      match outcome n with
      | .done =>
          let (raised, effects) := attempt outcome (n + 1) rest
          (raised, w :: effects)
      | .refused raised => (some raised, [])
      | .unanswered raised => (some raised, [w])

/-- What has had an effect are requests of the run, in order. -/
theorem attempt_sublist (outcome : ℕ → Outcome ε) (n : ℕ) (requests : List (Except ε ω)) :
    ((attempt outcome n requests).2.map Except.ok).Sublist requests := by
  induction requests generalizing n with
  | nil => exact .slnil
  | cons request rest ih =>
      cases request with
      | error raised => exact List.nil_sublist _
      | ok w =>
          rw [attempt]
          cases outcome n with
          | done => exact (ih (n + 1)).cons_cons _
          | refused raised => exact List.nil_sublist _
          | unanswered raised => exact (List.nil_sublist rest).cons_cons _

/-- Of a run that raises nothing all requests have had an effect. -/
theorem attempt_of_none {outcome : ℕ → Outcome ε} {n : ℕ} {requests : List (Except ε ω)}
    (h : (attempt outcome n requests).1 = none) :
    (attempt outcome n requests).2.map Except.ok = requests := by
  induction requests generalizing n with
  | nil => rfl
  | cons request rest ih =>
      cases request with
      | error raised => exact nomatch h
      | ok w =>
          rw [attempt] at h ⊢
          cases houtcome : outcome n with
          | done =>
              rw [houtcome] at h
              exact congrArg _ (ih h)
          | refused raised =>
              rw [houtcome] at h
              exact nomatch h
          | unanswered raised =>
              rw [houtcome] at h
              exact nomatch h

end Requests
