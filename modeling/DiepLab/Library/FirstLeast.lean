import Mathlib.Data.List.Basic
import Mathlib.Order.Lattice

/-!
The first least element of a list of candidates.

A scan that keeps the best candidate so far, and replaces it only by a
strictly better one, ends with the first of the least candidates. Candidates
are judged by a partial key: one without a key is not in the running.
`FirstLeast key l a k` says that `a`, with key `k`, is the one, and the rules
`first`, `replace` and `keep` say what one more candidate does to it.
-/

/-- `a` is in `l`, everything before it has a greater key and everything after
it no smaller one. -/
structure FirstLeast {α κ : Type} [LinearOrder κ] (key : α → Option κ) (l : List α) (a : α)
    (k : κ) : Prop where
  key_eq : key a = some k
  split : ∃ pre post, l = pre ++ a :: post ∧
    (∀ b ∈ pre, ∀ j, key b = some j → k < j) ∧ ∀ b ∈ post, ∀ j, key b = some j → k ≤ j

namespace FirstLeast

variable {α κ : Type} [LinearOrder κ] {key : α → Option κ} {l : List α} {a b : α} {j k : κ}

theorem mem (h : FirstLeast key l a k) : a ∈ l := by
  obtain ⟨pre, post, rfl, -, -⟩ := h.split
  exact List.mem_append_right _ List.mem_cons_self

theorem le (h : FirstLeast key l a k) (hb : b ∈ l) (hj : key b = some j) : k ≤ j := by
  obtain ⟨pre, post, rfl, hpre, hpost⟩ := h.split
  rcases List.mem_append.mp hb with hb | hb
  · exact (hpre b hb j hj).le
  · rcases List.mem_cons.mp hb with rfl | hb
    · exact (Option.some.inj (h.key_eq.symm.trans hj)).le
    · exact hpost b hb j hj

/-! ### One more candidate -/

theorem first (hnone : ∀ b ∈ l, key b = none) (ha : key a = some k) :
    FirstLeast key (l ++ [a]) a k where
  key_eq := ha
  split := by
    refine ⟨l, [], rfl, fun b hb j hj => ?_, fun b hb => absurd hb List.not_mem_nil⟩
    rw [hnone b hb] at hj
    exact nomatch hj

theorem replace (h : FirstLeast key l b j) (ha : key a = some k) (hlt : k < j) :
    FirstLeast key (l ++ [a]) a k where
  key_eq := ha
  split := ⟨l, [], rfl, fun _ hc _ hi => hlt.trans_le (h.le hc hi),
    fun _ hc => absurd hc List.not_mem_nil⟩

theorem keep (h : FirstLeast key l b j) (ha : ∀ k, key a = some k → j ≤ k) :
    FirstLeast key (l ++ [a]) b j where
  key_eq := h.key_eq
  split := by
    obtain ⟨pre, post, rfl, hpre, hpost⟩ := h.split
    refine ⟨pre, post ++ [a], by rw [List.append_assoc, List.cons_append], hpre, ?_⟩
    intro c hc i hi
    rcases List.mem_append.mp hc with hc | hc
    · exact hpost c hc i hi
    · rw [List.mem_singleton.mp hc] at hi
      exact ha i hi

/-! ### Uniqueness -/

/-- There is one first least candidate. -/
theorem unique (h : FirstLeast key l a k) (h' : FirstLeast key l b j) : a = b ∧ k = j := by
  have hkj : k = j := le_antisymm (h.le h'.mem h'.key_eq) (h'.le h.mem h.key_eq)
  refine ⟨?_, hkj⟩
  obtain ⟨pre, post, rfl, hpre, -⟩ := h.split
  obtain ⟨pre', post', heq, hpre', -⟩ := h'.split
  rcases List.append_eq_append_iff.mp heq with ⟨mid, hmid, hrest⟩ | ⟨mid, hmid, hrest⟩
  · cases mid with
    | nil => exact (List.cons_eq_cons.mp hrest).1
    | cons c mid =>
        -- `a` would come before `b`
        obtain ⟨rfl, -⟩ := List.cons_eq_cons.mp hrest
        have hmem : a ∈ pre' := by
          rw [hmid]
          exact List.mem_append_right _ List.mem_cons_self
        exact absurd (hpre' a hmem k h.key_eq) (hkj ▸ lt_irrefl k)
  · cases mid with
    | nil => exact (List.cons_eq_cons.mp hrest).1.symm
    | cons c mid =>
        obtain ⟨rfl, -⟩ := List.cons_eq_cons.mp hrest
        have hmem : b ∈ pre := by
          rw [hmid]
          exact List.mem_append_right _ List.mem_cons_self
        exact absurd (hpre b hmem j h'.key_eq) (hkj ▸ lt_irrefl k)

end FirstLeast
