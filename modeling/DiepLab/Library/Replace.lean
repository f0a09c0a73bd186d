import Mathlib.Data.List.Basic

/-!
`String.replace`, where there is nothing to replace.

The search for a pattern that does not occur in a text rejects all of it, piece by piece,
and the pieces together are the text.
-/

namespace String

open Slice.Pattern Slice.Pattern.Model

theorem slice_append_sliceFrom {s : Slice} {p q : s.Pos} (h : p ≤ q) :
    (s.slice p q h).copy ++ (s.sliceFrom q).copy = (s.sliceFrom p).copy := by
  have happend := @Slice.sliceTo_append_sliceFrom (s.sliceFrom p) (p.sliceFrom q h)
  simpa using happend

/-- A search without a match puts the text together again. -/
theorem foldl_of_isValidSearchFrom {pattern : String} {s : Slice}
    (hnone : ¬ ∃ pos : s.Pos, MatchesAt pattern pos) {f : String → SearchStep s → String}
    (hf : ∀ sofar p q, f sofar (.rejected p q) = sofar ++ (s.slice! p q).copy)
    {steps : List (SearchStep s)} {pos : s.Pos} (h : IsValidSearchFrom pattern pos steps)
    (sofar : String) : steps.foldl f sofar = sofar ++ (s.sliceFrom pos).copy := by
  induction h generalizing sofar with
  | endPos => simp
  | matched hmatch _ _ => exact absurd ⟨_, hmatch.matchesAt⟩ hnone
  | mismatched hlt _ _ ih =>
      rw [List.foldl_cons, ih, hf, ← Slice.slice_eq_slice! (h := Std.le_of_lt hlt),
        String.append_assoc, slice_append_sliceFrom]

theorem replace_of_not_occurs {s pattern : String} (hpattern : pattern ≠ "")
    (hnone : ∀ before after, s ≠ before ++ pattern ++ after) (replacement : String) :
    s.replace pattern replacement = s := by
  have hlawful := ForwardStringSearcher.lawfulToForwardSearcherModel hpattern
  have hmatch : ¬ ∃ pos : s.toSlice.Pos, MatchesAt pattern pos := by
    rw [ForwardStringSearcher.exists_matchesAt_iff_eq_append]
    rintro ⟨before, after, h⟩
    exact hnone before after (by simpa using h)
  rw [String.replace, Slice.replace, ← Std.Iter.foldl_toList,
    foldl_of_isValidSearchFrom hmatch (fun _ _ _ => rfl)
      (hlawful.isValidSearchFrom_toList s.toSlice)]
  simp

/-- A character that does not occur is not replaced. -/
theorem replace_singleton_of_not_mem {s : String} {c : Char} (h : c ∉ s.toList)
    (replacement : String) : s.replace (singleton c) replacement = s := by
  refine replace_of_not_occurs (by simp) (fun before after heq => h ?_) replacement
  rw [heq]
  simp

end String
