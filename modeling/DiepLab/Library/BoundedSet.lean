import Mathlib.Data.List.Basic
import Mathlib.Data.List.Dedup
import Mathlib.Data.List.Nodup
import Mathlib.Data.List.Perm.Subperm

/-!
A set that forgets.

It keeps the newest elements, up to a bound; an element that is added again
keeps its place. `Newest` says what it has kept of the history of all that was
added to it: while fewer have been added since, an element is still there.
-/

/-- The elements, oldest first. -/
structure BoundedSet (κ : Type) (size : ℕ) where
  entries : List κ := []
  nodup : entries.Nodup := by exact List.nodup_nil
  bounded : entries.length ≤ size := by exact Nat.zero_le _

namespace BoundedSet

variable {κ : Type} [DecidableEq κ] {size : ℕ}

instance : Membership κ (BoundedSet κ size) := ⟨fun s x => x ∈ s.entries⟩

instance (x : κ) (s : BoundedSet κ size) : Decidable (x ∈ s) :=
  inferInstanceAs (Decidable (x ∈ s.entries))

/-- A new element comes last, and the oldest goes if there are too many. -/
def add (s : BoundedSet κ size) (x : κ) : BoundedSet κ size :=
  if hmem : x ∈ s.entries then s
  else
    have hnodup : (s.entries ++ [x]).Nodup :=
      List.nodup_append.mpr ⟨s.nodup, List.nodup_singleton x, fun a ha b hb hab =>
        hmem (List.mem_singleton.mp hb ▸ hab ▸ ha)⟩
    if hfull : size < (s.entries ++ [x]).length then
      { entries := (s.entries ++ [x]).tail
        nodup := hnodup.tail
        bounded := by
          have hbound := s.bounded
          rw [List.length_tail, List.length_append, List.length_singleton]
          omega }
    else { entries := s.entries ++ [x], nodup := hnodup, bounded := Nat.not_lt.mp hfull }

theorem add_of_mem {s : BoundedSet κ size} {x : κ} (h : x ∈ s) : s.add x = s := dif_pos h

theorem entries_add {s : BoundedSet κ size} {x : κ} (h : x ∉ s) :
    (s.add x).entries =
      if s.entries.length < size then s.entries ++ [x] else (s.entries ++ [x]).tail := by
  have hx : x ∉ s.entries := h
  rw [add, dif_neg hx]
  dsimp only
  split
  · rename_i hfull
    rw [List.length_append, List.length_singleton] at hfull
    rw [if_neg (by omega)]
  · rename_i hfull
    rw [List.length_append, List.length_singleton] at hfull
    rw [if_pos (by omega)]

/-- What the set has kept of the elements that were added, newest first: all of
them, or as many as fit. -/
def Newest (s : BoundedSet κ size) (history : List κ) : Prop :=
  ∃ forgotten, history = s.entries.reverse ++ forgotten ∧
    (forgotten = [] ∨ s.entries.length = size)

omit [DecidableEq κ] in
theorem newest_empty : Newest ({} : BoundedSet κ size) [] := ⟨[], rfl, Or.inl rfl⟩

theorem Newest.add {s : BoundedSet κ size} {history : List κ} (h : s.Newest history) {x : κ}
    (hx : x ∉ s) : (s.add x).Newest (x :: history) := by
  obtain ⟨forgotten, rfl, hkept⟩ := h
  unfold Newest
  rw [entries_add hx]
  split
  · rename_i hfits
    have hall : forgotten = [] := hkept.resolve_right (Nat.ne_of_lt hfits)
    exact ⟨[], by simp [hall], Or.inl rfl⟩
  · rename_i hfull
    have hlength : s.entries.length = size := Nat.le_antisymm s.bounded (Nat.not_lt.mp hfull)
    cases hentries : s.entries with
    -- a set of size 0 keeps nothing
    -- a set of size 0 keeps nothing
    | nil =>
        refine ⟨x :: forgotten, rfl, Or.inr ?_⟩
        rw [← hlength, hentries]
        rfl
    | cons oldest rest =>
        refine ⟨oldest :: forgotten, by simp, Or.inr ?_⟩
        rw [← hlength, hentries]
        simp

omit [DecidableEq κ] in
/-- An element after which few were added is still there. -/
theorem Newest.mem [BEq κ] [LawfulBEq κ] {s : BoundedSet κ size} {history : List κ}
    (h : s.Newest history) {x : κ} (hx : x ∈ history) (hfew : history.idxOf x < size) : x ∈ s := by
  obtain ⟨forgotten, rfl, hkept⟩ := h
  by_contra hgone
  have hnot : x ∉ s.entries.reverse := fun hmem => hgone (List.mem_reverse.mp hmem)
  rw [List.idxOf_append_of_notMem hnot, List.length_reverse] at hfew
  -- an element that is gone is older than all that fit
  -- an element that is gone is older than all that fit
  rcases hkept with rfl | hfull
  · rw [List.append_nil] at hx
    exact hnot hx
  · omega

omit [DecidableEq κ] in
theorem Newest.mem_history {s : BoundedSet κ size} {history : List κ} (h : s.Newest history)
    {x : κ} (hx : x ∈ s) : x ∈ history := by
  obtain ⟨forgotten, rfl, -⟩ := h
  exact List.mem_append_left _ (List.mem_reverse.mpr hx)

/-- While few were added, the set is that of all that were. -/
theorem Newest.mem_iff {s : BoundedSet κ size} {history : List κ} (h : s.Newest history)
    (hfew : history.length ≤ size) {x : κ} : x ∈ s ↔ x ∈ history :=
  ⟨h.mem_history, fun hx => h.mem hx (Nat.lt_of_lt_of_le (List.idxOf_lt_length_of_mem hx) hfew)⟩

/-! ### Sets that forget nothing -/

/-- The elements that were added are these. -/
def Seen (s : BoundedSet κ size) (xs : List κ) : Prop :=
  ∃ history, s.Newest history ∧ history.Nodup ∧ ∀ x, x ∈ history ↔ x ∈ xs

omit [DecidableEq κ] in
theorem seen_empty : Seen ({} : BoundedSet κ size) [] :=
  ⟨[], newest_empty, List.nodup_nil, fun _ => Iff.rfl⟩

/-- While no more different elements were added than fit, they are all there. -/
theorem Seen.mem_iff {s : BoundedSet κ size} {xs : List κ} (h : s.Seen xs)
    (hfew : xs.dedup.length ≤ size) {x : κ} : x ∈ s ↔ x ∈ xs := by
  obtain ⟨history, hnewest, hnodup, hmem⟩ := h
  -- the history has no repetitions, so it is no longer than what it consists of
  -- the history has no repetitions, so it is no longer than what it consists of
  have hsubset : history ⊆ xs.dedup := fun y hy => List.mem_dedup.mpr ((hmem y).mp hy)
  have hlength := (List.subperm_of_subset hnodup hsubset).length_le
  rw [hnewest.mem_iff (Nat.le_trans hlength hfew), hmem]

theorem Seen.add {s : BoundedSet κ size} {xs : List κ} (h : s.Seen xs)
    (hfew : xs.dedup.length ≤ size) (x : κ) : (s.add x).Seen (xs ++ [x]) := by
  by_cases hx : x ∈ s
  · have hxs := (h.mem_iff hfew).mp hx
    obtain ⟨history, hnewest, hnodup, hmem⟩ := h
    rw [add_of_mem hx]
    refine ⟨history, hnewest, hnodup, fun y => ?_⟩
    rw [hmem, List.mem_append, List.mem_singleton]
    exact ⟨Or.inl, fun hy => hy.elim id fun heq => heq ▸ hxs⟩
  · have hxs : x ∉ xs := fun hmem => hx ((h.mem_iff hfew).mpr hmem)
    obtain ⟨history, hnewest, hnodup, hmem⟩ := h
    refine ⟨x :: history, hnewest.add hx,
      List.nodup_cons.mpr ⟨fun hold => hxs ((hmem x).mp hold), hnodup⟩, fun y => ?_⟩
    rw [List.mem_cons, hmem, List.mem_append, List.mem_singleton, or_comm]

end BoundedSet
