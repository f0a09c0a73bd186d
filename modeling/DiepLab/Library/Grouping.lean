import Mathlib.Data.List.Induction
import Mathlib.Data.List.Nodup

/-!
Grouping by a key.

Rows are put into groups one after the other: the first row of a key begins the
group, and every row of the key, the first one included, is added to it. The
groups come in the order of their first rows, the `leaders`, and each is what
the rows of its key add up to (`group_eq`).
-/

namespace Grouping

variable {Row Key G : Type} [DecidableEq Key] (key : Row → Key)

/-- The rows that are the first of their keys. -/
def leaders : List Row → List Row
  | [] => []
  | r :: rows => r :: (leaders rows).filter fun l => key l ≠ key r

section Leaders

variable {key} {rows : List Row}

theorem mem_of_mem_leaders {r : Row} (h : r ∈ leaders key rows) : r ∈ rows := by
  induction rows with
  | nil => exact h
  | cons a rows ih =>
      rcases List.mem_cons.mp h with rfl | h
      · exact List.mem_cons_self
      · exact List.mem_cons_of_mem _ (ih (List.mem_of_mem_filter h))

variable (key) in
/-- Every row has a leader. -/
theorem exists_leader {r : Row} (h : r ∈ rows) : ∃ l ∈ leaders key rows, key l = key r := by
  induction rows with
  | nil => exact absurd h List.not_mem_nil
  | cons a rows ih =>
      by_cases ha : key a = key r
      · exact ⟨a, List.mem_cons_self, ha⟩
      · have hne : r ≠ a := fun heq => ha (congrArg key heq.symm)
        obtain ⟨l, hl, hlr⟩ := ih (List.mem_of_ne_of_mem hne h)
        refine ⟨l, List.mem_cons_of_mem _ (List.mem_filter.mpr ⟨hl, ?_⟩), hlr⟩
        exact decide_eq_true fun hla => ha (hla.symm.trans hlr)

theorem nodup_map_leaders (rows : List Row) : ((leaders key rows).map key).Nodup := by
  induction rows with
  | nil => exact List.nodup_nil
  | cons a rows ih =>
      rw [leaders, List.map_cons, List.nodup_cons]
      constructor
      · intro hmem
        obtain ⟨l, hl, hla⟩ := List.mem_map.mp hmem
        exact of_decide_eq_true (List.mem_filter.mp hl).2 hla
      · exact ih.sublist (List.filter_sublist.map key)

theorem leader_eq {l l' : Row} (hl : l ∈ leaders key rows) (hl' : l' ∈ leaders key rows)
    (h : key l = key l') : l = l' :=
  List.inj_on_of_nodup_map (nodup_map_leaders rows) hl hl' h

theorem leaders_append_of_not_mem {r : Row} (h : key r ∉ rows.map key) :
    leaders key (rows ++ [r]) = leaders key rows ++ [r] := by
  induction rows with
  | nil => rfl
  | cons a rows ih =>
      rw [List.map_cons, List.mem_cons, not_or] at h
      rw [List.cons_append, leaders, ih h.2, List.filter_append, leaders, List.filter_singleton,
        decide_eq_true h.1, cond_true, List.cons_append]

theorem leaders_append_of_mem {r : Row} (h : key r ∈ rows.map key) :
    leaders key (rows ++ [r]) = leaders key rows := by
  induction rows with
  | nil => exact absurd h List.not_mem_nil
  | cons a rows ih =>
      rw [List.cons_append, leaders, leaders]
      by_cases hr : key r ∈ rows.map key
      · rw [ih hr]
      · have hra : key r = key a := (List.mem_cons.mp h).resolve_right hr
        rw [leaders_append_of_not_mem hr, List.filter_append, List.filter_singleton,
          decide_eq_false (not_not.mpr hra), cond_false, List.append_nil]

end Leaders

/-! ### The loop -/

variable (init : Row → G) (add : G → Row → G)

/-- One row: its group is looked up, begun if there is none, and added to. -/
def tally : List (Key × G) → Row → List (Key × G)
  | [], r => [(key r, add (init r) r)]
  | (k, g) :: groups, r =>
      if k = key r then (k, add g r) :: groups else (k, g) :: tally groups r

def group (rows : List Row) : List (Key × G) := rows.foldl (tally key init add) []

section Group

variable {key init add} {groups : List (Key × G)} {r : Row}

theorem tally_of_not_mem (h : key r ∉ groups.map Prod.fst) :
    tally key init add groups r = groups ++ [(key r, add (init r) r)] := by
  induction groups with
  | nil => rfl
  | cons kg groups ih =>
      rw [List.map_cons, List.mem_cons, not_or] at h
      rw [tally, if_neg (Ne.symm h.1), ih h.2, List.cons_append]

theorem tally_of_mem (hnodup : (groups.map Prod.fst).Nodup) (h : key r ∈ groups.map Prod.fst) :
    tally key init add groups r =
      groups.map fun kg => if kg.1 = key r then (kg.1, add kg.2 r) else kg := by
  induction groups with
  | nil => exact absurd h List.not_mem_nil
  | cons kg groups ih =>
      obtain ⟨k, g⟩ := kg
      rw [List.map_cons, List.nodup_cons] at hnodup
      rw [tally, List.map_cons]
      by_cases hk : k = key r
      · -- the key comes once
        have hrest : groups.map (fun kg => if kg.1 = key r then (kg.1, add kg.2 r) else kg) =
            groups := by
          refine (List.map_congr_left fun kg hkg => if_neg fun hkr => ?_).trans (List.map_id _)
          exact hnodup.1 (List.mem_map.mpr ⟨kg, hkg, hkr.trans hk.symm⟩)
        rw [if_pos hk, if_pos hk, hrest]
      · rw [if_neg hk, if_neg hk,
          ih hnodup.2 ((List.mem_cons.mp h).resolve_left (Ne.symm hk))]

/-- A group is what the rows of its key add up to. -/
theorem group_eq (rows : List Row) :
    group key init add rows = (leaders key rows).map fun l =>
      (key l, (rows.filter fun r => key r = key l).foldl add (init l)) := by
  induction rows using List.reverseRecOn with
  | nil => rfl
  | append_singleton rows r ih =>
      have hkeys : ((leaders key rows).map fun l =>
          (key l, (rows.filter fun r => key r = key l).foldl add (init l))).map Prod.fst =
            (leaders key rows).map key := List.map_map
      have hmem : key r ∈ (leaders key rows).map key ↔ key r ∈ rows.map key := by
        constructor
        · intro h
          obtain ⟨l, hl, hlr⟩ := List.mem_map.mp h
          exact List.mem_map.mpr ⟨l, mem_of_mem_leaders hl, hlr⟩
        · intro h
          obtain ⟨r', hr', hkey⟩ := List.mem_map.mp h
          obtain ⟨l, hl, hlr⟩ := exists_leader key hr'
          exact List.mem_map.mpr ⟨l, hl, hlr.trans hkey⟩
      rw [group, List.foldl_append, ← group, ih, List.foldl_cons, List.foldl_nil]
      by_cases hr : key r ∈ rows.map key
      · rw [tally_of_mem (hkeys ▸ nodup_map_leaders rows) (hkeys ▸ hmem.mpr hr),
          leaders_append_of_mem hr, List.map_map]
        refine List.map_congr_left fun l _ => ?_
        simp only [Function.comp_apply, List.filter_append, List.foldl_append]
        by_cases hlr : key l = key r
        · rw [if_pos hlr, List.filter_singleton, decide_eq_true hlr.symm]
          rfl
        · rw [if_neg hlr, List.filter_singleton, decide_eq_false (Ne.symm hlr)]
          rfl
      · rw [tally_of_not_mem (hkeys ▸ mt hmem.mp hr), leaders_append_of_not_mem hr,
          List.map_append, List.map_singleton]
        congr 1
        · refine List.map_congr_left fun l hl => ?_
          have hlr : key r ≠ key l := fun h =>
            hr (List.mem_map.mpr ⟨l, mem_of_mem_leaders hl, h.symm⟩)
          rw [List.filter_append, List.filter_singleton, decide_eq_false hlr, cond_false,
            List.append_nil]
        · have hnone : rows.filter (fun r' => key r' = key r) = [] := by
            refine List.filter_eq_nil_iff.mpr fun r' hr' h => ?_
            exact hr (List.mem_map.mpr ⟨r', hr', of_decide_eq_true h⟩)
          rw [List.filter_append, hnone, List.filter_singleton, decide_eq_true rfl]
          rfl

end Group

end Grouping
