import Mathlib.Data.List.Nodup

/-!
Tables with a unique key.

A row is addressed by its key, an insert meets a conflict or adds a row, and an
update of one row leaves the keys as they are. That the key is unique is part of
the table.
-/

/-- The rows of a table, oldest first; `key` names the column that is unique. -/
structure Table {Row Key : Type} (key : Row → Key) where
  rows : List Row := []
  unique : (rows.map key).Nodup := by decide

namespace Table

variable {Row Key : Type} [DecidableEq Key] {key : Row → Key}

/-- `SELECT ... WHERE key = k`. -/
def row? (table : Table key) (k : Key) : Option Row := table.rows.find? fun row => key row = k

/-- `INSERT`, or none on a conflict. -/
def insert (table : Table key) (row : Row) : Option (Table key) :=
  if h : key row ∈ table.rows.map key then none
  else some {
    rows := table.rows ++ [row]
    unique := by
      rw [List.map_append]
      exact List.nodup_append.mpr ⟨table.unique, List.nodup_singleton _, fun a ha b hb hab =>
        h ((List.mem_singleton.mp hb).symm.trans hab.symm ▸ ha)⟩ }

/-- `UPDATE ... WHERE key = k`, with an update that leaves the key alone. -/
def update (table : Table key) (k : Key) (u : Row → Row) (hu : ∀ row, key (u row) = key row) :
    Table key where
  rows := table.rows.map fun row => if key row = k then u row else row
  unique := by
    rw [List.map_map]
    refine (congrArg List.Nodup (List.map_congr_left fun row _ => ?_)).mpr table.unique
    simp only [Function.comp]
    split
    · exact hu row
    · rfl

variable {table table' : Table key} {row : Row} {k : Key}

theorem key_of_row? (h : table.row? k = some row) : key row = k := by
  simpa using List.find?_some h

theorem row?_update (table : Table key) (k j : Key) (u : Row → Row)
    (hu : ∀ row, key (u row) = key row) :
    (table.update k u hu).row? j = if k = j then (table.row? j).map u else table.row? j := by
  have hsame : ((fun row => decide (key row = j)) ∘ fun row => if key row = k then u row else row) =
      fun row => decide (key row = j) := by
    funext row
    simp only [Function.comp]
    split
    · rw [hu]
    · rfl
  rw [row?, update, List.find?_map, hsame]
  change (table.row? j).map _ = _
  cases hrow : table.row? j with
  | none => simp
  | some row =>
      have hkey : key row = j := key_of_row? hrow
      by_cases hkj : k = j
      · simp [hkey, hkj]
      · simp [hkey, hkj, Ne.symm hkj]

theorem insert_eq_some (h : table.insert row = some table') :
    key row ∉ table.rows.map key ∧ table'.rows = table.rows ++ [row] := by
  unfold insert at h
  split at h
  · exact nomatch h
  · injection h with h
    exact ⟨‹_›, h ▸ rfl⟩

/-- After an insert a row is one that was there, or the new one under its key. -/
theorem row?_insert (h : table.insert row = some table') (j : Key) :
    table'.row? j = (table.row? j).or (if key row = j then some row else none) := by
  rw [row?, (insert_eq_some h).2, List.find?_append]
  congr 1
  by_cases hj : key row = j <;> simp [hj]

/-- A row that is there is found as before. -/
theorem row?_insert_of_some (h : table.insert row = some table') {j : Key} {found : Row}
    (hfound : table.row? j = some found) : table'.row? j = some found := by
  rw [row?_insert h, hfound, Option.some_or]

/-! ### Upserts -/

section Upsert

variable {merge : Row → Row → Row} (hmerge : ∀ new old, key (merge new old) = key old)

/-- `INSERT ... ON CONFLICT (key) DO UPDATE`; `merge` is what the update makes of
the new row and the old one. -/
def upsert (table : Table key) (row : Row) : Table key :=
  match table.insert row with
  | some table' => table'
  | none => table.update (key row) (merge row) (hmerge row)

/-- The upserts of a transaction, one after the other. -/
def upserts (table : Table key) (rows : List Row) : Table key := rows.foldl (upsert hmerge) table

theorem row?_eq_none {table : Table key} {k : Key} :
    table.row? k = none ↔ k ∉ table.rows.map key := by
  simp [row?, List.find?_eq_none]

theorem row?_upsert (table : Table key) (row : Row) (j : Key) :
    (table.upsert hmerge row).row? j =
      if key row = j then some (((table.row? j).map (merge row)).getD row) else table.row? j := by
  unfold upsert
  cases hinsert : table.insert row with
  | some table' =>
      dsimp only
      rw [row?_insert hinsert]
      by_cases hj : key row = j
      · have hnone : table.row? j = none := row?_eq_none.mpr (hj ▸ (insert_eq_some hinsert).1)
        rw [if_pos hj, if_pos hj, hnone, Option.none_or]
        rfl
      · rw [if_neg hj, if_neg hj, Option.or_none]
  | none =>
      dsimp only
      rw [row?_update]
      by_cases hj : key row = j
      · have hmem : j ∈ table.rows.map key := by
          by_contra hnot
          rw [insert, dif_neg (hj ▸ hnot)] at hinsert
          exact nomatch hinsert
        obtain ⟨found, hfound⟩ := Option.ne_none_iff_exists'.mp fun h => row?_eq_none.mp h hmem
        rw [if_pos hj, if_pos hj, hfound]
        rfl
      · rw [if_neg hj, if_neg hj]

theorem upserts_cons (table : Table key) (row : Row) (rows : List Row) :
    table.upserts hmerge (row :: rows) = (table.upsert hmerge row).upserts hmerge rows := rfl

/-- A key that is not written. -/
theorem row?_upserts_of_notMem {rows : List Row} {j : Key} (h : j ∉ rows.map key)
    (table : Table key) : (table.upserts hmerge rows).row? j = table.row? j := by
  induction rows generalizing table with
  | nil => rfl
  | cons row rows ih =>
      rw [List.map_cons, List.mem_cons, not_or] at h
      rw [upserts_cons, ih h.2, row?_upsert, if_neg (Ne.symm h.1)]

/-- Keys that are written once. -/
theorem row?_upserts_of_mem {rows : List Row} (hnodup : (rows.map key).Nodup) {row : Row}
    (h : row ∈ rows) (table : Table key) :
    (table.upserts hmerge rows).row? (key row) =
      some (((table.row? (key row)).map (merge row)).getD row) := by
  induction rows generalizing table with
  | nil => exact nomatch h
  | cons first rows ih =>
      rw [List.map_cons, List.nodup_cons] at hnodup
      rw [upserts_cons]
      rcases List.mem_cons.mp h with rfl | h
      · rw [row?_upserts_of_notMem hmerge hnodup.1, row?_upsert, if_pos rfl]
      · have hne : key first ≠ key row := fun heq => hnodup.1 (heq ▸ List.mem_map_of_mem h)
        rw [ih hnodup.2 h, row?_upsert, if_neg hne]

/-- What the update takes from the new row is that of the last row for the key. -/
theorem map_row?_upserts_new {β : Type} {view : Row → β}
    (hview : ∀ new old, view (merge new old) = view new) (rows : List Row) (table : Table key)
    (j : Key) :
    ((table.upserts hmerge rows).row? j).map view =
      ((rows.reverse.find? fun row => key row = j).map view).or ((table.row? j).map view) := by
  induction rows generalizing table with
  | nil => rfl
  | cons row rows ih =>
      rw [upserts_cons, ih, row?_upsert, List.reverse_cons, List.find?_append]
      by_cases hj : key row = j
      · have hrow : [row].find? (fun row => decide (key row = j)) = some row := by simp [hj]
        have hsame : (some (((table.row? j).map (merge row)).getD row)).map view =
            some (view row) := by
          cases table.row? j with
          | none => rfl
          | some old => exact congrArg some (hview row old)
        rw [if_pos hj, hsame, hrow]
        cases rows.reverse.find? fun row => decide (key row = j) <;> rfl
      · have hrow : [row].find? (fun row => decide (key row = j)) = none := by simp [hj]
        rw [if_neg hj, hrow, Option.or_none]

/-- What the update leaves is that of the old row, or of the first one inserted. -/
theorem map_row?_upserts_old {β : Type} {view : Row → β}
    (hview : ∀ new old, view (merge new old) = view old) (rows : List Row) (table : Table key)
    (j : Key) :
    ((table.upserts hmerge rows).row? j).map view =
      ((table.row? j).map view).or ((rows.find? fun row => key row = j).map view) := by
  induction rows generalizing table with
  | nil => exact (Option.or_none ..).symm
  | cons row rows ih =>
      rw [upserts_cons, ih, row?_upsert, List.find?_cons]
      by_cases hj : key row = j
      · rw [if_pos hj, decide_eq_true hj]
        cases table.row? j with
        | none => rfl
        | some old => exact congrArg some (hview row old)
      · rw [if_neg hj, decide_eq_false hj]

end Upsert

end Table
