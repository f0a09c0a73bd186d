import Mathlib.Data.List.Forall2
import Mathlib.Data.List.Nodup

/-!
Journals of a pass over a list.

A pass makes a turn of each item, and a turn enters at most one entry, under the
key of its item. If the keys are distinct, the entries under a key are those of
one turn, so that what a turn has changed can be taken back from the journal.
-/

namespace Journal

section Entries

variable {α τ β κ : Type} [DecidableEq κ]
variable {IsTurn : α → τ → Prop} {entry : τ → Option β} {key : α → κ} {keyOf : β → κ}

theorem filterMap_cons (entry : τ → Option β) (t : τ) (rest : List τ) :
    (t :: rest).filterMap entry = (entry t).toList ++ rest.filterMap entry := by
  cases h : entry t with
  | none => rw [List.filterMap_cons_none h]; rfl
  | some b => rw [List.filterMap_cons_some h]; rfl

/-- A turn has no entry under another key. -/
theorem filter_toList_eq_nil {o : Option β} {k k' : κ} (hkey : ∀ b ∈ o, keyOf b = k)
    (hne : k ≠ k') : (o.toList.filter fun b => keyOf b = k') = [] := by
  rw [List.filter_eq_nil_iff]
  intro b hb
  rw [decide_eq_true_eq, hkey b (Option.mem_toList.mp hb)]
  exact hne

theorem filter_toList_eq_self {o : Option β} {k : κ} (hkey : ∀ b ∈ o, keyOf b = k) :
    (o.toList.filter fun b => keyOf b = k) = o.toList :=
  List.filter_eq_self.mpr fun b hb => decide_eq_true (hkey b (Option.mem_toList.mp hb))

/-- There is no entry under the key of no item. -/
theorem filter_eq_nil {items : List α} {turns : List τ} (h : List.Forall₂ IsTurn items turns)
    (hkey : ∀ a t, IsTurn a t → ∀ b ∈ entry t, keyOf b = key a) {k : κ}
    (hk : k ∉ items.map key) : ((turns.filterMap entry).filter fun b => keyOf b = k) = [] := by
  induction h with
  | nil => rfl
  | cons hturn _ ih =>
      rw [List.map_cons, List.mem_cons, not_or] at hk
      rw [filterMap_cons, List.filter_append, ih hk.2,
        filter_toList_eq_nil (hkey _ _ hturn) (Ne.symm hk.1), List.append_nil]

/-- The entries under the key of an item are those of its turn. -/
theorem filter_entries {items : List α} {turns : List τ} (h : List.Forall₂ IsTurn items turns)
    (hkey : ∀ a t, IsTurn a t → ∀ b ∈ entry t, keyOf b = key a)
    (hnodup : (items.map key).Nodup) {a : α} {t : τ} (hmem : (a, t) ∈ items.zip turns) :
    ((turns.filterMap entry).filter fun b => keyOf b = key a) = (entry t).toList := by
  induction h with
  | nil => exact nomatch hmem
  | cons hturn hrest ih =>
      rw [List.map_cons, List.nodup_cons] at hnodup
      rw [filterMap_cons, List.filter_append]
      -- the first turn has the entry, or none under the key of a later item
      rcases List.mem_cons.mp hmem with heq | hmem
      · injection heq with ha ht
        subst ha ht
        rw [filter_toList_eq_self (hkey _ _ hturn), filter_eq_nil hrest hkey hnodup.1,
          List.append_nil]
      · have hother := List.mem_map_of_mem (f := key) (List.of_mem_zip hmem).1
        rw [filter_toList_eq_nil (hkey _ _ hturn) fun hsame => hnodup.1 (hsame ▸ hother),
          List.nil_append, ih hnodup.2 hmem]

/-- The only entry is the first one. -/
theorem find?_of_filter {entries : List β} {p : β → Bool} {o : Option β}
    (h : entries.filter p = o.toList) : entries.find? p = o := by
  rw [← List.head?_filter, h]
  cases o <;> rfl

end Entries

/-! ### The pass -/

section Pass

variable {ε σ α τ : Type} {f : σ → α → Except ε σ} {IsTurn : α → τ → Prop} {enter : σ → τ → σ}

/-- A loop makes a turn of each item and enters them one after the other. -/
theorem foldlM_turns
    (h : ∀ acc a acc', f acc a = .ok acc' → ∃ t, IsTurn a t ∧ acc' = enter acc t)
    {items : List α} {acc acc' : σ} (hrun : items.foldlM f acc = .ok acc') :
    ∃ turns, List.Forall₂ IsTurn items turns ∧ acc' = turns.foldl enter acc := by
  induction items generalizing acc with
  | nil =>
      injection hrun with hrun
      exact ⟨[], .nil, hrun.symm⟩
  | cons a rest ih =>
      rw [List.foldlM_cons] at hrun
      cases hturn : f acc a with
      | error e =>
          rw [hturn] at hrun
          exact nomatch hrun
      | ok next =>
          rw [hturn] at hrun
          obtain ⟨t, ht, rfl⟩ := h acc a next hturn
          obtain ⟨turns, hturns, hacc⟩ := ih hrun
          exact ⟨t :: turns, .cons ht hturns, hacc⟩

end Pass

end Journal
