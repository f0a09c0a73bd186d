import Mathlib.Data.List.Basic

/-!
What every router shares: the exceptions that end a request and Python's
insertion-ordered dictionaries.
-/

namespace DiepLab

/-- The `detail` of an `HTTPException`: a text, or the object with which a
handler reports what blocked an action. -/
inductive Detail where
  | text (message : String)
  | blocked (key : String) (blocks : List String) (hint : String)
  deriving DecidableEq, Repr

/-- What a request can end with instead of an answer. The governance core
treats an `HTTPException` differently from every other exception. -/
inductive Exc where
  | http (statusCode : ℕ) (detail : Detail)
  | kafka (message : String)
  | other (message : String)
  deriving DecidableEq, Repr

/-- `str(exc)`. -/
def Exc.text : Exc → String
  | .http _ (.text m) => m
  | .http _ (.blocked key _ _) => key
  | .kafka m => m
  | .other m => m

def Exc.isHttp : Exc → Bool
  | .http _ _ => true
  | _ => false

/-- Python's truth value of an optional string. -/
def given : Option String → Option String
  | some s => if s = "" then none else some s
  | none => none

theorem given_eq_some {o : Option String} {s : String} (h : given o = some s) :
    o = some s ∧ s ≠ "" := by
  cases o with
  | none => exact nomatch h
  | some t =>
      rw [given] at h
      split at h
      · exact nomatch h
      · injection h with h
        subst h
        exact ⟨rfl, ‹_›⟩

/-- The characters whose upper case is several letters or an ASCII letter that
`Char.toUpper` does not know of. -/
def upperSpecial : List (ℕ × String) :=
  [(0xDF, "SS"), (0x131, "I"), (0x17F, "S"), (0xFB00, "FF"), (0xFB01, "FI"), (0xFB02, "FL"),
    (0xFB03, "FFI"), (0xFB04, "FFL"), (0xFB05, "ST"), (0xFB06, "ST")]

/-- `str.upper()`, as far as ASCII words can be told from the result. -/
def upper (s : String) : String :=
  String.ofList (s.toList.flatMap fun c =>
    match upperSpecial.find? fun e => e.1 = c.toNat with
    | some e => e.2.toList
    | none => [c.toUpper])

/-- Where an entry stands in a list that has grown by one. -/
theorem split_append_singleton {α : Type} {l : List α} {e x : α} {pre post : List α}
    (h : l ++ [e] = pre ++ x :: post) :
    (∃ post', l = pre ++ x :: post' ∧ post = post' ++ [e]) ∨ (l = pre ∧ e = x ∧ post = []) := by
  rcases List.eq_nil_or_concat post with rfl | ⟨post', y, rfl⟩
  · obtain ⟨hpre, hx⟩ := List.append_inj' h rfl
    injection hx with hx
    exact Or.inr ⟨hpre, hx, rfl⟩
  · have hcut : l ++ [e] = (pre ++ x :: post') ++ [y] := by
      rw [h, List.concat_eq_append, List.append_assoc, List.cons_append]
    obtain ⟨hl, hy⟩ := List.append_inj' hcut rfl
    injection hy with hy
    exact Or.inl ⟨post', hl, by rw [hy, List.concat_eq_append]⟩

/-! ### Dictionaries -/

/-- A Python `dict` as its items in insertion order. -/
abbrev Dict (ν : Type) := List (String × ν)

namespace Dict

variable {ν : Type}

/-- `d[key] = value`: an existing key keeps its place. -/
def set (d : Dict ν) (key : String) (value : ν) : Dict ν :=
  match d with
  | [] => [(key, value)]
  | (k, v) :: rest => if k = key then (k, value) :: rest else (k, v) :: set rest key value

/-- `d.get(key)`. -/
def get? (d : Dict ν) (key : String) : Option ν :=
  match d with
  | [] => none
  | (k, v) :: rest => if k = key then some v else get? rest key

/-- `d.pop(key, None)`. -/
def pop (d : Dict ν) (key : String) : Dict ν := d.filter fun kv => kv.1 ≠ key

@[simp] theorem get?_nil (key : String) : get? ([] : Dict ν) key = none := rfl

theorem get?_cons (k key : String) (v : ν) (rest : Dict ν) :
    get? ((k, v) :: rest) key = if k = key then some v else get? rest key := rfl

theorem get?_set (d : Dict ν) (key : String) (value : ν) (k : String) :
    (d.set key value).get? k = if key = k then some value else d.get? k := by
  induction d with
  | nil => simp [set, get?]
  | cons kv rest ih =>
      obtain ⟨k', v'⟩ := kv
      by_cases hk : k' = key
      · subst hk
        by_cases hkk : k' = k <;> simp [set, get?, hkk]
      · by_cases hkk : k' = k
        · subst hkk
          simp [set, get?, hk, Ne.symm hk]
        · simp [set, get?, hk, hkk, ih]

theorem mem_set {d : Dict ν} {key : String} {value : ν} {entry : String × ν}
    (h : entry ∈ d.set key value) : entry ∈ d ∨ entry = (key, value) := by
  induction d with
  | nil => exact Or.inr (List.mem_singleton.mp h)
  | cons kv rest ih =>
      obtain ⟨k, v⟩ := kv
      rw [set] at h
      split at h
      · rename_i hk
        rcases List.mem_cons.mp h with rfl | h
        · exact Or.inr (by rw [hk])
        · exact Or.inl (List.mem_cons_of_mem _ h)
      · rcases List.mem_cons.mp h with rfl | h
        · exact Or.inl List.mem_cons_self
        · exact (ih h).imp_left (List.mem_cons_of_mem _)

/-- `d.update(items)`, item by item. -/
def update (d : Dict ν) (items : List (String × ν)) : Dict ν :=
  items.foldl (fun d kv => d.set kv.1 kv.2) d

theorem mem_update {d : Dict ν} {items : List (String × ν)} {kv : String × ν}
    (h : kv ∈ d.update items) : kv ∈ d ∨ kv ∈ items := by
  induction items generalizing d with
  | nil => exact Or.inl h
  | cons item rest ih =>
      rcases ih h with h | h
      · rcases mem_set h with h | rfl
        · exact Or.inl h
        · exact Or.inr List.mem_cons_self
      · exact Or.inr (List.mem_cons_of_mem _ h)

theorem get?_update_cases {d : Dict ν} {items : List (String × ν)} {k : String} {v : ν}
    (h : (d.update items).get? k = some v) : d.get? k = some v ∨ (k, v) ∈ items := by
  induction items generalizing d with
  | nil => exact Or.inl h
  | cons kv items ih =>
      rcases ih (d := d.set kv.1 kv.2) h with h | h
      · rw [get?_set] at h
        split at h
        · rename_i hk
          injection h with h
          exact Or.inr (hk ▸ h ▸ List.mem_cons_self)
        · exact Or.inl h
      · exact Or.inr (List.mem_cons_of_mem kv h)

theorem exists_get?_update {d : Dict ν} {items : List (String × ν)} {k : String}
    (h : (∃ v, d.get? k = some v) ∨ k ∈ items.map Prod.fst) :
    ∃ v, (d.update items).get? k = some v := by
  induction items generalizing d with
  | nil => exact h.resolve_right List.not_mem_nil
  | cons kv items ih =>
      refine ih (d := d.set kv.1 kv.2) ?_
      rw [get?_set]
      by_cases hk : kv.1 = k
      · exact Or.inl ⟨kv.2, if_pos hk⟩
      · rw [if_neg hk]
        exact h.imp_right fun h => (List.mem_cons.mp h).resolve_left (Ne.symm hk)

/-- Later values of a key win, and here they are all the same. -/
theorem get?_update_map (d : Dict ν) (keys : List String) (f : String → ν) (k : String) :
    (d.update (keys.map fun key => (key, f key))).get? k =
      if k ∈ keys then some (f k) else d.get? k := by
  induction keys generalizing d with
  | nil => rfl
  | cons key keys ih =>
      rw [List.map_cons, update, List.foldl_cons]
      refine (ih (d.set key (f key))).trans ?_
      rw [get?_set]
      by_cases hk : k ∈ keys
      · simp [hk]
      · by_cases hkk : key = k
        · simp [hkk]
        · simp [hk, hkk, Ne.symm hkk]

theorem get?_update_const (d : Dict ν) (keys : List String) (value : ν) (k : String) :
    (d.update (keys.map fun key => (key, value))).get? k =
      if k ∈ keys then some value else d.get? k :=
  get?_update_map d keys (fun _ => value) k

theorem map_fst_set (d : Dict ν) (key : String) (value : ν) :
    (d.set key value).map Prod.fst =
      if key ∈ d.map Prod.fst then d.map Prod.fst else d.map Prod.fst ++ [key] := by
  induction d with
  | nil => rfl
  | cons kv rest ih =>
      obtain ⟨k, v⟩ := kv
      by_cases hk : k = key
      · simp [set, hk]
      · rw [set, if_neg hk, List.map_cons, ih]
        by_cases hmem : key ∈ rest.map Prod.fst
        · simp [hmem]
        · simp [hmem, Ne.symm hk]

/-- Writing keys that are there moves none. -/
theorem map_fst_update {d : Dict ν} {items : List (String × ν)}
    (h : ∀ kv ∈ items, kv.1 ∈ d.map Prod.fst) :
    (d.update items).map Prod.fst = d.map Prod.fst := by
  induction items generalizing d with
  | nil => rfl
  | cons kv items ih =>
      rw [List.forall_mem_cons] at h
      have hset : (d.set kv.1 kv.2).map Prod.fst = d.map Prod.fst := by
        rw [map_fst_set, if_pos h.1]
      rw [update, List.foldl_cons, ← hset]
      refine ih (d := d.set kv.1 kv.2) fun kv' hkv' => ?_
      rw [hset]
      exact h.2 kv' hkv'

/-- A dictionary has one entry for a key. -/
theorem nodup_update {d : Dict ν} (hd : (d.map Prod.fst).Nodup) (items : List (String × ν)) :
    ((d.update items).map Prod.fst).Nodup := by
  induction items generalizing d with
  | nil => exact hd
  | cons kv items ih =>
      refine ih (d := d.set kv.1 kv.2) ?_
      rw [map_fst_set]
      split
      · exact hd
      · rename_i hmem
        refine List.nodup_append.mpr ⟨hd, List.nodup_cons.mpr ⟨List.not_mem_nil, .nil⟩, ?_⟩
        intro a ha b hb heq
        rw [heq, List.mem_singleton.mp hb] at ha
        exact hmem ha

theorem mem_of_get? {d : Dict ν} {key : String} {value : ν} (h : d.get? key = some value) :
    (key, value) ∈ d := by
  induction d with
  | nil => exact nomatch h
  | cons kv rest ih =>
      obtain ⟨k, v⟩ := kv
      rw [get?_cons] at h
      split at h
      · subst key
        rw [Option.some.inj h]
        exact List.mem_cons_self
      · exact List.mem_cons_of_mem _ (ih h)

/-- An item is found by its key when no other has the key. -/
theorem get?_of_mem {d : Dict ν} (hnodup : (d.map Prod.fst).Nodup) {key : String} {value : ν}
    (h : (key, value) ∈ d) : d.get? key = some value := by
  induction d with
  | nil => exact absurd h List.not_mem_nil
  | cons kv rest ih =>
      obtain ⟨k, v⟩ := kv
      rw [List.map_cons, List.nodup_cons] at hnodup
      rw [get?_cons]
      rcases List.mem_cons.mp h with heq | h
      · injection heq with hk hv
        rw [if_pos hk.symm, hv]
      · have hne : k ≠ key := fun hk => hnodup.1 (List.mem_map.mpr ⟨_, h, hk.symm⟩)
        rw [if_neg hne]
        exact ih hnodup.2 h

theorem get?_eq_none {d : Dict ν} {key : String} (h : key ∉ d.map Prod.fst) :
    d.get? key = none := by
  induction d with
  | nil => rfl
  | cons kv rest ih =>
      obtain ⟨k, v⟩ := kv
      rw [List.map_cons, List.mem_cons, not_or] at h
      rw [get?_cons, if_neg (Ne.symm h.1), ih h.2]

theorem get?_ne_none {d : Dict ν} {key : String} (h : key ∈ d.map Prod.fst) :
    d.get? key ≠ none := by
  induction d with
  | nil => exact absurd h List.not_mem_nil
  | cons kv rest ih =>
      rw [get?_cons]
      split
      · exact nofun
      · rename_i hne
        exact ih ((List.mem_cons.mp h).resolve_left (Ne.symm hne))

theorem get?_append (d d' : Dict ν) (key : String) :
    get? (d ++ d') key = (d.get? key).or (d'.get? key) := by
  induction d with
  | nil => rfl
  | cons kv rest ih =>
      rw [List.cons_append, get?_cons, get?_cons, ih]
      split <;> rfl

/-- A filter of the keys. -/
theorem get?_map {μ : Type} (g : String → ν → μ) (d : Dict ν) (key : String) :
    get? (d.map fun kv => (kv.1, g kv.1 kv.2)) key = (d.get? key).map (g key) := by
  induction d with
  | nil => rfl
  | cons kv rest ih =>
      obtain ⟨k, v⟩ := kv
      rw [List.map_cons, get?_cons, get?_cons, ih]
      by_cases hk : k = key
      · rw [if_pos hk, if_pos hk, hk, Option.map_some]
      · rw [if_neg hk, if_neg hk]

theorem get?_filter (p : String → Bool) (d : Dict ν) (key : String) :
    get? (d.filter fun kv => p kv.1) key = if p key = true then d.get? key else none := by
  induction d with
  | nil => simp
  | cons kv rest ih =>
      obtain ⟨k, v⟩ := kv
      rw [List.filter_cons, get?_cons]
      by_cases hk : p k = true
      · rw [if_pos hk, get?_cons, ih]
        split
        · rename_i heq
          rw [← heq, if_pos hk]
        · rfl
      · rw [if_neg hk, ih]
        by_cases heq : k = key
        · rw [← heq, if_neg hk, if_neg hk]
        · rw [if_neg heq]

theorem get?_pop (d : Dict ν) (key k : String) :
    (d.pop key).get? k = if key = k then none else d.get? k := by
  refine (get?_filter (fun k => decide (k ≠ key)) d k).trans ?_
  by_cases h : key = k
  · rw [if_pos h, if_neg (by simp [h])]
  · rw [if_neg h, if_pos (decide_eq_true (Ne.symm h))]

/-- What an update leaves of a key depends on the key alone. -/
theorem get?_update_congr {d d' : Dict ν} {k : String} (h : d.get? k = d'.get? k)
    (items : List (String × ν)) : (d.update items).get? k = (d'.update items).get? k := by
  induction items generalizing d d' with
  | nil => exact h
  | cons kv items ih =>
      have hset : (d.set kv.1 kv.2).get? k = (d'.set kv.1 kv.2).get? k := by
        rw [get?_set, get?_set, h]
      exact ih hset

/-- An update with the items of a dictionary. -/
theorem get?_update (d : Dict ν) {items : Dict ν} (hnodup : (items.map Prod.fst).Nodup)
    (k : String) : (d.update items).get? k = (items.get? k).or (d.get? k) := by
  induction items generalizing d with
  | nil => rfl
  | cons kv items ih =>
      obtain ⟨key, value⟩ := kv
      rw [List.map_cons, List.nodup_cons] at hnodup
      rw [update, List.foldl_cons]
      refine (ih (d.set key value) hnodup.2).trans ?_
      rw [get?_set, get?_cons]
      by_cases hk : key = k
      · subst hk
        rw [get?_eq_none hnodup.1, if_pos rfl, if_pos rfl]
        rfl
      · rw [if_neg hk, if_neg hk]

/-- The items that are left when some values are dropped and the others changed. -/
theorem get?_filterMap {μ : Type} (g : ν → Option μ) {d : Dict ν}
    (hnodup : (d.map Prod.fst).Nodup) (k : String) :
    get? (d.filterMap fun kv => (g kv.2).map fun v => (kv.1, v)) k = (d.get? k).bind g := by
  induction d with
  | nil => rfl
  | cons kv rest ih =>
      obtain ⟨key, value⟩ := kv
      rw [List.map_cons, List.nodup_cons] at hnodup
      have hrest := ih hnodup.2
      rw [get?_cons, List.filterMap_cons]
      by_cases hk : key = k
      · subst hk
        rw [if_pos rfl]
        cases hg : g value with
        | none =>
            rw [get?_eq_none hnodup.1] at hrest
            simp only [hg, Option.map_none, Option.bind_some]
            exact hrest
        | some v => simp [hg, get?_cons]
      · rw [if_neg hk]
        cases hg : g value with
        | none => simpa only [hg, Option.map_none] using hrest
        | some v =>
            simp only [Option.map_some]
            rw [get?_cons, if_neg hk, hrest]

theorem nodup_filterMap {μ : Type} (g : ν → Option μ) {d : Dict ν}
    (hnodup : (d.map Prod.fst).Nodup) :
    ((d.filterMap fun kv => (g kv.2).map fun v => (kv.1, v)).map Prod.fst).Nodup := by
  refine List.Nodup.sublist ?_ hnodup
  induction d with
  | nil => exact .slnil
  | cons kv rest ih =>
      have hrest := ih (List.nodup_cons.mp hnodup).2
      rw [List.filterMap_cons]
      cases hg : g kv.2 with
      | none =>
          simp only [Option.map_none]
          exact hrest.cons kv.1
      | some v =>
          simp only [Option.map_some]
          exact hrest.cons_cons kv.1

/-- Two dictionaries are equal when their keys come in one order and have the
same values. -/
theorem eq_of_get? {d d' : Dict ν} (hkeys : d.map Prod.fst = d'.map Prod.fst)
    (hnodup : (d.map Prod.fst).Nodup) (h : ∀ k, d.get? k = d'.get? k) : d = d' := by
  induction d generalizing d' with
  | nil => exact (List.map_eq_nil_iff.mp hkeys.symm).symm
  | cons kv rest ih =>
      obtain ⟨k, v⟩ := kv
      cases d' with
      | nil => exact nomatch hkeys
      | cons kv' rest' =>
          obtain ⟨k', v'⟩ := kv'
          obtain ⟨hk, hrest⟩ := List.cons_eq_cons.mp hkeys
          have hkk : k = k' := hk
          subst hkk
          rw [List.map_cons, List.nodup_cons] at hnodup
          have hfirst := h k
          rw [get?_cons, get?_cons, if_pos rfl, if_pos rfl] at hfirst
          have htail : ∀ j, get? rest j = get? rest' j := by
            intro j
            by_cases hj : k = j
            · subst hj
              have hnot' : k ∉ rest'.map Prod.fst := hrest ▸ hnodup.1
              rw [get?_eq_none hnodup.1, get?_eq_none hnot']
            · have hj' := h j
              rwa [get?_cons, get?_cons, if_neg hj, if_neg hj] at hj'
          rw [Option.some.inj hfirst, ih hrest hnodup.2 htail]

end Dict

end DiepLab
