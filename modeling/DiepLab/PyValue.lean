import DiepLab.Common
import DiepLab.Library.Double

/-!
What `json.loads` makes of a text, with Python's numbers.

An integer may be of any size, a float may be infinite or no number. A value
that can be hashed stands in a set or for a key of a dictionary as its `Key`:
`True`, `1` and `1.0` are one key. The decoder makes every `NaN` the same object,
so that `NaN` is one key too.
-/

namespace DiepLab

inductive Number where
  | int (n : ℤ)
  | float (x : Double)
  deriving DecidableEq, Repr

namespace Number

/-- `math.isfinite`, or none where it raises `OverflowError`. -/
def isFinite? : Number → Option Bool
  | .int n => (Double.ofInt? n).map Double.isFinite
  | .float x => some x.isFinite

/-- `float(x)`, or none where it raises `OverflowError`. -/
def toDouble? : Number → Option Double
  | .int n => Double.ofInt? n
  | .float x => some x

/-- Neither an infinity nor `NaN`. -/
def finite : Number → Bool
  | .int _ => true
  | .float x => x.isFinite

/-- An integer that no float is near to. -/
def huge : Number → Bool
  | .int n => Double.limit ≤ |(n : ℚ)|
  | .float _ => false

theorem toDouble?_eq_none {x : Number} : x.toDouble? = none ↔ x.huge = true := by
  cases x with
  | int n => simpa [toDouble?, huge] using Double.ofInt?_eq_none
  | float x => exact iff_of_false nofun nofun

theorem isFinite?_eq_none {x : Number} : x.isFinite? = none ↔ x.huge = true := by
  cases x with
  | int n => simpa [isFinite?, huge] using Double.ofInt?_eq_none
  | float x => exact iff_of_false nofun nofun

/-- What is tested without an error is found finite exactly if it is. -/
theorem isFinite?_eq {x : Number} (h : x.huge = false) : x.isFinite? = some x.finite := by
  cases x with
  | int n =>
      cases hn : Double.ofInt? n with
      | none => exact absurd (isFinite?_eq_none.mp (by rw [isFinite?, hn]; rfl)) (by simp [h])
      | some y => simp [isFinite?, hn, finite, Double.isFinite_of_ofInt? hn]
  | float x => rfl

theorem finite_of_isFinite? {x : Number} {finite : Bool} (h : x.isFinite? = some finite) :
    x.finite = finite := by
  have hhuge : x.huge = false := by
    rw [← Bool.not_eq_true, ← isFinite?_eq_none, h]
    exact nofun
  rw [isFinite?_eq hhuge] at h
  exact Option.some.inj h

end Number

/-! ### Exceptions -/

section Except

variable {ε α β : Type}

theorem ok_bind (a : α) (f : α → Except ε β) : (Except.ok a >>= f) = f a := rfl

theorem bind_eq_ok {x : Except ε α} {f : α → Except ε β} {b : β} :
    x >>= f = .ok b ↔ ∃ a, x = .ok a ∧ f a = .ok b := by
  cases x with
  | ok a => exact ⟨fun h => ⟨a, rfl, h⟩, fun ⟨_, rfl, h⟩ => h⟩
  | error e => exact iff_of_false nofun fun ⟨_, h, _⟩ => nomatch h

/-- When what comes second accepts the same whatever the first part returns. -/
theorem exists_bind {x : Except ε α} {f : α → Except ε β} {P : Prop}
    (h : ∀ a, x = .ok a → ((∃ b, f a = .ok b) ↔ P)) :
    (∃ b, x >>= f = .ok b) ↔ (∃ a, x = .ok a) ∧ P := by
  cases x with
  | ok a => exact (h a rfl).trans ⟨fun hP => ⟨⟨a, rfl⟩, hP⟩, And.right⟩
  | error e => exact iff_of_false (fun ⟨_, hb⟩ => nomatch hb) fun ⟨⟨_, ha⟩, _⟩ => nomatch ha

/-- A loop whose turns do not depend on what has gathered succeeds if they do. -/
theorem foldlM_isOk {σ : Type} {f : σ → α → Except ε σ} {P : α → Prop}
    (h : ∀ acc a, (∃ acc', f acc a = .ok acc') ↔ P a) (items : List α) (acc : σ) :
    (∃ acc', items.foldlM f acc = .ok acc') ↔ ∀ a ∈ items, P a := by
  induction items generalizing acc with
  | nil => exact iff_of_true ⟨acc, rfl⟩ nofun
  | cons a rest ih =>
      rw [List.foldlM_cons, List.forall_mem_cons, ← h acc a]
      exact exists_bind fun acc' _ => ih acc'

/-- What a turn keeps, a loop keeps. -/
theorem foldlM_kept {σ : Type} {f : σ → α → Except ε σ} {I : σ → Prop}
    (h : ∀ acc a acc', f acc a = .ok acc' → I acc → I acc') {items : List α} {acc acc' : σ}
    (hrun : items.foldlM f acc = .ok acc') (hI : I acc) : I acc' := by
  induction items generalizing acc with
  | nil =>
      injection hrun with hrun
      exact hrun ▸ hI
  | cons a rest ih =>
      rw [List.foldlM_cons] at hrun
      obtain ⟨next, hturn, hrun⟩ := bind_eq_ok.mp hrun
      exact ih hrun (h acc a next hturn hI)

/-- A loop that makes something of every item and puts it away. -/
theorem mapM_of_foldlM {σ : Type} {f : σ → α → Except ε σ} {make : α → Except ε β} {put : σ → β → σ}
    (h : ∀ acc a acc', f acc a = .ok acc' → ∃ b, make a = .ok b ∧ acc' = put acc b)
    {items : List α} {acc acc' : σ} (hrun : items.foldlM f acc = .ok acc') :
    ∃ made, items.mapM make = .ok made ∧ acc' = made.foldl put acc := by
  induction items generalizing acc with
  | nil =>
      injection hrun with hrun
      exact ⟨[], rfl, hrun.symm⟩
  | cons a rest ih =>
      rw [List.foldlM_cons] at hrun
      obtain ⟨next, hturn, hrun⟩ := bind_eq_ok.mp hrun
      obtain ⟨b, hb, rfl⟩ := h acc a next hturn
      obtain ⟨made, hmade, rfl⟩ := ih hrun
      refine ⟨b :: made, ?_, rfl⟩
      rw [List.mapM_cons, hb, ok_bind, hmade]
      rfl

/-- What is made of every item. -/
theorem forall_mem_of_mapM {f : α → Except ε β} {P : β → Prop} {Q : α → Prop}
    (hPQ : ∀ a b, f a = .ok b → (P b ↔ Q a)) {items : List α} {made : List β}
    (h : items.mapM f = .ok made) : (∀ b ∈ made, P b) ↔ ∀ a ∈ items, Q a := by
  induction items generalizing made with
  | nil =>
      injection h with h
      exact h ▸ iff_of_true nofun nofun
  | cons a rest ih =>
      rw [List.mapM_cons] at h
      obtain ⟨b, hb, h⟩ := bind_eq_ok.mp h
      obtain ⟨rest', hrest, h⟩ := bind_eq_ok.mp h
      injection h with h
      rw [← h, List.forall_mem_cons, List.forall_mem_cons, hPQ a b hb, ih hrest]

theorem mem_of_mapM {f : α → Except ε β} {items : List α} {made : List β}
    (h : items.mapM f = .ok made) (b : β) : b ∈ made ↔ ∃ a ∈ items, f a = .ok b := by
  have hnone : (∀ b' ∈ made, b' ≠ b) ↔ ∀ a ∈ items, f a ≠ .ok b := by
    refine forall_mem_of_mapM (fun a b' ha => ?_) h
    rw [ha, ne_eq, ne_eq, Except.ok.injEq]
  constructor
  · intro hb
    by_contra hall
    exact hnone.mpr (fun a ha hfa => hall ⟨a, ha, hfa⟩) b hb rfl
  · rintro ⟨a, ha, hfa⟩
    by_contra hb
    exact hnone.mp (fun b' hb' heq => hb (heq ▸ hb')) a ha hfa

/-- What is read off every item before and after. -/
theorem map_of_mapM {γ : Type} {f : α → Except ε β} {g : β → γ} {k : α → γ} {items : List α}
    (hgk : ∀ a ∈ items, ∀ b, f a = .ok b → g b = k a) {made : List β}
    (h : items.mapM f = .ok made) : made.map g = items.map k := by
  induction items generalizing made with
  | nil =>
      injection h with h
      rw [← h]
      rfl
  | cons a rest ih =>
      rw [List.mapM_cons] at h
      obtain ⟨b, hb, h⟩ := bind_eq_ok.mp h
      obtain ⟨rest', hrest, h⟩ := bind_eq_ok.mp h
      injection h with h
      rw [← h, List.map_cons, List.map_cons, hgk a List.mem_cons_self b hb,
        ih (fun a ha => hgk a (List.mem_cons_of_mem _ ha)) hrest]

/-- A loop over items that are made each by itself succeeds if they all are. -/
theorem mapM_isOk {f : α → Except ε β} {items : List α} :
    (∃ made, items.mapM f = .ok made) ↔ ∀ a ∈ items, ∃ b, f a = .ok b := by
  induction items with
  | nil => exact iff_of_true ⟨[], rfl⟩ nofun
  | cons a rest ih =>
      rw [List.mapM_cons, List.forall_mem_cons, ← ih]
      refine exists_bind fun b _ => (exists_bind fun made _ => ?_).trans (and_iff_left trivial)
      exact iff_of_true ⟨_, rfl⟩ trivial

end Except

/-- What an operation on values raises. -/
inductive PyError where
  | typeError
  | overflowError
  deriving DecidableEq, Repr

inductive PyValue where
  | none
  | bool (b : Bool)
  | num (x : Number)
  | str (s : String)
  | list (items : List PyValue)
  | dict (items : List (String × PyValue))
  deriving Repr

/-- What a value that can be hashed is in a set or in a dictionary. -/
inductive Key where
  | none
  | num (q : ℚ)
  | inf (negative : Bool)
  | nan
  | str (s : String)
  deriving DecidableEq, Repr

namespace PyValue

instance : Coe String PyValue := ⟨.str⟩

/-- Python's truth value; a `NaN` is true. -/
def truthy : PyValue → Bool
  | .none => false
  | .bool b => b
  | .num (.int n) => n ≠ 0
  | .num (.float x) => x ≠ .finite 0
  | .str s => s ≠ ""
  | .list items => ! items.isEmpty
  | .dict items => ! items.isEmpty

/-- The key that the value is, or none where hashing raises `TypeError`. -/
def key? : PyValue → Option Key
  | .none => some .none
  | .bool b => some (.num (if b then 1 else 0))
  | .num (.int n) => some (.num n)
  | .num (.float (.finite q)) => some (.num q)
  | .num (.float (.inf negative)) => some (.inf negative)
  | .num (.float .nan) => some .nan
  | .str s => some (.str s)
  | .list _ => Option.none
  | .dict _ => Option.none

@[simp] theorem key?_str (s : String) : key? (.str s) = some (.str s) := rfl

theorem eq_str_of_key? {v : PyValue} {s : String} (h : v.key? = some (.str s)) : v = .str s := by
  cases v with
  | num x =>
      cases x with
      | int n => simp [key?] at h
      | float x => cases x <;> simp [key?] at h
  | str t => simpa [key?] using h
  | _ => simp [key?] at h

mutual

/-- No number in the value is an infinity or `NaN`. -/
def allFinite : PyValue → Bool
  | .num x => x.finite
  | .list items => allFiniteItems items
  | .dict items => allFiniteFields items
  | _ => true

def allFiniteItems : List PyValue → Bool
  | [] => true
  | v :: rest => v.allFinite && allFiniteItems rest

def allFiniteFields : List (String × PyValue) → Bool
  | [] => true
  | (_, v) :: rest => v.allFinite && allFiniteFields rest

end

@[simp] theorem allFinite_str (s : String) : allFinite (.str s) = true := by
  rw [allFinite]
  all_goals nofun

/-- An infinity, a `NaN` and what contains one are true. -/
theorem allFinite_of_falsy {v : PyValue} (h : v.truthy = false) : v.allFinite = true := by
  cases v with
  | num x =>
      cases x with
      | int n => rfl
      | float x =>
          cases x with
          | finite q => rfl
          | inf negative => simp [truthy] at h
          | nan => simp [truthy] at h
  | list items =>
      cases items with
      | nil => rfl
      | cons v rest => exact nomatch h
  | dict items =>
      cases items with
      | nil => rfl
      | cons kv rest => exact nomatch h
  | _ => rfl

@[simp] theorem allFinite_num (x : Number) : allFinite (.num x) = x.finite := by
  rw [allFinite]

end PyValue

/-- The entry of a table of texts under a value. -/
def lookup? {ν : Type} (table : Dict ν) : PyValue → Option ν
  | .str name => table.get? name
  | _ => none

end DiepLab
