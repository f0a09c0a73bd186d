import DiepLab.PyValue

/-!
JSON Schema, as far as the contracts use it.

A schema is the list of its keywords, and a value is valid if each keyword holds
of it. A keyword that is about one type holds of the values of the others.
`format` is an annotation and checks nothing.
-/

namespace DiepLab

inductive JsonType where
  | string | null | integer | number | boolean | array | object
  deriving DecidableEq, Repr

/-- A float is an integer if its fraction is zero. -/
def JsonType.admits : JsonType → PyValue → Bool
  | .string, .str _ => true
  | .null, .none => true
  | .integer, .num (.int _) => true
  | .integer, .num (.float (.finite q)) => q.den = 1
  | .number, .num _ => true
  | .boolean, .bool _ => true
  | .array, .list _ => true
  | .object, .dict _ => true
  | _, _ => false

/-- `properties` is that of an object without further properties. -/
inductive Keyword where
  | type (types : List JsonType)
  | minLength (n : ℕ)
  | pattern (search : String → Bool)
  | enum (values : List String)
  | minimum (n : ℤ)
  | minItems (n : ℕ)
  | items (schema : List Keyword)
  | required (names : List String)
  | properties (schemas : List (String × List Keyword))

abbrev Schema := List Keyword

/-- `minimum` of a number. -/
def Number.atLeast (n : ℤ) : Number → Bool
  | .int m => n ≤ m
  | .float x => Double.le (.finite n) x

mutual

def validates : List Keyword → PyValue → Bool
  | [], _ => true
  | keyword :: rest, v => keyword.holds v && validates rest v

def Keyword.holds : Keyword → PyValue → Bool
  | .type types, v => types.any fun t => t.admits v
  | .minLength n, .str s => n ≤ s.length
  | .pattern search, .str s => search s
  | .enum values, v => values.any fun value => v.key? = some (.str value)
  | .minimum n, .num x => x.atLeast n
  | .minItems n, .list items => n ≤ items.length
  | .items schema, .list items => items.all fun v => validates schema v
  | .required names, .dict d => names.all fun name => name ∈ d.map Prod.fst
  | .properties schemas, .dict d =>
      (d.map Prod.fst).all (fun name => name ∈ schemas.map Prod.fst) &&
        validatesProperties schemas d
  | _, _ => true

/-- Each property that the object has is valid. -/
def validatesProperties : List (String × List Keyword) → Dict PyValue → Bool
  | [], _ => true
  | (name, schema) :: rest, d =>
      (match Dict.get? d name with
        | none => true
        | some v => validates schema v) && validatesProperties rest d

end

section Equations

variable (v : PyValue)

@[simp] theorem admits_string :
    JsonType.string.admits v = match v with | .str _ => true | _ => false := by
  cases v <;> rfl

@[simp] theorem admits_null :
    JsonType.null.admits v = match v with | .none => true | _ => false := by
  cases v <;> rfl

@[simp] theorem admits_integer :
    JsonType.integer.admits v =
      match v with
      | .num (.int _) => true
      | .num (.float (.finite q)) => decide (q.den = 1)
      | _ => false := by
  cases v with
  | num x =>
      cases x with
      | int n => rfl
      | float x => cases x <;> rfl
  | _ => rfl

@[simp] theorem admits_number :
    JsonType.number.admits v = match v with | .num _ => true | _ => false := by
  cases v <;> rfl

@[simp] theorem admits_boolean :
    JsonType.boolean.admits v = match v with | .bool _ => true | _ => false := by
  cases v <;> rfl

@[simp] theorem admits_array :
    JsonType.array.admits v = match v with | .list _ => true | _ => false := by
  cases v <;> rfl

@[simp] theorem admits_object :
    JsonType.object.admits v = match v with | .dict _ => true | _ => false := by
  cases v <;> rfl

@[simp] theorem validates_nil : validates [] v = true := rfl

@[simp] theorem validates_cons (keyword : Keyword) (rest : Schema) :
    validates (keyword :: rest) v = (keyword.holds v && validates rest v) := rfl

@[simp] theorem holds_type (types : List JsonType) :
    (Keyword.type types).holds v = types.any fun t => t.admits v := by
  cases v <;> rfl

@[simp] theorem holds_minLength (n : ℕ) (s : String) :
    (Keyword.minLength n).holds (.str s) = decide (n ≤ s.length) := rfl

@[simp] theorem holds_pattern (search : String → Bool) (s : String) :
    (Keyword.pattern search).holds (.str s) = search s := rfl

@[simp] theorem holds_enum (values : List String) :
    (Keyword.enum values).holds v = values.any fun value => v.key? = some (.str value) := by
  cases v <;> rfl

@[simp] theorem holds_minimum (n : ℤ) (x : Number) :
    (Keyword.minimum n).holds (.num x) = x.atLeast n := rfl

@[simp] theorem holds_minItems (n : ℕ) (items : List PyValue) :
    (Keyword.minItems n).holds (.list items) = decide (n ≤ items.length) := rfl

@[simp] theorem holds_items (schema : Schema) (items : List PyValue) :
    (Keyword.items schema).holds (.list items) = items.all fun v => validates schema v := rfl

@[simp] theorem holds_required (names : List String) (d : Dict PyValue) :
    (Keyword.required names).holds (.dict d) =
      names.all fun name => name ∈ d.map Prod.fst := rfl

@[simp] theorem holds_properties (schemas : List (String × Schema)) (d : Dict PyValue) :
    (Keyword.properties schemas).holds (.dict d) =
      ((d.map Prod.fst).all (fun name => name ∈ schemas.map Prod.fst) &&
        validatesProperties schemas d) := rfl

end Equations

theorem validatesProperties_iff {schemas : List (String × Schema)} {d : Dict PyValue} :
    validatesProperties schemas d = true ↔
      ∀ property ∈ schemas, ∀ v, d.get? property.1 = some v → validates property.2 v = true := by
  induction schemas with
  | nil => exact iff_of_true (by rw [validatesProperties]) nofun
  | cons property rest ih =>
      rw [validatesProperties, Bool.and_eq_true, ih, List.forall_mem_cons]
      refine and_congr_left fun _ => ?_
      cases d.get? property.1 with
      | none => exact iff_of_true rfl nofun
      | some v =>
          constructor
          · rintro h _ ⟨⟩
            exact h
          · exact fun h => h v rfl

/-! ### The shapes of a contract -/

theorem validates_string {v : PyValue} :
    validates [.type [.string]] v = true ↔ ∃ s, v = .str s := by
  cases v <;> simp

theorem validates_number {v : PyValue} :
    validates [.type [.number]] v = true ↔ ∃ x, v = .num x := by
  cases v <;> simp

theorem validates_boolean {v : PyValue} :
    validates [.type [.boolean]] v = true ↔ ∃ b, v = .bool b := by
  cases v <;> simp

theorem validates_nullable {v : PyValue} :
    validates [.type [.string, .null]] v = true ↔ v = .none ∨ ∃ s, v = .str s := by
  cases v <;> simp

theorem validates_pattern {search : String → Bool} {v : PyValue} :
    validates [.type [.string], .pattern search] v = true ↔
      ∃ s, v = .str s ∧ search s = true := by
  cases v <;> simp

/-- A natural number, as an integer or as a float. -/
def Natural (v : PyValue) : Prop := ∃ n : ℕ, v = .num (.int n) ∨ v = .num (.float (.finite n))

theorem validates_natural {v : PyValue} :
    validates [.type [.integer], .minimum 0] v = true ↔ Natural v := by
  cases v with
  | num x =>
      cases x with
      | int n =>
          simp only [validates_cons, validates_nil, holds_type, holds_minimum, admits_integer,
            Number.atLeast, List.any_cons, List.any_nil, Bool.or_false, Bool.and_true,
            Bool.true_and, decide_eq_true_eq]
          constructor
          · exact fun h => ⟨n.toNat, Or.inl (by rw [Int.toNat_of_nonneg h])⟩
          · rintro ⟨m, h | h⟩
            · injection h with h
              injection h with h
              exact h ▸ m.cast_nonneg
            · cases h
      | float x =>
          cases x with
          | finite q =>
              simp only [validates_cons, validates_nil, holds_type, holds_minimum, admits_integer,
                Number.atLeast, Double.le, List.any_cons, List.any_nil, Bool.or_false,
                Bool.and_true, Bool.and_eq_true, decide_eq_true_eq, Int.cast_zero]
              constructor
              · rintro ⟨hden, hnonneg⟩
                refine ⟨q.num.toNat, Or.inr ?_⟩
                have hq : ((q.num.toNat : ℕ) : ℚ) = q := by
                  rw [← Int.cast_natCast, Int.toNat_of_nonneg (Rat.num_nonneg.mpr hnonneg)]
                  exact (Rat.den_eq_one_iff q).mp hden
                rw [hq]
              · rintro ⟨m, h | h⟩
                · cases h
                · injection h with h
                  injection h with h
                  injection h with h
                  exact h ▸ ⟨Rat.den_natCast m, m.cast_nonneg⟩
          | inf negative => simp [Natural]
          | nan => simp [Natural]
  | _ => simp [Natural]

/-- A string that is not empty. -/
def textSchema : Schema := [.type [.string], .minLength 1]

theorem validates_text {v : PyValue} :
    validates textSchema v = true ↔ ∃ s, v = .str s ∧ s ≠ "" := by
  cases v with
  | str s =>
      have hlength : 1 ≤ s.length ↔ s ≠ "" := by
        rw [Nat.one_le_iff_ne_zero, ne_eq, String.length_eq_zero_iff]
      simpa [textSchema] using hlength
  | _ => simp [textSchema]

/-- One of the strings. -/
def enumSchema (values : List String) : Schema := [.type [.string], .enum values]

theorem validates_enum {values : List String} {v : PyValue} :
    validates (enumSchema values) v = true ↔ ∃ s ∈ values, v = .str s := by
  cases v with
  | str s => simp [enumSchema]
  | _ => simp [enumSchema]

/-- An object with these required names and these properties. -/
def objectSchema (required : List String) (schemas : List (String × Schema)) : Schema :=
  [.type [.object], .required required, .properties schemas]

/-- Where the required properties are those that may not be null, an object is
valid if each property is, with null for what is missing. -/
theorem validates_object {required : List String} {schemas : List (String × Schema)}
    (hknown : ∀ name ∈ required, name ∈ schemas.map Prod.fst)
    (hnull : ∀ property ∈ schemas, property.1 ∈ required ↔ ¬ validates property.2 .none = true)
    {v : PyValue} :
    validates (objectSchema required schemas) v = true ↔
      ∃ d, v = .dict d ∧ (∀ name ∈ d.map Prod.fst, name ∈ schemas.map Prod.fst) ∧
        ∀ property ∈ schemas,
          validates property.2 ((Dict.get? d property.1).getD .none) = true := by
  cases v with
  | dict d =>
      simp only [objectSchema, validates_cons, validates_nil, holds_type, holds_required,
        holds_properties, admits_object, List.any_cons, List.any_nil, Bool.or_false,
        Bool.and_true, Bool.true_and, Bool.and_eq_true,
        List.all_eq_true, decide_eq_true_eq, validatesProperties_iff]
      constructor
      · rintro ⟨hrequired, hnames, hproperties⟩
        refine ⟨d, rfl, hnames, fun property hproperty => ?_⟩
        cases hget : Dict.get? d property.1 with
        | some v => exact hproperties property hproperty v hget
        | none =>
            by_contra hinvalid
            have hname := hrequired _ ((hnull property hproperty).mpr hinvalid)
            exact Dict.get?_ne_none hname hget
      · rintro ⟨_, ⟨⟩, hnames, hproperties⟩
        refine ⟨fun name hname => ?_, hnames, fun property hproperty v hget => ?_⟩
        · obtain ⟨property, hproperty, rfl⟩ := List.mem_map.mp (hknown name hname)
          by_contra hmissing
          refine (hnull property hproperty).mp hname ?_
          have hvalid := hproperties property hproperty
          rwa [Dict.get?_eq_none hmissing] at hvalid
        · have hvalid := hproperties property hproperty
          rwa [hget] at hvalid
  | _ => simp [objectSchema]

/-- A list with at least one item. -/
def arraySchema (item : Schema) : Schema := [.type [.array], .minItems 1, .items item]

theorem validates_array {item : Schema} {v : PyValue} :
    validates (arraySchema item) v = true ↔
      ∃ items, v = .list items ∧ items ≠ [] ∧ ∀ v ∈ items, validates item v = true := by
  cases v with
  | list items =>
      have hlength : 1 ≤ items.length ↔ items ≠ [] := by
        rw [Nat.one_le_iff_ne_zero, ne_eq, List.length_eq_zero_iff]
      simp only [arraySchema, validates_cons, validates_nil, holds_type, holds_minItems,
        holds_items, admits_array, List.any_cons, List.any_nil, Bool.or_false, Bool.and_true,
        Bool.true_and, Bool.and_eq_true,
        List.all_eq_true, decide_eq_true_eq, hlength]
      constructor
      · exact fun h => ⟨items, rfl, h⟩
      · rintro ⟨_, ⟨⟩, h⟩
        exact h
  | _ => simp [arraySchema]

end DiepLab
