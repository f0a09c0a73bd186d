import DiepLab.PyValue

/-!
JSON texts.

A text is the list of its tokens here; their characters are in `JsonChars`.
`loads` is a parser by recursive descent, `dumps` writes what it reads, and
`loads_dumps` is the round trip.
-/

namespace DiepLab

inductive JsonToken where
  | openBrace | closeBrace | openBracket | closeBracket | comma | colon
  | null
  | bool (b : Bool)
  | num (x : Number)
  | str (s : String)
  deriving DecidableEq, Repr

/-! ### Writing -/

mutual

/-- `json.dumps`. -/
def dumps : PyValue → List JsonToken
  | .none => [.null]
  | .bool b => [.bool b]
  | .num x => [.num x]
  | .str s => [.str s]
  | .list [] => [.openBracket, .closeBracket]
  | .list (v :: rest) => .openBracket :: (dumps v ++ dumpsItems rest)
  | .dict [] => [.openBrace, .closeBrace]
  | .dict ((k, v) :: rest) => .openBrace :: .str k :: .colon :: (dumps v ++ dumpsFields rest)

/-- The items after the first one. -/
def dumpsItems : List PyValue → List JsonToken
  | [] => [.closeBracket]
  | v :: rest => .comma :: (dumps v ++ dumpsItems rest)

def dumpsFields : List (String × PyValue) → List JsonToken
  | [] => [.closeBrace]
  | (k, v) :: rest => .comma :: .str k :: .colon :: (dumps v ++ dumpsFields rest)

end

/-! ### Reading -/

mutual

/-- A value, and what follows it. The fuel is more than the depth. -/
def parseValue : ℕ → List JsonToken → Option (PyValue × List JsonToken)
  | 0, _ => none
  | _ + 1, .null :: rest => some (.none, rest)
  | _ + 1, .bool b :: rest => some (.bool b, rest)
  | _ + 1, .num x :: rest => some (.num x, rest)
  | _ + 1, .str s :: rest => some (.str s, rest)
  -- the empty list has no first item, so it is told apart before one is read
  | _ + 1, .openBracket :: .closeBracket :: rest => some (.list [], rest)
  | n + 1, .openBracket :: rest => do
      let (v, rest) ← parseValue n rest
      let (items, rest) ← parseItems n rest
      some (.list (v :: items), rest)
  | _ + 1, .openBrace :: .closeBrace :: rest => some (.dict [], rest)
  | n + 1, .openBrace :: .str k :: .colon :: rest => do
      let (v, rest) ← parseValue n rest
      let (fields, rest) ← parseFields n rest
      -- of two entries for a key the later one counts
      some (.dict (Dict.update [] ((k, v) :: fields)), rest)
  | _ + 1, _ => none

def parseItems : ℕ → List JsonToken → Option (List PyValue × List JsonToken)
  | 0, _ => none
  | _ + 1, .closeBracket :: rest => some ([], rest)
  | n + 1, .comma :: rest => do
      let (v, rest) ← parseValue n rest
      let (items, rest) ← parseItems n rest
      some (v :: items, rest)
  | _ + 1, _ => none

def parseFields : ℕ → List JsonToken → Option (List (String × PyValue) × List JsonToken)
  | 0, _ => none
  | _ + 1, .closeBrace :: rest => some ([], rest)
  | n + 1, .comma :: .str k :: .colon :: rest => do
      let (v, rest) ← parseValue n rest
      let (fields, rest) ← parseFields n rest
      some ((k, v) :: fields, rest)
  | _ + 1, _ => none

end

/-- `json.loads`, or none where it raises `ValueError`. -/
def loads (text : List JsonToken) : Option PyValue :=
  match parseValue text.length text with
  | some (v, []) => some v
  | _ => none

/-! ### The round trip -/

namespace Dict

variable {ν : Type}

theorem set_of_not_mem {d : Dict ν} {key : String} (h : key ∉ d.map Prod.fst) (value : ν) :
    d.set key value = d ++ [(key, value)] := by
  induction d with
  | nil => rfl
  | cons kv rest ih =>
      obtain ⟨k, v⟩ := kv
      rw [List.map_cons, List.mem_cons, not_or] at h
      rw [set, if_neg (Ne.symm h.1), ih h.2, List.cons_append]

/-- New keys are added at the end. -/
theorem update_of_nodup {d items : Dict ν} (h : ((d ++ items).map Prod.fst).Nodup) :
    d.update items = d ++ items := by
  induction items generalizing d with
  | nil => exact (List.append_nil d).symm
  | cons kv items ih =>
      have hnew : kv.1 ∉ d.map Prod.fst := by
        rw [List.map_append, List.nodup_append] at h
        intro hmem
        exact h.2.2 kv.1 hmem kv.1 List.mem_cons_self rfl
      have happend : d ++ kv :: items = (d ++ [(kv.1, kv.2)]) ++ items := by simp
      rw [update, List.foldl_cons, set_of_not_mem hnew, happend]
      exact ih (happend ▸ h)

end Dict

namespace PyValue

mutual

/-- Every dictionary has one entry for a key, as Python's have. -/
def wf : PyValue → Bool
  | .list items => wfItems items
  | .dict items => decide (items.map Prod.fst).Nodup && wfFields items
  | _ => true

def wfItems : List PyValue → Bool
  | [] => true
  | v :: rest => v.wf && wfItems rest

def wfFields : List (String × PyValue) → Bool
  | [] => true
  | (_, v) :: rest => v.wf && wfFields rest

end

theorem wfItems_iff {items : List PyValue} :
    wfItems items = true ↔ ∀ v ∈ items, v.wf = true := by
  induction items with
  | nil => simp [wfItems]
  | cons v rest ih => simp [wfItems, ih]

end PyValue

/-- No value begins with a closing bracket. -/
theorem dumps_eq_cons (v : PyValue) :
    ∃ token rest, dumps v = token :: rest ∧ token ≠ .closeBracket := by
  cases v with
  | list items => cases items <;> exact ⟨_, _, rfl, nofun⟩
  | dict items =>
      cases items with
      | nil => exact ⟨_, _, rfl, nofun⟩
      | cons kv rest => exact ⟨_, _, rfl, nofun⟩
  | _ => exact ⟨_, _, rfl, nofun⟩

/-- A bracket and a value open a list. -/
theorem parseValue_bracket {n : ℕ} {v : PyValue} {rest : List JsonToken} :
    parseValue (n + 1) (.openBracket :: (dumps v ++ rest)) =
      (do
        let (v, rest) ← parseValue n (dumps v ++ rest)
        let (items, rest) ← parseItems n rest
        some (.list (v :: items), rest)) := by
  obtain ⟨token, tail, hdumps, hne⟩ := dumps_eq_cons v
  rw [hdumps, List.cons_append]
  cases token with
  | closeBracket => exact absurd rfl hne
  | _ => rfl

mutual

theorem parseValue_dumps : ∀ (v : PyValue) (n : ℕ) (rest : List JsonToken), v.wf = true →
    (dumps v).length ≤ n → parseValue n (dumps v ++ rest) = some (v, rest)
  | v, 0, rest, _, hn => by
      obtain ⟨token, tail, hdumps, -⟩ := dumps_eq_cons v
      rw [hdumps] at hn
      -- a value has at least one token, and no fuel is left for it
      exact absurd hn (by simp)
  | .none, n + 1, rest, _, _ => by simp [dumps, parseValue]
  | .bool b, n + 1, rest, _, _ => by simp [dumps, parseValue]
  | .num x, n + 1, rest, _, _ => by simp [dumps, parseValue]
  | .str s, n + 1, rest, _, _ => by simp [dumps, parseValue]
  | .list [], n + 1, rest, _, _ => by simp [dumps, parseValue]
  | .list (v :: items), n + 1, rest, hwf, hn => by
      simp only [PyValue.wf, PyValue.wfItems, Bool.and_eq_true] at hwf
      simp only [dumps, List.length_cons, List.length_append] at hn
      have hvalue := parseValue_dumps v n (dumpsItems items ++ rest) hwf.1 (by omega)
      have hitems := parseItems_dumps items n rest hwf.2 (by omega)
      rw [dumps, List.cons_append, List.append_assoc, parseValue_bracket, hvalue]
      simp only [Option.bind_eq_bind, Option.bind_some, hitems]
  | .dict [], n + 1, rest, _, _ => by simp [dumps, parseValue]
  | .dict ((k, v) :: fields), n + 1, rest, hwf, hn => by
      simp only [PyValue.wf, PyValue.wfFields, Bool.and_eq_true, decide_eq_true_eq] at hwf
      simp only [dumps, List.length_cons, List.length_append] at hn
      have hvalue := parseValue_dumps v n (dumpsFields fields ++ rest) hwf.2.1 (by omega)
      have hfields := parseFields_dumps fields n rest hwf.2.2 (by omega)
      -- the keys are distinct, so no entry overwrites another
      have hupdate : Dict.update [] ((k, v) :: fields) = (k, v) :: fields :=
        Dict.update_of_nodup (d := []) hwf.1
      simp only [dumps, List.cons_append, List.append_assoc, parseValue, hvalue,
        Option.bind_eq_bind, Option.bind_some, hfields, hupdate]

theorem parseItems_dumps : ∀ (items : List PyValue) (n : ℕ) (rest : List JsonToken),
    PyValue.wfItems items = true → (dumpsItems items).length ≤ n →
      parseItems n (dumpsItems items ++ rest) = some (items, rest)
  | [], 0, rest, _, hn => absurd hn (by simp [dumpsItems])
  | _ :: _, 0, rest, _, hn => absurd hn (by simp [dumpsItems])
  | [], n + 1, rest, _, _ => by simp [dumpsItems, parseItems]
  | v :: items, n + 1, rest, hwf, hn => by
      simp only [PyValue.wfItems, Bool.and_eq_true] at hwf
      simp only [dumpsItems, List.length_cons, List.length_append] at hn
      have hvalue := parseValue_dumps v n (dumpsItems items ++ rest) hwf.1 (by omega)
      have hitems := parseItems_dumps items n rest hwf.2 (by omega)
      simp only [dumpsItems, List.cons_append, List.append_assoc, parseItems, hvalue,
        Option.bind_eq_bind, Option.bind_some, hitems]

theorem parseFields_dumps : ∀ (fields : List (String × PyValue)) (n : ℕ)
    (rest : List JsonToken), PyValue.wfFields fields = true → (dumpsFields fields).length ≤ n →
      parseFields n (dumpsFields fields ++ rest) = some (fields, rest)
  | [], 0, rest, _, hn => absurd hn (by simp [dumpsFields])
  | _ :: _, 0, rest, _, hn => absurd hn (by simp [dumpsFields])
  | [], n + 1, rest, _, _ => by simp [dumpsFields, parseFields]
  | (k, v) :: fields, n + 1, rest, hwf, hn => by
      simp only [PyValue.wfFields, Bool.and_eq_true] at hwf
      simp only [dumpsFields, List.length_cons, List.length_append] at hn
      have hvalue := parseValue_dumps v n (dumpsFields fields ++ rest) hwf.1 (by omega)
      have hfields := parseFields_dumps fields n rest hwf.2 (by omega)
      simp only [dumpsFields, List.cons_append, List.append_assoc, parseFields, hvalue,
        Option.bind_eq_bind, Option.bind_some, hfields]

end

/-- **Round trip.** What is written reads back. -/
theorem loads_dumps {v : PyValue} (h : v.wf = true) : loads (dumps v) = some v := by
  have hparse := parseValue_dumps v (dumps v).length [] h (Nat.le_refl _)
  rw [List.append_nil] at hparse
  simp only [loads, hparse]

end DiepLab
