import DiepLab.Common
import Mathlib.Algebra.Order.Ring.Rat

/-!
JSON values as Python has them after `json.loads`.
-/

namespace DiepLab

/-- A JSON value. The keys of an object are unique. -/
inductive Json where
  | null
  | bool (b : Bool)
  | num (q : ℚ)
  | str (s : String)
  | arr (items : List Json)
  | obj (fields : List (String × Json))

namespace Json

/-- Python's truth value. -/
def truthy : Json → Bool
  | .null => false
  | .bool b => b
  | .num q => q ≠ 0
  | .str s => s ≠ ""
  | .arr items => ¬ items.isEmpty
  | .obj fields => ¬ fields.isEmpty

/-- Whether the value can be the key of a dictionary. -/
def hashable : Json → Bool
  | .arr _ => false
  | .obj _ => false
  | _ => true

/-- An optional value; `None` is `null`. -/
def ofOption {α : Type} (value : α → Json) : Option α → Json
  | some a => value a
  | none => .null

end Json

/-- A `datetime`, with what `isoformat` makes of it. -/
structure Stamp where
  instant : ℚ := 0
  iso : String := ""
  deriving DecidableEq, Repr

end DiepLab
