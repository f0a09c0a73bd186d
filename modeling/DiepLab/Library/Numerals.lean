import DiepLab.Library.Interchange
import Mathlib.Algebra.Field.Rat
import Mathlib.Data.List.DropRight
import Mathlib.Data.List.TakeDrop
import Mathlib.Tactic.Ring

/-!
Numbers as Python writes and reads them.

`int?` and `float?` read a text, any decimal digits of Unicode, blanks around
the number and underscores between digits included; `intText?` and `floatText`
write one, a float with the fewest digits that read back. The round trips are
`int?_intText` and `float?_floatText`, and `int?_floatText` says that a float is
never taken for an integer. Characters come as lists.
-/

namespace Numerals

/-! ### Characters -/

/-- Where the decimal digits of Unicode begin, ten each. -/
def decimalZeros : List ℕ := [
  0x30, 0x660, 0x6F0, 0x7C0, 0x966, 0x9E6, 0xA66, 0xAE6, 0xB66, 0xBE6, 0xC66, 0xCE6, 0xD66, 0xDE6,
  0xE50, 0xED0, 0xF20, 0x1040, 0x1090, 0x17E0, 0x1810, 0x1946, 0x19D0, 0x1A80, 0x1A90, 0x1B50,
  0x1BB0, 0x1C40, 0x1C50, 0xA620, 0xA8D0, 0xA900, 0xA9D0, 0xA9F0, 0xAA50, 0xABF0, 0xFF10, 0x104A0,
  0x10D30, 0x11066, 0x110F0, 0x11136, 0x111D0, 0x112F0, 0x11450, 0x114D0, 0x11650, 0x116C0,
  0x11730, 0x118E0, 0x11950, 0x11C50, 0x11D50, 0x11DA0, 0x11F50, 0x16A60, 0x16AC0, 0x16B50,
  0x1D7CE, 0x1D7D8, 0x1D7E2, 0x1D7EC, 0x1D7F6, 0x1E140, 0x1E2F0, 0x1E4F0, 0x1E950, 0x1FBF0]

/-- The blanks outside ASCII. -/
def wideBlanks : List ℕ := [
  0x85, 0xA0, 0x1680, 0x2000, 0x2001, 0x2002, 0x2003, 0x2004, 0x2005, 0x2006, 0x2007, 0x2008,
  0x2009, 0x200A, 0x2028, 0x2029, 0x202F, 0x205F, 0x3000]

/-- Digits and blanks outside ASCII are read as those of ASCII, and nothing else
is. -/
def toAscii (c : Char) : Char :=
  if c.toNat < 127 then c
  else if c.toNat ∈ wideBlanks then ' '
  else
    match decimalZeros.find? fun first => first ≤ c.toNat ∧ c.toNat < first + 10 with
    | some first => (c.toNat - first).digitChar
    | none => '?'

def isBlank (c : Char) : Bool := 9 ≤ c.toNat ∧ c.toNat ≤ 13 ∨ c.toNat = 32

def strip (s : List Char) : List Char :=
  ((s.dropWhile isBlank).reverse.dropWhile isBlank).reverse

/-- An underscore may stand between two digits. -/
def dropUnderscores : Bool → List Char → Option (List Char)
  | _, [] => some []
  | afterDigit, c :: rest =>
      if c = '_' then
        if afterDigit ∧ rest.head?.any Char.isDigit then dropUnderscores false rest else none
      else (dropUnderscores c.isDigit rest).map fun chars => c :: chars

/-- What is left to be read as a number. -/
def prepare (s : List Char) : Option (List Char) := dropUnderscores false (strip (s.map toAscii))

/-- Whether the number is negative, and the rest. -/
def signed : List Char → Bool × List Char
  | '-' :: rest => (true, rest)
  | '+' :: rest => (false, rest)
  | rest => (false, rest)

/-! ### Reading -/

def digits? (s : List Char) : Option ℕ :=
  if s ≠ [] ∧ s.all Char.isDigit then some (Nat.ofDigitChars 10 s 0) else none

/-- `sys.int_info.default_max_str_digits`. -/
def maxStrDigits : ℕ := 4300

/-- `int(s)`, or none where it raises `ValueError`. -/
def int? (s : List Char) : Option ℤ :=
  match prepare s with
  | none => none
  | some chars =>
      let (negative, body) := signed chars
      if maxStrDigits < body.length then none
      else (digits? body).map fun (n : ℕ) => if negative then -(n : ℤ) else n

def exponent? : List Char → Option ℤ
  | [] => some 0
  | c :: rest =>
      if c = 'e' ∨ c = 'E' then
        let (negative, body) := signed rest
        (digits? body).map fun (n : ℕ) => if negative then -(n : ℤ) else n
      else none

/-- The digits after a point, and the rest. -/
def fractionOf : List Char → List Char × List Char
  | '.' :: rest => (rest.takeWhile Char.isDigit, rest.dropWhile Char.isDigit)
  | rest => ([], rest)

def unsigned? (s : List Char) : Option ℚ :=
  let whole := s.takeWhile Char.isDigit
  let (fraction, rest) := fractionOf (s.dropWhile Char.isDigit)
  if whole ++ fraction = [] then none
  else (exponent? rest).map fun e =>
    (Nat.ofDigitChars 10 (whole ++ fraction) 0 : ℚ) * 10 ^ (e - fraction.length : ℤ)

/-- `float(s)`, or none where it raises `ValueError`. -/
def float? (s : List Char) : Option Double :=
  match prepare s with
  | none => none
  | some chars =>
      let (negative, body) := signed chars
      let word := body.map Char.toLower
      if word = "inf".toList ∨ word = "infinity".toList then some (.inf negative)
      else if word = "nan".toList then some .nan
      else (unsigned? body).map fun q => Double.ofRat (if negative then -q else q)

/-! ### Writing -/

/-- `str(n)`, or none where it raises `ValueError`. -/
def intText? (n : ℤ) : Option (List Char) :=
  if maxStrDigits < (Nat.toDigits 10 n.natAbs).length then none
  else some (if n < 0 then '-' :: Nat.toDigits 10 n.natAbs else Nat.toDigits 10 n.natAbs)

/-- An unsigned decimal number. -/
structure Literal where
  whole : List Char
  fraction : List Char := []
  exponent : Option ℤ := none

def exponentText (e : ℤ) : List Char :=
  'e' :: (if e < 0 then '-' else '+') ::
    (if e.natAbs < 10 then '0' :: Nat.toDigits 10 e.natAbs else Nat.toDigits 10 e.natAbs)

namespace Literal

def text (l : Literal) : List Char :=
  l.whole ++ ((if l.fraction = [] then [] else '.' :: l.fraction) ++
    l.exponent.elim [] exponentText)

def value (l : Literal) : ℚ :=
  (Nat.ofDigitChars 10 (l.whole ++ l.fraction) 0 : ℚ) *
    10 ^ (l.exponent.getD 0 - l.fraction.length : ℤ)

/-- A literal without needless zeros. -/
structure Ok (l : Literal) : Prop where
  whole_ne_nil : l.whole ≠ []
  whole_digits : ∀ c ∈ l.whole, c.isDigit = true
  fraction_digits : ∀ c ∈ l.fraction, c.isDigit = true
  whole_zero : l.whole = ['0'] ∨ l.whole.head? ≠ some '0'

/-- The literal is one of a float. -/
def Real (l : Literal) : Prop := l.fraction ≠ [] ∨ l.exponent ≠ none

end Literal

/-- With so many digits, the integers on both sides of the number, the nearest
one first, and the place of their last digit. -/
def candidates (q : ℚ) (places : ℕ) : List (ℕ × ℤ) :=
  let last := Int.log 10 q + 1 - places
  let scaled := q / 10 ^ last
  [((Double.roundEven scaled).toNat, last), (⌊scaled⌋.toNat, last), (⌊scaled⌋.toNat + 1, last)]

/-- The fewest digits that read back as the positive double. More than seventeen
are never tried, but every double has an end in decimals as well. -/
def shortest (q : ℚ) : ℕ × ℤ :=
  (((List.range 17).flatMap fun n => candidates q (n + 1)).find? fun c =>
    Double.ofRat ((c.1 : ℚ) * 10 ^ c.2) = .finite q).getD (⌊q * 10 ^ 1074⌋.toNat, -1074)

/-- The digits without the zeros at the end. -/
def significant (n : ℕ) : List Char := (Nat.toDigits 10 n).rdropWhile fun c => c = '0'

/-- `repr` of a positive double of these digits. -/
def literalOf (c : ℕ × ℤ) : Literal :=
  let digits := significant c.1
  -- where the point stands, counted from the first digit
  let point := (Nat.toDigits 10 c.1).length + c.2
  if -4 < point ∧ point ≤ 16 then
    if point ≤ 0 then
      { whole := ['0'], fraction := List.replicate (-point).toNat '0' ++ digits }
    else if digits.length ≤ point then
      { whole := digits ++ List.replicate (point - digits.length).toNat '0', fraction := ['0'] }
    else { whole := digits.take point.toNat, fraction := digits.drop point.toNat }
  else { whole := digits.take 1, fraction := digits.drop 1, exponent := some (point - 1) }

/-- `repr(x)`, which is `str(x)`. -/
def floatText : Double → List Char
  | .nan => "nan".toList
  | .inf negative => if negative then "-inf".toList else "inf".toList
  | .finite q =>
      if q = 0 then "0.0".toList
      else if q < 0 then '-' :: (literalOf (shortest (-q))).text
      else (literalOf (shortest q)).text

example : [Double.ofRat (1 / 2 ^ 44), .ofRat (10 ^ 16), .ofRat (-1 / 10)].map floatText =
    ["5.684341886080802e-14", "1e+16", "-0.1"].map String.toList := by
  decide +kernel

/-! ### Plain texts -/

/-- What stands for itself. -/
def Plain (c : Char) : Prop := c.toNat < 127 ∧ isBlank c = false ∧ c ≠ '_'

instance (c : Char) : Decidable (Plain c) := inferInstanceAs (Decidable (_ ∧ _ ∧ _))

/-- What can be decided for the characters of a text; there are too many others. -/
theorem forall_mem_of_all {P : Char → Prop} [DecidablePred P] {s : List Char}
    (h : s.all (fun c => decide (P c)) = true) : ∀ c ∈ s, P c :=
  fun c hc => of_decide_eq_true (List.all_eq_true.mp h c hc)

theorem toNat_of_isDigit {c : Char} (h : c.isDigit = true) : 48 ≤ c.toNat ∧ c.toNat ≤ 57 := by
  simp only [Char.isDigit, Bool.and_eq_true, decide_eq_true_eq] at h
  exact h

theorem plain_of_isDigit {c : Char} (h : c.isDigit = true) : Plain c := by
  obtain ⟨hlow, hhigh⟩ := toNat_of_isDigit h
  refine ⟨by omega, ?_, ?_⟩
  · simp only [isBlank, decide_eq_false_iff_not]
    omega
  · rintro rfl
    exact absurd hhigh (by decide)

theorem dropWhile_isBlank {s : List Char} (h : ∀ c ∈ s, Plain c) : s.dropWhile isBlank = s := by
  cases s with
  | nil => rfl
  | cons c rest =>
      rw [List.forall_mem_cons] at h
      rw [List.dropWhile_cons, h.1.2.1]
      rfl

theorem dropUnderscores_of_plain {s : List Char} (h : ∀ c ∈ s, Plain c) (afterDigit : Bool) :
    dropUnderscores afterDigit s = some s := by
  induction s generalizing afterDigit with
  | nil => rfl
  | cons c rest ih =>
      rw [List.forall_mem_cons] at h
      rw [dropUnderscores, if_neg h.1.2.2, ih h.2]
      rfl

theorem prepare_of_plain {s : List Char} (h : ∀ c ∈ s, Plain c) : prepare s = some s := by
  have hascii : s.map toAscii = s :=
    (List.map_congr_left fun c hc => if_pos (h c hc).1).trans (List.map_id s)
  have hreverse : ∀ c ∈ s.reverse, Plain c := fun c hc => h c (List.mem_reverse.mp hc)
  rw [prepare, hascii, strip, dropWhile_isBlank h, dropWhile_isBlank hreverse, List.reverse_reverse]
  exact dropUnderscores_of_plain h false

/-- A sign, if there is one, does not begin with a digit. -/
theorem signed_of_digit {c : Char} (h : c.isDigit = true) (rest : List Char) :
    signed (c :: rest) = (false, c :: rest) := by
  unfold signed
  split
  · exact absurd h (by simp_all)
  · exact absurd h (by simp_all)
  · rfl

/-! ### Integers -/

theorem isDigit_toDigits {n : ℕ} {c : Char} (h : c ∈ Nat.toDigits 10 n) : c.isDigit = true :=
  Nat.isDigit_of_mem_toDigits (by decide) (by decide) h

theorem digits?_of_digits {s : List Char} (hne : s ≠ []) (h : ∀ c ∈ s, c.isDigit = true) :
    digits? s = some (Nat.ofDigitChars 10 s 0) :=
  if_pos ⟨hne, List.all_eq_true.mpr h⟩

theorem digits?_toDigits (n : ℕ) : digits? (Nat.toDigits 10 n) = some n := by
  rw [digits?_of_digits Nat.toDigits_ne_nil fun c => isDigit_toDigits,
    Nat.ofDigitChars_ten_toDigits]

theorem signed_toDigits (n : ℕ) : signed (Nat.toDigits 10 n) = (false, Nat.toDigits 10 n) := by
  obtain ⟨c, rest, hdigits⟩ := List.exists_cons_of_ne_nil (Nat.toDigits_ne_nil (n := n) (b := 10))
  rw [hdigits]
  exact signed_of_digit (isDigit_toDigits (n := n) (by rw [hdigits]; exact List.mem_cons_self)) rest

/-- An integer with its sign. -/
def intDigits (n : ℤ) : List Char :=
  if n < 0 then '-' :: Nat.toDigits 10 n.natAbs else Nat.toDigits 10 n.natAbs

theorem intText?_eq {n : ℤ} {t : List Char} (h : intText? n = some t) :
    t = intDigits n ∧ (Nat.toDigits 10 n.natAbs).length ≤ maxStrDigits := by
  unfold intText? at h
  split at h
  · exact nomatch h
  · exact ⟨(Option.some.inj h).symm, not_lt.mp ‹_›⟩

theorem plain_intDigits (n : ℤ) : ∀ c ∈ intDigits n, Plain c := by
  have hdigits : ∀ c ∈ Nat.toDigits 10 n.natAbs, Plain c :=
    fun c hc => plain_of_isDigit (isDigit_toDigits hc)
  unfold intDigits
  split
  · exact List.forall_mem_cons.mpr ⟨by decide, hdigits⟩
  · exact hdigits

theorem signed_intDigits (n : ℤ) :
    signed (intDigits n) = (decide (n < 0), Nat.toDigits 10 n.natAbs) := by
  unfold intDigits
  split
  · rw [decide_eq_true ‹_›]
    rfl
  · rw [signed_toDigits, decide_eq_false ‹_›]

/-- **An integer reads back.** -/
theorem int?_intText {n : ℤ} {t : List Char} (h : intText? n = some t) : int? t = some n := by
  obtain ⟨rfl, hlength⟩ := intText?_eq h
  simp only [int?, prepare_of_plain (plain_intDigits n), signed_intDigits,
    if_neg (not_lt.mpr hlength), digits?_toDigits, Option.map_some, decide_eq_true_eq,
    Option.some.injEq]
  split <;> omega

/-- A plain text with anything but digits behind the sign is no integer. -/
theorem int?_eq_none {s : List Char} (hplain : ∀ c ∈ s, Plain c) {c : Char} (hc : c ∈ s)
    (hdigit : c.isDigit = false) (hminus : c ≠ '-') (hplus : c ≠ '+') : int? s = none := by
  have hbody : c ∈ (signed s).2 := by
    unfold signed
    split
    · exact (List.mem_cons.mp hc).resolve_left hminus
    · exact (List.mem_cons.mp hc).resolve_left hplus
    · exact hc
  have hnone : digits? (signed s).2 = none :=
    if_neg fun h => absurd (List.all_eq_true.mp h.2 c hbody) (by simp [hdigit])
  simp only [int?, prepare_of_plain hplain, hnone, Option.map_none, ite_self]

/-! ### Literals -/

/-- Digits, up to what is none. -/
theorem takeWhile_digits {digits : List Char} (h : ∀ c ∈ digits, c.isDigit = true)
    {rest : List Char} (hrest : ∀ c ∈ rest.head?, c.isDigit = false) :
    (digits ++ rest).takeWhile Char.isDigit = digits ∧
      (digits ++ rest).dropWhile Char.isDigit = rest := by
  induction digits with
  | nil =>
      cases rest with
      | nil => exact ⟨rfl, rfl⟩
      | cons c rest => simp [hrest c rfl]
  | cons c digits ih =>
      rw [List.forall_mem_cons] at h
      simp [h.1, ih h.2]

theorem exponent?_exponentText (e : ℤ) : exponent? (exponentText e) = some e := by
  have hread (n : ℕ) :
      digits? (if n < 10 then '0' :: Nat.toDigits 10 n else Nat.toDigits 10 n) = some n := by
    split
    · rw [digits?_of_digits (List.cons_ne_nil _ _)
        (List.forall_mem_cons.mpr ⟨by decide, fun c => isDigit_toDigits⟩), Nat.ofDigitChars_cons]
      exact congrArg some Nat.ofDigitChars_ten_toDigits
    · exact digits?_toDigits n
  rw [exponentText, exponent?, if_pos (Or.inl rfl)]
  by_cases he : e < 0
  · rw [if_pos he]
    simp only [signed, hread, Option.map_some, if_true, Option.some.injEq]
    omega
  · rw [if_neg he]
    simp only [signed, hread, Option.map_some, Bool.false_eq_true, if_false, Option.some.injEq]
    omega

namespace Literal

variable {l : Literal}

/-- What follows the digits does not begin with one. -/
theorem head?_exponent (l : Literal) :
    ∀ c ∈ (l.exponent.elim [] exponentText).head?, c.isDigit = false ∧ c ≠ '.' := by
  cases l.exponent with
  | none => exact nofun
  | some e =>
      intro c hc
      obtain rfl : 'e' = c := Option.some.inj hc
      decide

theorem head?_tail (l : Literal) :
    ∀ c ∈ ((if l.fraction = [] then [] else '.' :: l.fraction) ++
      l.exponent.elim [] exponentText).head?, c.isDigit = false := by
  by_cases hfraction : l.fraction = []
  · rw [if_pos hfraction, List.nil_append]
    exact fun c hc => (l.head?_exponent c hc).1
  · rw [if_neg hfraction]
    intro c hc
    obtain rfl : '.' = c := Option.some.inj hc
    decide

theorem Ok.fractionOf_tail (h : l.Ok) :
    fractionOf ((if l.fraction = [] then [] else '.' :: l.fraction) ++
      l.exponent.elim [] exponentText) = (l.fraction, l.exponent.elim [] exponentText) := by
  by_cases hfraction : l.fraction = []
  · rw [if_pos hfraction, List.nil_append, hfraction]
    cases l.exponent with
    | none => rfl
    | some e => rfl
  · rw [if_neg hfraction, List.cons_append, fractionOf]
    obtain ⟨htake, hdrop⟩ := takeWhile_digits h.fraction_digits
      fun c hc => (l.head?_exponent c hc).1
    rw [htake, hdrop]

/-- A literal reads as its value. -/
theorem Ok.unsigned?_text (h : l.Ok) : unsigned? l.text = some l.value := by
  obtain ⟨htake, hdrop⟩ := takeWhile_digits h.whole_digits l.head?_tail
  have hexponent : exponent? (l.exponent.elim [] exponentText) = some (l.exponent.getD 0) := by
    cases l.exponent with
    | none => rfl
    | some e => exact exponent?_exponentText e
  have hne : ¬ l.whole ++ l.fraction = [] :=
    fun hnil => h.whole_ne_nil (List.append_eq_nil_iff.mp hnil).1
  simp only [unsigned?, text, htake, hdrop, h.fractionOf_tail, if_neg hne, hexponent,
    Option.map_some, value]

theorem plain_exponentText (e : ℤ) : ∀ c ∈ exponentText e, Plain c := by
  have hdigits : ∀ c ∈ Nat.toDigits 10 e.natAbs, Plain c :=
    fun c hc => plain_of_isDigit (isDigit_toDigits hc)
  refine List.forall_mem_cons.mpr ⟨by decide, List.forall_mem_cons.mpr ⟨?_, ?_⟩⟩
  · split <;> decide
  · split
    · exact List.forall_mem_cons.mpr ⟨by decide, hdigits⟩
    · exact hdigits

theorem Ok.plain_text (h : l.Ok) : ∀ c ∈ l.text, Plain c := by
  refine List.forall_mem_append.mpr ⟨fun c hc => plain_of_isDigit (h.whole_digits c hc), ?_⟩
  refine List.forall_mem_append.mpr ⟨?_, ?_⟩
  · split
    · exact nofun
    · exact List.forall_mem_cons.mpr
        ⟨by decide, fun c hc => plain_of_isDigit (h.fraction_digits c hc)⟩
  · cases l.exponent with
    | none => exact nofun
    | some e => exact plain_exponentText e

/-- A literal begins with a digit. -/
theorem Ok.text_eq_cons (h : l.Ok) : ∃ c rest, l.text = c :: rest ∧ c.isDigit = true := by
  obtain ⟨c, rest, hwhole⟩ := List.exists_cons_of_ne_nil h.whole_ne_nil
  refine ⟨c, _, by rw [text, hwhole, List.cons_append], ?_⟩
  exact h.whole_digits c (hwhole ▸ List.mem_cons_self)

theorem Real.point_or_exponent (h : l.Real) : '.' ∈ l.text ∨ 'e' ∈ l.text := by
  rcases h with hfraction | hexponent
  · left
    rw [text, if_neg hfraction]
    simp
  · right
    obtain ⟨e, he⟩ := Option.ne_none_iff_exists'.mp hexponent
    rw [text, he]
    simp [exponentText]

end Literal

/-! ### The digits of a float -/

theorem toDigits_eq_significant (n : ℕ) :
    ∃ zeros, Nat.toDigits 10 n = significant n ++ List.replicate zeros '0' := by
  have hzeros : (Nat.toDigits 10 n).reverse.takeWhile (fun c => c = '0') =
      List.replicate _ '0' :=
    List.eq_replicate_of_mem fun c hc => by simpa using List.mem_takeWhile_imp hc
  have hsplit := congrArg List.reverse
    (List.takeWhile_append_dropWhile (p := fun c => c = '0') (l := (Nat.toDigits 10 n).reverse))
  rw [List.reverse_append, List.reverse_reverse, hzeros, List.reverse_replicate] at hsplit
  exact ⟨_, hsplit.symm⟩

theorem head?_toDigits {n : ℕ} (hn : 0 < n) : (Nat.toDigits 10 n).head? ≠ some '0' := by
  induction n using Nat.strong_induction_on with
  | _ n ih =>
      by_cases hlt : n < 10
      · have hdigit : ∀ d < 10, 0 < d → [d.digitChar].head? ≠ some '0' := by decide
        rw [Nat.toDigits_of_lt_base hlt]
        exact hdigit n hlt hn
      · rw [Nat.toDigits_of_base_le (by decide) (not_lt.mp hlt),
          List.head?_append_of_ne_nil _ Nat.toDigits_ne_nil]
        exact ih (n / 10) (by omega) (by omega)

section Significant

variable {n : ℕ}

theorem significant_digits : ∀ c ∈ significant n, c.isDigit = true := by
  obtain ⟨zeros, hzeros⟩ := toDigits_eq_significant n
  intro c hc
  exact isDigit_toDigits (n := n) (hzeros ▸ List.mem_append_left _ hc)

/-- The zeros that are left out count as a power of ten. -/
theorem ofDigitChars_significant : ∃ zeros, (Nat.toDigits 10 n).length =
    (significant n).length + zeros ∧ n = 10 ^ zeros * Nat.ofDigitChars 10 (significant n) 0 := by
  obtain ⟨zeros, hzeros⟩ := toDigits_eq_significant n
  refine ⟨zeros, by rw [hzeros, List.length_append, List.length_replicate], ?_⟩
  have hvalue := Nat.ofDigitChars_ten_toDigits (n := n)
  rw [hzeros, Nat.ofDigitChars_append, Nat.ofDigitChars_replicate_zero] at hvalue
  exact hvalue.symm

theorem significant_ne_nil (hn : 0 < n) : significant n ≠ [] := by
  intro hnil
  obtain ⟨zeros, -, hvalue⟩ := ofDigitChars_significant (n := n)
  rw [hnil, Nat.ofDigitChars_nil, Nat.mul_zero] at hvalue
  omega

theorem head?_significant (hn : 0 < n) : (significant n).head? ≠ some '0' := by
  obtain ⟨zeros, hzeros⟩ := toDigits_eq_significant n
  have hhead := head?_toDigits hn
  rwa [hzeros, List.head?_append_of_ne_nil _ (significant_ne_nil hn)] at hhead

end Significant

theorem head?_take {digits : List Char} {k : ℕ} (hk : 0 < k) :
    (digits.take k).head? = digits.head? := by
  cases digits with
  | nil => rw [List.take_nil]
  | cons c rest =>
      obtain ⟨k, rfl⟩ := Nat.exists_eq_succ_of_ne_zero hk.ne'
      rfl

theorem literalOf_ok {c : ℕ × ℤ} (hc : 0 < c.1) : (literalOf c).Ok := by
  have hne := significant_ne_nil hc
  have hhead := head?_significant hc
  have hpos : 0 < (significant c.1).length := List.length_pos_iff.mpr hne
  have hzero {k : ℕ} : ∀ d ∈ List.replicate k '0', d.isDigit = true :=
    fun d hd => (List.eq_of_mem_replicate hd).symm ▸ rfl
  unfold literalOf
  dsimp only
  split_ifs with hfixed hsmall hlong
  · constructor
    · exact List.cons_ne_nil _ _
    · exact fun d hd => List.mem_singleton.mp hd ▸ rfl
    · exact List.forall_mem_append.mpr ⟨hzero, significant_digits⟩
    · exact Or.inl rfl
  · constructor
    · exact fun h => hne (List.append_eq_nil_iff.mp h).1
    · exact List.forall_mem_append.mpr ⟨significant_digits, hzero⟩
    · exact fun d hd => List.mem_singleton.mp hd ▸ rfl
    · exact Or.inr (by rwa [List.head?_append_of_ne_nil _ hne])
  · constructor
    · exact fun h => (List.take_eq_nil_iff.mp h).elim (by omega) hne
    · exact fun d hd => significant_digits d (List.mem_of_mem_take hd)
    · exact fun d hd => significant_digits d (List.mem_of_mem_drop hd)
    · exact Or.inr (by rwa [head?_take (by omega)])
  · constructor
    · exact fun h => (List.take_eq_nil_iff.mp h).elim (by decide) hne
    · exact fun d hd => significant_digits d (List.mem_of_mem_take hd)
    · exact fun d hd => significant_digits d (List.mem_of_mem_drop hd)
    · exact Or.inr (by rwa [head?_take (by decide)])

theorem literalOf_real {c : ℕ × ℤ} (hc : 0 < c.1) : (literalOf c).Real := by
  have hne := significant_ne_nil hc
  unfold literalOf
  dsimp only
  split_ifs with hfixed hsmall hlong
  · exact Or.inl fun h => hne (List.append_eq_nil_iff.mp h).2
  · exact Or.inl (List.cons_ne_nil _ _)
  · exact Or.inl fun h => absurd (List.drop_eq_nil_iff.mp h) (by omega)
  · exact Or.inr (Option.some_ne_none _)

/-- The literal says the number of the digits. -/
theorem literalOf_value {c : ℕ × ℤ} (hc : 0 < c.1) :
    (literalOf c).value = c.1 * 10 ^ c.2 := by
  obtain ⟨zeros, hlength, hvalue⟩ := ofDigitChars_significant (n := c.1)
  have hpos := List.length_pos_iff.mpr (significant_ne_nil hc)
  generalize hdigits : significant c.1 = digits at *
  generalize hN : Nat.ofDigitChars 10 digits 0 = N at *
  -- the same number with the point behind the significant digits
  have hscale : (c.1 : ℚ) * 10 ^ c.2 = N * 10 ^ ((zeros : ℤ) + c.2) := by
    rw [zpow_add₀ (by norm_num), zpow_natCast]
    conv_lhs => rw [hvalue]
    push_cast
    ring
  rw [hscale]
  unfold literalOf
  dsimp only
  rw [hdigits, hlength]
  split_ifs with hfixed hsmall hlong
  · have hread : Nat.ofDigitChars 10 (['0'] ++
        (List.replicate (-((digits.length + zeros : ℕ) + c.2 : ℤ)).toNat '0' ++ digits)) 0 = N := by
      rw [List.singleton_append, Nat.ofDigitChars_cons, Nat.ofDigitChars_append,
        Nat.ofDigitChars_replicate_zero]
      exact hN
    simp only [Literal.value, hread, Option.getD_none, List.length_append, List.length_replicate]
    congr 2
    push_cast
    omega
  · have hread : Nat.ofDigitChars 10 (digits ++
          List.replicate ((digits.length + zeros : ℕ) + c.2 - digits.length : ℤ).toNat '0' ++
            ['0']) 0 =
        10 ^ (((digits.length + zeros : ℕ) + c.2 - digits.length : ℤ).toNat + 1) * N := by
      rw [List.append_assoc, Nat.ofDigitChars_append, hN, ← List.replicate_succ',
        Nat.ofDigitChars_replicate_zero]
    simp only [Literal.value, hread, Option.getD_none, List.length_singleton]
    push_cast
    rw [mul_comm _ (N : ℚ), mul_assoc, ← zpow_natCast, ← zpow_add₀ (by norm_num)]
    congr 2
    push_cast
    omega
  · simp only [Literal.value, List.take_append_drop, hN, Option.getD_none, List.length_drop]
    congr 2
    omega
  · simp only [Literal.value, List.take_append_drop, hN, Option.getD_some, List.length_drop]
    congr 2
    omega

/-! ### Floats -/

/-- A number that is a float. -/
def IsDouble (q : ℚ) : Prop := Double.ofRat q = .finite q

instance (q : ℚ) : Decidable (IsDouble q) := inferInstanceAs (Decidable (_ = _))

/-- A multiple of a power of two has an end in decimals. -/
theorem exact_of_multiple {q : ℚ} (hq : 0 < q) {n : ℤ} {k : ℕ} (h : q = n * 2 ^ (-k : ℤ)) :
    ((⌊q * 10 ^ k⌋.toNat : ℕ) : ℚ) * 10 ^ (-k : ℤ) = q := by
  have hint : q * 10 ^ k = ((n * 5 ^ k : ℤ) : ℚ) := by
    have hten : (10 : ℚ) ^ k = 2 ^ (k : ℤ) * 5 ^ k := by
      rw [zpow_natCast, ← mul_pow]
      norm_num
    rw [h, hten, mul_assoc, ← mul_assoc _ ((2 : ℚ) ^ (k : ℤ)), ← zpow_add₀ (by norm_num)]
    simp
  have hnonneg : 0 ≤ n * 5 ^ k := by
    have hpos : 0 < q * 10 ^ k := by positivity
    rw [hint] at hpos
    exact_mod_cast hpos.le
  have hcast : ((⌊q * 10 ^ k⌋.toNat : ℕ) : ℚ) = q * 10 ^ k := by
    rw [hint, Int.floor_intCast]
    exact_mod_cast Int.toNat_of_nonneg hnonneg
  rw [hcast, mul_assoc, ← zpow_natCast, ← zpow_add₀ (by norm_num)]
  simp

/-- Every float is a multiple of the least one. -/
theorem IsDouble.exists_eq {q : ℚ} (h : IsDouble q) :
    ∃ n : ℤ, q = n * 2 ^ (-(1074 : ℕ) : ℤ) := by
  unfold IsDouble Double.ofRat at h
  split at h
  · injection h with h
    have hplace : -((1074 : ℕ) : ℤ) ≤ Double.lastPlace q := le_max_right _ _
    generalize (1074 : ℕ) = least at hplace ⊢
    refine ⟨Double.roundEven (q / 2 ^ Double.lastPlace q) *
      2 ^ (Double.lastPlace q + least).toNat, ?_⟩
    have hpow : (2 : ℚ) ^ Double.lastPlace q =
        2 ^ (Double.lastPlace q + least).toNat * 2 ^ (-least : ℤ) := by
      rw [← zpow_natCast, ← zpow_add₀ (by norm_num)]
      congr 1
      omega
    push_cast
    rw [mul_assoc, ← hpow]
    exact h.symm
  · exact nomatch h

/-- The digits of a float read back as it. -/
theorem ofRat_shortest {q : ℚ} (h : IsDouble q) (hq : 0 < q) :
    Double.ofRat ((shortest q).1 * 10 ^ (shortest q).2) = .finite q ∧ 0 < (shortest q).1 := by
  have hread : Double.ofRat ((shortest q).1 * 10 ^ (shortest q).2) = .finite q := by
    unfold shortest
    cases hfind : ((List.range 17).flatMap fun n => candidates q (n + 1)).find? fun c =>
        Double.ofRat ((c.1 : ℚ) * 10 ^ c.2) = .finite q with
    | none =>
        obtain ⟨n, hn⟩ := h.exists_eq
        have hexact := exact_of_multiple hq hn
        rw [Option.getD_none]
        exact (congrArg Double.ofRat hexact).trans h
    | some c =>
        have hfound := List.find?_some hfind
        exact of_decide_eq_true hfound
  refine ⟨hread, Nat.pos_of_ne_zero fun hzero => ?_⟩
  rw [hzero, Nat.cast_zero, zero_mul] at hread
  have hzero' : Double.ofRat 0 = .finite 0 := by decide +kernel
  rw [hzero'] at hread
  injection hread with hread
  exact hq.ne hread

theorem isDouble_neg {q : ℚ} (h : IsDouble q) : IsDouble (-q) := by
  rw [IsDouble, Double.ofRat_neg, h, Double.neg]

theorem signed_text {l : Literal} (h : l.Ok) : signed l.text = (false, l.text) := by
  obtain ⟨c, rest, htext, hc⟩ := h.text_eq_cons
  rw [htext]
  exact signed_of_digit hc rest

/-- A literal is no word. -/
theorem map_toLower_text {l : Literal} (h : l.Ok) {word : List Char}
    (hword : ∀ c ∈ word.head?, c.isDigit = false) (hne : word ≠ []) :
    l.text.map Char.toLower ≠ word := by
  obtain ⟨c, rest, htext, hc⟩ := h.text_eq_cons
  rw [htext]
  rintro rfl
  have hlower : c.toLower = c := by
    obtain ⟨-, hhigh⟩ := toNat_of_isDigit hc
    refine dif_neg fun hupper => ?_
    have hlow : 65 ≤ c.toNat := UInt32.le_iff_toNat_le.mp hupper.1
    omega
  have hnot := hword _ rfl
  rw [hlower, hc] at hnot
  exact nomatch hnot

theorem float?_of_literal {l : Literal} (h : l.Ok) {s : List Char} {negative : Bool}
    (hsigned : signed s = (negative, l.text)) (hplain : ∀ c ∈ s, Plain c) :
    float? s = some (Double.ofRat (if negative then -l.value else l.value)) := by
  have hinf : l.text.map Char.toLower ≠ "inf".toList :=
    map_toLower_text h (by rintro _ ⟨⟩; decide) (by decide)
  have hinfinity : l.text.map Char.toLower ≠ "infinity".toList :=
    map_toLower_text h (by rintro _ ⟨⟩; decide) (by decide)
  have hnan : l.text.map Char.toLower ≠ "nan".toList :=
    map_toLower_text h (by rintro _ ⟨⟩; decide) (by decide)
  simp only [float?, prepare_of_plain hplain, hsigned, hinf, hinfinity, or_self, if_false, hnan,
    h.unsigned?_text, Option.map_some]

/-- What Python has as a float. -/
def IsFloat : Double → Prop
  | .finite q => IsDouble q
  | _ => True

instance (x : Double) : Decidable (IsFloat x) := by
  cases x <;> unfold IsFloat <;> infer_instance

/-- A finite float is written as a literal with or without a minus. -/
theorem floatText_eq_literal {q : ℚ} (h : IsDouble q) : ∃ (negative : Bool) (l : Literal),
    floatText (.finite q) = (if negative then ['-'] else []) ++ l.text ∧ l.Ok ∧ l.Real ∧
      Double.ofRat (if negative then -l.value else l.value) = .finite q := by
  rw [floatText]
  split_ifs with hzero hneg
  · refine ⟨false, ⟨['0'], ['0'], none⟩, rfl, ?_, Or.inl (List.cons_ne_nil _ _), ?_⟩
    · exact ⟨by decide, forall_mem_of_all (by decide), forall_mem_of_all (by decide), by decide⟩
    · rw [hzero]
      decide +kernel
  · have hpos : 0 < -q := neg_pos.mpr hneg
    obtain ⟨hread, hdigits⟩ := ofRat_shortest (isDouble_neg h) hpos
    refine ⟨true, _, rfl, literalOf_ok hdigits, literalOf_real hdigits, ?_⟩
    rw [if_pos rfl, literalOf_value hdigits, Double.ofRat_neg, hread, Double.neg, neg_neg]
  · have hpos : 0 < q := lt_of_le_of_ne (not_lt.mp hneg) (Ne.symm hzero)
    obtain ⟨hread, hdigits⟩ := ofRat_shortest h hpos
    refine ⟨false, _, rfl, literalOf_ok hdigits, literalOf_real hdigits, ?_⟩
    rw [if_neg (by decide), literalOf_value hdigits, hread]

theorem plain_floatText {x : Double} (h : IsFloat x) : ∀ c ∈ floatText x, Plain c := by
  cases x with
  | nan => exact forall_mem_of_all (by decide)
  | inf negative => cases negative <;> exact forall_mem_of_all (by decide)
  | finite q =>
      obtain ⟨negative, l, htext, hok, -, -⟩ := floatText_eq_literal h
      rw [htext]
      refine List.forall_mem_append.mpr ⟨?_, hok.plain_text⟩
      cases negative <;> exact forall_mem_of_all (by decide)

/-- **A float reads back.** -/
theorem float?_floatText {x : Double} (h : IsFloat x) : float? (floatText x) = some x := by
  cases x with
  | nan => decide +kernel
  | inf negative => cases negative <;> decide +kernel
  | finite q =>
      have hplain := plain_floatText h
      obtain ⟨negative, l, htext, hok, -, hread⟩ := floatText_eq_literal h
      have hsigned : signed (floatText (.finite q)) = (negative, l.text) := by
        rw [htext]
        cases negative with
        | true => rfl
        | false => exact signed_text hok
      rw [float?_of_literal hok hsigned hplain, hread]

/-- A float is no integer. -/
theorem int?_floatText {x : Double} (h : IsFloat x) : int? (floatText x) = none := by
  have hnone {c : Char} (hc : c ∈ floatText x) (hother : c ∈ ['.', 'e', 'n']) :
      int? (floatText x) = none := by
    have hfacts : ∀ c ∈ ['.', 'e', 'n'], c.isDigit = false ∧ c ≠ '-' ∧ c ≠ '+' :=
      forall_mem_of_all (by decide)
    obtain ⟨hdigit, hminus, hplus⟩ := hfacts c hother
    exact int?_eq_none (plain_floatText h) hc hdigit hminus hplus
  cases x with
  | nan => exact hnone (c := 'n') (by decide) (by decide)
  | inf negative => exact hnone (c := 'n') (by cases negative <;> decide) (by decide)
  | finite q =>
      obtain ⟨negative, l, htext, -, hreal, -⟩ := floatText_eq_literal h
      rcases hreal.point_or_exponent with hmem | hmem
      · exact hnone (htext ▸ List.mem_append_right _ hmem) (by decide)
      · exact hnone (htext ▸ List.mem_append_right _ hmem) (by decide)

end Numerals
