import DiepLab.JsonText
import DiepLab.Library.Numerals

/-!
JSON texts, character by character.

`dumpsText` writes the tokens of a value as `json.dumps` does, in ASCII, and
`loadsText` reads any text as `json.loads` does: blanks are skipped, strings have
their escapes, a number is as long as it can be. What is not a token of the
grammar ends both with none, and so does an integer of too many digits.

`loadsText_dumpsText` is the round trip, on the characters as `loads_dumps` is on
the tokens.
-/

namespace DiepLab

open Numerals

def quote : Char := '\x22'

def backslash : Char := '\x5c'

/-! ### Writing -/

/-- The escapes of one character. -/
def shortEscapes : List (Char × Char) := [
  (quote, quote), (backslash, backslash), ('/', '/'), ('b', '\x08'), ('f', '\x0c'), ('n', '\n'),
  ('r', '\r'), ('t', '\t')]

/-- `\uXXXX`. -/
def unicodeEscape (n : ℕ) : List Char :=
  [backslash, 'u', (n / 4096).digitChar, (n / 256 % 16).digitChar, (n / 16 % 16).digitChar,
    (n % 16).digitChar]

def escapeChar (c : Char) : List Char :=
  if c ≠ '/' ∧ c ∈ shortEscapes.map Prod.snd then
    backslash :: ((shortEscapes.find? fun e => e.2 = c).map Prod.fst).toList
  else if 32 ≤ c.toNat ∧ c.toNat ≤ 126 then [c]
  else if c.toNat < 0x10000 then unicodeEscape c.toNat
  -- what is beyond has two surrogates
  else unicodeEscape (0xD800 + (c.toNat - 0x10000) / 1024) ++
    unicodeEscape (0xDC00 + (c.toNat - 0x10000) % 1024)

def stringText (s : String) : List Char := quote :: (s.toList.flatMap escapeChar ++ [quote])

/-- The words of the grammar. -/
def jsonWords : List (List Char × JsonToken) := [
  ("null".toList, .null), ("true".toList, .bool true), ("false".toList, .bool false),
  ("NaN".toList, .num (.float .nan)), ("Infinity".toList, .num (.float (.inf false))),
  ("-Infinity".toList, .num (.float (.inf true)))]

def jsonFloat : Double → List Char
  | .nan => "NaN".toList
  | .inf negative => if negative then "-Infinity".toList else "Infinity".toList
  | x => floatText x

/-- The text of a token, or none where writing it raises `ValueError`. -/
def tokenText? : JsonToken → Option (List Char)
  | .openBrace => some ['\x7b']
  | .closeBrace => some ['\x7d']
  | .openBracket => some ['[']
  | .closeBracket => some [']']
  | .comma => some [',', ' ']
  | .colon => some [':', ' ']
  | .null => some "null".toList
  | .bool b => some (if b then "true".toList else "false".toList)
  | .num (.int n) => intText? n
  | .num (.float x) => some (jsonFloat x)
  | .str s => some (stringText s)

/-- `json.dumps`, or none where it raises `ValueError`. -/
def dumpsText? (v : PyValue) : Option (List Char) :=
  ((dumps v).mapM tokenText?).map List.flatten

/-! ### Reading -/

def hexValue? (c : Char) : Option ℕ :=
  if c.isDigit then some (c.toNat - 48)
  else if 97 ≤ c.toNat ∧ c.toNat ≤ 102 then some (c.toNat - 87)
  else if 65 ≤ c.toNat ∧ c.toNat ≤ 70 then some (c.toNat - 55)
  else none

def hex4? : List Char → Option (ℕ × List Char)
  | a :: b :: c :: d :: rest => do
      let a ← hexValue? a
      let b ← hexValue? b
      let c ← hexValue? c
      let d ← hexValue? d
      some (a * 4096 + b * 256 + c * 16 + d, rest)
  | _ => none

/-- The second of two surrogates. -/
def lowSurrogate? : List Char → Option (ℕ × List Char)
  | c :: 'u' :: rest =>
      if c = backslash then (hex4? rest).filter fun n => 0xDC00 ≤ n.1 ∧ n.1 ≤ 0xDFFF else none
  | _ => none

/-- A surrogate alone is no character of a `String`, and is read as U+FFFD. -/
def readUnicode (s : List Char) : Option (Char × List Char) :=
  (hex4? s).map fun (n, rest) =>
    if 0xD800 ≤ n ∧ n ≤ 0xDBFF then
      match lowSurrogate? rest with
      | some (low, rest) => (Char.ofNat (0x10000 + (n - 0xD800) * 1024 + (low - 0xDC00)), rest)
      | none => ('\ufffd', rest)
    else if 0xDC00 ≤ n ∧ n ≤ 0xDFFF then ('\ufffd', rest)
    else (Char.ofNat n, rest)

/-- One character of a string. Control characters have to be escaped. -/
def readChar : List Char → Option (Char × List Char)
  | [] => none
  | c :: rest =>
      if c = backslash then
        match rest with
        | [] => none
        | e :: rest =>
            if e = 'u' then readUnicode rest
            else (shortEscapes.lookup e).map fun c => (c, rest)
      else if c.toNat < 32 then none
      else some (c, rest)

/-- A string up to its quote. The fuel is more than its length. -/
def readString : ℕ → List Char → Option (List Char × List Char)
  | 0, _ => none
  | _ + 1, [] => none
  | n + 1, c :: rest =>
      if c = quote then some ([], rest)
      else do
        let (d, rest) ← readChar (c :: rest)
        let (chars, rest) ← readString n rest
        some (d :: chars, rest)

/-- The point and the digits after it, if there are any. -/
def readFraction : List Char → List Char × List Char
  | '.' :: rest =>
      if rest.takeWhile Char.isDigit = [] then ([], '.' :: rest)
      else ('.' :: rest.takeWhile Char.isDigit, rest.dropWhile Char.isDigit)
  | rest => ([], rest)

/-- The sign of an exponent. -/
def readSign : List Char → List Char × List Char
  | '-' :: rest => (['-'], rest)
  | '+' :: rest => (['+'], rest)
  | rest => ([], rest)

def readExponent : List Char → List Char × List Char
  | [] => ([], [])
  | c :: rest =>
      let (sign, body) := readSign rest
      if (c = 'e' ∨ c = 'E') ∧ body.takeWhile Char.isDigit ≠ [] then
        (c :: (sign ++ body.takeWhile Char.isDigit), body.dropWhile Char.isDigit)
      else ([], c :: rest)

/-- The minus of a number. -/
def readMinus : List Char → List Char × List Char
  | '-' :: rest => (['-'], rest)
  | rest => ([], rest)

/-- A number is an integer unless it has a fraction or an exponent. -/
def readNumber (s : List Char) : Option (Number × List Char) :=
  let (minus, body) := readMinus s
  let whole := if body.head? = some '0' then ['0'] else body.takeWhile Char.isDigit
  if whole = [] then none
  else
    let (fraction, rest) := readFraction (body.drop whole.length)
    let (exponent, rest) := readExponent rest
    if fraction = [] ∧ exponent = [] then (int? (minus ++ whole)).map fun n => (.int n, rest)
    else (float? (minus ++ (whole ++ (fraction ++ exponent)))).map fun x => (.float x, rest)

def isJsonBlank (c : Char) : Bool := c = ' ' ∨ c = '\t' ∨ c = '\n' ∨ c = '\r'

/-- The signs of the grammar. -/
def jsonSigns : List (Char × JsonToken) := [
  ('\x7b', .openBrace), ('\x7d', .closeBrace), ('[', .openBracket), (']', .closeBracket),
  (',', .comma), (':', .colon)]

def readToken (s : List Char) : Option (JsonToken × List Char) :=
  match s with
  | [] => none
  | c :: rest =>
      if c = quote then
        (readString (rest.length + 1) rest).map fun (chars, rest) =>
          (.str (String.ofList chars), rest)
      else
        match jsonSigns.lookup c with
        | some token => some (token, rest)
        | none =>
            match jsonWords.find? fun w => w.1.isPrefixOf s with
            | some w => some (w.2, s.drop w.1.length)
            | none => (readNumber s).map fun (x, rest) => (.num x, rest)

/-- The tokens of a text. The fuel is more than its length. -/
def readTokens : ℕ → List Char → Option (List JsonToken)
  | 0, _ => none
  | n + 1, s =>
      match s.dropWhile isJsonBlank with
      | [] => some []
      | c :: rest => do
          let (token, rest) ← readToken (c :: rest)
          let tokens ← readTokens n rest
          some (token :: tokens)

/-- `json.loads`, or none where it raises `ValueError`. -/
def loadsText (s : List Char) : Option PyValue := (readTokens (s.length + 1) s).bind loads

/-! ### Strings -/

theorem hexValue?_digitChar {d : ℕ} (h : d < 16) : hexValue? d.digitChar = some d := by
  have hall : ∀ d < 16, hexValue? d.digitChar = some d := by decide
  exact hall d h

theorem hex4?_digits {n : ℕ} (h : n < 0x10000) (rest : List Char) :
    hex4? ((n / 4096).digitChar :: (n / 256 % 16).digitChar :: (n / 16 % 16).digitChar ::
      (n % 16).digitChar :: rest) = some (n, rest) := by
  simp only [hex4?, hexValue?_digitChar (Nat.mod_lt _ (by decide : 0 < 16)),
    hexValue?_digitChar (by omega : n / 4096 < 16), Option.bind_eq_bind, Option.bind_some,
    Option.some.injEq, Prod.mk.injEq, and_true]
  omega

/-- The code of a character is not that of a surrogate. -/
theorem toNat_cases (c : Char) : c.toNat < 0xD800 ∨ 0xDFFF < c.toNat ∧ c.toNat < 0x110000 :=
  c.valid

theorem readUnicode_escape {c : Char} (h : c.toNat < 0x10000) (rest : List Char) :
    readUnicode ((unicodeEscape c.toNat).drop 2 ++ rest) = some (c, rest) := by
  have hvalid := toNat_cases c
  rw [unicodeEscape, List.drop_succ_cons, List.drop_succ_cons, List.drop_zero]
  simp only [List.cons_append, List.nil_append]
  rw [readUnicode, hex4?_digits h, Option.map_some]
  dsimp only
  rw [if_neg (by omega), if_neg (by omega), Char.ofNat_toNat]

/-- Two surrogates are one character. -/
theorem readUnicode_pair {c : Char} (h : 0x10000 ≤ c.toNat) (rest : List Char) :
    readUnicode ((unicodeEscape (0xD800 + (c.toNat - 0x10000) / 1024)).drop 2 ++
      (unicodeEscape (0xDC00 + (c.toNat - 0x10000) % 1024) ++ rest)) = some (c, rest) := by
  have hvalid := toNat_cases c
  have hhigh : 0xD800 + (c.toNat - 0x10000) / 1024 < 0x10000 := by omega
  have hlow : 0xDC00 + (c.toNat - 0x10000) % 1024 < 0x10000 := by omega
  have hsecond : lowSurrogate?
      (unicodeEscape (0xDC00 + (c.toNat - 0x10000) % 1024) ++ rest) =
        some (0xDC00 + (c.toNat - 0x10000) % 1024, rest) := by
    simp only [unicodeEscape, List.cons_append, List.nil_append, lowSurrogate?, if_true]
    rw [hex4?_digits hlow, Option.filter_some, if_pos (by simp; omega)]
  have hjoin : 0x10000 + (0xD800 + (c.toNat - 0x10000) / 1024 - 0xD800) * 1024 +
      (0xDC00 + (c.toNat - 0x10000) % 1024 - 0xDC00) = c.toNat := by
    omega
  rw [unicodeEscape, List.drop_succ_cons, List.drop_succ_cons, List.drop_zero]
  simp only [List.cons_append, List.nil_append]
  rw [readUnicode, hex4?_digits hhigh, Option.map_some]
  dsimp only
  rw [if_pos (by omega), hsecond]
  simp only [hjoin, Char.ofNat_toNat]

theorem readChar_escape (e : Char) (rest : List Char) :
    readChar (backslash :: e :: rest) =
      if e = 'u' then readUnicode rest
      else (shortEscapes.lookup e).map fun c => (c, rest) := by
  rw [readChar, if_pos rfl]

theorem readChar_plain {c : Char} (hc : c ≠ backslash) (hcontrol : ¬ c.toNat < 32)
    (rest : List Char) : readChar (c :: rest) = some (c, rest) := by
  cases rest with
  | nil => rw [readChar, if_neg hc, if_neg hcontrol]
  | cons d rest => rw [readChar, if_neg hc, if_neg hcontrol]

/-- What an escape or a character begins with is no quote. -/
theorem escapeChar_eq_cons (c : Char) (rest : List Char) :
    ∃ d more, escapeChar c ++ rest = d :: more ∧ d ≠ quote ∧
      readChar (d :: more) = some (c, rest) := by
  unfold escapeChar
  split
  · rename_i hshort
    have hread : ∀ e ∈ shortEscapes, e.2 ≠ '/' →
        shortEscapes.find? (fun e' => e'.2 = e.2) = some e ∧ e.1 ≠ 'u' ∧
          shortEscapes.lookup e.1 = some e.2 := by
      decide
    obtain ⟨e, he, rfl⟩ := List.mem_map.mp hshort.2
    obtain ⟨hfind, hu, hlookup⟩ := hread e he hshort.1
    refine ⟨backslash, e.1 :: rest, by rw [hfind]; rfl, by decide, ?_⟩
    rw [readChar_escape, if_neg hu, hlookup]
    rfl
  · rename_i hshort
    have hshort' : c ≠ quote ∧ c ≠ backslash := by
      constructor
      · rintro rfl
        exact hshort (by decide)
      · rintro rfl
        exact hshort (by decide)
    split
    · rename_i hplain
      refine ⟨c, rest, rfl, hshort'.1, ?_⟩
      exact readChar_plain hshort'.2 (by omega) rest
    · split
      · rename_i hsmall
        refine ⟨backslash, _, rfl, by decide, (readChar_escape 'u' _).trans ?_⟩
        exact readUnicode_escape hsmall rest
      · rename_i hlarge
        rw [List.append_assoc]
        refine ⟨backslash, _, rfl, by decide, (readChar_escape 'u' _).trans ?_⟩
        exact readUnicode_pair (not_lt.mp hlarge) rest

theorem readString_escaped (chars rest : List Char) {n : ℕ} (hn : chars.length < n) :
    readString n (chars.flatMap escapeChar ++ quote :: rest) = some (chars, rest) := by
  induction chars generalizing n with
  | nil =>
      obtain ⟨n, rfl⟩ := Nat.exists_eq_succ_of_ne_zero (Nat.ne_zero_of_lt hn)
      rw [List.flatMap_nil, List.nil_append, readString, if_pos rfl]
  | cons c chars ih =>
      obtain ⟨n, rfl⟩ := Nat.exists_eq_succ_of_ne_zero (Nat.ne_zero_of_lt hn)
      rw [List.flatMap_cons, List.append_assoc]
      obtain ⟨d, more, happend, hquote, hread⟩ :=
        escapeChar_eq_cons c (chars.flatMap escapeChar ++ quote :: rest)
      rw [happend, readString, if_neg hquote, hread]
      simp only [Option.bind_eq_bind, Option.bind_some]
      rw [ih (Nat.lt_of_succ_lt_succ hn)]
      rfl

/-- A string has a character for each of its own at least. -/
theorem length_le_flatMap_escapeChar (chars : List Char) :
    chars.length ≤ (chars.flatMap escapeChar).length := by
  induction chars with
  | nil => exact Nat.le_refl _
  | cons c chars ih =>
      obtain ⟨d, more, happend, -, -⟩ := escapeChar_eq_cons c []
      rw [List.append_nil] at happend
      rw [List.flatMap_cons, List.length_append, happend]
      simp only [List.length_cons]
      omega

theorem readToken_stringText (s : String) (rest : List Char) :
    readToken (stringText s ++ rest) = some (.str s, rest) := by
  have hlength := length_le_flatMap_escapeChar s.toList
  have hread := readString_escaped s.toList rest
    (n := ((s.toList.flatMap escapeChar ++ [quote]) ++ rest).length + 1)
    (by simp only [List.length_append]; omega)
  rw [stringText, List.cons_append, readToken, if_pos rfl]
  rw [List.append_assoc, List.singleton_append] at hread ⊢
  rw [hread, Option.map_some]
  simp only [String.ofList_toList]

/-! ### Numbers -/

/-- A number ends where this follows. -/
def Stops (rest : List Char) : Prop :=
  ∀ c ∈ rest.head?, c.isDigit = false ∧ c ≠ '.' ∧ c ≠ 'e' ∧ c ≠ 'E'

theorem readExponent_of_stops {rest : List Char} (h : Stops rest) :
    readExponent rest = ([], rest) := by
  cases rest with
  | nil => rfl
  | cons c rest =>
      obtain ⟨-, -, he, hE⟩ := h c rfl
      simp only [readExponent, he, hE, or_self, false_and, if_false]

theorem readExponent_exponentText (e : ℤ) {rest : List Char} (h : Stops rest) :
    readExponent (exponentText e ++ rest) = (exponentText e, rest) := by
  have hdigits : ∀ c ∈ (if e.natAbs < 10 then '0' :: Nat.toDigits 10 e.natAbs
      else Nat.toDigits 10 e.natAbs), c.isDigit = true := by
    split
    · exact List.forall_mem_cons.mpr ⟨by decide, fun c => isDigit_toDigits⟩
    · exact fun c => isDigit_toDigits
  have hne : (if e.natAbs < 10 then '0' :: Nat.toDigits 10 e.natAbs
      else Nat.toDigits 10 e.natAbs) ≠ [] := by
    split
    · exact List.cons_ne_nil _ _
    · exact Nat.toDigits_ne_nil
  obtain ⟨htake, hdrop⟩ := takeWhile_digits hdigits fun c hc => (h c hc).1
  rw [exponentText, List.cons_append, List.cons_append]
  split
  · simp only [readExponent, readSign, htake, hdrop, true_or, ne_eq, hne, not_false_iff, and_self,
      if_true, List.cons_append, List.nil_append]
  · simp only [readExponent, readSign, htake, hdrop, true_or, ne_eq, hne, not_false_iff, and_self,
      if_true, List.cons_append, List.nil_append]

section Literal

variable {l : Literal}

theorem readExponent_tail (l : Literal) {rest : List Char} (h : Stops rest) :
    readExponent (l.exponent.elim [] exponentText ++ rest) =
      (l.exponent.elim [] exponentText, rest) := by
  cases l.exponent with
  | none => exact readExponent_of_stops h
  | some e => exact readExponent_exponentText e h

/-- What follows the fraction is not a digit, nor a point. -/
theorem head?_exponent_append (l : Literal) {rest : List Char} (h : Stops rest) :
    ∀ c ∈ (l.exponent.elim [] exponentText ++ rest).head?, c.isDigit = false ∧ c ≠ '.' := by
  cases l.exponent with
  | none => exact fun c hc => ⟨(h c hc).1, (h c hc).2.1⟩
  | some e =>
      intro c hc
      obtain rfl : 'e' = c := Option.some.inj hc
      decide

theorem readFraction_tail (hok : l.Ok) {rest : List Char} (h : Stops rest) :
    readFraction ((if l.fraction = [] then [] else '.' :: l.fraction) ++
        (l.exponent.elim [] exponentText ++ rest)) =
      (if l.fraction = [] then [] else '.' :: l.fraction,
        l.exponent.elim [] exponentText ++ rest) := by
  have hhead := head?_exponent_append l h
  by_cases hfraction : l.fraction = []
  · rw [if_pos hfraction, List.nil_append]
    generalize l.exponent.elim [] exponentText ++ rest = tail at hhead
    unfold readFraction
    split
    · exact absurd rfl (hhead '.' rfl).2
    · rfl
  · obtain ⟨htake, hdrop⟩ := takeWhile_digits hok.fraction_digits fun c hc => (hhead c hc).1
    rw [if_neg hfraction, List.cons_append, readFraction, htake, hdrop, if_neg hfraction]

/-- The digits before the point. -/
theorem whole_of_text (hok : l.Ok) {rest : List Char} (h : Stops rest) :
    (if (l.text ++ rest).head? = some '0' then ['0']
      else (l.text ++ rest).takeWhile Char.isDigit) = l.whole := by
  have hhead := head?_exponent_append l h
  have htail : ∀ c ∈ ((if l.fraction = [] then [] else '.' :: l.fraction) ++
      (l.exponent.elim [] exponentText ++ rest)).head?, c.isDigit = false := by
    by_cases hfraction : l.fraction = []
    · rw [if_pos hfraction, List.nil_append]
      exact fun c hc => (hhead c hc).1
    · rw [if_neg hfraction]
      intro c hc
      obtain rfl : '.' = c := Option.some.inj hc
      decide
  rw [Literal.text, List.append_assoc, List.append_assoc,
    (takeWhile_digits hok.whole_digits htail).1, List.head?_append_of_ne_nil _ hok.whole_ne_nil]
  rcases hok.whole_zero with hzero | hnonzero
  · rw [hzero]
    rfl
  · exact if_neg hnonzero

/-- A literal is read whole. -/
theorem readNumber_text (hok : l.Ok) {minus : List Char} (hminus : minus = [] ∨ minus = ['-'])
    {rest : List Char} (h : Stops rest) :
    readNumber (minus ++ (l.text ++ rest)) =
      if l.fraction = [] ∧ l.exponent = none then
        (int? (minus ++ l.text)).map fun n => (.int n, rest)
      else (float? (minus ++ l.text)).map fun x => (.float x, rest) := by
  have hread : readMinus (minus ++ (l.text ++ rest)) = (minus, l.text ++ rest) := by
    rcases hminus with rfl | rfl
    · obtain ⟨c, more, htext, hc⟩ := hok.text_eq_cons
      rw [htext, List.nil_append, List.cons_append]
      unfold readMinus
      split
      · exact absurd hc (by simp_all)
      · rfl
    · rfl
  have hdrop : (l.text ++ rest).drop l.whole.length =
      (if l.fraction = [] then [] else '.' :: l.fraction) ++
        (l.exponent.elim [] exponentText ++ rest) := by
    rw [Literal.text, List.append_assoc, List.drop_left, List.append_assoc]
  have hempty : ((if l.fraction = [] then [] else '.' :: l.fraction) = [] ∧
      l.exponent.elim [] exponentText = []) ↔ l.fraction = [] ∧ l.exponent = none := by
    refine and_congr ?_ ?_
    · split <;> simp_all
    · cases l.exponent with
      | none => simp
      | some e => simp [exponentText]
  simp only [readNumber, hread, whole_of_text hok h, if_neg hok.whole_ne_nil, hdrop,
    readFraction_tail hok h, readExponent_tail l h, hempty]
  split
  · rename_i hint
    rw [Literal.text, if_pos hint.1, hint.2]
    simp
  · rfl

end Literal

/-! ### Tokens -/

/-- A number is none of the words, which have no digit at the front. -/
theorem find?_jsonWords {c : Char} (hc : c.isDigit = true) {minus : List Char}
    (hminus : minus = [] ∨ minus = ['-']) (rest : List Char) :
    jsonWords.find? (fun w => w.1.isPrefixOf (minus ++ c :: rest)) = none := by
  have hother {d : Char} (hd : d.isDigit = false) : (d == c) = false := by
    rw [beq_eq_false_iff_ne]
    rintro rfl
    exact nomatch hc.symm.trans hd
  have hhead : ∀ w ∈ jsonWords,
      2 ≤ w.1.length ∧ (w.1.take 2).all (fun d => ! d.isDigit) = true := by decide
  rw [List.find?_eq_none]
  intro w hw
  obtain ⟨hlength, hdigits⟩ := hhead w hw
  obtain ⟨d, e, more, htext⟩ : ∃ d e more, w.1 = d :: e :: more := by
    rcases htext : w.1 with _ | ⟨d, _ | ⟨e, more⟩⟩
    · exact absurd hlength (by simp [htext])
    · exact absurd hlength (by simp [htext])
    · exact ⟨d, e, more, rfl⟩
  rw [htext] at hdigits ⊢
  obtain ⟨hd, he⟩ : d.isDigit = false ∧ e.isDigit = false := by simpa using hdigits
  rcases hminus with rfl | rfl
  · simp only [List.nil_append, List.isPrefixOf, hother hd, Bool.false_and]
    exact Bool.false_ne_true
  · simp only [List.cons_append, List.nil_append, List.isPrefixOf, hother he, Bool.false_and,
      Bool.and_false]
    exact Bool.false_ne_true

theorem readToken_text {l : Literal} (hok : l.Ok) {minus : List Char}
    (hminus : minus = [] ∨ minus = ['-']) (rest : List Char) :
    readToken (minus ++ (l.text ++ rest)) =
      (readNumber (minus ++ (l.text ++ rest))).map fun (x, rest) => (.num x, rest) := by
  have hsigns : ∀ e ∈ jsonSigns, e.1.isDigit = false ∧ e.1 ≠ '-' := by decide
  obtain ⟨d, more, htext, hd⟩ := hok.text_eq_cons
  have hwords := find?_jsonWords hd hminus (more ++ rest)
  have hnone {c : Char} (hc : c.isDigit = true ∨ c = '-') : jsonSigns.lookup c = none := by
    rw [List.lookup_eq_none_iff]
    intro e he
    obtain ⟨hdigit, hminus⟩ := hsigns e he
    rw [bne_iff_ne]
    rcases hc with hc | rfl
    · rintro rfl
      exact nomatch hc.symm.trans hdigit
    · exact Ne.symm hminus
  rw [htext, List.cons_append]
  rcases hminus with rfl | rfl
  · rw [List.nil_append] at hwords ⊢
    rw [readToken, if_neg (by rintro rfl; exact absurd hd (by decide)), hnone (Or.inl hd), hwords]
  · rw [List.singleton_append] at hwords ⊢
    rw [readToken, if_neg (by decide), hnone (Or.inr rfl), hwords]

/-- The literal of an integer. -/
theorem intLiteral_ok (n : ℕ) : (Literal.mk (Nat.toDigits 10 n) [] none).Ok where
  whole_ne_nil := Nat.toDigits_ne_nil
  whole_digits := fun _ => isDigit_toDigits
  fraction_digits := nofun
  whole_zero := by
    rcases Nat.eq_zero_or_pos n with rfl | hn
    · exact Or.inl rfl
    · exact Or.inr (head?_toDigits hn)

theorem readToken_int {n : ℤ} {t rest : List Char} (h : intText? n = some t) (hstops : Stops rest) :
    readToken (t ++ rest) = some (.num (.int n), rest) := by
  have hok := intLiteral_ok n.natAbs
  have hread := int?_intText h
  have htext : (Literal.mk (Nat.toDigits 10 n.natAbs) [] none).text = Nat.toDigits 10 n.natAbs := by
    simp [Literal.text]
  obtain ⟨minus, hminus, rfl⟩ : ∃ minus, (minus = [] ∨ minus = ['-']) ∧
      t = minus ++ Nat.toDigits 10 n.natAbs := by
    rw [(intText?_eq h).1, intDigits]
    split
    · exact ⟨['-'], Or.inr rfl, rfl⟩
    · exact ⟨[], Or.inl rfl, rfl⟩
  rw [← htext] at hread ⊢
  rw [List.append_assoc, readToken_text hok hminus, readNumber_text hok hminus hstops,
    if_pos ⟨rfl, rfl⟩, hread]
  rfl

theorem readToken_float {x : Double} {rest : List Char} (h : IsFloat x) (hstops : Stops rest) :
    readToken (jsonFloat x ++ rest) = some (.num (.float x), rest) := by
  cases x with
  | nan => rfl
  | inf negative => cases negative <;> rfl
  | finite q =>
      have hread := float?_floatText h
      obtain ⟨negative, l, htext, hok, hreal, -⟩ := floatText_eq_literal h
      have hminus : (if negative then ['-'] else []) = [] ∨
          (if negative then ['-'] else []) = ['-'] := by
        cases negative
        · exact Or.inl rfl
        · exact Or.inr rfl
      have hnot : ¬ (l.fraction = [] ∧ l.exponent = none) := fun hnone =>
        hreal.elim (fun hfraction => hfraction hnone.1) fun hexponent => hexponent hnone.2
      rw [htext] at hread
      rw [jsonFloat, htext, List.append_assoc, readToken_text hok hminus,
        readNumber_text hok hminus hstops, if_neg hnot, hread]
      · rfl
      · exact nofun
      · exact nofun

/-- A token is read as it was written, up to the blank after a comma or a colon. -/
theorem readToken_tokenText {token : JsonToken} {t rest : List Char} (h : tokenText? token = some t)
    (hfloat : ∀ x, token = .num (.float x) → IsFloat x)
    (hstops : ∀ x, token = .num x → Stops rest) :
    ∃ tail, readToken (t ++ rest) = some (token, tail) ∧
      tail.dropWhile isJsonBlank = rest.dropWhile isJsonBlank := by
  cases token with
  | num x =>
      cases x with
      | int n => exact ⟨rest, readToken_int h (hstops _ rfl), rfl⟩
      | float x =>
          injection h with h
          exact ⟨rest, h ▸ readToken_float (hfloat x rfl) (hstops _ rfl), rfl⟩
  | str s =>
      injection h with h
      exact ⟨rest, h ▸ readToken_stringText s rest, rfl⟩
  | bool b =>
      injection h with h
      cases b <;> exact ⟨rest, h ▸ rfl, rfl⟩
  | comma =>
      injection h with h
      exact ⟨' ' :: rest, h ▸ rfl, rfl⟩
  | colon =>
      injection h with h
      exact ⟨' ' :: rest, h ▸ rfl, rfl⟩
  | _ =>
      injection h with h
      exact ⟨rest, h ▸ rfl, rfl⟩

theorem readToken_blank {c : Char} (hc : isJsonBlank c = true) (rest : List Char) :
    readToken (c :: rest) = none := by
  simp only [isJsonBlank, decide_eq_true_eq] at hc
  rcases hc with rfl | rfl | rfl | rfl
  all_goals rfl

/-- No token begins with a blank. -/
theorem tokenText_eq_cons {token : JsonToken} {t : List Char} (h : tokenText? token = some t)
    (hfloat : ∀ x, token = .num (.float x) → IsFloat x) :
    ∃ c more, t = c :: more ∧ isJsonBlank c = false := by
  have hend : ∀ x, token = .num x → Stops [] := fun _ _ => nofun
  obtain ⟨tail, hread, -⟩ := readToken_tokenText h hfloat hend
  rw [List.append_nil] at hread
  cases t with
  | nil => exact nomatch hread
  | cons c more =>
      refine ⟨c, more, rfl, Bool.eq_false_of_not_eq_true fun hc => ?_⟩
      rw [readToken_blank hc] at hread
      exact nomatch hread

/-! ### Texts -/

/-- What may follow a number. -/
def afterNumber : List JsonToken := [.comma, .closeBracket, .closeBrace]

/-- After a number comes a comma or an end. -/
def Separated : List JsonToken → Prop :=
  List.IsChain fun a b => ∀ x, a = .num x → b ∈ afterNumber

theorem stops_of_afterNumber {token : JsonToken} (h : token ∈ afterNumber) {t : List Char}
    (htext : tokenText? token = some t) (rest : List Char) : Stops (t ++ rest) := by
  simp only [afterNumber, List.mem_cons, List.not_mem_nil, or_false] at h
  rcases h with rfl | rfl | rfl
  all_goals
    injection htext with htext
    subst htext
    intro c hc
    injection hc with hc
    subst hc
    decide

theorem readTokens_congr {s s' : List Char}
    (h : s.dropWhile isJsonBlank = s'.dropWhile isJsonBlank) (n : ℕ) :
    readTokens n s = readTokens n s' := by
  cases n with
  | zero => rfl
  | succ n => rw [readTokens, h, readTokens]

theorem readTokens_texts {tokens : List JsonToken} {texts : List (List Char)}
    (h : tokens.mapM tokenText? = some texts)
    (hfloat : ∀ x, .num (.float x) ∈ tokens → IsFloat x) (hseparated : Separated tokens) {n : ℕ}
    (hn : tokens.length < n) : readTokens n texts.flatten = some tokens := by
  induction tokens generalizing texts n with
  | nil =>
      obtain ⟨n, rfl⟩ := Nat.exists_eq_succ_of_ne_zero (Nat.ne_zero_of_lt hn)
      obtain rfl : [] = texts := by simpa using h
      rfl
  | cons token tokens ih =>
      obtain ⟨n, rfl⟩ := Nat.exists_eq_succ_of_ne_zero (Nat.ne_zero_of_lt hn)
      rw [List.mapM_cons] at h
      obtain ⟨t, htext, h⟩ := Option.bind_eq_some_iff.mp h
      obtain ⟨texts', htexts, h⟩ := Option.bind_eq_some_iff.mp h
      obtain rfl : t :: texts' = texts := Option.some.inj h
      obtain ⟨hafter, htail⟩ := List.isChain_cons.mp hseparated
      have hstops : ∀ x, token = .num x → Stops texts'.flatten := by
        rintro x rfl
        cases tokens with
        | nil =>
            obtain rfl : [] = texts' := by simpa using htexts
            exact nofun
        | cons next tokens =>
            rw [List.mapM_cons] at htexts
            obtain ⟨t', htext', htexts⟩ := Option.bind_eq_some_iff.mp htexts
            obtain ⟨texts, -, htexts⟩ := Option.bind_eq_some_iff.mp htexts
            obtain rfl : t' :: texts = texts' := Option.some.inj htexts
            exact stops_of_afterNumber (hafter next rfl x rfl) htext' _
      have hhead : ∀ x, token = .num (.float x) → IsFloat x :=
        fun x hx => hfloat x (hx ▸ List.mem_cons_self)
      obtain ⟨tail, hread, hblank⟩ := readToken_tokenText htext hhead hstops
      obtain ⟨c, more, rfl, hc⟩ := tokenText_eq_cons htext hhead
      rw [List.flatten_cons, readTokens, List.cons_append,
        List.dropWhile_cons_of_neg (by simp [hc])]
      rw [List.cons_append] at hread
      simp only [hread, Option.bind_eq_bind, Option.bind_some]
      have htexts' := ih htexts (fun x hx => hfloat x (List.mem_cons_of_mem _ hx)) htail
        (Nat.lt_of_succ_lt_succ hn)
      rw [readTokens_congr hblank, htexts']
      rfl

/-- What follows a value. -/
def EndsValue (rest : List JsonToken) : Prop := ∀ b ∈ rest.head?, b ∈ afterNumber

theorem separated_cons {token : JsonToken} (htoken : ∀ x, token ≠ .num x) {rest : List JsonToken}
    (h : Separated rest) : Separated (token :: rest) :=
  h.cons fun _ _ x hx => absurd hx (htoken x)

mutual

theorem separated_dumps : ∀ (v : PyValue) {rest : List JsonToken}, Separated rest →
    EndsValue rest → Separated (dumps v ++ rest)
  | .none, _, h, _ => separated_cons (by nofun) h
  | .bool _, _, h, _ => separated_cons (by nofun) h
  | .num _, _, h, hends => h.cons fun b hb _ _ => hends b hb
  | .str _, _, h, _ => separated_cons (by nofun) h
  | .list [], _, h, _ => separated_cons (by nofun) (separated_cons (by nofun) h)
  | .list (v :: items), rest, h, _ => by
      obtain ⟨hitems, hends⟩ := separated_dumpsItems items h
      rw [dumps, List.cons_append, List.append_assoc]
      exact separated_cons (by nofun) (separated_dumps v hitems hends)
  | .dict [], _, h, _ => separated_cons (by nofun) (separated_cons (by nofun) h)
  | .dict ((k, v) :: fields), rest, h, _ => by
      obtain ⟨hfields, hends⟩ := separated_dumpsFields fields h
      have hvalue := separated_dumps v hfields hends
      simp only [dumps, List.cons_append, List.append_assoc]
      exact separated_cons (by nofun) (separated_cons (by nofun) (separated_cons (by nofun) hvalue))

theorem separated_dumpsItems : ∀ (items : List PyValue) {rest : List JsonToken}, Separated rest →
    Separated (dumpsItems items ++ rest) ∧ EndsValue (dumpsItems items ++ rest)
  | [], rest, h => by
      refine ⟨separated_cons (by nofun) h, ?_⟩
      rintro _ ⟨rfl⟩
      decide
  | v :: items, rest, h => by
      obtain ⟨hitems, hends⟩ := separated_dumpsItems items h
      rw [dumpsItems, List.cons_append, List.append_assoc]
      refine ⟨separated_cons (by nofun) (separated_dumps v hitems hends), ?_⟩
      rintro _ ⟨rfl⟩
      decide

theorem separated_dumpsFields : ∀ (fields : List (String × PyValue)) {rest : List JsonToken},
    Separated rest →
      Separated (dumpsFields fields ++ rest) ∧ EndsValue (dumpsFields fields ++ rest)
  | [], rest, h => by
      refine ⟨separated_cons (by nofun) h, ?_⟩
      rintro _ ⟨rfl⟩
      decide
  | (k, v) :: fields, rest, h => by
      obtain ⟨hfields, hends⟩ := separated_dumpsFields fields h
      have hvalue := separated_dumps v hfields hends
      simp only [dumpsFields, List.cons_append, List.append_assoc]
      have hentry : Separated (.str k :: .colon :: (dumps v ++ (dumpsFields fields ++ rest))) :=
        separated_cons (by nofun) (separated_cons (by nofun) hvalue)
      refine ⟨separated_cons (by nofun) hentry, ?_⟩
      rintro _ ⟨rfl⟩
      decide

end

/-- The floats of a value, as Python has them. -/
def FloatsOk (v : PyValue) : Prop := ∀ x, .num (.float x) ∈ dumps v → IsFloat x

/-- The number that a token is. -/
def JsonToken.number? : JsonToken → Option Number
  | .num x => some x
  | _ => none

theorem mem_filterMap_number? {tokens : List JsonToken} {x : Number} :
    x ∈ tokens.filterMap JsonToken.number? ↔ .num x ∈ tokens := by
  rw [List.mem_filterMap]
  constructor
  · rintro ⟨token, htoken, hx⟩
    cases token with
    | num y => exact Option.some.inj hx ▸ htoken
    | _ => exact nomatch hx
  · exact fun h => ⟨_, h, rfl⟩

/-- A number that is a float of Python, or an integer. -/
def Number.IsFloat : Number → Prop
  | .int _ => True
  | .float x => Numerals.IsFloat x

instance (x : Number) : Decidable x.IsFloat := by
  cases x <;> unfold Number.IsFloat <;> infer_instance

instance (v : PyValue) : Decidable (FloatsOk v) :=
  decidable_of_iff (∀ x ∈ (dumps v).filterMap JsonToken.number?, x.IsFloat) <| by
    simp only [mem_filterMap_number?]
    refine ⟨fun h x hx => h _ hx, fun h x hx => ?_⟩
    cases x with
    | int n => trivial
    | float x => exact h x hx

/-- A text has a character for each of its tokens at least. -/
theorem length_le_of_mapM {tokens : List JsonToken} {texts : List (List Char)}
    (h : tokens.mapM tokenText? = some texts)
    (hfloat : ∀ x, .num (.float x) ∈ tokens → IsFloat x) :
    tokens.length ≤ texts.flatten.length := by
  induction tokens generalizing texts with
  | nil => exact Nat.zero_le _
  | cons token tokens ih =>
      rw [List.mapM_cons] at h
      obtain ⟨t, htext, h⟩ := Option.bind_eq_some_iff.mp h
      obtain ⟨texts', htexts, h⟩ := Option.bind_eq_some_iff.mp h
      obtain rfl : t :: texts' = texts := Option.some.inj h
      obtain ⟨c, more, rfl, -⟩ := tokenText_eq_cons htext fun x hx =>
        hfloat x (hx ▸ List.mem_cons_self)
      have hlength := ih htexts fun x hx => hfloat x (List.mem_cons_of_mem _ hx)
      simp only [List.flatten_cons, List.length_append, List.length_cons]
      omega

/-- **Round trip.** What is written reads back, character by character. -/
theorem loadsText_dumpsText {v : PyValue} (hwf : v.wf = true) (hfloats : FloatsOk v)
    {t : List Char} (h : dumpsText? v = some t) : loadsText t = some v := by
  obtain ⟨texts, htexts, rfl⟩ := Option.map_eq_some_iff.mp h
  have hseparated : Separated (dumps v) := by
    have hdumps : Separated (dumps v ++ []) := separated_dumps v .nil nofun
    rwa [List.append_nil] at hdumps
  have hread := readTokens_texts htexts hfloats hseparated
    (Nat.lt_succ_of_le (length_le_of_mapM htexts hfloats))
  rw [loadsText, hread, Option.bind_some, loads_dumps hwf]

/-- The integers in a value have texts. -/
def IntsOk (v : PyValue) : Prop :=
  ∀ n, .num (.int n) ∈ dumps v → (Nat.toDigits 10 n.natAbs).length ≤ maxStrDigits

theorem tokenText?_isSome {token : JsonToken} : (tokenText? token).isSome ↔
    ∀ n, token = .num (.int n) → (Nat.toDigits 10 n.natAbs).length ≤ maxStrDigits := by
  cases token with
  | num x =>
      cases x with
      | int n =>
          simp only [tokenText?, intText?, JsonToken.num.injEq, Number.int.injEq, forall_eq']
          split
          · rename_i hlong
            exact iff_of_false (by decide) (not_le.mpr hlong)
          · rename_i hshort
            exact iff_of_true rfl (not_lt.mp hshort)
      | float x => exact iff_of_true rfl nofun
  | _ => exact iff_of_true rfl nofun

/-- All tokens have texts if each has one. -/
theorem mapM_tokenText?_isSome {tokens : List JsonToken} :
    (tokens.mapM tokenText?).isSome ↔ ∀ token ∈ tokens, (tokenText? token).isSome := by
  induction tokens with
  | nil => exact iff_of_true rfl nofun
  | cons token tokens ih =>
      rw [List.mapM_cons, List.forall_mem_cons, ← ih]
      cases tokenText? token with
      | none => exact iff_of_false nofun fun h => nomatch h.1
      | some t => cases tokens.mapM tokenText? <;> simp

theorem dumpsText?_isSome {v : PyValue} : (dumpsText? v).isSome ↔ IntsOk v := by
  rw [dumpsText?, Option.isSome_map, mapM_tokenText?_isSome]
  simp only [tokenText?_isSome]
  exact ⟨fun h n hn => h _ hn n rfl, fun h token ht n hn => h n (hn ▸ ht)⟩

instance (v : PyValue) : Decidable (IntsOk v) := decidable_of_iff _ dumpsText?_isSome

/-- The text begins with that of the first token. -/
theorem head?_dumpsText {v : PyValue} {token : JsonToken} {tokens : List JsonToken}
    (hdumps : dumps v = token :: tokens) {c : Char} (htoken : tokenText? token = some [c])
    {t : List Char} (h : dumpsText? v = some t) : t.head? = some c := by
  obtain ⟨texts, htexts, rfl⟩ := Option.map_eq_some_iff.mp h
  rw [hdumps, List.mapM_cons, htoken] at htexts
  obtain ⟨_, hhead, htexts⟩ := Option.bind_eq_some_iff.mp htexts
  obtain rfl := Option.some.inj hhead
  obtain ⟨texts', -, htexts⟩ := Option.bind_eq_some_iff.mp htexts
  obtain rfl : [c] :: texts' = texts := Option.some.inj htexts
  rfl

/-- A bracket or a brace at the front makes no string. -/
theorem parseValue_open {token : JsonToken} (htoken : token = .openBrace ∨ token = .openBracket)
    {n : ℕ} {tokens rest : List JsonToken} {s : String} :
    parseValue n (token :: tokens) ≠ some (.str s, rest) := by
  intro h
  unfold parseValue at h
  split at h
  -- the cases of another token first, then those of a list and of a dictionary
  all_goals rcases htoken with rfl | rfl
  all_goals simp_all [Option.bind_eq_some_iff]

theorem loadsText_open {t : List Char} (h : t.head? = some '\x7b' ∨ t.head? = some '[')
    {s : String} : loadsText t ≠ some (.str s) := by
  intro hread
  obtain ⟨tokens, htokens, hvalue⟩ := Option.bind_eq_some_iff.mp hread
  have hopen : ∃ token rest, (token = .openBrace ∨ token = .openBracket) ∧
      tokens = token :: rest := by
    cases t with
    | nil => exact absurd h (by decide)
    | cons c more =>
        have hblank : (c :: more).dropWhile isJsonBlank = c :: more :=
          List.dropWhile_cons_of_neg (by rcases h with ⟨⟨rfl⟩⟩ | ⟨⟨rfl⟩⟩ <;> decide)
        rw [readTokens, hblank] at htokens
        obtain ⟨⟨token, tail⟩, htoken, htokens⟩ := Option.bind_eq_some_iff.mp htokens
        obtain ⟨rest, -, htokens⟩ := Option.bind_eq_some_iff.mp htokens
        refine ⟨token, rest, ?_, (Option.some.inj htokens).symm⟩
        rcases h with ⟨⟨rfl⟩⟩ | ⟨⟨rfl⟩⟩
        · injection htoken with htoken
          injection htoken with htoken
          exact Or.inl htoken.symm
        · injection htoken with htoken
          injection htoken with htoken
          exact Or.inr htoken.symm
  obtain ⟨token, rest, htoken, rfl⟩ := hopen
  unfold loads at hvalue
  split at hvalue
  · rename_i hparse
    injection hvalue with hvalue
    subst hvalue
    exact parseValue_open htoken hparse
  · exact nomatch hvalue

end DiepLab
