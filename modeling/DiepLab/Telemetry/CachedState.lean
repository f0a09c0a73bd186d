import DiepLab.Commands.Statements
import DiepLab.JsonChars

/-!
The twin of a device, as it comes back from Redis.

`_persist_state` flattens a value to a text, and `_get_cached_state` guesses from
the text what it was: a document, an integer, a float, or else a text.
`Recognised` are the values that the guess finds again. No truth value is among
them, and no text that could be that of something else.
-/

namespace DiepLab.Telemetry

open StatementProgram Commands Numerals

/-! ### Times -/

/-- A `datetime` of UTC. -/
structure UtcTime where
  year : ℕ
  month : ℕ
  day : ℕ
  hour : ℕ := 0
  minute : ℕ := 0
  second : ℕ := 0
  microsecond : ℕ := 0

/-- The digits of a number, with zeros before them up to a width. -/
def padded (width n : ℕ) : List Char :=
  List.replicate (width - (Nat.toDigits 10 n).length) '0' ++ Nat.toDigits 10 n

namespace UtcTime

/-- `isoformat` after the year. -/
def afterYear (t : UtcTime) : List Char :=
  padded 2 t.month ++ '-' :: (padded 2 t.day ++ 'T' :: (padded 2 t.hour ++ ':' ::
    (padded 2 t.minute ++ ':' :: (padded 2 t.second ++
      ((if t.microsecond = 0 then [] else '.' :: padded 6 t.microsecond) ++ "+00:00".toList)))))

def isoformat (t : UtcTime) : String := String.ofList (padded 4 t.year ++ '-' :: t.afterYear)

end UtcTime

/-! ### Writing -/

/-- What `str` and `json.dumps` raise for an integer of too many digits. -/
def tooManyDigits : Exc :=
  .other ("Exceeds the limit (4300 digits) for integer string conversion; " ++
    "use sys.set_int_max_str_digits() to increase the limit")

def textOf (t : Option (List Char)) : Except Exc String :=
  match t with
  | some t => .ok (String.ofList t)
  | none => .error tooManyDigits

/-- What `_persist_state` makes of a value. -/
def redisText : PyValue → Except Exc String
  | .none => .ok "None"
  | .bool b => .ok (if b then "True" else "False")
  | .num (.int n) => textOf (intText? n)
  | .num (.float x) => textOf (some (floatText x))
  | .str s => .ok s
  | .list items => textOf (dumpsText? (.list items))
  | .dict items => textOf (dumpsText? (.dict items))

def isNone : PyValue → Bool
  | .none => true
  | _ => false

/-- The fields that are given, as texts. -/
def statePayload (fields : Dict PyValue) : Except Exc (Dict String) :=
  (fields.filter fun kv => ! isNone kv.2).mapM fun kv =>
    (redisText kv.2).map fun text => (kv.1, text)

/-- `_persist_state`. -/
def persistFields (deviceId : String) (fields : Dict PyValue) : CommandProg Unit :=
  match statePayload fields with
  | .error exc => throw exc
  | .ok payload => persistState deviceId (payload.map fun kv => (kv.1, some kv.2))

/-! ### Reading -/

/-- The value is taken for a document first. -/
def opensDocument (value : List Char) : Bool :=
  value.head? = some '\x7b' ∨ value.head? = some '['

/-- `_decode_redis_value`. -/
def decodeRedisValue (value : String) : PyValue :=
  match if opensDocument value.toList then loadsText value.toList else none with
  | some v => v
  | none =>
      match int? value.toList with
      | some n => .num (.int n)
      | none =>
          match float? value.toList with
          | some x => .num (.float x)
          | none => .str value

/-- `_get_cached_state`. -/
def getCachedState (s : CommandStore) (deviceId : String) : Dict PyValue :=
  (s.state deviceId).map fun kv => (kv.1, decodeRedisValue kv.2)

/-! ### What is found again -/

/-- The value is told from its text. -/
def Recognised : PyValue → Prop
  | .bool _ => False
  | .str s => int? s.toList = none ∧ float? s.toList = none ∧
      (opensDocument s.toList → loadsText s.toList = none)
  | v => IntsOk v

instance (v : PyValue) : Decidable (Recognised v) := by
  cases v <;> simp only [Recognised] <;> infer_instance

/-! ### The time of the write -/

theorem padded_digits {width n : ℕ} : ∀ c ∈ padded width n, c.isDigit = true := by
  refine List.forall_mem_append.mpr ⟨fun c hc => ?_, fun c => isDigit_toDigits⟩
  rw [List.eq_of_mem_replicate hc]
  decide

theorem padded_ne_nil {width n : ℕ} : padded width n ≠ [] :=
  List.append_ne_nil_of_right_ne_nil _ Nat.toDigits_ne_nil

theorem plain_padded {width n : ℕ} : ∀ c ∈ padded width n, Plain c :=
  fun c hc => plain_of_isDigit (padded_digits c hc)

/-- A dash behind the digits: this is no float. -/
theorem float?_of_dash {digits rest : List Char} (hne : digits ≠ [])
    (hdigits : ∀ c ∈ digits, c.isDigit = true) (hplain : ∀ c ∈ rest, Plain c) :
    float? (digits ++ '-' :: rest) = none := by
  have hall : ∀ c ∈ digits ++ '-' :: rest, Plain c :=
    List.forall_mem_append.mpr ⟨fun c hc => plain_of_isDigit (hdigits c hc),
      List.forall_mem_cons.mpr ⟨by decide, hplain⟩⟩
  have hsigned : signed (digits ++ '-' :: rest) = (false, digits ++ '-' :: rest) := by
    obtain ⟨d, more, rfl⟩ := List.exists_cons_of_ne_nil hne
    exact signed_of_digit (hdigits d List.mem_cons_self) _
  have hdash : '-' ∈ (digits ++ '-' :: rest).map Char.toLower :=
    List.mem_map.mpr ⟨'-', List.mem_append_right _ List.mem_cons_self, by decide⟩
  have hword {word : List Char} (h : '-' ∉ word) :
      (digits ++ '-' :: rest).map Char.toLower ≠ word := fun heq => h (heq ▸ hdash)
  have hinf := hword (by decide : '-' ∉ "inf".toList)
  have hinfinity := hword (by decide : '-' ∉ "infinity".toList)
  have hnan := hword (by decide : '-' ∉ "nan".toList)
  have hhead : ∀ c ∈ ('-' :: rest).head?, c.isDigit = false := by
    rintro _ ⟨rfl⟩
    decide
  obtain ⟨htake, hdrop⟩ := takeWhile_digits hdigits hhead
  have hunsigned : unsigned? (digits ++ '-' :: rest) = none := by
    simp only [unsigned?, htake, hdrop]
    exact ite_self _
  simp only [float?, prepare_of_plain hall, hsigned, hinf, hinfinity, or_self, if_false, hnan,
    hunsigned, Option.map_none]

theorem plain_afterYear (t : UtcTime) : ∀ c ∈ t.afterYear, Plain c := by
  have hfraction : ∀ c ∈ (if t.microsecond = 0 then [] else '.' :: padded 6 t.microsecond),
      Plain c := by
    split
    · exact nofun
    · exact List.forall_mem_cons.mpr ⟨by decide, plain_padded⟩
  have hzone : ∀ c ∈ "+00:00".toList, Plain c := forall_mem_of_all (by decide)
  simp only [UtcTime.afterYear, List.forall_mem_append, List.forall_mem_cons]
  refine ⟨plain_padded, by decide, plain_padded, by decide, plain_padded, by decide, plain_padded,
    by decide, plain_padded, hfraction, hzone⟩

/-- No number has the text of a time, and no document. -/
theorem recognised_isoformat (t : UtcTime) : Recognised (.str t.isoformat) := by
  have htext : t.isoformat.toList = padded 4 t.year ++ '-' :: t.afterYear := String.toList_ofList
  have hplain : ∀ c ∈ padded 4 t.year ++ '-' :: t.afterYear, Plain c :=
    List.forall_mem_append.mpr ⟨plain_padded, List.forall_mem_cons.mpr ⟨by decide,
      plain_afterYear t⟩⟩
  have hT : 'T' ∈ padded 4 t.year ++ '-' :: t.afterYear := by
    refine List.mem_append_right _ (List.mem_cons_of_mem _ ?_)
    simp [UtcTime.afterYear]
  refine ⟨?_, ?_, fun hopen => ?_⟩
  · rw [htext]
    exact int?_eq_none hplain hT (by decide) (by decide) (by decide)
  · rw [htext]
    exact float?_of_dash padded_ne_nil padded_digits (plain_afterYear t)
  · have hne : padded 4 t.year ≠ [] := padded_ne_nil
    obtain ⟨d, more, hdigits⟩ := List.exists_cons_of_ne_nil hne
    have hd : d.isDigit = true := padded_digits d (hdigits ▸ List.mem_cons_self)
    rw [htext, hdigits] at hopen
    simp only [opensDocument, List.cons_append, List.head?_cons, Option.some.injEq,
      decide_eq_true_eq] at hopen
    rcases hopen with rfl | rfl
    · exact absurd hd (by decide)
    · exact absurd hd (by decide)

/-! ### One value -/

theorem decodeRedisValue_str {s : String} :
    decodeRedisValue s = .str s ↔ Recognised (.str s) := by
  unfold decodeRedisValue
  simp only [Recognised]
  by_cases hopen : opensDocument s.toList = true
  · rw [if_pos hopen]
    cases hload : loadsText s.toList with
    | some v =>
        have hv : v ≠ .str s := by
          rintro rfl
          exact loadsText_open (by simpa [opensDocument] using hopen) hload
        exact iff_of_false hv fun h => nomatch h.2.2 hopen
    | none =>
        cases int? s.toList with
        | some n => exact iff_of_false nofun fun h => nomatch h.1
        | none =>
            cases float? s.toList with
            | some x => exact iff_of_false nofun fun h => nomatch h.2.1
            | none => exact iff_of_true rfl ⟨rfl, rfl, fun _ => rfl⟩
  · rw [if_neg hopen]
    cases int? s.toList with
    | some n => exact iff_of_false nofun fun h => nomatch h.1
    | none =>
        cases float? s.toList with
        | some x => exact iff_of_false nofun fun h => nomatch h.2.1
        | none => exact iff_of_true rfl ⟨rfl, rfl, fun h => absurd h hopen⟩

/-- What has one of these characters is no document, and is taken for a number if
it can be. -/
theorem opensDocument_of_head {t : List Char} {c : Char} (h : t.head? = some c)
    (hc : c.isDigit = true ∨ c ∈ ['-', 'n', 'i']) : opensDocument t = false := by
  have hother : c ≠ '\x7b' ∧ c ≠ '[' := by
    constructor
    · rintro rfl
      exact absurd hc (by decide)
    · rintro rfl
      exact absurd hc (by decide)
  simp [opensDocument, h, hother]

theorem decodeRedisValue_int {n : ℤ} {t : List Char} (h : intText? n = some t) :
    decodeRedisValue (String.ofList t) = .num (.int n) := by
  have hread := int?_intText h
  have hopen : opensDocument t = false := by
    obtain ⟨d, more, hdigits⟩ :=
      List.exists_cons_of_ne_nil (Nat.toDigits_ne_nil (n := n.natAbs) (b := 10))
    have hd : d.isDigit = true := isDigit_toDigits (hdigits ▸ List.mem_cons_self)
    rw [(intText?_eq h).1, intDigits, hdigits]
    split
    · exact opensDocument_of_head rfl (Or.inr (by decide))
    · exact opensDocument_of_head rfl (Or.inl hd)
  simp only [decodeRedisValue, String.toList_ofList, hopen, Bool.false_eq_true, if_false, hread]

theorem decodeRedisValue_float {x : Double} (h : IsFloat x) :
    decodeRedisValue (String.ofList (floatText x)) = .num (.float x) := by
  have hint := int?_floatText h
  have hread := float?_floatText h
  have hopen : opensDocument (floatText x) = false := by
    cases x with
    | nan => rfl
    | inf negative => cases negative <;> rfl
    | finite q =>
        obtain ⟨negative, l, htext, hok, -, -⟩ := floatText_eq_literal h
        obtain ⟨d, more, hl, hd⟩ := hok.text_eq_cons
        rw [htext, hl]
        cases negative
        · exact opensDocument_of_head rfl (Or.inl hd)
        · exact opensDocument_of_head rfl (Or.inr (by decide))
  simp only [decodeRedisValue, String.toList_ofList, hopen, Bool.false_eq_true, if_false, hint,
    hread]

theorem decodeRedisValue_document {v : PyValue} (hwf : v.wf = true) (hfloats : FloatsOk v)
    {token : JsonToken} {tokens : List JsonToken} (hdumps : dumps v = token :: tokens)
    {c : Char} (htoken : tokenText? token = some [c]) (hc : c = '\x7b' ∨ c = '[')
    {t : List Char} (h : dumpsText? v = some t) : decodeRedisValue (String.ofList t) = v := by
  have hread := loadsText_dumpsText hwf hfloats h
  have hopen : opensDocument t = true := by
    rcases hc with rfl | rfl
    · simp [opensDocument, head?_dumpsText hdumps htoken h]
    · simp [opensDocument, head?_dumpsText hdumps htoken h]
  simp only [decodeRedisValue, String.toList_ofList, hopen, if_true, hread]

theorem exists_textOf {o : Option (List Char)} {v : PyValue}
    (h : ∀ t, o = some t → decodeRedisValue (String.ofList t) = v) :
    (∃ text, textOf o = .ok text ∧ decodeRedisValue text = v) ↔ o.isSome := by
  cases o with
  | none => exact iff_of_false (fun ⟨_, htext, _⟩ => nomatch htext) nofun
  | some t => exact iff_of_true ⟨_, rfl, h t rfl⟩ rfl

/-- A value that is written comes back if and only if it is recognised. -/
theorem decodeRedisValue_redisText {v : PyValue} (hwf : v.wf = true) (hfloats : FloatsOk v)
    (hgiven : isNone v = false) :
    (∃ text, redisText v = .ok text ∧ decodeRedisValue text = v) ↔ Recognised v := by
  cases v with
  | none => exact nomatch hgiven
  | bool b =>
      refine iff_of_false ?_ id
      rintro ⟨text, htext, hread⟩
      injection htext with htext
      have hstr : decodeRedisValue text = .str text := by
        rw [decodeRedisValue_str, ← htext]
        cases b
        · exact ⟨by decide +kernel, by decide +kernel, nofun⟩
        · exact ⟨by decide +kernel, by decide +kernel, nofun⟩
      exact nomatch hread.symm.trans hstr
  | num x =>
      cases x with
      | int n =>
          have htoken : (tokenText? (.num (.int n))).isSome ↔ _ := tokenText?_isSome
          refine (exists_textOf fun t => decodeRedisValue_int).trans (htoken.trans ?_)
          exact ⟨fun h m hm => h m (List.mem_singleton.mp hm).symm, fun h m hm =>
            h m (hm ▸ List.mem_cons_self)⟩
      | float x =>
          have hx : IsFloat x := hfloats x List.mem_cons_self
          refine iff_of_true ⟨_, rfl, decodeRedisValue_float hx⟩ fun n hn => ?_
          exact nomatch List.mem_singleton.mp hn
  | str s =>
      rw [← decodeRedisValue_str]
      exact ⟨fun ⟨_, htext, hread⟩ => (Except.ok.inj htext) ▸ hread, fun h => ⟨s, rfl, h⟩⟩
  | list items =>
      refine (exists_textOf fun t ht => ?_).trans dumpsText?_isSome
      cases items with
      | nil => exact decodeRedisValue_document hwf hfloats rfl rfl (Or.inr rfl) ht
      | cons v items => exact decodeRedisValue_document hwf hfloats rfl rfl (Or.inr rfl) ht
  | dict items =>
      refine (exists_textOf fun t ht => ?_).trans dumpsText?_isSome
      cases items with
      | nil => exact decodeRedisValue_document hwf hfloats rfl rfl (Or.inl rfl) ht
      | cons kv items => exact decodeRedisValue_document hwf hfloats rfl rfl (Or.inl rfl) ht

/-! ### The hash -/

theorem map_fst_statePayload {fields : Dict PyValue} {payload : Dict String}
    (h : statePayload fields = .ok payload) :
    payload.map Prod.fst = (fields.filter fun kv => ! isNone kv.2).map Prod.fst := by
  refine map_of_mapM (fun kv _ entry hentry => ?_) h
  cases htext : redisText kv.2 with
  | error exc =>
      rw [htext] at hentry
      exact nomatch hentry
  | ok text =>
      rw [htext] at hentry
      injection hentry with hentry
      rw [← hentry]

/-- The text of a field that is given. -/
theorem get?_statePayload {fields : Dict PyValue} (hkeys : (fields.map Prod.fst).Nodup)
    {payload : Dict String} (h : statePayload fields = .ok payload) {kv : String × PyValue}
    (hkv : kv ∈ fields) (hgiven : isNone kv.2 = false) :
    ∃ text, redisText kv.2 = .ok text ∧ payload.get? kv.1 = some text := by
  have hmem : kv ∈ fields.filter fun kv => ! isNone kv.2 :=
    List.mem_filter.mpr ⟨hkv, by rw [hgiven]; rfl⟩
  have hnodup : (payload.map Prod.fst).Nodup := by
    rw [map_fst_statePayload h]
    exact hkeys.sublist (List.filter_sublist.map _)
  obtain ⟨entry, hentry⟩ := mapM_isOk.mp ⟨payload, h⟩ kv hmem
  cases htext : redisText kv.2 with
  | error exc =>
      rw [htext] at hentry
      exact nomatch hentry
  | ok text =>
      refine ⟨text, rfl, Dict.get?_of_mem hnodup ((mem_of_mapM h _).mpr ⟨kv, hmem, ?_⟩)⟩
      rw [htext]
      rfl

/-- What Redis has after a write that it answers. -/
theorem state_persistState {deviceId : String} {payload : Dict String} {c : CommandChoice}
    {s : CommandStore} :
    ((persistState deviceId (payload.map fun kv => (kv.1, some kv.2))).run
        (commandExec c) s).2.state deviceId =
      (s.state deviceId).update (payload ++ [("updated_at", c.now.iso)]) := by
  simp only [persistState, Prog.run_bind, Prog.run_call, commandExec, Prog.run_attempt,
    CommandStore.hsetState, Function.update_self, List.filterMap_map]
  exact congrArg (fun kvs => Dict.update _ (kvs ++ _)) List.filterMap_some

/-- A field of the twin after a write into the empty hash. -/
theorem get?_getCachedState {deviceId : String} {fields : Dict PyValue} {payload : Dict String}
    (hkeys : (fields.map Prod.fst).Nodup) (h : statePayload fields = .ok payload)
    {c : CommandChoice} {s : CommandStore} (hempty : s.state deviceId = []) (key : String) :
    (getCachedState ((persistFields deviceId fields).run (commandExec c) s).2 deviceId).get? key =
      (if "updated_at" = key then some c.now.iso else payload.get? key).map decodeRedisValue := by
  have hnodup : (payload.map Prod.fst).Nodup := by
    rw [map_fst_statePayload h]
    exact hkeys.sublist (List.filter_sublist.map _)
  have hread := Dict.get?_map (fun _ => decodeRedisValue)
    (((persistFields deviceId fields).run (commandExec c) s).2.state deviceId) key
  refine hread.trans (congrArg (Option.map decodeRedisValue) ?_)
  rw [persistFields, h]
  dsimp only
  rw [state_persistState, hempty, Dict.update, List.foldl_append]
  refine (Dict.get?_set ..).trans ?_
  split
  · rfl
  · exact (Dict.get?_update [] hnodup key).trans (Option.or_none ..)

/-! ### The round trip -/

/-- A twin state as a request has it. -/
structure TwinState where
  fields : Dict PyValue
  keys : (fields.map Prod.fst).Nodup
  values : ∀ kv ∈ fields, kv.2.wf = true ∧ FloatsOk kv.2

/-- What raises has written nothing. -/
theorem getCachedState_raised {deviceId : String} {fields : Dict PyValue} {exc : Exc}
    (h : statePayload fields = .error exc) {c : CommandChoice} {s : CommandStore}
    (hempty : s.state deviceId = []) :
    getCachedState ((persistFields deviceId fields).run (commandExec c) s).2 deviceId = [] := by
  rw [persistFields, h]
  dsimp only
  rw [Prog.run_throw, getCachedState, hempty]
  rfl

/-- One field of what has been written. -/
theorem get?_eq_some_iff (twin : TwinState) {payload : Dict String}
    (h : statePayload twin.fields = .ok payload) {deviceId : String} (now : UtcTime) (instant : ℚ)
    {s : CommandStore} (hempty : s.state deviceId = []) {kv : String × PyValue}
    (hkv : kv ∈ twin.fields) (hgiven : isNone kv.2 = false) :
    (getCachedState ((persistFields deviceId twin.fields).run
        (commandExec { now := ⟨instant, now.isoformat⟩ }) s).2 deviceId).get? kv.1 = some kv.2 ↔
      Recognised kv.2 ∧ (kv.1 = "updated_at" → kv.2 = .str now.isoformat) := by
  obtain ⟨hwf, hfloats⟩ := twin.values kv hkv
  obtain ⟨text, htext, hget⟩ := get?_statePayload twin.keys h hkv hgiven
  have hvalue := decodeRedisValue_redisText hwf hfloats hgiven
  rw [htext] at hvalue
  simp only [Except.ok.injEq, exists_eq_left'] at hvalue
  have htime := recognised_isoformat now
  rw [get?_getCachedState twin.keys h hempty]
  by_cases hupdated : "updated_at" = kv.1
  · rw [if_pos hupdated, Option.map_some, Option.some.injEq, decodeRedisValue_str.mpr htime]
    exact ⟨fun heq => ⟨heq ▸ htime, fun _ => heq.symm⟩, fun hkept => (hkept.2 hupdated.symm).symm⟩
  · rw [if_neg hupdated, hget, Option.map_some, Option.some.injEq, hvalue]
    exact (and_iff_left fun heq => absurd heq.symm hupdated).symm

/-- **A twin comes back.** After a write into an empty hash every field that is
not `None` has its value and type again if and only if every one is recognised
by its text, and a field `updated_at` is the time of the write. -/
theorem cached_state_iff (twin : TwinState) (deviceId : String) (now : UtcTime) (instant : ℚ)
    (s : CommandStore) (hempty : s.state deviceId = []) :
    (∀ kv ∈ twin.fields, isNone kv.2 = false →
        (getCachedState ((persistFields deviceId twin.fields).run
          (commandExec { now := ⟨instant, now.isoformat⟩ }) s).2 deviceId).get? kv.1 =
            some kv.2) ↔
      ∀ kv ∈ twin.fields, isNone kv.2 = false →
        Recognised kv.2 ∧ (kv.1 = "updated_at" → kv.2 = .str now.isoformat) := by
  cases h : statePayload twin.fields with
  | ok payload =>
      refine forall₂_congr fun kv hkv => forall_congr' fun hgiven => ?_
      exact get?_eq_some_iff twin h now instant hempty hkv hgiven
  | error exc =>
      -- the field that raised is neither found again nor recognised
      obtain ⟨kv, hkv, hraised⟩ : ∃ kv ∈ twin.fields.filter fun kv => ! isNone kv.2,
          ¬ ∃ text, redisText kv.2 = .ok text := by
        by_contra hall
        have hok : ∃ payload, statePayload twin.fields = .ok payload := by
          refine mapM_isOk.mpr fun kv hkv => ?_
          obtain ⟨text, htext⟩ := not_not.mp fun hraised => hall ⟨kv, hkv, hraised⟩
          exact ⟨(kv.1, text), by rw [htext]; rfl⟩
        obtain ⟨payload, hok⟩ := hok
        exact nomatch h.symm.trans hok
      obtain ⟨hkv, hgiven⟩ := List.mem_filter.mp hkv
      have hgiven' : isNone kv.2 = false := by simpa using hgiven
      obtain ⟨hwf, hfloats⟩ := twin.values kv hkv
      refine iff_of_false (fun hall => ?_) fun hall => hraised ?_
      · have hread := hall kv hkv hgiven'
        rw [getCachedState_raised h hempty] at hread
        exact nomatch hread
      · obtain ⟨text, htext, -⟩ :=
          (decodeRedisValue_redisText hwf hfloats hgiven').mpr (hall kv hkv hgiven').1
        exact ⟨text, htext⟩

/-- A reading with a list of alarms and no note. -/
def meterTwin : TwinState where
  fields := [("voltage", .num (.float (.finite (461 / 2)))), ("session", .num (.int 7)),
    ("alarms", .list [.str "low", .bool true]), ("note", .none), ("status", .str "online")]
  keys := by decide
  values := by decide +kernel

theorem meter_comes_back : ∃ state,
    getCachedState ((persistFields "MTR001" meterTwin.fields).run
        (commandExec { now := ⟨0, (UtcTime.mk 2026 3 1 12 0 0 0).isoformat⟩ }) {}).2 "MTR001" =
      state ∧
    state.get? "voltage" = some (.num (.float (.finite (461 / 2)))) ∧
    state.get? "session" = some (.num (.int 7)) ∧
    state.get? "alarms" = some (.list [.str "low", .bool true]) ∧
    state.get? "status" = some (.str "online") := by
  have hkept : ∀ kv ∈ meterTwin.fields, isNone kv.2 = false →
      Recognised kv.2 ∧ kv.1 ≠ "updated_at" := by decide +kernel
  have hback := (cached_state_iff meterTwin "MTR001" ⟨2026, 3, 1, 12, 0, 0, 0⟩ 0 {} rfl).mpr
      fun kv hkv hgiven => by
    obtain ⟨hrecognised, hupdated⟩ := hkept kv hkv hgiven
    exact ⟨hrecognised, fun heq => absurd heq hupdated⟩
  refine ⟨_, rfl, hback (_, _) (.head _) rfl, hback (_, _) (.tail _ (.head _)) rfl, ?_, ?_⟩
  · exact hback (_, _) (.tail _ (.tail _ (.head _))) rfl
  · exact hback (_, _) (.tail _ (.tail _ (.tail _ (.tail _ (.head _))))) rfl

/-- A breaker, at a meter whose number is made of digits. -/
def breakerTwin : TwinState where
  fields := [("breaker_closed", .bool true), ("meter_id", .str "00471")]
  keys := by decide
  values := by decide +kernel

/-- The truth value comes back as a text, and the text as an integer. -/
theorem breaker_comes_back_otherwise :
    getCachedState ((persistFields "MTR001" breakerTwin.fields).run
        (commandExec { now := ⟨0, (UtcTime.mk 2026 3 1 12 0 0 0).isoformat⟩ }) {}).2 "MTR001" =
      [("breaker_closed", .str "True"), ("meter_id", .num (.int 471)),
        ("updated_at", .str "2026-03-01T12:00:00+00:00")] ∧
    ¬ ∀ kv ∈ breakerTwin.fields, isNone kv.2 = false →
      (getCachedState ((persistFields "MTR001" breakerTwin.fields).run
        (commandExec { now := ⟨0, (UtcTime.mk 2026 3 1 12 0 0 0).isoformat⟩ }) {}).2
          "MTR001").get? kv.1 = some kv.2 := by
  have htwin : getCachedState ((persistFields "MTR001" breakerTwin.fields).run
      (commandExec { now := ⟨0, (UtcTime.mk 2026 3 1 12 0 0 0).isoformat⟩ }) {}).2 "MTR001" =
        [("breaker_closed", .str "True"), ("meter_id", .num (.int 471)),
          ("updated_at", .str "2026-03-01T12:00:00+00:00")] := by
    rfl
  refine ⟨htwin, fun hall => ?_⟩
  have hbreaker := hall ("breaker_closed", .bool true) List.mem_cons_self rfl
  rw [htwin, Dict.get?_cons, if_pos rfl] at hbreaker
  exact nomatch hbreaker

end DiepLab.Telemetry
