import DiepLab.Json
import DiepLab.Library.Interleaving

/-!
The cache of the Copilot.

A response is kept under the hash of its tenant, its endpoint and its body, the
three joined with `|`. Every one of them may contain the separator, and a missing
tenant is written as a name that a tenant may have. `Apart` says of two tenants
that no endpoints and bodies confuse them; it is a condition on their names.

A response carries the tenant that it was computed for, which no statement reads.
The hash and the serialisation of a body are parameters.
-/

namespace DiepLab.Copilot

open StatementProgram

/-! ### Joined names -/

/-- Two ways of joining with a separator agree if the parts do, or if one of the
first parts goes on with the separator. -/
theorem append_sep_inj {α : Type} {sep : α} {a b x y : List α} :
    a ++ sep :: x = b ++ sep :: y ↔
      (a = b ∧ x = y) ∨ (∃ u, a = b ++ sep :: u ∧ y = u ++ sep :: x) ∨
        ∃ u, b = a ++ sep :: u ∧ x = u ++ sep :: y := by
  constructor
  · intro h
    rcases List.append_eq_append_iff.mp h with ⟨u, hb, hx⟩ | ⟨u, ha, hy⟩
    · cases u with
      | nil =>
          injection hx with _ hx
          exact Or.inl ⟨(hb.trans (List.append_nil a)).symm, hx⟩
      | cons c u =>
          injection hx with hc hx
          exact Or.inr (Or.inr ⟨u, hc ▸ hb, hx⟩)
    · cases u with
      | nil =>
          injection hy with _ hy
          exact Or.inl ⟨ha.trans (List.append_nil b), hy.symm⟩
      | cons c u =>
          injection hy with hc hy
          exact Or.inr (Or.inl ⟨u, hc ▸ ha, hy⟩)
  · rintro (⟨rfl, rfl⟩ | ⟨u, rfl, rfl⟩ | ⟨u, rfl, rfl⟩) <;> simp

/-! ### Keys -/

section Key

variable (sha256 : String → String) (dumps : Dict Json → String)

/-- `tenant or "__global__"`. -/
def tenantStr (tenant : Option String) : String := (given tenant).getD "__global__"

/-- `json.dumps(body) if body else ""`. -/
def bodyStr : Option (Dict Json) → String
  | none => ""
  | some body => if body.isEmpty then "" else dumps body

/-- The string that is hashed. -/
def rawKey (tenant : Option String) (endpoint : String) (body : Option (Dict Json)) : String :=
  tenantStr tenant ++ "|" ++ endpoint ++ "|" ++ bodyStr dumps body

/-- `_make_cache_key`. -/
def makeCacheKey (tenant : Option String) (endpoint : String) (body : Option (Dict Json)) :
    String :=
  sha256 (rawKey dumps tenant endpoint body)

end Key

/-- Two tenants that no endpoints and bodies confuse: they are written
differently, and neither name goes on after the other one with the separator. -/
def Apart (tenant tenant' : Option String) : Prop :=
  tenantStr tenant ≠ tenantStr tenant' ∧
    ¬ (tenantStr tenant).toList ++ ['|'] <+: (tenantStr tenant').toList ∧
    ¬ (tenantStr tenant').toList ++ ['|'] <+: (tenantStr tenant).toList

instance (tenant tenant' : Option String) : Decidable (Apart tenant tenant') :=
  inferInstanceAs (Decidable (_ ∧ _ ∧ _))

section Key

variable {sha256 : String → String} {dumps : Dict Json → String}

theorem toList_rawKey (tenant : Option String) (endpoint : String) (body : Option (Dict Json)) :
    (rawKey dumps tenant endpoint body).toList =
      (tenantStr tenant).toList ++
        '|' :: (endpoint.toList ++ '|' :: (bodyStr dumps body).toList) := by
  simp [rawKey]

/-- A name that goes on with the separator is confused with its beginning: the
rest of the name moves into the endpoint. -/
theorem rawKey_extends {tenant tenant' : Option String} {u : List Char}
    (h : (tenantStr tenant').toList = (tenantStr tenant).toList ++ '|' :: u) (endpoint : String)
    (body : Option (Dict Json)) :
    rawKey dumps tenant (String.ofList u ++ "|" ++ endpoint) body =
      rawKey dumps tenant' endpoint body := by
  refine String.toList_inj.mp ?_
  rw [toList_rawKey, toList_rawKey, h]
  simp

theorem rawKey_ne {tenant tenant' : Option String} (h : Apart tenant tenant')
    (endpoint endpoint' : String) (body body' : Option (Dict Json)) :
    rawKey dumps tenant endpoint body ≠ rawKey dumps tenant' endpoint' body' := by
  intro heq
  have hlist := congrArg String.toList heq
  rw [toList_rawKey, toList_rawKey] at hlist
  obtain ⟨hne, hpre, hpre'⟩ := h
  rcases append_sep_inj.mp hlist with ⟨ht, -⟩ | ⟨u, ht, -⟩ | ⟨u, ht, -⟩
  · exact hne (String.toList_inj.mp ht)
  · exact hpre' ⟨u, by rw [ht]; simp⟩
  · exact hpre ⟨u, by rw [ht]; simp⟩

/-- **Keys.** Two tenants have different keys, whatever the endpoints and the
bodies, exactly if they are apart. -/
theorem keys_differ_iff (hsha : Function.Injective sha256) (dumps : Dict Json → String)
    (tenant tenant' : Option String) :
    (∀ endpoint endpoint' body body', makeCacheKey sha256 dumps tenant endpoint body ≠
        makeCacheKey sha256 dumps tenant' endpoint' body') ↔ Apart tenant tenant' := by
  constructor
  · intro h
    refine ⟨fun hname => ?_, ?_, ?_⟩
    · exact h "" "" none none (by rw [makeCacheKey, makeCacheKey, rawKey, rawKey, hname])
    · rintro ⟨u, hu⟩
      have hname : (tenantStr tenant').toList = (tenantStr tenant).toList ++ '|' :: u := by
        rw [← hu]
        simp
      exact h _ "" none none (congrArg sha256 (rawKey_extends hname "" none))
    · rintro ⟨u, hu⟩
      have hname : (tenantStr tenant).toList = (tenantStr tenant').toList ++ '|' :: u := by
        rw [← hu]
        simp
      exact h "" _ none none (congrArg sha256 (rawKey_extends hname "" none)).symm
  · intro h endpoint endpoint' body body' heq
    exact rawKey_ne h endpoint endpoint' body body' (hsha heq)

end Key

/-! ### Statements -/

structure Response where
  text : String
  /-- The tenant that the response was computed for. -/
  computedFor : Option String
  deriving DecidableEq, Repr

/-- The keys `cache:*` in Redis. -/
abbrev CacheStore := Dict Response

inductive CacheStmt where
  | get (key : String)
  | setex (key : String) (ttl : ℤ) (value : Response)
  | delete (key : String)
  /-- `compute_fn()`, for a tenant. -/
  | compute (tenant : Option String)
  /-- The answer to the caller. -/
  | answer (tenant : Option String) (response : Response)

@[reducible] def CacheResp : CacheStmt → Type
  | .get _ => Option Response
  | .setex .. => Unit
  | .delete _ => Bool
  | .compute _ => Response
  | .answer .. => Unit

/-- What the surroundings decide while one statement runs. -/
structure CacheChoice where
  fails : Option String := none
  text : String := ""

/-- A statement that does not fail. -/
def cacheExec (c : CacheChoice) :
    (q : CacheStmt) → CacheStore → Except Exc (CacheResp q) × CacheStore
  | .get key, s => (.ok (s.get? key), s)
  | .setex key _ value, s => (.ok (), s.set key value)
  | .delete key, s => (.ok (s.get? key).isSome, s.filter fun entry => entry.1 ≠ key)
  | .compute tenant, s => (.ok ⟨c.text, tenant⟩, s)
  | .answer _ _, s => (.ok (), s)

/-- A statement that fails changes nothing. -/
def cacheSem (c : CacheChoice) (q : CacheStmt) (s : CacheStore) :
    Except Exc (CacheResp q) × CacheStore :=
  match c.fails with
  | none => cacheExec c q s
  | some m => (.error (.other m), s)

abbrev CacheProg := Prog CacheResp Exc

/-- `DEFAULT_TTL`. -/
def defaultTtl : ℤ := 300

/-- `ttl or self._default_ttl`. -/
def ttlOr : Option ℤ → ℤ
  | some ttl => if ttl = 0 then defaultTtl else ttl
  | none => defaultTtl

/-- `cache_get`: a failing Redis is a miss. -/
def cacheGet (key : String) : CacheProg (Option Response) :=
  tryCatch (Prog.call (CacheStmt.get ("cache:" ++ key))) fun _ => pure none

/-- `cache_set`. -/
def cacheSet (key : String) (value : Response) (ttl : ℤ) : CacheProg Bool :=
  tryCatch
    (do
      Prog.call (CacheStmt.setex ("cache:" ++ key) ttl value)
      pure true)
    fun _ => pure false

/-- `cache_delete`. -/
def cacheDelete (key : String) : CacheProg Bool :=
  tryCatch (Prog.call (CacheStmt.delete ("cache:" ++ key))) fun _ => pure false

section Calls

variable (sha256 : String → String) (dumps : Dict Json → String)

/-- `RedisCache.get_or_compute`. -/
def getOrCompute (tenant : Option String) (endpoint : String) (body : Option (Dict Json))
    (ttl : Option ℤ) : CacheProg (Response × Bool) := do
  let key := makeCacheKey sha256 dumps tenant endpoint body
  match ← cacheGet key with
  | some cached => pure (cached, true)
  | none => do
      let fresh ← Prog.call (CacheStmt.compute tenant)
      -- the value is there also when it cannot be stored
      let _ ← cacheSet key fresh (ttlOr ttl)
      pure (fresh, false)

/-- The methods of `RedisCache`. -/
inductive CacheMethod where
  | get
  | set (text : String) (ttl : Option ℤ)
  | delete
  | getOrCompute (ttl : Option ℤ)

structure CacheCall where
  tenant : Option String
  endpoint : String
  body : Option (Dict Json) := none
  method : CacheMethod := .getOrCompute none

/-- A call, with the answer to its caller. What a tenant stores itself it has
computed for itself. -/
def CacheCall.serve (call : CacheCall) : CacheProg Unit :=
  let key := makeCacheKey sha256 dumps call.tenant call.endpoint call.body
  match call.method with
  | .get => do
      match ← cacheGet key with
      | some cached => Prog.call (CacheStmt.answer call.tenant cached)
      | none => pure ()
  | .set text ttl => do
      let _ ← cacheSet key ⟨text, call.tenant⟩ (ttlOr ttl)
  | .delete => do
      let _ ← cacheDelete key
  | .getOrCompute ttl => do
      let (response, _) ← getOrCompute sha256 dumps call.tenant call.endpoint call.body ttl
      Prog.call (CacheStmt.answer call.tenant response)

/-- Redis drops a key: its time is over, or the cache is flushed. -/
def dropKey (key : String) (s : CacheStore) : CacheStore := s.filter fun entry => entry.1 ≠ key

/-- The calls of some tenants. -/
abbrev CallOf (tenants : Set (Option String)) := { call : CacheCall // call.tenant ∈ tenants }

abbrev Schedule (tenants : Set (Option String)) :=
  List (Event CacheChoice (CallOf tenants) String)

end Calls

/-! ### Isolation -/

/-- An answer was computed for the tenant that gets it. -/
def AnswersOwn (_ : CacheChoice) : CacheStmt → CacheStore → Prop
  | .answer tenant response, _ => response.computedFor = tenant
  | _, _ => True

section Isolation

variable (sha256 : String → String) (dumps : Dict Json → String)
variable (tenants : Set (Option String))

/-- The response is under a key of the tenant that it was computed for. -/
def OwnKey (key : String) (response : Response) : Prop :=
  response.computedFor ∈ tenants ∧ ∃ endpoint body,
    key = "cache:" ++ makeCacheKey sha256 dumps response.computedFor endpoint body

/-- Every response in the cache is under a key of its tenant, and only such
responses are stored and answered. -/
def cacheRules : Rules CacheStmt CacheChoice CacheStore where
  rely s s' := (∀ entry ∈ s, OwnKey sha256 dumps tenants entry.1 entry.2) ∧
    ∀ entry ∈ s', OwnKey sha256 dumps tenants entry.1 entry.2
  admits _ _ _ := True
  needs
    | _, .setex key _ value, _ => OwnKey sha256 dumps tenants key value
    | c, q, s => AnswersOwn c q s

variable {sha256 dumps tenants}

/-- A statement that meets its needs keeps the cache as it has to be. -/
theorem ownKeys_step (c : CacheChoice) (q : CacheStmt) {s : CacheStore}
    (h : ∀ entry ∈ s, OwnKey sha256 dumps tenants entry.1 entry.2)
    (hneeds : (cacheRules sha256 dumps tenants).needs c q s) :
    ∀ entry ∈ (cacheSem c q s).2, OwnKey sha256 dumps tenants entry.1 entry.2 := by
  unfold cacheSem
  cases c.fails with
  | some m => exact h
  | none =>
      cases q with
      | setex key ttl value =>
          intro entry hentry
          rcases Dict.mem_set hentry with hentry | rfl
          · exact h entry hentry
          · exact hneeds
      | delete key => exact fun entry hentry => h entry (List.mem_of_mem_filter hentry)
      | _ => exact h

/-- What a tenant finds under its key was computed for it. -/
theorem computedFor_of_get {tenant : Option String} {endpoint : String}
    {body : Option (Dict Json)} (htenant : tenant ∈ tenants)
    (hkeys : ∀ t ∈ tenants, ∀ t' ∈ tenants, t ≠ t' → ∀ e e' b b',
      makeCacheKey sha256 dumps t e b ≠ makeCacheKey sha256 dumps t' e' b')
    {s : CacheStore} (h : ∀ entry ∈ s, OwnKey sha256 dumps tenants entry.1 entry.2)
    {response : Response}
    (hget : s.get? ("cache:" ++ makeCacheKey sha256 dumps tenant endpoint body) = some response) :
    response.computedFor = tenant := by
  obtain ⟨hmem, endpoint', body', hkey⟩ := h _ (Dict.mem_of_get? hget)
  by_contra hne
  have hsame : makeCacheKey sha256 dumps tenant endpoint body =
      makeCacheKey sha256 dumps response.computedFor endpoint' body' := by
    have hlist := congrArg String.toList hkey
    rw [String.toList_append, String.toList_append] at hlist
    exact String.toList_inj.mp (List.append_cancel_left hlist)
  exact hkeys tenant htenant response.computedFor hmem (Ne.symm hne) _ _ _ _ hsame

/-- A look into the cache returns, if anything, what was computed for the tenant. -/
theorem cacheGet_proved {tenant : Option String} (endpoint : String) (body : Option (Dict Json))
    (htenant : tenant ∈ tenants)
    (hkeys : ∀ t ∈ tenants, ∀ t' ∈ tenants, t ≠ t' → ∀ e e' b b',
      makeCacheKey sha256 dumps t e b ≠ makeCacheKey sha256 dumps t' e' b') (s : CacheStore) :
    wp cacheSem (cacheRules sha256 dumps tenants)
      (cacheGet (makeCacheKey sha256 dumps tenant endpoint body))
      (fun r _ => ∃ cached, r = .ok cached ∧ ∀ response ∈ cached, response.computedFor = tenant)
      s := by
  rw [cacheGet, wp_attempt, wp_call]
  intro s' hs c _
  refine ⟨trivial, ?_⟩
  unfold cacheSem
  cases c.fails with
  | some m => exact ⟨none, rfl, nofun⟩
  | none => exact ⟨_, rfl, fun response hget => computedFor_of_get htenant hkeys hs.2 hget⟩

theorem cacheSet_proved {tenant : Option String} (endpoint : String) (body : Option (Dict Json))
    (htenant : tenant ∈ tenants) {value : Response} (hvalue : value.computedFor = tenant)
    (ttl : ℤ) (s : CacheStore) :
    wp cacheSem (cacheRules sha256 dumps tenants)
      (cacheSet (makeCacheKey sha256 dumps tenant endpoint body) value ttl)
      (fun r _ => ∃ stored, r = .ok stored) s := by
  rw [cacheSet, wp_attempt, wp_bind, wp_call]
  intro s' _ c _
  refine ⟨⟨hvalue ▸ htenant, endpoint, body, by rw [hvalue]⟩, ?_⟩
  unfold cacheSem
  cases c.fails with
  | some m => exact ⟨false, rfl⟩
  | none => exact ⟨true, rfl⟩

theorem answer_proved {tenant : Option String} {response : Response}
    (h : response.computedFor = tenant) (s : CacheStore) :
    wp cacheSem (cacheRules sha256 dumps tenants)
      (Prog.call (CacheStmt.answer tenant response)) (fun _ _ => True) s := by
  rw [wp_call]
  exact fun _ _ _ _ => ⟨h, trivial⟩

/-- `get_or_compute` returns what was computed for its tenant. -/
theorem getOrCompute_proved {tenant : Option String} (endpoint : String)
    (body : Option (Dict Json)) (ttl : Option ℤ) (htenant : tenant ∈ tenants)
    (hkeys : ∀ t ∈ tenants, ∀ t' ∈ tenants, t ≠ t' → ∀ e e' b b',
      makeCacheKey sha256 dumps t e b ≠ makeCacheKey sha256 dumps t' e' b') (s : CacheStore) :
    wp cacheSem (cacheRules sha256 dumps tenants)
      (getOrCompute sha256 dumps tenant endpoint body ttl)
      (fun r _ => ∀ out, r = .ok out → out.1.computedFor = tenant) s := by
  unfold getOrCompute
  refine (cacheGet_proved endpoint body htenant hkeys s).bind (fun cached s hcached => ?_)
    fun e s hcached => ?_
  · obtain ⟨_, ⟨⟩, hown⟩ := hcached
    cases cached with
    | some response =>
        rintro out ⟨⟩
        exact hown response rfl
    | none =>
        rw [wp_bind, wp_call]
        intro s₁ _ c _
        refine ⟨trivial, ?_⟩
        unfold cacheSem
        cases c.fails with
        | some m => exact nofun
        | none =>
            dsimp only [cacheExec]
            refine (cacheSet_proved endpoint body htenant rfl _ s₁).bind (fun _ _ _ => ?_)
              fun e _ hset => ?_
            · rintro out ⟨⟩
              rfl
            · obtain ⟨_, hset⟩ := hset
              exact nomatch hset
  · obtain ⟨_, herror, -⟩ := hcached
    exact nomatch herror

/-- The calls of tenants with different keys respect each other's entries. -/
theorem cache_cooperative
    (hkeys : ∀ t ∈ tenants, ∀ t' ∈ tenants, t ≠ t' → ∀ e e' b b',
      makeCacheKey sha256 dumps t e b ≠ makeCacheKey sha256 dumps t' e' b') :
    Cooperative cacheSem (fun call : CallOf tenants => call.1.serve sha256 dumps) dropKey
      (cacheRules sha256 dumps tenants) where
  trans _ _ _ hab hbc := ⟨hab.1, hbc.2⟩
  self _ _ h := ⟨h.2, h.2⟩
  stmt c q _ hs _ hneeds := ⟨hs.1, ownKeys_step c q hs.1 hneeds⟩
  env key _ hs := ⟨hs.1, fun entry hentry => hs.1 entry (List.mem_of_mem_filter hentry)⟩
  serve call s _ := by
    obtain ⟨⟨tenant, endpoint, body, method⟩, htenant⟩ := call
    cases method with
    | get =>
        refine (cacheGet_proved endpoint body htenant hkeys s).bind (fun cached s hcached => ?_)
          fun _ _ _ => trivial
        obtain ⟨_, ⟨⟩, hown⟩ := hcached
        cases cached with
        | some response => exact answer_proved (hown response rfl) s
        | none => trivial
    | set text ttl =>
        exact (cacheSet_proved endpoint body htenant rfl _ s).bind (fun _ _ _ => trivial)
          fun _ _ _ => trivial
    | delete =>
        refine wp.of_issues_needs (P := fun q => ∃ key, q = .delete key) ?_ ?_ s
        · rintro _ _ _ ⟨key, rfl⟩
          trivial
        · exact Prog.Issues.bind
            (Prog.Issues.attempt ((Prog.issues_call _).mpr ⟨_, rfl⟩) fun _ => trivial)
            fun _ => trivial
    | getOrCompute ttl =>
        refine (getOrCompute_proved endpoint body ttl htenant hkeys s).bind
          (fun out s hout => ?_) fun _ _ _ => trivial
        exact answer_proved (hout out rfl) s

variable (sha256 dumps) in
/-- Every answer of the schedule was computed for the tenant that gets it. The
cache is empty at first. -/
abbrev Isolated (schedule : Schedule tenants) : Prop :=
  (⟨[], []⟩ : Config CacheResp Exc Unit CacheStore).AllSteps cacheSem
    (fun call : CallOf tenants => call.1.serve sha256 dumps) dropKey AnswersOwn schedule

theorem isolated_of_keys
    (hkeys : ∀ t ∈ tenants, ∀ t' ∈ tenants, t ≠ t' → ∀ e e' b b',
      makeCacheKey sha256 dumps t e b ≠ makeCacheKey sha256 dumps t' e' b')
    (schedule : Schedule tenants) : Isolated sha256 dumps schedule := by
  have hproved : (⟨[], []⟩ : Config CacheResp Exc Unit CacheStore).Proved cacheSem
      (cacheRules sha256 dumps tenants) := ⟨⟨nofun, nofun⟩, nofun⟩
  have hall := ((cache_cooperative hkeys).run schedule hproved
    (Config.allSteps_of_forall _ _ _ (fun _ _ _ => trivial) _ _)).2
  refine hall.mono _ _ _ fun c q s hneeds => ?_
  cases q with
  | answer tenant response => exact hneeds
  | _ => trivial

/-! ### Two tenants with one key -/

/-- A call of `get_or_compute`. -/
def callOf (tenant : tenants) (endpoint : String) (body : Option (Dict Json)) :
    CallOf tenants :=
  ⟨{ tenant := tenant, endpoint := endpoint, body := body }, tenant.2⟩

/-- A tenant has a response computed, and another one asks. -/
def askAfter (tenant tenant' : tenants) (endpoint endpoint' : String)
    (body body' : Option (Dict Json)) : Schedule tenants :=
  .spawn (callOf tenant endpoint body) :: List.replicate 4 (.act 0 {}) ++
    .spawn (callOf tenant' endpoint' body') :: List.replicate 2 (.act 1 {})

variable (sha256 dumps) in
/-- A call looks first, and answers with what it has found. -/
theorem serve_hit (tenant : tenants) (endpoint : String) (body : Option (Dict Json)) :
    ∃ k, (callOf tenant endpoint body).1.serve sha256 dumps =
        .stmt (.get ("cache:" ++ makeCacheKey sha256 dumps tenant endpoint body)) k ∧
      ∀ response, ∃ k', k (.ok (some response)) = .stmt (.answer tenant response) k' :=
  ⟨_, rfl, fun _ => ⟨_, rfl⟩⟩

/-- With one key the second tenant is answered with what was computed for the
first. -/
theorem eq_of_isolated_askAfter (tenant tenant' : tenants) {endpoint endpoint' : String}
    {body body' : Option (Dict Json)}
    (hkey : makeCacheKey sha256 dumps tenant endpoint body =
      makeCacheKey sha256 dumps tenant' endpoint' body')
    (h : Isolated sha256 dumps (askAfter tenant tenant' endpoint endpoint' body body')) :
    tenant.1 = tenant'.1 := by
  -- the first call has ended and left its response, the second is about to look
  have hlook : (⟨[("cache:" ++ makeCacheKey sha256 dumps tenant endpoint body, ⟨"", tenant⟩)],
      [.ret (), (callOf tenant' endpoint' body').1.serve sha256 dumps]⟩ :
        Config CacheResp Exc Unit CacheStore).AllSteps cacheSem
          (fun call : CallOf tenants => call.1.serve sha256 dumps) dropKey AnswersOwn
          [.act 1 {}, .act 1 {}] := h.2.2.2.2.2.2
  rw [hkey] at hlook
  have hget : Dict.get?
      [("cache:" ++ makeCacheKey sha256 dumps tenant' endpoint' body', (⟨"", tenant⟩ : Response))]
      ("cache:" ++ makeCacheKey sha256 dumps tenant' endpoint' body') = some ⟨"", tenant⟩ :=
    if_pos rfl
  obtain ⟨k, hserve, hhit⟩ := serve_hit sha256 dumps tenant' endpoint' body'
  obtain ⟨k', hhit⟩ := hhit ⟨"", tenant⟩
  have hanswer := hlook.2.1
  simp only [Config.step, Config.Issuing, hserve, List.getElem?_cons_succ,
    List.getElem?_cons_zero, List.set_cons_succ, List.set_cons_zero, cacheSem, cacheExec, hget,
    hhit] at hanswer
  exact hanswer

/-- **Isolation.** With an injective hash the keys of two tenants differ, whatever
the endpoints and the bodies, exactly if the tenants are apart; and however the
statements of their calls interleave, whatever fails and whenever keys expire,
no tenant is answered with what was computed for another one, exactly if any two
of them are apart. -/
theorem cache_isolates_iff (hsha : Function.Injective sha256) (dumps : Dict Json → String) :
    (∀ tenant tenant', (∀ endpoint endpoint' body body',
        makeCacheKey sha256 dumps tenant endpoint body ≠
          makeCacheKey sha256 dumps tenant' endpoint' body') ↔ Apart tenant tenant') ∧
      ∀ tenants : Set (Option String),
        (∀ schedule : Schedule tenants, Isolated sha256 dumps schedule) ↔
          ∀ tenant ∈ tenants, ∀ tenant' ∈ tenants, tenant ≠ tenant' → Apart tenant tenant' := by
  have hkeys := keys_differ_iff hsha dumps
  refine ⟨hkeys, fun tenants => ⟨fun h t ht t' ht' hne => ?_, fun h schedule => ?_⟩⟩
  · refine (hkeys t t').mp fun e e' b b' hkey => ?_
    exact hne (eq_of_isolated_askAfter ⟨t, ht⟩ ⟨t', ht'⟩ hkey (h _))
  · exact isolated_of_keys (fun t ht t' ht' hne => (hkeys t t').mpr (h t ht t' ht' hne)) schedule

end Isolation

/-- Three tenants that are apart. -/
theorem cache_isolates_acme :
    (∀ endpoint endpoint' body body',
        makeCacheKey id (fun _ => "\x7b\x7d") (some "acme") endpoint body ≠
          makeCacheKey id (fun _ => "\x7b\x7d") (some "globex") endpoint' body') ∧
      ∀ schedule : Schedule {none, some "acme", some "globex"},
        Isolated id (fun _ => "\x7b\x7d") schedule := by
  obtain ⟨hkeys, hanswers⟩ :=
    cache_isolates_iff Function.injective_id fun _ => "\x7b\x7d"
  refine ⟨(hkeys _ _).mpr (by decide), (hanswers _).mpr ?_⟩
  rintro t (rfl | rfl | rfl) t' (rfl | rfl | rfl) hne <;> first | exact absurd rfl hne | decide

/-- The end of a tenant's name may as well begin the endpoint, and a tenant may
have the name that stands for none. -/
theorem cache_keys_collide :
    (∀ sha256 dumps,
      makeCacheKey sha256 dumps (some "acme|eu") "/copilot/fleet_health" none =
          makeCacheKey sha256 dumps (some "acme") "eu|/copilot/fleet_health" none ∧
        makeCacheKey sha256 dumps none "/copilot/fleet_health" none =
          makeCacheKey sha256 dumps (some "__global__") "/copilot/fleet_health" none) ∧
      ¬ ∀ schedule : Schedule Set.univ, Isolated id (fun _ => "\x7b\x7d") schedule := by
  refine ⟨fun sha256 dumps => ⟨congrArg sha256 ?_, rfl⟩, fun h => ?_⟩
  · exact rawKey_extends (u := ['e', 'u']) (by decide) "/copilot/fleet_health" none |>.symm
  · let everyone : Set (Option String) := Set.univ
    have hsame := eq_of_isolated_askAfter (⟨none, trivial⟩ : everyone)
      (⟨some "__global__", trivial⟩ : everyone)
      (rfl : makeCacheKey id _ none "/copilot/fleet_health" none = _) (h _)
    exact nomatch hsame

end DiepLab.Copilot
