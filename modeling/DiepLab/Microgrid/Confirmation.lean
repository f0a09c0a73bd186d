import DiepLab.Microgrid.Driver

/-!
Commands and their confirmations.

Interrogations and commands go out on one connection, and one event says that
something was confirmed. Who is confirmed it does not say: a call of
`execute_command` clears the event, sends, and takes whatever sets the event next
for the confirmation of its own command. So it is, as long as nothing else sets
the event meanwhile (`Undisturbed`); `Sound.step` is the step and
`acked_confirmed` the run.

The requests are numbered, and the station's answers carry the number of the
request that they answer. No function of the driver reads these numbers.
-/

namespace DiepLab.Microgrid

/-! ### The station -/

/-- What a station may send in answer to a request: confirmations of its type,
terminations if it is an interrogation, and reports. -/
def Proper (request asdu : List UInt8) : Prop :=
  match decodeAsdu request, decodeAsdu asdu with
  | .ok r, .ok a =>
      a.typeId ∈ monitorTypes ∨
        a.typeId = r.typeId ∧ (a.cot = cotActcon ∨ a.cot = cotActterm ∧ r.typeId = cIcNa1)
  | _, _ => False

instance (request asdu : List UInt8) : Decidable (Proper request asdu) := by
  unfold Proper
  split <;> infer_instance

/-- The ASDU is the activation confirmation of the request. -/
def Confirms (request asdu : List UInt8) : Prop :=
  match decodeAsdu request, decodeAsdu asdu with
  | .ok r, .ok a => a.typeId = r.typeId ∧ a.cot = cotActcon
  | _, _ => False

/-- Not an interrogation. -/
def IsCommand (request : List UInt8) : Prop :=
  ∀ decoded, decodeAsdu request = .ok decoded →
    decoded.typeId = cScNa1 ∨ decoded.typeId = cSeNc1

/-! ### Calls -/

/-- A call of `execute_command`, by where it stands in `_send_and_confirm`. -/
inductive Call where
  /-- Before the request is sent. -/
  | cleared (asdu : List UInt8)
  /-- Before the call looks at the event. -/
  | sent (request : ℕ)
  /-- Blocked in `wait`, and whether the event has been set since. -/
  | waiting (request : ℕ) (notified : Bool)
  | returned (request : Option ℕ) (result : Except PyExc CommandResult)

structure State where
  cache : Cache := {}
  /-- The flag of `_actcon`. -/
  actcon : Bool := false
  calls : List Call := []
  /-- The ASDUs that the driver has sent. -/
  requests : List (List UInt8) := []
  /-- The ASDUs that the station has sent, each with the number of its request. -/
  answers : List (ℕ × List UInt8) := []
  /-- How many of them the receiving thread has handled. -/
  received : ℕ := 0

inductive Event where
  | interrogate
  | execute (commandType : String) (params : Dict PyValue)
  /-- The call sends its request, or fails to. -/
  | send (call : ℕ) (failure : Option String)
  /-- The call looks at the event, and blocks if it is not set. -/
  | wait (call : ℕ)
  /-- The call has been notified, or its timeout is over. -/
  | wake (call : ℕ)
  | answer (request : ℕ) (asdu : List UInt8)
  | receive

/-- `Event.set` releases all that are blocked. -/
def Call.notify : Call → Call
  | .waiting request _ => .waiting request true
  | call => call

section Step

variable (readFloat : String → Option Double) (ca : ℕ)

/-- One event. What cannot happen changes nothing. -/
def step (s : State) : Event → State
  | .interrogate =>
      match interrogation ca with
      | .ok asdu => { s with requests := s.requests ++ [asdu] }
      | .error _ => s
  | .execute commandType params =>
      match commandAsdu readFloat ca commandType params with
      | .ok (.inr asdu) => { s with actcon := false, calls := s.calls ++ [.cleared asdu] }
      | .ok (.inl result) => { s with calls := s.calls ++ [.returned none (.ok result)] }
      | .error e => { s with calls := s.calls ++ [.returned none (.error e)] }
  | .send i failure =>
      match s.calls[i]?, failure with
      | some (.cleared asdu), none =>
          { s with
            requests := s.requests ++ [asdu]
            calls := s.calls.set i (.sent s.requests.length) }
      | some (.cleared _), some exc =>
          { s with
            calls := s.calls.set i (.returned none (.ok (commandFailed s!"send failed: {exc}"))) }
      | _, _ => s
  | .wait i =>
      match s.calls[i]? with
      | some (.sent request) =>
          { s with
            calls := s.calls.set i
              (if s.actcon then .returned (some request) (.ok acked)
              else .waiting request false) }
      | _ => s
  | .wake i =>
      match s.calls[i]? with
      | some (.waiting request notified) =>
          { s with
            calls := s.calls.set i (.returned (some request) (.ok (if notified then acked
              else commandFailed "no activation confirmation from RTU"))) }
      | _ => s
  | .answer n asdu =>
      match s.requests[n]? with
      | some request =>
          if Proper request asdu then { s with answers := s.answers ++ [(n, asdu)] } else s
      | none => s
  | .receive =>
      match s.answers[s.received]? with
      | some (_, asdu) =>
          let handled := onAsdu asdu s.cache
          { s with
            received := s.received + 1
            cache := handled.1
            actcon := s.actcon || handled.2
            calls := if handled.2 then s.calls.map Call.notify else s.calls }
      | none => s

def run (s : State) (events : List Event) : State := events.foldl (step readFloat ca) s

end Step

/-! ### Disturbances -/

/-- The call has cleared the event, and nothing has set it for the call since. -/
def Call.Open (actcon : Bool) : Call → Prop
  | .cleared _ => True
  | .sent _ => actcon = false
  | .waiting _ notified => notified = false
  | .returned _ _ => False

instance (actcon : Bool) (call : Call) : Decidable (call.Open actcon) := by
  unfold Call.Open
  split <;> infer_instance

/-- The number of the request that the call has sent. -/
def Call.request? : Call → Option ℕ
  | .cleared _ => none
  | .sent request => some request
  | .waiting request _ => some request
  | .returned request _ => request

/-- What sets the event answers the requests of all calls that wait for it. -/
def Undisturbed (s : State) : Event → Prop
  | .receive =>
      match s.answers[s.received]? with
      | some (n, asdu) =>
          (onAsdu asdu s.cache).2 = true →
            ∀ call ∈ s.calls, call.Open s.actcon → call.request? = some n
      | none => True
  | _ => True

instance (s : State) (e : Event) : Decidable (Undisturbed s e) := by
  unfold Undisturbed
  split
  · split <;> infer_instance
  · infer_instance

def AllUndisturbed (readFloat : String → Option Double) (ca : ℕ) : State → List Event → Prop
  | _, [] => True
  | s, e :: events => Undisturbed s e ∧ AllUndisturbed readFloat ca (step readFloat ca s e) events

instance decidableAllUndisturbed (readFloat : String → Option Double) (ca : ℕ) :
    (s : State) → (events : List Event) → Decidable (AllUndisturbed readFloat ca s events)
  | _, [] => isTrue trivial
  | s, e :: events =>
      have := decidableAllUndisturbed readFloat ca (step readFloat ca s e) events
      inferInstanceAs (Decidable (Undisturbed s e ∧ _))

/-! ### The invariant -/

/-- The station has sent an activation confirmation of the request. -/
def Confirmed (s : State) (n : ℕ) : Prop :=
  ∃ request asdu, s.requests[n]? = some request ∧ (n, asdu) ∈ s.answers ∧ Confirms request asdu

def Commanded (s : State) (n : ℕ) : Prop :=
  ∃ request, s.requests[n]? = some request ∧ IsCommand request

/-- The event is set for a call only by its confirmation. -/
def Call.Sound (s : State) : Call → Prop
  | .cleared asdu => IsCommand asdu ∧ s.actcon = false
  | .sent n => Commanded s n ∧ (s.actcon = true → Confirmed s n)
  | .waiting n notified => Commanded s n ∧ (notified = true → Confirmed s n)
  | .returned request result => result = .ok acked → ∃ n, request = some n ∧ Confirmed s n

structure Sound (s : State) : Prop where
  proper : ∀ n asdu, (n, asdu) ∈ s.answers →
    ∃ request, s.requests[n]? = some request ∧ Proper request asdu
  calls : ∀ call ∈ s.calls, call.Sound s

/-- What sets the event for a command is its confirmation. -/
theorem confirms_of_proper {request asdu : List UInt8} (hproper : Proper request asdu)
    (hcommand : IsCommand request) {cache : Cache} (hsets : (onAsdu asdu cache).2 = true) :
    Confirms request asdu := by
  unfold Proper at hproper
  unfold Confirms
  split at hproper
  · rename_i r a hr ha
    have htype := hcommand r hr
    unfold onAsdu at hsets
    simp only [ha] at hsets
    split at hsets
    · exact nomatch hsets
    · rename_i hmonitor
      obtain ⟨hsame, hcause⟩ := hproper.resolve_left hmonitor
      refine ⟨hsame, hcause.resolve_right fun hterm => ?_⟩
      rw [hterm.2] at htype
      exact absurd htype (by decide)
  · exact hproper.elim

/-! ### Steps -/

/-- Nothing that was sent is taken back, and the event is not set. -/
structure Grows (s s' : State) : Prop where
  requests : ∃ more, s'.requests = s.requests ++ more
  answers : s.answers ⊆ s'.answers
  actcon : s'.actcon = true → s.actcon = true

section Grows

variable {s s' : State}

theorem Grows.request (h : Grows s s') {n : ℕ} {request : List UInt8}
    (hn : s.requests[n]? = some request) : s'.requests[n]? = some request := by
  obtain ⟨more, hmore⟩ := h.requests
  rw [hmore, List.getElem?_append_left (List.getElem?_eq_some_iff.mp hn).1, hn]

theorem Confirmed.mono (h : Grows s s') {n : ℕ} : Confirmed s n → Confirmed s' n := by
  rintro ⟨request, asdu, hrequest, hanswer, hconfirms⟩
  exact ⟨request, asdu, h.request hrequest, h.answers hanswer, hconfirms⟩

theorem Commanded.mono (h : Grows s s') {n : ℕ} : Commanded s n → Commanded s' n := by
  rintro ⟨request, hrequest, hcommand⟩
  exact ⟨request, h.request hrequest, hcommand⟩

theorem Call.Sound.mono (h : Grows s s') {call : Call} (hcall : call.Sound s) : call.Sound s' := by
  cases call with
  | cleared asdu =>
      refine ⟨hcall.1, ?_⟩
      rw [← Bool.not_eq_true]
      intro hset
      exact absurd (h.actcon hset) (by rw [hcall.2]; nofun)
  | sent n => exact ⟨hcall.1.mono h, fun hset => (hcall.2 (h.actcon hset)).mono h⟩
  | waiting n notified => exact ⟨hcall.1.mono h, fun hnotified => (hcall.2 hnotified).mono h⟩
  | returned request result =>
      intro hacked
      obtain ⟨n, hn, hconfirmed⟩ := hcall hacked
      exact ⟨n, hn, hconfirmed.mono h⟩

/-- A step that does not set the event has to see to its new answers and calls. -/
theorem Sound.grow (h : Sound s) (hgrows : Grows s s')
    (hanswers : ∀ n asdu, (n, asdu) ∈ s'.answers → (n, asdu) ∈ s.answers ∨
      ∃ request, s'.requests[n]? = some request ∧ Proper request asdu)
    (hcalls : ∀ call ∈ s'.calls, call ∈ s.calls ∨ call.Sound s') : Sound s' := by
  refine ⟨fun n asdu hanswer => ?_, fun call hcall => ?_⟩
  · rcases hanswers n asdu hanswer with hold | hnew
    · obtain ⟨request, hrequest, hproper⟩ := h.proper n asdu hold
      exact ⟨request, hgrows.request hrequest, hproper⟩
    · exact hnew
  · rcases hcalls call hcall with hold | hnew
    · exact (h.calls call hold).mono hgrows
    · exact hnew

end Grows

section Steps

variable {readFloat : String → Option Double} {ca : ℕ} {s : State}

attribute [local simp] step

theorem Grows.of_calls (calls : List Call) : Grows s { s with calls := calls } :=
  ⟨⟨[], (List.append_nil _).symm⟩, List.Subset.refl _, id⟩

/-- One call of a sound state goes on, and nothing else happens. -/
theorem Sound.set (h : Sound s) (i : ℕ) {call : Call} (hcall : call.Sound s) :
    Sound { s with calls := s.calls.set i call } := by
  refine h.grow (.of_calls _) (fun n asdu => Or.inl) fun call' hcall' => ?_
  rcases List.mem_or_eq_of_mem_set hcall' with hold | rfl
  · exact Or.inl hold
  · exact Or.inr (hcall.mono (.of_calls _))

/-- A call that returns at once. -/
theorem Sound.append_returned (h : Sound s) {result : Except PyExc CommandResult}
    (hresult : result ≠ .ok acked) :
    Sound { s with calls := s.calls ++ [.returned none result] } := by
  refine h.grow (.of_calls _) (fun n asdu => Or.inl) fun call hcall => ?_
  rcases List.mem_append.mp hcall with hold | hnew
  · exact Or.inl hold
  · obtain rfl := List.mem_singleton.mp hnew
    exact Or.inr fun hacked => absurd hacked hresult

theorem commandFailed_ne_acked (error : String) : commandFailed error ≠ acked :=
  fun h => absurd (congrArg CommandResult.status h) (show "FAILED" ≠ "ACKED" by decide)

/-- Before anything is sent nothing is acknowledged. -/
theorem commandAsdu_ne_acked {commandType : String} {params : Dict PyValue}
    {result : CommandResult} (h : commandAsdu readFloat ca commandType params = .ok (.inl result)) :
    result ≠ acked := by
  unfold commandAsdu at h
  split at h
  · injection h with h
    injection h with h
    exact h ▸ commandFailed_ne_acked _
  · split at h
    · obtain ⟨element, -, h⟩ := bind_eq_ok.mp h
      injection h with h
      exact nomatch h
    · split at h
      · split at h
        · injection h with h
          injection h with h
          exact h ▸ commandFailed_ne_acked _
        · obtain ⟨x, -, h⟩ := bind_eq_ok.mp h
          obtain ⟨element, -, h⟩ := bind_eq_ok.mp h
          injection h with h
          exact nomatch h
      · injection h with h
        injection h with h
        exact h ▸ commandFailed_ne_acked _

theorem Sound.execute (h : Sound s) (commandType : String) (params : Dict PyValue) :
    Sound (step readFloat ca s (.execute commandType params)) := by
  rw [step]
  split
  · rename_i asdu hasdu
    have hgrows : Grows s { s with actcon := false, calls := s.calls ++ [.cleared asdu] } :=
      ⟨⟨[], (List.append_nil _).symm⟩, List.Subset.refl _, nofun⟩
    refine h.grow hgrows (fun n asdu => Or.inl) fun call hcall => ?_
    rcases List.mem_append.mp hcall with hold | hnew
    · exact Or.inl hold
    · obtain rfl := List.mem_singleton.mp hnew
      exact Or.inr ⟨fun decoded => typeId_of_commandAsdu hasdu, rfl⟩
  · rename_i result hresult
    refine h.append_returned fun hacked => ?_
    injection hacked with hacked
    exact commandAsdu_ne_acked hresult hacked
  · exact h.append_returned nofun

theorem Sound.send (h : Sound s) (i : ℕ) (failure : Option String) :
    Sound (step readFloat ca s (.send i failure)) := by
  unfold step
  dsimp only
  split
  · rename_i asdu hi
    have hcleared := h.calls _ (List.mem_of_getElem? hi)
    have hgrows : Grows s { s with
        requests := s.requests ++ [asdu]
        calls := s.calls.set i (.sent s.requests.length) } :=
      ⟨⟨[asdu], rfl⟩, List.Subset.refl _, id⟩
    refine h.grow hgrows (fun n asdu => Or.inl) fun call hcall => ?_
    rcases List.mem_or_eq_of_mem_set hcall with hold | rfl
    · exact Or.inl hold
    · -- the event is still clear, for only a disturbance sets it before the request is sent
      refine Or.inr ⟨⟨asdu, List.getElem?_concat_length, hcleared.1⟩, fun hset => ?_⟩
      exact absurd hset (by rw [hcleared.2]; nofun)
  · exact h.set i fun hacked => absurd (Except.ok.inj hacked) (commandFailed_ne_acked _)
  · exact h

theorem Sound.wait (h : Sound s) (i : ℕ) : Sound (step readFloat ca s (.wait i)) := by
  rw [step]
  split
  · rename_i request hi
    have hsent := h.calls _ (List.mem_of_getElem? hi)
    refine h.set i ?_
    split
    · rename_i hset
      exact fun _ => ⟨request, rfl, hsent.2 hset⟩
    · exact ⟨hsent.1, nofun⟩
  · exact h

theorem Sound.wake (h : Sound s) (i : ℕ) : Sound (step readFloat ca s (.wake i)) := by
  rw [step]
  split
  · rename_i request notified hi
    have hwaiting := h.calls _ (List.mem_of_getElem? hi)
    refine h.set i fun hacked => ?_
    cases notified with
    | true => exact ⟨request, rfl, hwaiting.2 rfl⟩
    | false => exact absurd (Except.ok.inj hacked) (commandFailed_ne_acked _)
  · exact h

theorem Sound.answer (h : Sound s) (n : ℕ) (asdu : List UInt8) :
    Sound (step readFloat ca s (.answer n asdu)) := by
  rw [step]
  split
  · rename_i request hrequest
    split
    · rename_i hproper
      have hgrows : Grows s { s with answers := s.answers ++ [(n, asdu)] } :=
        ⟨⟨[], (List.append_nil _).symm⟩, List.subset_append_left _ _, id⟩
      refine h.grow hgrows (fun n' asdu' hanswer => ?_) fun call => Or.inl
      rcases List.mem_append.mp hanswer with hold | hnew
      · exact Or.inl hold
      · rw [List.mem_singleton, Prod.mk.injEq] at hnew
        exact Or.inr ⟨request, hnew.1 ▸ hrequest, hnew.2 ▸ hproper⟩
    · exact h
  · exact h

theorem Sound.interrogate (h : Sound s) : Sound (step readFloat ca s .interrogate) := by
  rw [step]
  split
  · rename_i asdu _
    have hgrows : Grows s { s with requests := s.requests ++ [asdu] } :=
      ⟨⟨[asdu], rfl⟩, List.Subset.refl _, id⟩
    exact h.grow hgrows (fun n asdu => Or.inl) fun call => Or.inl
  · exact h

/-- The event is set, and every call that it is set for is confirmed. -/
theorem Sound.set_event (h : Sound s) {n : ℕ} {asdu : List UInt8}
    (hanswer : (n, asdu) ∈ s.answers) (hsets : (onAsdu asdu s.cache).2 = true)
    (hopen : ∀ call ∈ s.calls, call.Open s.actcon → call.request? = some n)
    {cache : Cache} {received : ℕ} :
    Sound { s with
      received := received, cache := cache, actcon := true, calls := s.calls.map Call.notify } := by
  have hconfirmed : Commanded s n → Confirmed s n := by
    rintro ⟨request, hrequest, hcommand⟩
    obtain ⟨request', hrequest', hproper⟩ := h.proper n asdu hanswer
    obtain rfl := Option.some.inj (hrequest.symm.trans hrequest')
    exact ⟨request, asdu, hrequest, hanswer, confirms_of_proper hproper hcommand hsets⟩
  refine ⟨h.proper, fun call hcall => ?_⟩
  obtain ⟨call, hmem, rfl⟩ := List.mem_map.mp hcall
  have hsound := h.calls call hmem
  cases call with
  | cleared asdu => exact nomatch hopen _ hmem trivial
  | sent m =>
      refine ⟨hsound.1, fun _ => ?_⟩
      cases hset : s.actcon with
      | true => exact hsound.2 hset
      | false =>
          obtain rfl := Option.some.inj (hopen _ hmem hset)
          exact hconfirmed hsound.1
  | waiting m notified =>
      refine ⟨hsound.1, fun _ => ?_⟩
      cases notified with
      | true => exact hsound.2 rfl
      | false =>
          obtain rfl := Option.some.inj (hopen _ hmem rfl)
          exact hconfirmed hsound.1
  | returned request result => exact hsound

theorem Sound.receive (h : Sound s) (hundisturbed : Undisturbed s .receive) :
    Sound (step readFloat ca s .receive) := by
  rw [step]
  rw [Undisturbed] at hundisturbed
  split
  · rename_i n asdu hnext
    rw [hnext] at hundisturbed
    have hanswer := List.mem_of_getElem? hnext
    dsimp only at hundisturbed ⊢
    cases hsets : (onAsdu asdu s.cache).2 with
    | true =>
        rw [Bool.or_true, if_pos rfl]
        exact h.set_event hanswer hsets (hundisturbed hsets)
    | false =>
        rw [Bool.or_false, if_neg nofun]
        exact h.grow ⟨⟨[], (List.append_nil _).symm⟩, List.Subset.refl _, id⟩
          (fun n asdu => Or.inl) fun call => Or.inl
  · exact h

/-- An undisturbed step keeps the invariant. -/
theorem Sound.step (h : Sound s) {e : Event} (hundisturbed : Undisturbed s e) :
    Sound (step readFloat ca s e) := by
  cases e with
  | interrogate => exact h.interrogate
  | execute commandType params => exact h.execute commandType params
  | send i failure => exact h.send i failure
  | wait i => exact h.wait i
  | wake i => exact h.wake i
  | answer n asdu => exact h.answer n asdu
  | receive => exact h.receive hundisturbed

theorem Sound.run (h : Sound s) {events : List Event}
    (hundisturbed : AllUndisturbed readFloat ca s events) : Sound (run readFloat ca s events) := by
  induction events generalizing s with
  | nil => exact h
  | cons e events ih => exact ih (h.step hundisturbed.1) hundisturbed.2

end Steps

/-- A driver that has just been set up, whatever it knows already. -/
def started (cache : Cache) (actcon : Bool) : State := { cache := cache, actcon := actcon }

theorem sound_started (cache : Cache) (actcon : Bool) : Sound (started cache actcon) :=
  ⟨nofun, nofun⟩

/-- In an undisturbed run a call that returns `ACKED` has sent a request that the
station has confirmed. -/
theorem acked_confirmed (readFloat : String → Option Double) (ca : ℕ) (cache : Cache)
    (actcon : Bool) (events : List Event)
    (h : AllUndisturbed readFloat ca (started cache actcon) events) :
    ∀ request result,
      Call.returned request result ∈ (run readFloat ca (started cache actcon) events).calls →
        result = .ok acked →
          ∃ n, request = some n ∧ Confirmed (run readFloat ca (started cache actcon) events) n :=
  fun _ _ hcall => ((sound_started cache actcon).run h).calls _ hcall

/-! ### Two runs -/

/-- Station 1 confirms and terminates the interrogation, and confirms the command. -/
def interrogationConfirmed : List UInt8 := encodeAsdu cIcNa1 cotActcon 1 [(0, [20])]

def interrogationTerminated : List UInt8 := encodeAsdu cIcNa1 cotActterm 1 [(0, [20])]

def islandConfirmed : List UInt8 := encodeAsdu cScNa1 cotActcon 1 [(ioaBreaker, [0])]

def connected : List UInt8 := encodeAsdu mSpNa1 cotInterrogated 1 [(ioaGridConnected, [1])]

/-- The interrogation is over before the command is given. -/
def islandRun : List Event :=
  [.interrogate, .answer 0 interrogationConfirmed, .receive, .answer 0 connected, .receive,
    .answer 0 interrogationTerminated, .receive, .execute "island" [], .send 0 none, .wait 0,
    .answer 1 islandConfirmed, .receive, .wake 0]

theorem island_confirmed :
    ∃ n, some 1 = some n ∧
      Confirmed (run (fun _ => none) 1 (started {} false) islandRun) n :=
  acked_confirmed (fun _ => none) 1 {} false islandRun (by decide +kernel) (some 1) (.ok acked)
    (List.mem_singleton.mpr rfl) rfl

/-- The interrogation is terminated while the command, which the station never
confirms, waits to be. -/
def disturbedRun : List Event :=
  [.interrogate, .answer 0 interrogationConfirmed, .receive, .execute "island" [], .send 0 none,
    .wait 0, .answer 0 connected, .receive, .answer 0 interrogationTerminated, .receive, .wake 0]

theorem lateTermination_acked :
    ¬∀ request result,
      Call.returned request result ∈
          (run (fun _ => none) 1 (started {} false) disturbedRun).calls →
        result = .ok acked →
          ∃ n, request = some n ∧
            Confirmed (run (fun _ => none) 1 (started {} false) disturbedRun) n := by
  intro h
  obtain ⟨n, hn, request, asdu, -, hanswer, -⟩ :=
    h (some 1) (.ok acked) (List.mem_singleton.mpr rfl) rfl
  obtain rfl := Option.some.inj hn
  -- all that the station has sent is about the interrogation
  have hnone : ∀ answer ∈ (run (fun _ => none) 1 (started {} false) disturbedRun).answers,
      answer.1 = 0 := by decide +kernel
  exact nomatch hnone _ hanswer

end DiepLab.Microgrid
