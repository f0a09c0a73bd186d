import DiepLab.Controls.Obligations

/-!
Requests that race on one action.

Every endpoint reads the row, checks the status, acts, and then updates by
`action_id` alone. `Serialized` is what this leaves to luck: whenever a request
updates the status or calls a handler, the stored status is still the one it
has read, and no earlier call of that handler on the action is waiting for the
update that settles it.

In a run in which that is so the status only moves forward (`leadsTo`), which
is all that is needed: after an execution is settled no status from which one
may execute comes back, and REJECTED is never left.
-/

namespace DiepLab.Controls

open StatementProgram

variable {P D W WC WStmt : Type} {WResp : WStmt → Type}
variable {wsem : WC → (q : WStmt) → W → Except Exc (WResp q) × W}

/-! ### What the log says about one action -/

/-- The entry is a call of the handler for the action. -/
def Trace.calls (op : Op) (i : String) : Trace P D → Bool
  | .invoked op' row _ _ => op' = op && row.actionId = i
  | _ => false

/-- How often the handler was called for the action. -/
def callCount (op : Op) (i : String) (log : List (Trace P D)) : ℕ :=
  log.countP (Trace.calls op i)

/-- The status updates with which a request ends a call of the handler. -/
def StatusUpdate.settles (op : Op) : StatusUpdate D → Bool
  | .executed (.doc _) => op = .execute
  | .failed _ => op = .execute
  | .rolledBack _ => op = .rollback
  | _ => false

def Trace.settles (op : Op) (i : String) : Trace P D → Bool
  | .updated j u => j = i && u.settles op
  | _ => false

/-- Every call of the handler for the action is followed by an update that
settles it. -/
def Settled (op : Op) (i : String) : List (Trace P D) → Prop
  | [] => True
  | e :: later => (e.calls op i = true → later.any (Trace.settles op i) = true) ∧
      Settled op i later

instance decidableSettled (op : Op) (i : String) :
    (log : List (Trace P D)) → Decidable (Settled op i log)
  | [] => isTrue trivial
  | e :: later =>
      have := decidableSettled op i later
      inferInstanceAs (Decidable ((e.calls op i = true → _) ∧ _))

/-- The stored status of the action is the one in the row. -/
def StatusIs (db : ControlDb P D) (i : String) (status : ActionStatus) : Prop :=
  (db.get i).map ActionRow.status = some status

/-- The condition on a statement: the stored status is the one that was read,
and, for the call of a handler, the earlier calls are settled. -/
def Serialized : ControlStmt P D → ControlDb P D → Prop
  | .updateStatus i _ read, db => StatusIs db i read.status
  | .invoke op row _, db =>
      StatusIs db row.actionId row.status ∧ Settled op row.actionId db.log
  | _, _ => True

instance (db : ControlDb P D) (i : String) (status : ActionStatus) :
    Decidable (StatusIs db i status) :=
  inferInstanceAs (Decidable (_ = _))

instance (q : ControlStmt P D) (db : ControlDb P D) : Decidable (Serialized q db) := by
  cases q <;> simp only [Serialized] <;> infer_instance

/-! ### The status moves forward -/

/-- From which statuses an endpoint issues the update. -/
def StatusUpdate.AllowedFrom (status : ActionStatus) : StatusUpdate D → Prop
  | .approved _ => status = .PENDING
  | .rejected _ => status = .PENDING
  | .executed _ => status = .PENDING ∨ status = .APPROVED
  | .failed _ => status = .PENDING ∨ status = .APPROVED
  | .rolledBack _ => status = .EXECUTED

/-- Which statuses can follow after which. -/
def ActionStatus.leadsTo : ActionStatus → ActionStatus → Prop
  | .PENDING, _ => True
  | .APPROVED, b => b ≠ .PENDING ∧ b ≠ .REJECTED
  | .EXECUTED, b => b = .EXECUTED ∨ b = .ROLLED_BACK
  | a, b => a = b

theorem ActionStatus.leadsTo_refl (a : ActionStatus) : a.leadsTo a := by
  cases a <;> simp [ActionStatus.leadsTo]

theorem ActionStatus.leadsTo_update {a b : ActionStatus} {u : StatusUpdate D}
    (hab : a.leadsTo b) (hu : u.AllowedFrom b) : a.leadsTo u.status := by
  cases u with
  | executed after => obtain rfl | rfl := hu <;> cases a <;> simp_all [leadsTo, StatusUpdate.status]
  | failed error => obtain rfl | rfl := hu <;> cases a <;> simp_all [leadsTo, StatusUpdate.status]
  | _ => cases hu; cases a <;> simp_all [leadsTo, StatusUpdate.status]

/-- A settled execution leaves the statuses from which one may execute, a
settled rollback leaves EXECUTED. -/
theorem StatusUpdate.settles_leaves {u : StatusUpdate D} {status : ActionStatus} :
    (u.settles .execute = true → u.status.leadsTo status →
      ¬ (status = .PENDING ∨ status = .APPROVED)) ∧
    (u.settles .rollback = true → u.status.leadsTo status → status ≠ .EXECUTED) := by
  cases u with
  | executed after =>
      cases after <;> cases status <;>
        simp [StatusUpdate.settles, StatusUpdate.status, ActionStatus.leadsTo]
  | _ =>
      cases status <;> simp [StatusUpdate.settles, StatusUpdate.status, ActionStatus.leadsTo]

/-! ### The invariant -/

/-- From which statuses an endpoint calls the handler. -/
def Op.AllowedFrom (status : ActionStatus) : Op → Prop
  | .execute => status = .PENDING ∨ status = .APPROVED
  | .rollback => status = .EXECUTED

structure Forward (db : ControlDb P D) : Prop where
  /-- Whatever was written to the status, the status has moved on from there. -/
  moved : ∀ i u, .updated i u ∈ db.log →
    ∃ row, db.get i = some row ∧ u.status.leadsTo row.status
  once : ∀ op i, callCount op i db.log ≤ 1
  rejected : ∀ pre i post, db.log = pre ++ .responded .reject i :: post →
    (∃ by_, .updated i (.rejected by_) ∈ pre) ∧
      ∀ row checked enabled, .invoked .execute row checked enabled ∈ post → row.actionId ≠ i

def ForwardNeeds : ControlStmt P D → ControlDb P D → Prop
  | .insertAction row, _ => row.status = .PENDING
  | .updateStatus _ u read, _ => u.AllowedFrom read.status
  | .invoke op row _, _ => op.AllowedFrom row.status
  | .respond .reject i, db => ∃ by_, .updated i (.rejected by_) ∈ db.log
  | _, _ => True

/-- A call that is not settled is still in the count; a settled one has left
its update in the log. -/
theorem exists_settles_of_callCount {op : Op} {i : String} {log : List (Trace P D)}
    (hsettled : Settled op i log) (hcount : callCount op i log ≠ 0) :
    ∃ u : StatusUpdate D, .updated i u ∈ log ∧ u.settles op = true := by
  induction log with
  | nil => exact absurd rfl hcount
  | cons e later ih =>
      obtain ⟨hhere, hlater⟩ := hsettled
      by_cases hcalls : e.calls op i = true
      · obtain ⟨f, hf, hfs⟩ := List.any_eq_true.mp (hhere hcalls)
        cases f with
        | updated j u =>
            simp only [Trace.settles, Bool.and_eq_true, decide_eq_true_eq] at hfs
            exact ⟨u, hfs.1 ▸ List.mem_cons_of_mem e hf, hfs.2⟩
        | _ => exact absurd hfs Bool.false_ne_true
      · rw [callCount, List.countP_cons_of_neg hcalls] at hcount
        obtain ⟨u, hu, hus⟩ := ih hlater hcount
        exact ⟨u, List.mem_cons_of_mem e hu, hus⟩

theorem callCount_append (op : Op) (i : String) (log : List (Trace P D)) (e : Trace P D) :
    callCount op i (log ++ [e]) = callCount op i log + if e.calls op i = true then 1 else 0 := by
  rw [callCount, List.countP_append, List.countP_singleton]
  rfl

/-! ### One statement -/

namespace Forward

variable {db : ControlDb P D} (h : Forward db)
include h

/-- An old answer to a reject, with a new entry at the end of the log. -/
theorem rejected_append {e : Trace P D}
    (hanswer : ∀ i, e = .responded .reject i → ∃ by_, .updated i (.rejected by_) ∈ db.log)
    (hcall : ∀ row checked enabled, e = .invoked .execute row checked enabled →
      ∀ i by_, .updated i (.rejected by_) ∈ db.log → row.actionId ≠ i) :
    ∀ pre i post, db.log ++ [e] = pre ++ .responded .reject i :: post →
      (∃ by_, .updated i (.rejected by_) ∈ pre) ∧
        ∀ row checked enabled, .invoked .execute row checked enabled ∈ post →
          row.actionId ≠ i := by
  intro pre i post hlog
  rcases split_append_singleton hlog with ⟨post', hold, rfl⟩ | ⟨rfl, he, rfl⟩
  · obtain ⟨⟨by_, hby⟩, hnone⟩ := h.rejected pre i post' hold
    refine ⟨⟨by_, hby⟩, fun row checked enabled hmem => ?_⟩
    rcases List.mem_append.mp hmem with hmem | hmem
    · exact hnone row checked enabled hmem
    · refine hcall row checked enabled (List.mem_singleton.mp hmem).symm i by_ ?_
      rw [hold]
      exact List.mem_append_left _ hby
  · exact ⟨hanswer i he, fun _ _ _ hmem => absurd hmem List.not_mem_nil⟩

/-- An entry that is no status update leaves the statuses where they are. -/
theorem moved_append {e : Trace P D} (he : ∀ i u, e ≠ .updated i u) :
    ∀ i u, .updated i u ∈ db.log ++ [e] →
      ∃ row, db.get i = some row ∧ u.status.leadsTo row.status := by
  intro i u hmem
  rcases List.mem_append.mp hmem with hmem | hmem
  · exact h.moved i u hmem
  · exact absurd (List.mem_singleton.mp hmem).symm (he i u)

theorem once_append {e : Trace P D}
    (hfirst : ∀ op i, e.calls op i = true → callCount op i db.log = 0) :
    ∀ op i, callCount op i (db.log ++ [e]) ≤ 1 := by
  intro op i
  rw [callCount_append]
  split
  · rename_i hcalls
    exact Nat.le_of_eq (congrArg (· + 1) (hfirst op i hcalls))
  · exact h.once op i

/-- Behind a settled call the status is not one to call the handler from. -/
theorem callCount_eq_zero {op : Op} {i : String} {status : ActionStatus}
    (hstatus : StatusIs db i status) (hsettled : Settled op i db.log)
    (hallowed : op.AllowedFrom status) : callCount op i db.log = 0 := by
  by_contra hcount
  obtain ⟨u, hu, hsettles⟩ := exists_settles_of_callCount hsettled hcount
  obtain ⟨row, hrow, hleads⟩ := h.moved i u hu
  have heq : row.status = status := by
    rw [StatusIs, hrow] at hstatus
    injection hstatus
  rw [heq] at hleads
  cases op with
  | execute => exact StatusUpdate.settles_leaves.1 hsettles hleads hallowed
  | rollback => exact StatusUpdate.settles_leaves.2 hsettles hleads hallowed

theorem update {i : String} {u : StatusUpdate D} {status : ActionStatus}
    (hstatus : StatusIs db i status) (hallowed : u.AllowedFrom status) :
    Forward (db.update i u) where
  moved j v hmem := by
    obtain ⟨row, hrow, heq⟩ := Option.map_eq_some_iff.mp hstatus
    rw [ControlDb.get_update]
    rcases List.mem_append.mp hmem with hmem | hmem
    · obtain ⟨row', hrow', hleads⟩ := h.moved j v hmem
      by_cases hij : i = j
      · subst hij
        rw [hrow] at hrow'
        injection hrow' with hrow'
        subst hrow'
        refine ⟨u.apply row, by rw [if_pos rfl, hrow]; rfl, ?_⟩
        rw [StatusUpdate.apply_status]
        exact ActionStatus.leadsTo_update hleads (heq ▸ hallowed)
      · exact ⟨row', by rw [if_neg hij, hrow'], hleads⟩
    · have hnew := List.mem_singleton.mp hmem
      injection hnew with hj hv
      subst hj hv
      refine ⟨v.apply row, by rw [if_pos rfl, hrow]; rfl, ?_⟩
      rw [StatusUpdate.apply_status]
      exact ActionStatus.leadsTo_refl _
  once := h.once_append fun _ _ hcalls => absurd hcalls Bool.false_ne_true
  rejected := h.rejected_append (fun _ he => nomatch he) fun _ _ _ he => nomatch he

theorem invoke {op : Op} {row : ActionRow P D} {checked : Option Bool}
    (hstatus : StatusIs db row.actionId row.status) (hsettled : Settled op row.actionId db.log)
    (hallowed : op.AllowedFrom row.status) :
    Forward { db with log := db.log ++ [.invoked op row checked db.enabled] } where
  moved := h.moved_append fun _ _ he => nomatch he
  once := by
    refine h.once_append fun op' i hcalls => ?_
    simp only [Trace.calls, Bool.and_eq_true, decide_eq_true_eq] at hcalls
    obtain ⟨rfl, rfl⟩ := hcalls
    exact h.callCount_eq_zero hstatus hsettled hallowed
  rejected := by
    refine h.rejected_append (fun _ he => nomatch he)
      fun row' checked' enabled' he i by_ hby hid => ?_
    injection he with hop hrow
    subst hop hrow
    obtain ⟨stored, hstored, hleads⟩ := h.moved i _ hby
    -- a rejected action stays rejected
    rw [StatusIs, hid, hstored] at hstatus
    injection hstatus with hstatus
    rw [hstatus] at hleads
    obtain hpending | happroved := hallowed
    · rw [hpending] at hleads
      exact absurd hleads (by simp [StatusUpdate.status, ActionStatus.leadsTo])
    · rw [happroved] at hleads
      exact absurd hleads (by simp [StatusUpdate.status, ActionStatus.leadsTo])

end Forward

theorem forward_inductive : Inductive (P := P) (D := D) Forward Serialized ForwardNeeds where
  setEnabled db b h := ⟨h.moved, h.once, h.rejected⟩
  quiet q db _ hq := by
    cases q with
    | insertAction row => exact hq.elim
    | updateStatus i u read => exact hq.elim
    | invoke op row checked => exact hq.elim
    | respond endpoint i => exact hq.elim
    | _ => trivial
  step c q db h hserial hneeds := by
    rcases controlSem_cases c q db with hsem | ⟨-, hsem⟩
    · rw [hsem]
      exact h
    · rw [hsem]
      cases q with
      | insertAction new =>
          refine ⟨fun i u hmem => ?_, h.once, h.rejected⟩
          obtain ⟨row, hrow, hleads⟩ := h.moved i u hmem
          exact ⟨row, ControlDb.get_insert hrow, hleads⟩
      | updateStatus i u read => exact h.update hserial hneeds
      | invoke op row checked => exact h.invoke hserial.1 hserial.2 hneeds
      | respond endpoint i =>
          refine ⟨h.moved_append (fun _ _ he => nomatch he), ?_, ?_⟩
          · exact h.once_append fun _ _ hcalls => absurd hcalls Bool.false_ne_true
          · refine h.rejected_append (fun j he => ?_) fun _ _ _ he => nomatch he
            injection he with hendpoint hj
            subst hendpoint hj
            exact hneeds
      | _ => exact ⟨h.moved, h.once, h.rejected⟩

/-! ### The requests -/

theorem forward_serve (handlers : Registry P D WResp) (r : Request P) (s : Plane P D W)
    (hs : Forward s.db) :
    wp (planeSem wsem) (invariantRules Forward Serialized ForwardNeeds) (serve handlers r)
      (fun _ _ => True) s := by
  have hcalm : Calm wsem handlers (invariantRules Forward Serialized ForwardNeeds) :=
    forward_inductive.calm handlers
  have safe {q : ControlStmt P D} {s' : Plane P D W} (hs' : Forward s'.db)
      (hN : ForwardNeeds q s'.db) :
      Safe wsem (invariantRules Forward Serialized ForwardNeeds) q s' :=
    forward_inductive.safe hs' fun _ => hN
  cases r with
  | create actionType target params mode reason principal =>
      refine (hcalm.runs_createAction (.refl hs) fun row s' hs' hstatus _ _ => ?_).discard
      exact safe hs'.after hstatus
  | approve i reason principal =>
      refine (hcalm.runs_approve (fun row s₁ s₂ _ _ hstatus _ h₂ => ?_) fun s₁ s₂ h₂ => ?_).discard
      · exact safe h₂.after hstatus
      · exact safe h₂.after trivial
  | reject i reason principal =>
      refine (hcalm.runs_reject (fun row s₁ s₂ _ _ hstatus h₂ => ?_) fun s₁ s₂ h₂ => ?_).discard
      · exact safe h₂.after hstatus
      · -- the answer comes after the update
        refine safe h₂.after ⟨principal.name, h₂.log.subset ?_⟩
        exact List.mem_append_right _ List.mem_cons_self
  | execute i principal =>
      refine (hcalm.runs_execute ?_ ?_ ?_ ?_).discard
      · exact fun _ _ s₂ _ _ _ hstatus h₂ => safe h₂.after hstatus
      · exact fun _ _ _ s₃ _ _ _ _ _ _ hstatus h₃ => safe h₃.after hstatus
      · intro row s₁ s₂ u _ _ hstatus h₂ hu
        obtain ⟨after, rfl⟩ | ⟨error, rfl⟩ := hu
        · exact safe h₂.after hstatus
        · exact safe h₂.after hstatus
      · exact fun s' hs' => safe hs'.after trivial
  | rollback i principal =>
      refine (hcalm.runs_rollback ?_ ?_ ?_).discard
      · exact fun _ _ s₂ _ _ hstatus h₂ => safe h₂.after hstatus
      · exact fun _ _ _ s₂ _ _ hstatus h₂ => safe h₂.after hstatus
      · exact fun s' hs' => safe hs'.after trivial

/-- Every status update and every call of a handler in the schedule finds the
status that its request has read, and the earlier calls settled. -/
def SerializedRun (wsem : WC → (q : WStmt) → W → Except Exc (WResp q) × W)
    (handlers : Registry P D WResp) (s : Plane P D W)
    (schedule : List (Event (ControlChoice × WC) (Request P) (Surroundings W))) : Prop :=
  Config.AllSteps (planeSem wsem) (serve handlers) surround
    (invariantRules Forward Serialized ForwardNeeds).admits ⟨s, []⟩ schedule

/-- **At most once.** In a serialized run, from any tables, the handler of an
action is executed at most once and rolled back at most once, and an action
whose reject was answered is not executed after that. -/
theorem called_at_most_once (handlers : Registry P D WResp) (s : Plane P D W)
    (hlog : s.db.log = [])
    (schedule : List (Event (ControlChoice × WC) (Request P) (Surroundings W)))
    (hserial : SerializedRun wsem handlers s schedule) (i : String) :
    let final := (Config.run (planeSem wsem) (serve handlers) surround ⟨s, []⟩ schedule).state.db
    callCount .execute i final.log ≤ 1 ∧ callCount .rollback i final.log ≤ 1 ∧
      ∀ earlier later, final.log = earlier ++ .responded .reject i :: later →
        ∀ row checked enabled, .invoked .execute row checked enabled ∈ later →
          row.actionId ≠ i := by
  have hstart : Forward s.db := by
    refine ⟨fun i u hmem => ?_, fun op i => ?_, fun pre i post hsplit => ?_⟩
    · rw [hlog] at hmem
      exact absurd hmem List.not_mem_nil
    · rw [hlog]
      exact Nat.zero_le 1
    · rw [hlog] at hsplit
      exact absurd hsplit (by simp)
  have hfinal := forward_inductive.invariant (forward_serve handlers) s hstart schedule hserial
  exact ⟨hfinal.once .execute i, hfinal.once .rollback i,
    fun earlier later hsplit => (hfinal.rejected earlier i later hsplit).2⟩

/-- Tables with one live action that waits for a decision. -/
def pendingNoop (status : ActionStatus) : Plane Unit (NoopDoc Unit) Unit where
  db := {
    enabled := true
    actions := [{
      actionId := "a1", actionType := "noop", target := none, params := (), mode := .live
      risk := .low, status := status, reason := none, requestedBy := "operator"
      beforeState := some .before, tenantId := some "default", networkModelVersion := none }] }
  world := ()

/-- One request after the other: a second execution is refused. -/
theorem sequential_executes_once :
    let schedule := .spawn (.execute "a1" ⟨"operator", none⟩) :: turns 0 9 ++
      .spawn (.execute "a1" ⟨"engineer", none⟩) :: turns 1 9
    let final := (Config.run (planeSem noSem) (serve (noopRegistry .low)) surround
      ⟨pendingNoop .PENDING, []⟩ schedule).state.db
    callCount .execute "a1" final.log ≤ 1 ∧ callCount .rollback "a1" final.log ≤ 1 ∧
      ∀ earlier later, final.log = earlier ++ .responded .reject "a1" :: later →
        ∀ row checked enabled, .invoked .execute row checked enabled ∈ later →
          row.actionId ≠ "a1" := by
  refine called_at_most_once (noopRegistry .low) (pendingNoop .PENDING) rfl _ ?_ "a1"
  unfold SerializedRun
  decide

/-- Two requests that have both read the row before either updates it both
execute; the same for rollback; and an action is executed after its reject was
answered. -/
theorem racing_requests_call_twice :
    (let schedule := [.spawn (.execute "a1" ⟨"operator", none⟩),
        .spawn (.execute "a1" ⟨"engineer", none⟩)] ++ turns 0 1 ++ turns 1 1 ++ turns 0 8 ++
        turns 1 8
      let final := (Config.run (planeSem noSem) (serve (noopRegistry .low)) surround
        ⟨pendingNoop .PENDING, []⟩ schedule).state.db
      callCount .execute "a1" final.log = 2) ∧
    (let schedule := [.spawn (.rollback "a1" ⟨"operator", none⟩),
        .spawn (.rollback "a1" ⟨"engineer", none⟩)] ++ turns 0 1 ++ turns 1 1 ++ turns 0 8 ++
        turns 1 8
      let final := (Config.run (planeSem noSem) (serve (noopRegistry .low)) surround
        ⟨pendingNoop .EXECUTED, []⟩ schedule).state.db
      callCount .rollback "a1" final.log = 2) ∧
    (let schedule := [.spawn (.execute "a1" ⟨"operator", none⟩),
        .spawn (.reject "a1" none ⟨"engineer", none⟩)] ++ turns 0 1 ++ turns 1 9 ++ turns 0 2
      let final := (Config.run (planeSem noSem) (serve (noopRegistry .low)) surround
        ⟨pendingNoop .PENDING, []⟩ schedule).state.db
      ∃ earlier later, final.log = earlier ++ .responded .reject "a1" :: later ∧
        callCount .execute "a1" later = 1) := by
  refine ⟨by decide, by decide, ?_⟩
  exact ⟨[.updated "a1" (.rejected "engineer")], _, rfl, by decide⟩

end DiepLab.Controls
