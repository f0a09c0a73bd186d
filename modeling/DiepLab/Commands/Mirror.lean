import DiepLab.Commands.Reports

/-!
The mirror of a command's status.

A request commits the status to the table and writes it to Redis afterwards,
and nothing orders the writes of two requests. As long as a request still owes
the mirror the current status, the mirror may show another one; when all have
returned nothing is owed. So the mirror ends up right if nobody overwrites it
with a status that the table no longer has after the current one was written:
`CarriesCurrent`.
-/

namespace DiepLab.Commands

open StatementProgram

/-! ### What the mirror shows -/

/-- The mirror of the command shows the status in the table. -/
def MirroredAt (commandId : String) (s : CommandStore) : Prop :=
  ∀ row ∈ s.table.row? commandId,
    (s.mirror commandId).get? "status" = some (statusText row.status)

/-- It does, or a request is about to write it. -/
def Covered (commandId : String) (s : CommandStore) : Prop :=
  ∀ row ∈ s.table.row? commandId,
    (s.mirror commandId).get? "status" = some (statusText row.status) ∨
      (commandId, row.status) ∈ s.owed

/-- The condition on a statement: what is written to the mirror is the status in
the table, or a request is about to write that. -/
def CarriesCurrent (commandId : String) (_ : CommandChoice) : CommandStmt → CommandStore → Prop
  | .hsetStatus i fields, s =>
      i = commandId → ∀ row ∈ s.table.row? commandId,
        row.status = fields.status ∨ (commandId, row.status) ∈ s.owed
  | _, _ => True

instance (commandId : String) (c : CommandChoice) (q : CommandStmt) (s : CommandStore) :
    Decidable (CarriesCurrent commandId c q s) :=
  match q with
  | .hsetStatus i _ => inferInstanceAs (Decidable (i = commandId → _))
  | .now | .uuid4 | .selectDevice _ | .insertTelemetry _ | .insertCommand _ | .publish _
  | .failCommand .. | .markSent _ | .ackUpdate .. | .selectCommand _ | .hsetState .. | .expire
  | .hgetall _ => inferInstanceAs (Decidable True)

/-- Redis answers. -/
def RedisAvailable (c : CommandChoice) : CommandStmt → CommandStore → Prop
  | .hsetStatus .., _ => c.fails = none
  | .hsetState .., _ => c.fails = none
  | .expire, _ => c.fails = none
  | .hgetall _, _ => c.fails = none
  | _, _ => True

instance (c : CommandChoice) (q : CommandStmt) (s : CommandStore) :
    Decidable (RedisAvailable c q s) :=
  match q with
  | .hsetStatus .. | .hsetState .. | .expire | .hgetall _ =>
      inferInstanceAs (Decidable (c.fails = none))
  | .now | .uuid4 | .selectDevice _ | .insertTelemetry _ | .insertCommand _ | .publish _
  | .failCommand .. | .markSent _ | .ackUpdate .. | .selectCommand _ =>
      inferInstanceAs (Decidable True)

/-- `get_command` answers with what the mirror shows. -/
theorem getCommand_live {commandId : String} {s : CommandStore} (h : MirroredAt commandId s)
    {row : CommandRow} (hrow : s.table.row? commandId = some row) {c : CommandChoice}
    (hc : c.fails = none) :
    (getCommand commandId).run (commandSem c) s = (.ok (row, some (statusText row.status)), s) := by
  have hstatus := h row hrow
  have hcached : s.mirror commandId ≠ [] := by
    intro hnil
    rw [hnil] at hstatus
    exact nomatch hstatus
  simp [getCommand, commandSem, hc, commandExec, hrow, hstatus, hcached]

theorem mirror_hset (s : CommandStore) (i j : String) (fields : StatusFields) :
    ((s.hset i fields).mirror j).get? "status" =
      if i = j then some (statusText fields.status) else (s.mirror j).get? "status" := by
  by_cases hij : i = j
  · subst hij
    obtain ⟨status, updatedAt, deviceId, commandType, error⟩ := fields
    cases deviceId <;> cases commandType <;> cases error <;>
      simp [CommandStore.hset, StatusFields.mapping, Dict.update, Dict.get?_set]
  · simp [CommandStore.hset, Function.update_of_ne (Ne.symm hij), hij]

/-! ### One statement -/

section Step

variable {commandId : String} {s s' : CommandStore}

theorem covered_of_same (htable : s'.table = s.table) (hmirror : s'.mirror = s.mirror)
    (howed : s'.owed = s.owed) (h : Covered commandId s) : Covered commandId s' := by
  intro row hrow
  rw [htable] at hrow
  rw [hmirror, howed]
  exact h row hrow

/-- A row that is written is owed to the mirror. -/
theorem covered_update (h : Covered commandId s) {i : String} {u : CommandUpdate}
    {status : CommandStatus} (hstatus : ∀ row ∈ s.table.row? i, (u.apply row).status = status) :
    Covered commandId ((s.update i u).owe i status) := by
  intro row hrow
  have hfound : (s.table.update i u).row? commandId = some row := hrow
  rw [CommandTable.row?_update] at hfound
  split at hfound
  · rename_i hi
    subst hi
    obtain ⟨row', hrow', rfl⟩ := Option.map_eq_some_iff.mp hfound
    refine Or.inr ?_
    rw [hstatus row' hrow']
    exact List.mem_cons_self
  · exact (h row hfound).imp_right (List.mem_cons_of_mem _)

theorem covered_insert (h : Covered commandId s) {row : CommandRow} {table : CommandTable}
    (hinsert : s.table.insert row = some table) :
    Covered commandId ({ s with table := table }.owe row.commandId row.status) := by
  intro found hfound
  cases hold : s.table.row? commandId with
  | some old =>
      have hsame : old = found :=
        Option.some.inj ((CommandTable.row?_insert hinsert hold).symm.trans hfound)
      exact (h found (hsame ▸ hold)).imp_right (List.mem_cons_of_mem _)
  | none =>
      have hnew : table.row? commandId = some found := hfound
      rw [CommandTable.row?, (CommandTable.insert_eq_some hinsert).2, List.find?_append,
        show s.table.rows.find? _ = none from hold, Option.none_or] at hnew
      have hid := List.find?_some hnew
      obtain rfl : found = row := by simpa using List.mem_of_find?_eq_some hnew
      refine Or.inr ?_
      rw [show commandId = found.commandId from (of_decide_eq_true hid).symm]
      exact List.mem_cons_self

theorem statusText_inj {a b : CommandStatus} : statusText a = statusText b ↔ a = b := by
  cases a <;> cases b <;> simp [statusText]

/-- What is written to the mirror. -/
theorem covered_hset (h : Covered commandId s) (i : String) (fields : StatusFields) :
    Covered commandId ((s.hset i fields).settle i fields.status) ↔
      (i = commandId → ∀ row ∈ s.table.row? commandId,
        row.status = fields.status ∨ (commandId, row.status) ∈ s.owed) := by
  have hshown := mirror_hset s i commandId fields
  by_cases hi : i = commandId
  · subst hi
    refine Iff.trans ?_ (forall_prop_of_true rfl).symm
    refine forall₂_congr fun row hrow => ?_
    change ((s.hset i fields).mirror i).get? "status" = _ ∨ (i, row.status) ∈ s.owed.erase _ ↔ _
    rw [hshown, if_pos rfl, Option.some_inj, statusText_inj, eq_comm]
    by_cases hstatus : row.status = fields.status
    · simp [hstatus]
    · simp [hstatus, List.mem_erase_of_ne]
  · refine iff_of_true (fun row hrow => ?_) fun heq => absurd heq hi
    change ((s.hset i fields).mirror commandId).get? "status" = _ ∨ _ ∈ s.owed.erase _
    rw [hshown, if_neg hi, List.mem_erase_of_ne fun heq => hi (congrArg Prod.fst heq).symm]
    exact h row hrow

/-- With Redis at hand, a statement keeps the command covered exactly if it meets
the condition. -/
theorem covered_step (c : CommandChoice) (q : CommandStmt) (hredis : RedisAvailable c q s)
    (h : Covered commandId s) :
    Covered commandId (commandSem c q s).2 ↔ CarriesCurrent commandId c q s := by
  cases hfails : c.fails with
  | some m =>
      cases q with
      | hsetStatus i fields => exact nomatch hfails.symm.trans hredis
      | publish message =>
          simp only [commandSem, hfails]
          refine iff_of_true ?_ trivial
          split
          · exact covered_of_same rfl rfl rfl h
          · exact h
      | _ =>
          simp only [commandSem, hfails]
          exact iff_of_true h trivial
  | none =>
      cases q with
      | insertCommand row =>
          simp only [commandSem, hfails, commandExec]
          refine iff_of_true ?_ trivial
          cases hinsert : s.table.insert row with
          | none => exact h
          | some table => exact covered_insert h hinsert
      | failCommand i message =>
          simp only [commandSem, hfails, commandExec]
          exact iff_of_true (covered_update h fun _ _ => rfl) trivial
      | markSent i =>
          simp only [commandSem, hfails, commandExec]
          refine iff_of_true ?_ trivial
          cases hrow : s.table.row? i with
          | none => exact h
          | some row =>
              refine covered_update h fun row' hrow' => ?_
              rw [Option.some.inj (hrow.symm.trans hrow')]
              rfl
      | ackUpdate i status error =>
          simp only [commandSem, hfails, commandExec]
          refine iff_of_true ?_ trivial
          cases s.table.row? i with
          | none => exact h
          | some row => exact covered_update h fun _ _ => rfl
      | hsetStatus i fields =>
          simp only [commandSem, hfails, commandExec]
          exact covered_hset h i fields
      | _ =>
          simp only [commandSem, hfails]
          exact iff_of_true (covered_of_same rfl rfl rfl h) trivial

end Step

/-! ### The protocol of a call -/

/-- Where a call stands: it may owe the mirror a status. -/
inductive MirrorPhase where
  | free
  | owing (commandId : String) (status : CommandStatus)
  deriving DecidableEq

/-- What is written to the table is written to the mirror next. -/
def mirrorProtocol : Protocol CommandResp Exc MirrorPhase where
  next
    | .free, .insertCommand row, .ok _ => some (.owing row.commandId row.status)
    | .free, .failCommand i _, .ok _ => some (.owing i .FAILED)
    | .free, .markSent _, .ok none => some .free
    | .free, .markSent i, .ok (some status) => some (.owing i status)
    | .free, .ackUpdate .., .ok none => some .free
    | .free, .ackUpdate i status _, .ok (some _) => some (.owing i status.status)
    | .free, .hsetStatus .., _ => none
    | .free, _, _ => some .free
    | .owing i status, .now, .ok _ => some (.owing i status)
    -- the clock does not fail
    | .owing _ _, .now, .error _ => some .free
    | .owing i status, .hsetStatus j fields, _ =>
        if j = i ∧ fields.status = status then some .free else none
    | _, _, _ => none
  final φ := φ = .free

/-- The statement writes no status. -/
def WritesNoStatus : CommandStmt → Prop
  | .insertCommand _ => False
  | .failCommand .. => False
  | .markSent _ => False
  | .ackUpdate .. => False
  | .hsetStatus .. => False
  | _ => True

section Follows

variable {α β : Type}

theorem followsTo_free {p : CommandProg α} (hp : p.Issues WritesNoStatus) :
    mirrorProtocol.FollowsTo (fun _ φ => φ = .free) .free p := by
  induction p with
  | ret a => rfl
  | raise e => rfl
  | stmt q k ih =>
      intro r
      refine ⟨.free, ?_, ih r (hp.2 r)⟩
      have hq := hp.1
      cases q <;> first | exact hq.elim | rfl

/-- A part that writes no status. -/
theorem followsTo_free_bind {p : CommandProg β} {f : β → CommandProg α}
    {K : Except Exc α → MirrorPhase → Prop} (hp : p.Issues WritesNoStatus)
    (herror : ∀ e, K (.error e) .free) (hf : ∀ b, mirrorProtocol.FollowsTo K .free (f b)) :
    mirrorProtocol.FollowsTo K .free (p >>= f) := by
  refine Protocol.followsTo_bind.mpr ((followsTo_free hp).mono fun r φ hφ => ?_)
  subst hφ
  cases r with
  | ok b => exact hf b
  | error e => exact herror e

/-- `_mirror_status` pays what is owed. -/
theorem mirrorStatus_follows {commandId : String} {status : CommandStatus}
    {deviceId commandType : String} {error : Option String} :
    mirrorProtocol.FollowsTo (fun _ φ => φ = .free) (.owing commandId status)
      (mirrorStatus commandId status deviceId commandType error) := by
  refine Protocol.followsTo_bind.mpr
    ((Protocol.followsTo_call (q := CommandStmt.now)).mpr fun now => ?_)
  cases now with
  | error e => exact ⟨.free, rfl, rfl⟩
  | ok now =>
      refine ⟨.owing commandId status, rfl, Protocol.followsTo_attempt.mpr ?_⟩
      refine Protocol.followsTo_bind.mpr
        ((Protocol.followsTo_call (q := CommandStmt.hsetStatus ..)).mpr fun r => ?_)
      refine ⟨.free, if_pos ⟨rfl, rfl⟩, ?_⟩
      cases r with
      | error e => rfl
      | ok _ =>
          refine (Protocol.followsTo_call (q := CommandStmt.expire)).mpr fun r => ⟨.free, rfl, ?_⟩
          cases r <;> rfl

theorem mirrorStatus_follows_bind {commandId : String} {status : CommandStatus}
    {deviceId commandType : String} {error : Option String} {f : Unit → CommandProg α}
    {K : Except Exc α → MirrorPhase → Prop} (herror : ∀ e, K (.error e) .free)
    (hf : mirrorProtocol.FollowsTo K .free (f ())) :
    mirrorProtocol.FollowsTo K (.owing commandId status)
      (mirrorStatus commandId status deviceId commandType error >>= f) := by
  refine Protocol.followsTo_bind.mpr (mirrorStatus_follows.mono fun r φ hφ => ?_)
  subst hφ
  cases r with
  | ok _ => exact hf
  | error e => exact herror e

theorem persistState_issues (deviceId : String) (fields : List (String × Option String)) :
    (persistState deviceId fields).Issues WritesNoStatus := by
  refine Prog.Issues.bind ((Prog.issues_call _).mpr trivial) fun now => ?_
  refine Prog.Issues.attempt ?_ fun _ => trivial
  exact Prog.Issues.bind ((Prog.issues_call _).mpr trivial) fun _ =>
    (Prog.issues_call _).mpr trivial

theorem ackCommand_follows (commandId status : String) (error : Option String) :
    mirrorProtocol.FollowsTo (fun _ φ => φ = .free) .free (ackCommand commandId status error) := by
  rw [ackCommand]
  split
  · rfl
  · rename_i reported _
    refine Protocol.followsTo_bind.mpr
      ((Protocol.followsTo_call (q := CommandStmt.ackUpdate commandId reported error)).mpr
        fun r => ?_)
    match r with
    | .error e => exact ⟨.free, rfl, rfl⟩
    | .ok none => exact ⟨.free, rfl, rfl⟩
    | .ok (some row) =>
        refine ⟨.owing commandId reported.status, rfl, ?_⟩
        refine mirrorStatus_follows_bind (fun _ => rfl) (followsTo_free ?_)
        refine Prog.Issues.bind ((Prog.issues_call _).mpr trivial) fun now => ?_
        exact (persistState_issues _ _).bind fun _ => trivial

/-- The publish, and what a failed one leads to. -/
theorem publishOrFail_follows {command : Command} {commandId deviceId commandType : String} :
    mirrorProtocol.FollowsTo (fun _ φ => φ = .free) .free
      (tryCatch (Sql.publish command) fun exc =>
        match exc with
        | .kafka m => do
            Sql.failCommand commandId ("kafka publish failed: " ++ m)
            mirrorStatus commandId .FAILED deviceId commandType (some m)
            throw (.http 502 (.text ("Failed to publish command to Kafka: " ++ m)))
        | exc => throw exc) := by
  refine Protocol.followsTo_attempt.mpr
    ((Protocol.followsTo_call (q := CommandStmt.publish command)).mpr fun r => ⟨.free, rfl, ?_⟩)
  match r with
  | .ok _ => rfl
  | .error (.http _ _) => rfl
  | .error (.other _) => rfl
  | .error (.kafka m) =>
      refine Protocol.followsTo_bind.mpr
        ((Protocol.followsTo_call (q := CommandStmt.failCommand commandId _)).mpr fun r => ?_)
      cases r with
      | error e => exact ⟨.free, rfl, rfl⟩
      | ok _ =>
          exact ⟨.owing commandId .FAILED, rfl, mirrorStatus_follows_bind (fun _ => rfl) rfl⟩

theorem dispatchCommandSteps_follows (deviceId commandType issuedBy : String) :
    mirrorProtocol.FollowsTo (fun _ φ => φ = .free) .free
      (dispatchCommandSteps deviceId commandType issuedBy) := by
  refine followsTo_free_bind ((Prog.issues_call _).mpr trivial) (fun _ => rfl) fun device => ?_
  cases device with
  | none => rfl
  | some device =>
      refine followsTo_free_bind (Prog.issues_raiseIf _ _) (fun _ => rfl) fun _ => ?_
      refine followsTo_free_bind ((Prog.issues_call _).mpr trivial) (fun _ => rfl)
        fun commandId => ?_
      refine followsTo_free_bind ((Prog.issues_call _).mpr trivial) (fun _ => rfl)
        fun issuedAt => ?_
      refine Protocol.followsTo_bind.mpr
        ((Protocol.followsTo_call (q := CommandStmt.insertCommand _)).mpr fun r => ?_)
      cases r with
      | error e => exact ⟨.free, rfl, rfl⟩
      | ok _ =>
          refine ⟨.owing commandId .PENDING, rfl, mirrorStatus_follows_bind (fun _ => rfl) ?_⟩
          refine Protocol.followsTo_bind.mpr (publishOrFail_follows.mono fun r φ hφ => ?_)
          subst hφ
          cases r with
          | error e => rfl
          | ok _ =>
              refine Protocol.followsTo_bind.mpr
                ((Protocol.followsTo_call (q := CommandStmt.markSent commandId)).mpr fun r => ?_)
              match r with
              | .error e => exact ⟨.free, rfl, rfl⟩
              | .ok none => exact ⟨.free, rfl, rfl⟩
              | .ok (some final) =>
                  refine ⟨.owing commandId final, rfl, ?_⟩
                  refine mirrorStatus_follows_bind (fun _ => rfl) (followsTo_free ?_)
                  exact (persistState_issues _ _).bind fun _ => trivial

theorem serve_follows (r : CommandCall) : mirrorProtocol.Follows .free r.serve := by
  cases r with
  | dispatch deviceId commandType issuedBy =>
      refine Protocol.followsTo_bind.mpr
        ((dispatchCommandSteps_follows deviceId commandType issuedBy).mono fun r φ hφ => ?_)
      cases r <;> exact hφ
  | ack commandId status error =>
      refine Protocol.followsTo_bind.mpr
        ((ackCommand_follows commandId status error).mono fun r φ hφ => ?_)
      cases r <;> exact hφ

end Follows

/-! ### Whole schedules -/

/-- What is owed is what the calls in service owe. -/
def Owed (phases : List MirrorPhase) (s : CommandStore) : Prop :=
  ∀ commandId status, s.owed.count (commandId, status) = phases.count (.owing commandId status)

section Owed

variable {phases : List MirrorPhase} {s s' : CommandStore} {i : ℕ} {φ φ' : MirrorPhase}

theorem Owed.keep (h : Owed phases s) (hφ : phases[i]? = some φ) (howed : s'.owed = s.owed) :
    Owed (phases.set i φ) s' := by
  intro commandId status
  have hcount := count_phase_set hφ φ (.owing commandId status)
  rw [howed, h commandId status]
  omega

/-- A call that was free owes a status. -/
theorem Owed.owe (h : Owed phases s) (hφ : phases[i]? = some .free) {commandId : String}
    {status : CommandStatus} (howed : s'.owed = (commandId, status) :: s.owed) :
    Owed (phases.set i (.owing commandId status)) s' := by
  intro j status'
  have hcount := count_phase_set hφ (.owing commandId status) (.owing j status')
  rw [howed, List.count_cons, h j status']
  simp only [reduceCtorEq, if_false, MirrorPhase.owing.injEq, beq_iff_eq, Prod.mk.injEq] at hcount ⊢
  omega

/-- A call that owes a status has its turn. -/
theorem Owed.settle (h : Owed phases s) {commandId : String} {status : CommandStatus}
    (hφ : phases[i]? = some (.owing commandId status))
    (howed : s'.owed = s.owed.erase (commandId, status)) : Owed (phases.set i .free) s' := by
  intro j status'
  have hcount := count_phase_set hφ .free (.owing j status')
  rw [howed, List.count_erase, h j status']
  simp only [reduceCtorEq, if_false, MirrorPhase.owing.injEq, beq_iff_eq, Prod.mk.injEq] at hcount ⊢
  omega

/-- A call that is free, and a statement that fails. -/
theorem Owed.act_failed (h : Owed phases s) (hφ : phases[i]? = some .free) {φ' : MirrorPhase}
    {c : CommandChoice} {q : CommandStmt} {m : String} (hfails : c.fails = some m)
    (hnext : mirrorProtocol.next .free q (commandSem c q s).1 = some φ') :
    Owed (phases.set i φ') (commandSem c q s).2 := by
  cases q with
  | hsetStatus i fields => exact nomatch hnext
  | publish message =>
      simp only [commandSem, hfails] at hnext ⊢
      obtain rfl := Option.some.inj hnext
      refine h.keep hφ ?_
      split <;> rfl
  | _ =>
      simp only [commandSem, hfails] at hnext ⊢
      obtain rfl := Option.some.inj hnext
      exact h.keep hφ rfl

/-- A call that is free: what it writes to the table it owes from then on. -/
theorem Owed.act_free (h : Owed phases s) (hφ : phases[i]? = some .free) {φ' : MirrorPhase}
    {c : CommandChoice} {q : CommandStmt} (hfails : c.fails = none)
    (hnext : mirrorProtocol.next .free q (commandSem c q s).1 = some φ') :
    Owed (phases.set i φ') (commandSem c q s).2 := by
  cases q with
  | hsetStatus i fields => exact nomatch hnext
  | insertCommand row =>
      simp only [commandSem, hfails, commandExec] at hnext ⊢
      cases hinsert : s.table.insert row with
      | none =>
          obtain rfl : MirrorPhase.free = φ' := by simpa [hinsert, mirrorProtocol] using hnext
          exact h.keep hφ rfl
      | some table =>
          obtain rfl : MirrorPhase.owing row.commandId row.status = φ' := by
            simpa [hinsert, mirrorProtocol] using hnext
          exact h.owe hφ rfl
  | failCommand i message =>
      simp only [commandSem, hfails, commandExec] at hnext ⊢
      obtain rfl := Option.some.inj hnext
      exact h.owe hφ rfl
  | markSent i =>
      simp only [commandSem, hfails, commandExec] at hnext ⊢
      cases hrow : s.table.row? i with
      | none =>
          obtain rfl : MirrorPhase.free = φ' := by simpa [hrow, mirrorProtocol] using hnext
          exact h.keep hφ rfl
      | some row =>
          obtain rfl : MirrorPhase.owing i row.status.sent = φ' := by
            simpa [hrow, mirrorProtocol] using hnext
          exact h.owe hφ rfl
  | ackUpdate i status error =>
      simp only [commandSem, hfails, commandExec] at hnext ⊢
      cases hrow : s.table.row? i with
      | none =>
          obtain rfl : MirrorPhase.free = φ' := by simpa [hrow, mirrorProtocol] using hnext
          exact h.keep hφ rfl
      | some row =>
          obtain rfl : MirrorPhase.owing i status.status = φ' := by
            simpa [hrow, mirrorProtocol] using hnext
          exact h.owe hφ rfl
  | _ =>
      simp only [commandSem, hfails, commandExec] at hnext ⊢
      obtain rfl := Option.some.inj hnext
      exact h.keep hφ rfl

/-- A call that owes a status only asks for the time before it has its turn. -/
theorem Owed.act_owing (h : Owed phases s) {commandId : String} {status : CommandStatus}
    (hφ : phases[i]? = some (.owing commandId status)) {φ' : MirrorPhase} {c : CommandChoice}
    {q : CommandStmt}
    (hnext : mirrorProtocol.next (.owing commandId status) q (commandSem c q s).1 = some φ') :
    Owed (phases.set i φ') (commandSem c q s).2 := by
  cases q with
  | now =>
      obtain rfl := Option.some.inj hnext
      exact h.keep hφ rfl
  | hsetStatus j fields =>
      have hargs : j = commandId ∧ fields.status = status := by
        by_contra hne
        simp [mirrorProtocol, hne] at hnext
      obtain ⟨rfl, rfl⟩ := hargs
      obtain rfl : MirrorPhase.free = φ' := by simpa [mirrorProtocol] using hnext
      cases hfails : c.fails <;> simp only [commandSem, hfails, commandExec] <;>
        exact h.settle hφ rfl
  | _ => cases hnext

end Owed

/-- What a call does next keeps the accounts. -/
theorem owed_act {phases : List MirrorPhase} {s : CommandStore} {i : ℕ} {φ φ' : MirrorPhase}
    {c : CommandChoice} {q : CommandStmt} (h : Owed phases s) (hφ : phases[i]? = some φ)
    (hnext : mirrorProtocol.next φ q (commandSem c q s).1 = some φ') :
    Owed (phases.set i φ') (commandSem c q s).2 := by
  cases φ with
  | free =>
      cases hfails : c.fails with
      | some m => exact h.act_failed hφ hfails hnext
      | none => exact h.act_free hφ hfails hnext
  | owing commandId status => exact h.act_owing hφ hnext

theorem owed_keeps :
    mirrorProtocol.Keeps commandSem CommandCall.serve noEnv (fun _ _ _ => True) (fun _ => .free)
      Owed where
  follows := serve_follows
  act := fun _ _ _ _ _ _ _ h hφ _ hnext => owed_act h hφ hnext
  spawn := fun _ phases s h commandId status => by
    rw [h commandId status, List.count_append]
    simp
  env := nofun

/-- When all calls have ended, nothing is owed. -/
theorem owed_nil {s : CommandStore} (howed : s.owed = []) (schedule : Schedule)
    (hended : ∀ p ∈ (commandRun s schedule).threads, p.Ended) :
    (commandRun s schedule).state.owed = [] := by
  have hstart : Config.InPhases mirrorProtocol
      (⟨s, []⟩ : Config CommandResp Exc Unit CommandStore) [] := .nil
  obtain ⟨phases, hphases, h⟩ := owed_keeps.run schedule hstart (fun _ _ => by simp [howed])
    (Config.allSteps_of_forall _ _ _ (fun _ _ _ => trivial) _ _)
  refine List.eq_nil_iff_forall_not_mem.mpr fun x hx => ?_
  obtain ⟨commandId, status⟩ := x
  have hcount := List.count_pos_iff.mpr hx
  rw [h commandId status] at hcount
  exact nomatch hphases.final hended _ (List.count_pos_iff.mp hcount)

/-- **The mirror in between.** With Redis at hand, in every state the mirror
shows the status in the table or a request is about to write that, exactly if
every write to the mirror meets the condition. -/
theorem covered_iff (commandId : String) (s : CommandStore) (h : Covered commandId s)
    (schedule : Schedule) (hredis : AllStatements RedisAvailable s schedule) :
    (∀ n, Covered commandId (commandRun s (schedule.take n)).state) ↔
      AllStatements (CarriesCurrent commandId) s schedule :=
  Config.always_iff_allSteps_of_admitted commandSem CommandCall.serve noEnv
    (fun c q _ hredis h => covered_step c q hredis h) nofun h schedule hredis

theorem covered_run {commandId : String} {s : CommandStore} (h : Covered commandId s)
    {schedule : Schedule} (hredis : AllStatements RedisAvailable s schedule)
    (hcurrent : AllStatements (CarriesCurrent commandId) s schedule) :
    Covered commandId (commandRun s schedule).state := by
  have hend := (covered_iff commandId s h schedule hredis).mpr hcurrent schedule.length
  rwa [List.take_length] at hend

/-- **The mirror at rest.** However the statements of dispatches and
acknowledgements interleave, with Redis at hand: if every write to the mirror of
a command carries the status in the table, or is followed by one that a request
owes with that status, then the mirror shows the status in the table, and
`get_command` answers with it, once all requests have ended. -/
theorem mirror_settles (commandId : String) (s : CommandStore) (howed : s.owed = [])
    (hstart : MirroredAt commandId s) (schedule : Schedule)
    (hredis : AllStatements RedisAvailable s schedule)
    (hcurrent : AllStatements (CarriesCurrent commandId) s schedule)
    (hended : ∀ p ∈ (commandRun s schedule).threads, p.Ended) :
    MirroredAt commandId (commandRun s schedule).state ∧
      ∀ row ∈ (commandRun s schedule).state.table.row? commandId, ∀ c : CommandChoice,
        c.fails = none →
          ((getCommand commandId).run (commandSem c) (commandRun s schedule).state).1 =
            .ok (row, some (statusText row.status)) := by
  have hmirrored : MirroredAt commandId (commandRun s schedule).state := by
    intro row hrow
    have hcovered := covered_run (fun row hrow => Or.inl (hstart row hrow)) hredis hcurrent row hrow
    rw [owed_nil howed schedule hended] at hcovered
    exact hcovered.resolve_right List.not_mem_nil
  refine ⟨hmirrored, fun row hrow c hc => ?_⟩
  rw [getCommand_live hmirrored hrow hc]

/-- The device answers while the dispatch marks the command as sent; the mirror
first shows SENT and then ACKED. -/
def mirrorCatchesUp : Schedule :=
  dispatchStarted ++ commandActs [0, 0] ++ [.spawn (.ack "c1" "ACKED" none)] ++
    commandActs [1, 0, 0, 0, 0, 0, 0, 1, 1, 1, 1, 1, 1, 1]

theorem mirror_catches_up :
    MirroredAt "c1" (commandRun oneCharger mirrorCatchesUp).state ∧
      ∀ row ∈ (commandRun oneCharger mirrorCatchesUp).state.table.row? "c1",
        ∀ c : CommandChoice, c.fails = none →
          ((getCommand "c1").run (commandSem c) (commandRun oneCharger mirrorCatchesUp).state).1 =
            .ok (row, some (statusText row.status)) :=
  mirror_settles "c1" oneCharger rfl nofun mirrorCatchesUp (by decide +kernel) (by decide +kernel)
    (by decide +kernel)

/-- The acknowledgement comes and goes between the two writes of the dispatch. -/
def mirrorLeftBehind : Schedule :=
  dispatchStarted ++ commandActs [0, 0] ++ [.spawn (.ack "c1" "ACKED" none)] ++
    commandActs [1, 1, 1, 1, 1, 1, 1, 1, 0, 0, 0, 0, 0, 0]

/-- All have returned, the command is ACKED, and the mirror says SENT. -/
theorem mirror_left_behind :
    AllStatements RedisAvailable oneCharger mirrorLeftBehind ∧
      (∀ p ∈ (commandRun oneCharger mirrorLeftBehind).threads, p.Ended) ∧
      ((commandRun oneCharger mirrorLeftBehind).state.table.row? "c1").map
        (fun row => row.status) = some .ACKED ∧
      ((commandRun oneCharger mirrorLeftBehind).state.mirror "c1").get? "status" = some "SENT" ∧
      ¬ MirroredAt "c1" (commandRun oneCharger mirrorLeftBehind).state := by
  have hstatus : ((commandRun oneCharger mirrorLeftBehind).state.table.row? "c1").map
      (fun row => row.status) = some .ACKED := by decide +kernel
  have hmirror : ((commandRun oneCharger mirrorLeftBehind).state.mirror "c1").get? "status" =
      some "SENT" := by decide +kernel
  refine ⟨by decide +kernel, by decide +kernel, hstatus, hmirror, fun h => ?_⟩
  obtain ⟨row, hrow, hacked⟩ := Option.map_eq_some_iff.mp hstatus
  have hshown := h row hrow
  rw [hmirror, hacked] at hshown
  exact absurd hshown (by decide)

end DiepLab.Commands
