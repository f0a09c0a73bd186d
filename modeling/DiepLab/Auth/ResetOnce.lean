import DiepLab.Auth.Statements
import DiepLab.Auth.TokenVersions

/-!
How often a reset token changes the password.

A call checks the version of its token in Redis and later raises the version of
the row; nothing ties the two together. `Separated` is the condition under which
they behave as one step: a call looks at the version when every call that was
let through before has published its change, or has failed to change anything.
-/

namespace DiepLab.Auth

open StatementProgram

/-- Every call that was let through has published its change or changed
nothing. -/
def Quiet (log : List ResetEvent) : Prop :=
  log.count .passed = log.count .unchanged + log.count .published

instance (log : List ResetEvent) : Decidable (Quiet log) := inferInstanceAs (Decidable (_ = _))

/-- The condition on a statement: the version is looked at between two calls,
and after a change Redis is there to tell. -/
def Separated (c : UserChoice) : UserStmt → UserStore → Prop
  | .getVersion _, s => Quiet s.log ∧ (c.fails = none ∨ s.log.count .changed = 0)
  | _, _ => True

instance (c : UserChoice) (q : UserStmt) (s : UserStore) : Decidable (Separated c q s) :=
  match q with
  | .getVersion _ => inferInstanceAs (Decidable (_ ∧ _))
  | .clock | .revokedExists .. | .setVersion .. | .updatePassword .. | .roleOf _ | .countAdmins
  | .deleteRow _ | .countUsers | .seedRows | .insertRow .. => inferInstanceAs (Decidable True)

/-- The version that a change of the password would write is not that of the
token. -/
def NextDiffers (p : Payload) (s : UserStore) : Prop :=
  ∀ row, s.users.row? p.sub = some row → row.tokenVersion + 1 ≠ p.tv

/-! ### The protocol of a call -/

/-- Where a call stands. -/
inductive ResetPhase where
  | checking
  | passed
  | publishing (version : ℕ)
  | done

/-- The statements of a call that presents the token, in order. -/
def resetProtocol (p : Payload) : Protocol UserResp Exc ResetPhase where
  next
    | .checking, .clock, _ => some .checking
    | .checking, .revokedExists .., _ => some .checking
    | .checking, .getVersion q, r =>
        if q = p then
          match r with
          | .ok version => some (if LetsThrough p version then .passed else .done)
          | .error _ => some .passed
        else none
    | .passed, .updatePassword username _, r =>
        if username = p.sub then
          match r with
          | .ok (some version) => some (.publishing version)
          | _ => some .done
        else none
    | .publishing version, .setVersion username version', _ =>
        if username = p.sub ∧ version' = version then some .done else none
    | _, _, _ => none
  final _ := True

theorem verifyJwtSteps_follows (signed : Payload → Bool) (p : Payload) :
    (resetProtocol p).FollowsTo (fun r φ => ∀ q, r = .ok (some q) → q = p ∧ φ = .passed)
      .checking (verifyJwtSteps signed (.signed p) .pwreset) := by
  simp only [verifyJwtSteps]
  split
  · exact fun _ h => nomatch h
  · rw [Protocol.followsTo_bind]
    refine (Protocol.followsTo_call (q := UserStmt.clock)).mpr fun now => ⟨.checking, rfl, ?_⟩
    cases now with
    | error e => exact fun _ h => nomatch h
    | ok now =>
        dsimp only
        split
        · exact fun _ h => nomatch h
        · rw [Protocol.followsTo_bind, Protocol.followsTo_attempt]
          refine (Protocol.followsTo_call (q := UserStmt.revokedExists p.jti now)).mpr
            fun revoked => ⟨.checking, rfl, ?_⟩
          have hversion : (resetProtocol p).FollowsTo
              (fun r φ => ∀ q, r = .ok (some q) → q = p ∧ φ = .passed) .checking
              (do
                let version ← tryCatch (Sql.getVersion p) fun _ => pure none
                if LetsThrough p version then pure (some p) else pure none) := by
            rw [Protocol.followsTo_bind, Protocol.followsTo_attempt]
            refine (Protocol.followsTo_call (q := UserStmt.getVersion p)).mpr fun version => ?_
            cases version with
            | error e =>
                refine ⟨.passed, by simp [resetProtocol], ?_⟩
                rintro q ⟨⟩
                exact ⟨rfl, rfl⟩
            | ok version =>
                refine ⟨if LetsThrough p version then .passed else .done,
                  by simp [resetProtocol], ?_⟩
                dsimp only
                split
                · rintro q ⟨⟩
                  exact ⟨rfl, rfl⟩
                · exact fun _ h => nomatch h
          cases revoked with
          | error e => exact hversion
          | ok revoked =>
              cases revoked with
              | true => exact fun _ h => nomatch h
              | false => exact hversion

theorem confirmPasswordReset_follows (signed : Payload → Bool) (p : Payload)
    (newPassword : String) :
    (resetProtocol p).Follows .checking
      (confirmPasswordReset signed (.signed p) newPassword) := by
  rw [confirmPasswordReset, Protocol.Follows, Protocol.followsTo_bind]
  refine (verifyJwtSteps_follows signed p).mono fun r φ hr => ?_
  match r, hr with
  | .error _, _ => trivial
  | .ok none, _ => trivial
  | .ok (some q), hr =>
      obtain ⟨rfl, rfl⟩ := hr q rfl
      dsimp only
      rw [Protocol.followsTo_bind]
      refine (Protocol.followsTo_call (q := UserStmt.updatePassword q.sub newPassword)).mpr
        fun version => ?_
      match version with
      | .error _ => exact ⟨.done, by simp [resetProtocol], trivial⟩
      | .ok none => exact ⟨.done, by simp [resetProtocol], trivial⟩
      | .ok (some version) =>
          refine ⟨.publishing version, by simp [resetProtocol], ?_⟩
          dsimp only
          rw [Protocol.followsTo_bind, Protocol.followsTo_attempt]
          refine (Protocol.followsTo_call (q := UserStmt.setVersion q.sub version)).mpr
            fun r => ⟨.done, by simp [resetProtocol], ?_⟩
          cases r <;> trivial

/-! ### The invariant -/

@[simp] theorem UserStore.log_note (s : UserStore) (e : ResetEvent) :
    (s.note e).log = s.log ++ [e] := rfl

@[simp] theorem UserStore.users_note (s : UserStore) (e : ResetEvent) :
    (s.note e).users = s.users := rfl

@[simp] theorem UserStore.tokenVersions_note (s : UserStore) (e : ResetEvent) :
    (s.note e).tokenVersions = s.tokenVersions := rfl

/-- The phases of the calls and the store. The holder is the call that was let
through and has not settled. -/
structure ResetInv (p : Payload) (holder : Option ℕ) (phases : List ResetPhase)
    (s : UserStore) : Prop where
  owed : s.log.count .passed =
    s.log.count .unchanged + s.log.count .published + if holder = none then 0 else 1
  held : ∀ i φ, phases[i]? = some φ → φ = .checking ∨ φ = .done ∨ holder = some i
  once : (s.log.count .changed = 0 ∧ NextDiffers p s) ∨
    (s.log.count .changed = 1 ∧ (∀ i : ℕ, phases[i]? ≠ some .passed) ∧
      (∀ (i : ℕ) v, phases[i]? = some (.publishing v) → p.tv ≠ v) ∧
      (holder = none → ∃ v ∈ s.tokenVersions.get? p.sub, p.tv ≠ v))

namespace ResetInv

variable {p : Payload} {holder : Option ℕ} {phases : List ResetPhase} {s : UserStore} {i : ℕ}

/-- A call that is not the holder may rest. -/
theorem rest (h : ResetInv p holder phases s) {φ : ResetPhase} (hφ : φ = .checking ∨ φ = .done) :
    ResetInv p holder (phases.set i φ) s where
  owed := h.owed
  held := fun j ψ hj => by
    rcases phase_set hj with ⟨-, rfl⟩ | ⟨-, hj⟩
    · exact hφ.imp_right Or.inl
    · exact h.held j ψ hj
  once := by
    refine h.once.imp_right fun ⟨hone, hpassed, hpublishing, hredis⟩ => ⟨hone, ?_, ?_, hredis⟩
    · intro j hj
      rcases phase_set hj with ⟨-, rfl⟩ | ⟨-, hj⟩
      · exact hφ.elim nofun nofun
      · exact hpassed j hj
    · intro j v hj
      rcases phase_set hj with ⟨-, rfl⟩ | ⟨-, hj⟩
      · exact hφ.elim nofun nofun
      · exact hpublishing j v hj

theorem spawn (h : ResetInv p holder phases s) :
    ResetInv p holder (phases ++ [.checking]) s where
  owed := h.owed
  held := fun j ψ hj => by
    rcases phase_spawn hj with hj | rfl
    · exact h.held j ψ hj
    · exact Or.inl rfl
  once := by
    refine h.once.imp_right fun ⟨hone, hpassed, hpublishing, hredis⟩ => ⟨hone, ?_, ?_, hredis⟩
    · intro j hj
      rcases phase_spawn hj with hj | hj
      · exact hpassed j hj
      · exact nomatch hj
    · intro j v hj
      rcases phase_spawn hj with hj | hj
      · exact hpublishing j v hj
      · exact nomatch hj

/-- Between two calls nobody holds. -/
theorem holder_none (h : ResetInv p holder phases s) (hquiet : Quiet s.log) : holder = none := by
  by_contra hholder
  have howed := h.owed
  rw [if_neg hholder] at howed
  rw [Quiet] at hquiet
  omega

/-- While nothing is changed, a call may be let through. -/
theorem pass (h : ResetInv p none phases s) (hchanged : s.log.count .changed = 0) :
    ResetInv p (some i) (phases.set i .passed) (s.note .passed) where
  owed := by
    have howed := h.owed
    simp only [UserStore.log_note, List.count_append, List.count_cons_self, List.count_nil]
    simp only [if_true] at howed
    simpa using howed
  held := fun j ψ hj => by
    rcases phase_set hj with ⟨rfl, rfl⟩ | ⟨-, hj⟩
    · exact Or.inr (Or.inr rfl)
    · exact (h.held j ψ hj).imp_right (Or.imp_right nofun)
  once := by
    rcases h.once with ⟨-, hnext⟩ | ⟨hone, -⟩
    · exact Or.inl ⟨by simpa using hchanged, hnext⟩
    · omega

/-- The call that is let through holds. -/
theorem holds (h : ResetInv p holder phases s) (hφ : phases[i]? = some .passed) :
    holder = some i ∧ s.log.count .changed = 0 ∧ NextDiffers p s := by
  refine ⟨?_, ?_⟩
  · rcases h.held i .passed hφ with hφ | hφ | hholder
    · exact nomatch hφ
    · exact nomatch hφ
    · exact hholder
  · rcases h.once with hzero | ⟨-, hpassed, -⟩
    · exact hzero
    · exact absurd hφ (hpassed i)

/-- The others rest. -/
theorem others (h : ResetInv p (some i) phases s) {j : ℕ} (hj : j ≠ i) {φ : ResetPhase}
    (hφ : phases[j]? = some φ) : φ = .checking ∨ φ = .done := by
  rcases h.held j φ hφ with hφ | hφ | hholder
  · exact Or.inl hφ
  · exact Or.inr hφ
  · exact absurd (Option.some.inj hholder).symm hj

/-- A call that fails to change the password gives up its hold. -/
theorem fail (h : ResetInv p holder phases s) (hφ : phases[i]? = some .passed) :
    ResetInv p none (phases.set i .done) (s.note .unchanged) := by
  obtain ⟨rfl, hzero, hnext⟩ := h.holds hφ
  refine ⟨?_, fun j ψ hj => ?_, Or.inl ⟨by simpa using hzero, hnext⟩⟩
  · have howed := h.owed
    simp only [reduceCtorEq, if_false] at howed
    simp only [UserStore.log_note, List.count_append]
    simp
    omega
  · rcases phase_set hj with ⟨-, rfl⟩ | ⟨hne, hj⟩
    · exact Or.inr (Or.inl rfl)
    · exact (h.others hne hj).imp_right Or.inl

/-- The holder changes the password; only one call can. -/
theorem change (h : ResetInv p holder phases s) (hφ : phases[i]? = some .passed) {row : UserRow}
    (hrow : s.users.row? p.sub = some row) (users : UserTable) :
    ResetInv p holder (phases.set i (.publishing (row.tokenVersion + 1)))
      ({ s with users := users }.note .changed) := by
  obtain ⟨rfl, hzero, hnext⟩ := h.holds hφ
  refine ⟨?_, fun j ψ hj => ?_, Or.inr ⟨by simpa using hzero, ?_, ?_, nofun⟩⟩
  · simpa using h.owed
  · rcases phase_set hj with ⟨rfl, -⟩ | ⟨hne, hj⟩
    · exact Or.inr (Or.inr rfl)
    · exact (h.others hne hj).imp_right Or.inl
  · intro j hj
    rcases phase_set hj with ⟨-, hj⟩ | ⟨hne, hj⟩
    · exact nomatch hj
    · exact (h.others hne hj).elim nofun nofun
  · intro j v hj
    rcases phase_set hj with ⟨-, hj⟩ | ⟨hne, hj⟩
    · injection hj with hj
      exact hj ▸ (hnext row hrow).symm
    · exact (h.others hne hj).elim nofun nofun

/-- The holder publishes and gives up its hold. -/
theorem publish (h : ResetInv p holder phases s) {v : ℕ}
    (hφ : phases[i]? = some (.publishing v)) :
    ResetInv p none (phases.set i .done)
      ({ s with tokenVersions := s.tokenVersions.set p.sub v }.note .published) := by
  have hholder : holder = some i := by
    rcases h.held i _ hφ with hφ | hφ | hholder
    · exact nomatch hφ
    · exact nomatch hφ
    · exact hholder
  subst hholder
  refine ⟨?_, fun j ψ hj => ?_, ?_⟩
  · have howed := h.owed
    simp only [reduceCtorEq, if_false] at howed
    simp only [UserStore.log_note, List.count_append]
    simp
    omega
  · rcases phase_set hj with ⟨-, rfl⟩ | ⟨hne, hj⟩
    · exact Or.inr (Or.inl rfl)
    · exact (h.others hne hj).imp_right Or.inl
  · rcases h.once with ⟨hzero, hnext⟩ | ⟨hone, -, hpublishing, -⟩
    · exact Or.inl ⟨by simpa using hzero, hnext⟩
    · refine Or.inr ⟨by simpa using hone, ?_, ?_, fun _ => ⟨v, ?_, hpublishing i v hφ⟩⟩
      · intro j hj
        rcases phase_set hj with ⟨-, hj⟩ | ⟨hne, hj⟩
        · exact nomatch hj
        · exact (h.others hne hj).elim nofun nofun
      · intro j w hj
        rcases phase_set hj with ⟨-, hj⟩ | ⟨hne, hj⟩
        · exact nomatch hj
        · exact (h.others hne hj).elim nofun nofun
      · simp [Dict.get?_set]

end ResetInv

/-! ### Runs -/

/-- The calls that present a token, each with a new password. -/
abbrev confirmations (signed : Payload → Bool) (p : Payload) (newPassword : String) :
    UserProg Bool :=
  confirmPasswordReset signed (.signed p) newPassword

/-- No call has arrived yet. -/
def noCalls (s : UserStore) : StatementProgram.Config UserResp Exc Bool UserStore := ⟨s, []⟩

/-- The update fails, or it writes the version after that of the row. -/
theorem updatePassword_cases (cfg : Config) (c : UserChoice) (username newPassword : String)
    (s : UserStore) :
    (∃ r, userSem cfg c (.updatePassword username newPassword) s = (r, s.note .unchanged) ∧
      ∀ v, r ≠ .ok (some v)) ∨
    ∃ row users, s.users.row? username = some row ∧
      userSem cfg c (.updatePassword username newPassword) s =
        (.ok (some (row.tokenVersion + 1)), { s with users := users }.note .changed) := by
  cases hfails : c.fails with
  | some m =>
      simp only [userSem, hfails]
      exact Or.inl ⟨_, rfl, nofun⟩
  | none =>
      simp only [userSem, hfails, userExec]
      cases hrow : s.users.row? username with
      | none => exact Or.inl ⟨_, rfl, nofun⟩
      | some row =>
          dsimp only
          split
          · exact Or.inl ⟨_, rfl, nofun⟩
          · exact Or.inr ⟨row, _, rfl, rfl⟩

section Moves

variable {cfg : Config} {p : Payload} {holder : Option ℕ} {phases : List ResetPhase}
variable {s : UserStore} {i : ℕ} {φ φ' : ResetPhase} {c : UserChoice}

/-- The look at the version. -/
theorem resetInv_version (h : ResetInv p holder phases s)
    (hseparated : Separated c (.getVersion p) s)
    (hnext : (resetProtocol p).next .checking (.getVersion p)
      (userSem cfg c (.getVersion p) s).1 = some φ') :
    ∃ holder', ResetInv p holder' (phases.set i φ') (userSem cfg c (.getVersion p) s).2 := by
  obtain ⟨hquiet, hredis⟩ := hseparated
  obtain rfl := h.holder_none hquiet
  simp only [resetProtocol, if_true] at hnext
  cases hfails : c.fails with
  | some m =>
      -- Redis does not answer, so nothing is changed yet
      simp only [userSem, hfails] at hnext ⊢
      obtain rfl := Option.some.inj hnext
      exact ⟨some i, h.pass (hredis.resolve_left (by simp [hfails]))⟩
  | none =>
      simp only [userSem, hfails, userExec] at hnext ⊢
      obtain rfl := Option.some.inj hnext
      by_cases hlets : LetsThrough p (s.tokenVersions.get? p.sub)
      · rw [if_pos hlets, if_pos hlets]
        rcases h.once with ⟨hzero, -⟩ | ⟨-, -, -, hdiffers⟩
        · exact ⟨some i, h.pass hzero⟩
        · obtain ⟨v, hv, hne⟩ := hdiffers rfl
          exact absurd (hlets v hv) hne
      · rw [if_neg hlets, if_neg hlets]
        exact ⟨none, h.rest (Or.inr rfl)⟩

/-- The update. -/
theorem resetInv_update (h : ResetInv p holder phases s) (hφ : phases[i]? = some .passed)
    (newPassword : String)
    (hnext : (resetProtocol p).next .passed (.updatePassword p.sub newPassword)
      (userSem cfg c (.updatePassword p.sub newPassword) s).1 = some φ') :
    ∃ holder', ResetInv p holder' (phases.set i φ')
      (userSem cfg c (.updatePassword p.sub newPassword) s).2 := by
  simp only [resetProtocol, if_true] at hnext
  rcases updatePassword_cases cfg c p.sub newPassword s with
    ⟨r, hsem, hr⟩ | ⟨row, users, hrow, hsem⟩
  · rw [hsem] at hnext ⊢
    dsimp only at hnext
    split at hnext
    · exact absurd rfl (hr _)
    · obtain rfl := Option.some.inj hnext
      exact ⟨none, h.fail hφ⟩
  · rw [hsem] at hnext ⊢
    obtain rfl := Option.some.inj hnext
    exact ⟨holder, h.change hφ hrow users⟩

/-- The publication. -/
theorem resetInv_publish (h : ResetInv p holder phases s) {v : ℕ}
    (hφ : phases[i]? = some (.publishing v)) :
    ∃ holder', ResetInv p holder' (phases.set i .done)
      (userSem cfg c (.setVersion p.sub v) s).2 := by
  cases hfails : c.fails with
  | some m =>
      simp only [userSem, hfails]
      exact ⟨holder, h.rest (Or.inr rfl)⟩
  | none =>
      simp only [userSem, hfails, userExec]
      exact ⟨none, h.publish hφ⟩

/-- What a call does next keeps the invariant. -/
theorem resetInv_act {q : UserStmt} (h : ResetInv p holder phases s)
    (hφ : phases[i]? = some φ) (hseparated : Separated c q s)
    (hnext : (resetProtocol p).next φ q (userSem cfg c q s).1 = some φ') :
    ∃ holder', ResetInv p holder' (phases.set i φ') (userSem cfg c q s).2 := by
  have hmove := hnext
  simp only [resetProtocol] at hmove
  split at hmove
  · -- the clock
    obtain rfl := Option.some.inj hmove
    exact ⟨holder, h.rest (Or.inl rfl)⟩
  · -- the revocation
    obtain rfl := Option.some.inj hmove
    refine ⟨holder, ?_⟩
    cases hfails : c.fails <;> simp only [userSem, hfails, userExec] <;>
      exact h.rest (Or.inl rfl)
  · split at hmove
    · rename_i hq
      subst hq
      exact resetInv_version h hseparated hnext
    · exact nomatch hmove
  · split at hmove
    · rename_i hname
      subst hname
      exact resetInv_update h hφ _ hnext
    · exact nomatch hmove
  · split at hmove
    · rename_i hargs
      obtain ⟨rfl, rfl⟩ := hargs
      obtain rfl := Option.some.inj hmove
      exact resetInv_publish h hφ
    · exact nomatch hmove
  · exact nomatch hmove

end Moves

theorem reset_keeps (cfg : Config) (signed : Payload → Bool) (p : Payload) :
    (resetProtocol p).Keeps (userSem cfg) (confirmations signed p) noEnv Separated
      (fun _ => .checking) (fun phases s => ∃ holder, ResetInv p holder phases s) where
  follows := confirmPasswordReset_follows signed p
  act := fun _ _ _ _ _ _ _ ⟨_, hI⟩ hφ hseparated hnext => resetInv_act hI hφ hseparated hnext
  spawn := fun _ _ _ ⟨holder, hI⟩ => ⟨holder, hI.spawn⟩
  env := nofun

/-- **A reset token is used once.** Whatever calls present the token, and
however their statements interleave, the password changes at most once. -/
theorem reset_once (cfg : Config) (signed : Payload → Bool) (p : Payload) (s : UserStore)
    (hlog : s.log = []) (hversion : NextDiffers p s)
    (schedule : List (Event UserChoice String Empty))
    (hseparated : (noCalls s).AllSteps (userSem cfg) (confirmations signed p) noEnv
      Separated schedule) :
    ((noCalls s).run (userSem cfg) (confirmations signed p) noEnv schedule).state.log.count
      .changed ≤ 1 := by
  have hstart : ResetInv p none [] s := ⟨by simp [hlog], nofun, Or.inl ⟨by simp [hlog], hversion⟩⟩
  have hempty : (noCalls s).InPhases (resetProtocol p) [] := .nil
  obtain ⟨phases, -, holder, hI⟩ :=
    (reset_keeps cfg signed p).run schedule hempty ⟨none, hstart⟩ hseparated
  rcases hI.once with ⟨hzero, -⟩ | ⟨hone, -⟩ <;> omega

/-! ### Two calls with one token -/

def danaReset : Payload := danaToken .pwreset 0 0 1010 1910

def danaStore : UserStore where
  users := {
    rows := [⟨"dana", ⟨200000, "dana-salt", "digest"⟩, .operator, none, 0, false⟩]
    key := by decide }

/-- The next statements of some calls, at one time. -/
def acts (calls : List ℕ) : List (Event UserChoice String Empty) :=
  calls.map fun i => .act i { toMoment := atTime 1020 }

/-- One call after the other. -/
theorem dana_resets_once :
    ((noCalls danaStore).run (userSem labConfig) (confirmations (· = danaReset) danaReset) noEnv
      (.spawn "second-password" :: acts [0, 0, 0, 0, 0] ++
        .spawn "third-password" :: acts [1, 1, 1])).state.log.count .changed ≤ 1 :=
  reset_once labConfig (· = danaReset) danaReset danaStore rfl
    (by intro row hrow; obtain rfl := Option.some.inj hrow; decide) _ (by decide +kernel)

/-- Both look at the version before either changes the password. -/
theorem dana_resets_twice :
    ((noCalls danaStore).run (userSem labConfig) (confirmations (· = danaReset) danaReset) noEnv
      ([.spawn "second-password", .spawn "third-password"] ++
        acts [0, 1, 0, 1, 0, 1, 0, 1, 0, 1])).state.log.count .changed = 2 := by
  decide +kernel

end DiepLab.Auth
