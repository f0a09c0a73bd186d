import DiepLab.Auth.TokenVersions

/-!
What a password reset and a deletion take back.

Both are meant to end the tokens that the user has been given so far. A reset
does so by writing the version of the row to Redis; a deletion writes nothing
there, and the row of a user who comes back counts from 0 again. `Retires` is
what is left to luck: when a request ends the tokens of a user, each of them is
spent, or carries a version other than the one that Redis then has.
-/

namespace DiepLab.Auth

/-- The token has expired, or a logout has revoked it for the rest of its
life. -/
def Spent (s : AuthState) (now : ℚ) (p : Payload) : Prop :=
  p.exp < now ∨ ∃ e ∈ s.revoked, e.1 = p.jti ∧ p.exp < e.2

instance (s : AuthState) (now : ℚ) (p : Payload) : Decidable (Spent s now p) :=
  inferInstanceAs (Decidable (_ ∨ _))

theorem Spent.mono {s : AuthState} {now later : ℚ} {p : Payload} (h : Spent s now p)
    (hnow : now ≤ later) : Spent s later p :=
  h.imp_left fun hexp => lt_of_lt_of_le hexp hnow

/-- The user whose tokens a request ends: the one whose password it resets, or
whose row it deletes. -/
def endedUser (cfg : Config) (s : AuthState) (m : Moment) (R : Request) : Option String :=
  match R, (serve cfg m s R).1 with
  | .passwordResetConfirm (.signed p) _, .ok .passwordUpdated => some p.sub
  | .removeUser _ username, .ok (.deleted _) => some username
  | _, _ => none

/-- The version of that user in Redis afterwards. -/
def versionAfter (s : AuthState) : Request → Option ℕ
  | .passwordResetConfirm (.signed p) _ =>
      (s.users.row? p.sub).map fun row => row.tokenVersion + 1
  | .removeUser _ username => s.tokenVersions.get? username
  | _ => none

/-- The condition on a request that ends the tokens of a user. -/
def Retires (cfg : Config) (s : AuthState) (m : Moment) (R : Request) : Prop :=
  ∀ username ∈ endedUser cfg s m R, ∀ p ∈ s.issued, p.sub = username →
    Spent s m.now p ∨ ∃ v ∈ versionAfter s R, p.tv ≠ v

instance (cfg : Config) (s : AuthState) (m : Moment) (R : Request) :
    Decidable (Retires cfg s m R) :=
  inferInstanceAs (Decidable (∀ username ∈ endedUser cfg s m R, ∀ p ∈ s.issued, _))

/-! ### Tokens that are refused for good -/

/-- As the tables are, the token is refused from now on. -/
structure Retired (p : Payload) (s : AuthState) (now : ℚ) : Prop where
  issued : p ∈ s.issued
  refused : Spent s now p ∨ ∃ v ∈ s.tokenVersions.get? p.sub, p.tv ≠ v

theorem AuthState.isRevoked_iff {s : AuthState} {now : ℚ} {jti : ℕ} :
    s.isRevoked now jti = true ↔ ∃ e ∈ s.revoked, e.1 = jti ∧ now < e.2 := by
  simp [AuthState.isRevoked]

/-- Exactly these tokens are refused at every later time. -/
theorem retired_iff {p : Payload} {s : AuthState} {now : ℚ} (hissued : p ∈ s.issued) :
    Retired p s now ↔ ∀ later, now ≤ later → ∀ use, verifyJwt s later (.signed p) use = none := by
  constructor
  · intro h later hlater use
    by_contra hsome
    obtain ⟨q, hq⟩ := Option.ne_none_iff_exists'.mp hsome
    obtain ⟨htoken, -, hnow, -, hrevoked, hversion⟩ := verifyJwt_eq_some.mp hq
    injection htoken with htoken
    subst htoken
    rcases h.refused with (hexp | ⟨e, he, hjti, hexp⟩) | ⟨v, hv, hne⟩
    · linarith
    · rw [AuthState.isRevoked_iff.mpr ⟨e, he, hjti, by linarith⟩] at hrevoked
      exact nomatch hrevoked
    · exact hne (hversion v hv)
  · intro h
    refine ⟨hissued, ?_⟩
    by_contra hnot
    push Not at hnot
    obtain ⟨hspent, hversion⟩ := hnot
    rw [Spent] at hspent
    push Not at hspent
    -- at the moment of its expiry the token is still accepted
    have haccepted : verifyJwt s p.exp (.signed p) none = some p := by
      refine verifyJwt_eq_some.mpr ⟨rfl, hissued, le_refl _, nofun, ?_, hversion⟩
      rw [Bool.eq_false_iff]
      intro hrevoked
      obtain ⟨e, he, hjti, hlt⟩ := AuthState.isRevoked_iff.mp hrevoked
      exact absurd hlt (not_lt.mpr (hspent.2 e he hjti))
    rw [h p.exp hspent.1 none] at haccepted
    exact nomatch haccepted

/-- A logout revokes a token that it has found valid. -/
theorem logout_verifies {cfg : Config} {s : AuthState} {m : Moment} {headers : Headers}
    {q : Payload} (hbearer : headers.bearer = some (.signed q))
    (hanswer : (serve cfg m s (.logout headers)).1 = .ok (.loggedOut true)) :
    verifyJwt s m.now (.signed q) none = some q := by
  simp only [serve, logout] at hanswer
  cases hrole : requireRole cfg m s [.viewer, .operator, .engineer, .admin, .service] headers with
  | error e =>
      rw [hrole] at hanswer
      cases hanswer
  | ok principal =>
      cases hkind : principal.kind with
      | disabled =>
          simp only [hrole, hkind] at hanswer
          cases hanswer
      | apikey =>
          simp only [hrole, hkind] at hanswer
          cases hanswer
      | jwt token =>
          obtain rfl := Option.some.inj (hbearer.symm.trans (requireRole_token hrole hkind))
          simp only [hrole, hkind, revokeToken] at hanswer
          cases hverify : verifyJwt s m.now (.signed q) none with
          | none =>
              rw [hverify] at hanswer
              cases hanswer
          | some q' =>
              obtain ⟨htoken, -⟩ := verifyJwt_eq_some.mp hverify
              injection htoken with htoken
              rw [htoken]

/-- A logout cannot give a spent token another life. -/
theorem spent_serve {p : Payload} {s : AuthState} {now : ℚ} (h : Spent s now p)
    (hissued : p ∈ s.issued) (hnumbered : Numbered s) (cfg : Config) (m : Moment) (R : Request) :
    Spent (serve cfg m s R).2 now p := by
  rcases h with hexp | ⟨e, he, hjti, hexp⟩
  · exact Or.inl hexp
  · refine Or.inr ?_
    rcases serve_revoked cfg m s R with
      hsame | ⟨headers, q, expires, rfl, hbearer, hanswer, hq, hstate⟩
    · rw [hsame]
      exact ⟨e, he, hjti, hexp⟩
    · rw [hstate]
      refine ⟨e, List.mem_cons_of_mem _ (List.mem_filter.mpr ⟨he, ?_⟩), hjti, hexp⟩
      rw [decide_eq_true_eq, hjti]
      intro heq
      obtain rfl := hnumbered.jti_inj hissued hq heq
      -- the logout has found the token valid, and it is revoked beyond its expiry
      obtain ⟨-, -, hnow, -, hrevoked, -⟩ := verifyJwt_eq_some.mp (logout_verifies hbearer hanswer)
      rw [AuthState.isRevoked_iff.mpr ⟨e, he, hjti, by linarith⟩] at hrevoked
      exact nomatch hrevoked

/-- A reset that succeeds has read the row and writes the next version. -/
theorem reset_updated {cfg : Config} {s : AuthState} {m : Moment} {p : Payload}
    {newPassword : String}
    (h : (serve cfg m s (.passwordResetConfirm (.signed p) newPassword)).1 =
      .ok .passwordUpdated) :
    ∃ row hash, s.users.row? p.sub = some row ∧
      (serve cfg m s (.passwordResetConfirm (.signed p) newPassword)).2 =
        s.resetPassword p.sub hash (row.tokenVersion + 1) := by
  simp only [serve, passwordResetConfirm] at h ⊢
  split
  · simp_all
  · cases hverify : verifyJwt s m.now (.signed p) (some .pwreset) with
    | none => simp_all
    | some q =>
        obtain ⟨htoken, -⟩ := verifyJwt_eq_some.mp hverify
        injection htoken with htoken
        subst htoken
        cases hrow : s.users.row? p.sub with
        | none => simp_all
        | some row =>
            simp only [hrow]
            split
            · simp_all
            · exact ⟨row, _, rfl, rfl⟩

/-- The version in Redis changes for the user whose tokens are ended alone, and
becomes the one that `versionAfter` says. -/
theorem tokenVersions_ended {cfg : Config} {s : AuthState} {m : Moment} {R : Request}
    {username : String} (h : endedUser cfg s m R = some username) :
    (serve cfg m s R).2.tokenVersions.get? username = versionAfter s R := by
  unfold endedUser at h
  split at h
  · rename_i q newPassword hanswer
    obtain ⟨row, hash, hrow, hstate⟩ := reset_updated hanswer
    injection h with h
    rw [hstate, versionAfter, hrow, ← h]
    simp [AuthState.resetPassword, Dict.get?_set]
  · rename_i headers name _ hanswer
    injection h with h
    rcases serve_users cfg m s (.removeUser headers name) with hkeeps | ⟨_, _, _, _, hR, -⟩
    · rw [hkeeps.tokenVersions, versionAfter, h]
    · cases hR
  · cases h

theorem tokenVersions_others {cfg : Config} {s : AuthState} {m : Moment} {R : Request}
    {username : String} (h : endedUser cfg s m R ≠ some username) :
    (serve cfg m s R).2.tokenVersions.get? username = s.tokenVersions.get? username := by
  rcases serve_users cfg m s R with hkeeps | ⟨q, newPassword, row, hash, rfl, hanswer, hrow, hstate⟩
  · rw [hkeeps.tokenVersions]
  · have hname : q.sub ≠ username := by
      rintro rfl
      exact h (by simp only [endedUser, hanswer])
    rw [hstate]
    simp only [AuthState.resetPassword, Dict.get?_set, if_neg hname]

namespace Retired

variable {p : Payload} {s : AuthState} {now : ℚ} {cfg : Config} {m : Moment} {R : Request}

/-- A token that is refused stays refused, whatever is served. -/
theorem serve (h : Retired p s now) (hnumbered : Numbered s) (hretires : Retires cfg s m R)
    (hnow : m.now ≤ now) : Retired p (serve cfg m s R).2 now where
  issued := serve_issued cfg m s R h.issued
  refused := by
    rcases h.refused with hspent | ⟨v, hv, hne⟩
    · exact Or.inl (spent_serve hspent h.issued hnumbered cfg m R)
    · by_cases hended : endedUser cfg s m R = some p.sub
      · rw [tokenVersions_ended hended]
        rcases hretires p.sub hended p h.issued rfl with hspent | hversion
        · exact Or.inl (spent_serve (hspent.mono hnow) h.issued hnumbered cfg m R)
        · exact Or.inr hversion
      · exact Or.inr ⟨v, tokenVersions_others hended ▸ hv, hne⟩

end Retired

/-- A request that ends the tokens of a user retires each of them. -/
theorem retired_of_ended {cfg : Config} {s : AuthState} {m : Moment} {R : Request} {p : Payload}
    (hretires : Retires cfg s m R) (hended : endedUser cfg s m R = some p.sub)
    (hissued : p ∈ s.issued) (hnumbered : Numbered s) :
    Retired p (serve cfg m s R).2 m.now where
  issued := serve_issued cfg m s R hissued
  refused := by
    rcases hretires p.sub hended p hissued rfl with hspent | hversion
    · exact Or.inl (spent_serve hspent hissued hnumbered cfg m R)
    · exact Or.inr (tokenVersions_ended hended ▸ hversion)

/-- For one request the condition leaves out nothing else. -/
theorem retires_iff {cfg : Config} {s : AuthState} {m : Moment} {R : Request}
    (hnumbered : Numbered s) :
    Retires cfg s m R ↔ ∀ username ∈ endedUser cfg s m R, ∀ p ∈ s.issued, p.sub = username →
      ∀ later, m.now ≤ later → ∀ use,
        verifyJwt (serve cfg m s R).2 later (.signed p) use = none := by
  constructor
  · rintro h username hended p hissued rfl
    have hretired := retired_of_ended h hended hissued hnumbered
    exact (retired_iff hretired.issued).mp hretired
  · rintro h username hended p hissued rfl
    have hretired :=
      (retired_iff (serve_issued cfg m s R hissued)).mpr (h p.sub hended p hissued rfl)
    rw [← tokenVersions_ended hended]
    refine hretired.refused.imp_left fun hspent => ?_
    rcases serve_revoked cfg m s R with hsame | ⟨headers, _, _, rfl, -⟩
    · exact hspent.imp_right fun hrevoked => hsame ▸ hrevoked
    · exact nomatch hended

theorem retired_serveAll {cfg : Config} {p : Payload} {s : AuthState} {now : ℚ}
    (h : Retired p s now) (hnumbered : Numbered s) {calls : List Call}
    (hretires : Along cfg (Retires cfg) s calls) (hnow : ∀ call ∈ calls, call.1.now ≤ now) :
    Retired p (serveAll cfg s calls) now := by
  induction calls generalizing s with
  | nil => exact h
  | cons call calls ih =>
      obtain ⟨hcall, hrest⟩ := hretires
      refine ih (h.serve hnumbered hcall (hnow call List.mem_cons_self))
        (hnumbered.serve cfg call.1 call.2) hrest fun c hc => hnow c (List.mem_cons_of_mem _ hc)

/-- **What a reset or a deletion takes back.** In every run in which each request
that ends the tokens of a user meets the condition, no token that the user was
given before it is accepted afterwards, for whatever use. -/
theorem ended_tokens_refused (cfg : Config) (before after : List Call) (m : Moment) (R : Request)
    (hretires : Along cfg (Retires cfg) {} (before ++ (m, R) :: after)) (username : String)
    (hended : endedUser cfg (serveAll cfg {} before) m R = some username) (p : Payload)
    (hissued : p ∈ (serveAll cfg {} before).issued) (hsub : p.sub = username) (now : ℚ)
    (hnow : ∀ call ∈ (m, R) :: after, call.1.now ≤ now) (use : Option TokenUse) :
    verifyJwt (serveAll cfg {} (before ++ (m, R) :: after)) now (.signed p) use = none := by
  have hstart : Numbered {} := ⟨rfl, nofun⟩
  have hnumbered : Numbered (serveAll cfg {} before) := numbered_serveAll hstart before
  obtain ⟨-, hR, hafter⟩ := along_append hretires
  rw [serveAll_append]
  have hretired := retired_of_ended hR (hsub ▸ hended) hissued hnumbered
  have hlater : Retired p (serve cfg m (serveAll cfg {} before) R).2 now :=
    ⟨hretired.issued, hretired.refused.imp_left fun h => h.mono (hnow _ List.mem_cons_self)⟩
  have hrun := retired_serveAll hlater (hnumbered.serve cfg m R) hafter
    fun call hcall => hnow call (List.mem_cons_of_mem _ hcall)
  exact (retired_iff hrun.issued).mp hrun now (le_refl now) use

/-! ### A user with tokens -/

def danaSignsIn : List Call := [
  (atTime 1000, .createUser adminKey "dana" "first-password" "operator" none),
  (atTime 1010, .login "dana" "first-password")]

/-- After a reset the access token from before is refused. -/
theorem dana_reset_refuses :
    verifyJwt
      (serveAll labConfig {} ((danaSignsIn ++ [(atTime 1020, .passwordResetRequest "dana")]) ++
        (atTime 1030, .passwordResetConfirm (.signed (danaToken .pwreset 0 2 1020 1920))
          "second-password") :: [(atTime 1040, .login "dana" "second-password")]))
      1050 (.signed (danaToken .access 0 0 1010 4610)) none = none :=
  ended_tokens_refused labConfig _ _ (atTime 1030) _ (by decide +kernel) "dana"
    (by decide +kernel) (danaToken .access 0 0 1010 4610) (by decide +kernel) rfl 1050
    (by decide +kernel) none

/-- After a deletion it is accepted: nobody has told Redis. -/
theorem dana_deleted_accepted :
    let s := serveAll labConfig {} danaSignsIn
    let R := Request.removeUser adminKey "dana"
    endedUser labConfig s (atTime 1020) R = some "dana" ∧
      danaToken .access 0 0 1010 4610 ∈ s.issued ∧
      verifyJwt (serve labConfig (atTime 1020) s R).2 1030
        (.signed (danaToken .access 0 0 1010 4610)) none =
          some (danaToken .access 0 0 1010 4610) := by
  decide +kernel

end DiepLab.Auth
