import DiepLab.Auth.Users

/-!
Token versions of users and their copies in Redis.

The token of a login carries the version of the user's row, and it is refused
when Redis has another. A password reset writes both, but a row that is inserted
starts at version 0, whatever Redis has kept from an earlier user of the name.
While no row is inserted over a copy, every copy agrees with its row, and a
token stands until it expires, a logout revokes it or the password is reset.
-/

namespace DiepLab.Auth

/-! ### Effects of the parts -/

section Parts

variable {cfg : Config} {m : Moment} {s : AuthState}

theorem UserTable.mem_insert {users users' : UserTable} {new row : UserRow}
    (h : users.insert new = some users') :
    row ∈ users'.rows ↔ row ∈ users.rows ∨ row = new := by
  rw [insert] at h
  split at h
  · exact nomatch h
  · injection h with h
    rw [← h, List.mem_append, List.mem_singleton]

theorem UserTable.insert_fresh {users users' : UserTable} {new : UserRow}
    (h : users.insert new = some users') : new.username ∉ users.names := by
  rw [insert] at h
  split at h
  · exact nomatch h
  · assumption

theorem UserTable.mem_insertNew {users : UserTable} {new row : UserRow}
    (h : row ∈ (users.insertNew new).rows) : row ∈ users.rows ∨ row = new := by
  rw [insertNew] at h
  cases hinsert : users.insert new with
  | none =>
      rw [hinsert] at h
      exact Or.inl h
  | some users' =>
      rw [hinsert] at h
      exact (mem_insert hinsert).mp h

theorem UserTable.mem_foldl_insertNew {users : UserTable} {news : List UserRow} {row : UserRow}
    (h : row ∈ (news.foldl insertNew users).rows) : row ∈ users.rows ∨ row ∈ news := by
  induction news generalizing users with
  | nil => exact Or.inl h
  | cons new news ih =>
      rcases ih h with h | h
      · rcases mem_insertNew h with h | rfl
        · exact Or.inl h
        · exact Or.inr List.mem_cons_self
      · exact Or.inr (List.mem_cons_of_mem new h)

theorem UserTable.row?_mem {users : UserTable} {username : String} {row : UserRow}
    (h : users.row? username = some row) : row ∈ users.rows ∧ row.username = username :=
  ⟨List.mem_of_find?_eq_some h, of_decide_eq_true (List.find?_some h :)⟩

/-- Nothing happens to the copies of versions, and rows are only inserted or
removed. -/
structure KeepsVersions (s s' : AuthState) : Prop where
  tokenVersions : s'.tokenVersions = s.tokenVersions
  rows : ∀ row ∈ s'.users.rows, row ∈ s.users.rows ∨ row.username ∉ s.users.names

theorem KeepsVersions.of_eq {s' : AuthState} (husers : s'.users = s.users)
    (hversions : s'.tokenVersions = s.tokenVersions) : KeepsVersions s s' where
  tokenVersions := hversions
  rows := by
    rw [husers]
    exact fun _ hrow => Or.inl hrow

theorem keepsVersions_seed : KeepsVersions s (ensureUsersSeeded cfg m s) := by
  rw [ensureUsersSeeded]
  split
  · rename_i hempty
    refine ⟨rfl, fun row hrow => ?_⟩
    rcases UserTable.mem_foldl_insertNew hrow with hrow | hrow
    · exact Or.inl hrow
    · obtain ⟨user, _, rfl⟩ := List.mem_map.mp hrow
      right
      simp [UserTable.names, hempty, seedRow]
  · exact .of_eq rfl rfl

theorem KeepsVersions.insert {s' : AuthState} (h : KeepsVersions s s') {new : UserRow}
    {users : UserTable} (hinsert : s'.users.insert new = some users)
    (hnames : ∀ u ∈ s.users.names, u ∈ s'.users.names) :
    KeepsVersions s { s' with users := users } where
  tokenVersions := h.tokenVersions
  rows := by
    intro row hrow
    rcases (UserTable.mem_insert hinsert).mp hrow with hrow | rfl
    · exact h.rows row hrow
    · exact Or.inr fun hmem => UserTable.insert_fresh hinsert (hnames _ hmem)

theorem keepsVersions_delete (username : String) :
    KeepsVersions s { s with users := s.users.delete username } where
  tokenVersions := rfl
  rows := fun _ hrow => Or.inl (List.mem_of_mem_filter hrow)

theorem names_seed {u : String} (hu : u ∈ s.users.names) :
    u ∈ (ensureUsersSeeded cfg m s).users.names := by
  rw [ensureUsersSeeded]
  split
  · rename_i hempty
    rw [UserTable.names, hempty] at hu
    exact absurd hu List.not_mem_nil
  · exact hu

theorem seed_issued : (ensureUsersSeeded cfg m s).issued = s.issued := by
  rw [ensureUsersSeeded]
  split <;> rfl

theorem seed_revoked : (ensureUsersSeeded cfg m s).revoked = s.revoked := by
  rw [ensureUsersSeeded]
  split <;> rfl

/-- No member of an optional value differs from the given one. -/
theorem any_ne_eq_false {α : Type} [DecidableEq α] {o : Option α} {a : α} :
    (o.any fun b => a ≠ b) = false ↔ ∀ b ∈ o, a = b := by
  cases o <;> simp

theorem verifyJwt_eq_some {now : ℚ} {token : Token} {use : Option TokenUse} {p : Payload} :
    verifyJwt s now token use = some p ↔
      token = .signed p ∧ p ∈ s.issued ∧ now ≤ p.exp ∧ (∀ u ∈ use, p.use = u) ∧
        s.isRevoked now p.jti = false ∧ ∀ v ∈ s.tokenVersions.get? p.sub, p.tv = v := by
  cases token with
  | other text => simp [verifyJwt]
  | signed q =>
      simp only [verifyJwt, Option.ite_none_left_eq_some, not_not, not_lt, Bool.not_eq_true,
        any_ne_eq_false, Option.some.injEq, Token.signed.injEq]
      constructor
      · rintro ⟨hissued, hnow, huse, hrevoked, hversion, rfl⟩
        exact ⟨rfl, hissued, hnow, huse, hrevoked, hversion⟩
      · rintro ⟨rfl, hissued, hnow, huse, hrevoked, hversion⟩
        exact ⟨hissued, hnow, huse, hrevoked, hversion, rfl⟩

theorem principal_token {headers : Headers} {principal : Principal} {token : Token}
    (h : principalFromRequest cfg m s headers = some principal)
    (hkind : principal.kind = .jwt token) : headers.bearer = some token := by
  rw [principalFromRequest] at h
  split at h
  · injection h with h
    rw [← h] at hkind
    exact nomatch hkind
  · split at h
    · exact nomatch h
    · rename_i hbearer
      split at h
      · split at h
        · injection h with h
          rw [← h] at hkind
          injection hkind with hkind
          rw [hbearer, hkind]
        · exact nomatch h
      · exact nomatch h

theorem requireRole_token {allowed : List Role} {headers : Headers} {principal : Principal}
    {token : Token} (h : requireRole cfg m s allowed headers = .ok principal)
    (hkind : principal.kind = .jwt token) : headers.bearer = some token := by
  rw [requireRole] at h
  split at h
  · injection h with h
    rw [← h] at hkind
    exact nomatch hkind
  · cases hp : principalFromRequest cfg m s headers with
    | none =>
        rw [hp] at h
        exact nomatch h
    | some found =>
        simp only [hp] at h
        split at h
        · injection h with h
          exact principal_token (h ▸ hp) hkind
        · exact nomatch h

end Parts

/-! ### What a request can do -/

/-- The ways in which a request can end: with the state as it was, or with one
change after the table was perhaps seeded. -/
inductive Outcome (cfg : Config) (m : Moment) (s : AuthState) :
    Request → Except Exc Answer × AuthState → Prop
  | same (R : Request) (a : Except Exc Answer) : Outcome cfg m s R (a, s)
  | seeded (R : Request) (a : Except Exc Answer) :
      Outcome cfg m s R (a, ensureUsersSeeded cfg m s)
  | signed (R : Request) (a : Except Exc Answer) (s₀ : AuthState) (p : Payload)
      (hs₀ : s₀ = s ∨ s₀ = ensureUsersSeeded cfg m s) (hjti : p.jti = s₀.issued.length) :
      Outcome cfg m s R (a, sign s₀ p)
  | loggedIn (R : Request) (a : Except Exc Answer) (p q : Payload)
      (hp : p.jti = (ensureUsersSeeded cfg m s).issued.length)
      (hq : q.jti = (sign (ensureUsersSeeded cfg m s) p).issued.length) :
      Outcome cfg m s R (a, sign (sign (ensureUsersSeeded cfg m s) p) q)
  | revoked (headers : Headers) (p : Payload) (expires : ℚ)
      (hbearer : headers.bearer = some (.signed p)) (hissued : p ∈ s.issued) :
      Outcome cfg m s (.logout headers) (.ok (.loggedOut true), s.revoke p.jti expires)
  | reset (p : Payload) (newPassword : String) (row : UserRow) (hash : PasswordHash)
      (hrow : s.users.row? p.sub = some row) :
      Outcome cfg m s (.passwordResetConfirm (.signed p) newPassword)
        (.ok .passwordUpdated, s.resetPassword p.sub hash (row.tokenVersion + 1))
  | inserted (R : Request) (a : Except Exc Answer) (row : UserRow) (users : UserTable)
      (hinsert : (ensureUsersSeeded cfg m s).users.insert row = some users)
      (hversion : row.tokenVersion = 0) :
      Outcome cfg m s R (a, { ensureUsersSeeded cfg m s with users := users })
  | deleted (R : Request) (a : Except Exc Answer) (username : String) :
      Outcome cfg m s R (a, { s with users := s.users.delete username })

section Serve

variable (cfg : Config) (m : Moment) (s : AuthState) (R : Request)

theorem serve_outcome : Outcome cfg m s R (serve cfg m s R) := by
  cases R with
  | login username password =>
      simp only [serve, login]
      split
      · exact .seeded _ _
      · exact .loggedIn _ _ _ _ rfl rfl
  | refreshToken token =>
      simp only [serve, refreshToken]
      split
      · exact .same _ _
      · exact .signed _ _ s _ (Or.inl rfl) rfl
  | logout headers =>
      simp only [serve, logout]
      cases hrole :
          requireRole cfg m s [.viewer, .operator, .engineer, .admin, .service] headers with
      | error e => exact .same _ _
      | ok principal =>
          cases hkind : principal.kind with
          | disabled =>
              simp only [hkind]
              exact .same _ _
          | apikey =>
              simp only [hkind]
              exact .same _ _
          | jwt token =>
              cases hverify : verifyJwt s m.now token none with
              | none =>
                  simp only [hkind, revokeToken, hverify]
                  exact .same _ _
              | some p =>
                  obtain ⟨rfl, hissued, _⟩ := verifyJwt_eq_some.mp hverify
                  simp only [hkind, revokeToken, hverify]
                  exact .revoked headers p _ (requireRole_token hrole hkind) hissued
  | passwordResetRequest username =>
      simp only [serve, passwordResetRequest]
      split
      · exact .seeded _ _
      · exact .signed _ _ _ _ (Or.inr rfl) rfl
  | passwordResetConfirm token newPassword =>
      simp only [serve, passwordResetConfirm]
      split
      · exact .same _ _
      · split
        · exact .same _ _
        · split
          · exact .same _ _
          · split
            · exact .same _ _
            · rename_i p hverify _ row hrow _
              obtain ⟨rfl, _⟩ := verifyJwt_eq_some.mp hverify
              exact .reset p newPassword row _ hrow
  | createUser headers username password role tenant =>
      simp only [serve, createUser]
      split
      · exact .same _ _
      · split_ifs
        · exact .same _ _
        · exact .same _ _
        · split
          · exact .same _ _
          · exact .seeded _ _
        · split
          · exact .same _ _
          · split
            · exact .seeded _ _
            · rename_i hinsert
              exact .inserted _ _ _ _ hinsert rfl
  | removeUser headers username =>
      simp only [serve, removeUser]
      split
      · exact .same _ _
      · split
        · exact .same _ _
        · split
          · exact .same _ _
          · exact .deleted _ _ username

/-- A request keeps the versions, or resets one password. -/
theorem serve_users :
    KeepsVersions s (serve cfg m s R).2 ∨
      ∃ p newPassword row hash, R = .passwordResetConfirm (.signed p) newPassword ∧
        (serve cfg m s R).1 = .ok .passwordUpdated ∧ s.users.row? p.sub = some row ∧
        (serve cfg m s R).2 = s.resetPassword p.sub hash (row.tokenVersion + 1) := by
  have hseed : KeepsVersions s (ensureUsersSeeded cfg m s) := keepsVersions_seed
  have hout := serve_outcome cfg m s R
  generalize serve cfg m s R = out at hout ⊢
  cases hout with
  | same | revoked => exact Or.inl (.of_eq rfl rfl)
  | seeded | loggedIn => exact Or.inl ⟨hseed.tokenVersions, hseed.rows⟩
  | signed _ _ s₀ _ hs₀ =>
      obtain rfl | rfl := hs₀
      · exact Or.inl (.of_eq rfl rfl)
      · exact Or.inl ⟨hseed.tokenVersions, hseed.rows⟩
  | reset p newPassword row hash hrow =>
      exact Or.inr ⟨p, newPassword, row, hash, rfl, rfl, hrow, rfl⟩
  | inserted _ _ row _ hinsert =>
      exact Or.inl (hseed.insert hinsert fun _ => names_seed)
  | deleted _ _ username => exact Or.inl (keepsVersions_delete username)

/-- Only a logout revokes a token, the one that it is called with. -/
theorem serve_revoked :
    (serve cfg m s R).2.revoked = s.revoked ∨
      ∃ headers p expires, R = .logout headers ∧ headers.bearer = some (.signed p) ∧
        (serve cfg m s R).1 = .ok (.loggedOut true) ∧ p ∈ s.issued ∧
        (serve cfg m s R).2 = s.revoke p.jti expires := by
  have hout := serve_outcome cfg m s R
  generalize serve cfg m s R = out at hout ⊢
  cases hout with
  | same | reset | deleted => exact Or.inl rfl
  | seeded | loggedIn | inserted => exact Or.inl seed_revoked
  | signed _ _ s₀ _ hs₀ =>
      obtain rfl | rfl := hs₀
      · exact Or.inl rfl
      · exact Or.inl seed_revoked
  | revoked headers p expires hbearer hissued =>
      exact Or.inr ⟨headers, p, expires, rfl, hbearer, rfl, hissued, rfl⟩

/-- What was issued stays issued. -/
theorem serve_issued {p : Payload} (hp : p ∈ s.issued) : p ∈ (serve cfg m s R).2.issued := by
  have hout := serve_outcome cfg m s R
  generalize serve cfg m s R = out at hout ⊢
  have hseed : p ∈ (ensureUsersSeeded cfg m s).issued := seed_issued (s := s) ▸ hp
  cases hout with
  | same | revoked | reset | deleted => exact hp
  | seeded | inserted => exact hseed
  | signed _ _ s₀ _ hs₀ =>
      obtain rfl | rfl := hs₀
      · exact List.mem_append_left _ hp
      · exact List.mem_append_left _ hseed
  | loggedIn => exact List.mem_append_left _ (List.mem_append_left _ hseed)

end Serve

/-! ### Identifiers -/

/-- Tokens are numbered in order of issue, and only issued ones are revoked. -/
structure Numbered (s : AuthState) : Prop where
  jti : s.issued.map Payload.jti = List.range s.issued.length
  revoked : ∀ e ∈ s.revoked, e.1 < s.issued.length

namespace Numbered

variable {s : AuthState}

theorem seed (h : Numbered s) (cfg : Config) (m : Moment) :
    Numbered (ensureUsersSeeded cfg m s) := by
  refine ⟨?_, ?_⟩
  · rw [seed_issued, h.jti]
  · rw [seed_issued, seed_revoked]
    exact h.revoked

theorem sign (h : Numbered s) {p : Payload} (hp : p.jti = s.issued.length) :
    Numbered (sign s p) where
  jti := by
    rw [Auth.sign, List.map_append, h.jti, List.map_singleton, hp, List.length_append,
      List.length_singleton, List.range_succ]
  revoked := by
    intro e he
    have hlt := h.revoked e he
    rw [Auth.sign, List.length_append, List.length_singleton]
    omega

theorem jti_lt (h : Numbered s) {p : Payload} (hp : p ∈ s.issued) : p.jti < s.issued.length := by
  rw [← List.mem_range, ← h.jti]
  exact List.mem_map_of_mem hp

theorem revoke (h : Numbered s) {p : Payload} (hp : p ∈ s.issued) (expires : ℚ) :
    Numbered (s.revoke p.jti expires) where
  jti := h.jti
  revoked := by
    intro e he
    rcases List.mem_cons.mp he with rfl | he
    · exact h.jti_lt hp
    · exact h.revoked e (List.mem_of_mem_filter he)

/-- An identifier belongs to one token. -/
theorem jti_inj (h : Numbered s) {p q : Payload} (hp : p ∈ s.issued) (hq : q ∈ s.issued)
    (hjti : p.jti = q.jti) : p = q :=
  List.inj_on_of_nodup_map (h.jti ▸ List.nodup_range) hp hq hjti

theorem serve (h : Numbered s) (cfg : Config) (m : Moment) (R : Request) :
    Numbered (serve cfg m s R).2 := by
  have hout := serve_outcome cfg m s R
  generalize Auth.serve cfg m s R = out at hout ⊢
  have hseed := h.seed cfg m
  cases hout with
  | same => exact h
  | seeded => exact hseed
  | signed _ _ s₀ _ hs₀ hjti =>
      obtain rfl | rfl := hs₀
      · exact h.sign hjti
      · exact hseed.sign hjti
  | loggedIn _ _ _ _ hp hq => exact (hseed.sign hp).sign hq
  | revoked _ p expires _ hissued => exact h.revoke hissued expires
  | reset => exact ⟨h.jti, h.revoked⟩
  | inserted => exact ⟨hseed.jti, hseed.revoked⟩
  | deleted => exact ⟨h.jti, h.revoked⟩

end Numbered

/-! ### Versions and their copies -/

/-- A copy of a version in Redis is the version of the row. -/
def Synced (s : AuthState) : Prop :=
  ∀ row ∈ s.users.rows, ∀ v ∈ s.tokenVersions.get? row.username, row.tokenVersion = v

/-- The condition on a request: for a name whose row it inserts, Redis has no
copy of a version. -/
def InsertsUncached (cfg : Config) (s : AuthState) (m : Moment) (R : Request) : Prop :=
  ∀ row ∈ (serve cfg m s R).2.users.rows,
    row.username ∉ s.users.names → s.tokenVersions.get? row.username = none

instance (cfg : Config) (s : AuthState) (m : Moment) (R : Request) :
    Decidable (InsertsUncached cfg s m R) :=
  inferInstanceAs (Decidable (∀ row ∈ (serve cfg m s R).2.users.rows, _))

theorem synced_resetPassword {s : AuthState} (h : Synced s) (username : String)
    (hash : PasswordHash) (version : ℕ) : Synced (s.resetPassword username hash version) := by
  intro row hrow v hv
  obtain ⟨old, hold, rfl⟩ := List.mem_map.mp hrow
  simp only [AuthState.resetPassword, Dict.get?_set] at hv
  by_cases hname : old.username = username
  · rw [if_pos hname] at hv ⊢
    rw [if_pos hname.symm] at hv
    exact Option.some.inj hv
  · rw [if_neg hname] at hv ⊢
    rw [if_neg (Ne.symm hname)] at hv
    exact h old hold v hv

theorem synced_serve {cfg : Config} {m : Moment} {s : AuthState} {R : Request} (h : Synced s)
    (hfresh : InsertsUncached cfg s m R) : Synced (serve cfg m s R).2 := by
  rcases serve_users cfg m s R with hkeeps | ⟨p, _, row, hash, _, _, _, hstate⟩
  · intro row hrow v hv
    rw [hkeeps.tokenVersions] at hv
    rcases hkeeps.rows row hrow with hold | hnew
    · exact h row hold v hv
    · rw [hfresh row hrow hnew] at hv
      exact nomatch hv
  · rw [hstate]
    exact synced_resetPassword h p.sub hash _

/-! ### Tokens that stand -/

/-- A token is not revoked and no reset has changed the version of its user. -/
structure Standing (p : Payload) (s : AuthState) : Prop where
  issued : p ∈ s.issued
  notRevoked : ∀ e ∈ s.revoked, e.1 ≠ p.jti
  version : ∀ v ∈ s.tokenVersions.get? p.sub, p.tv = v

/-- A logout that revokes the token, or a reset of the password of its user. -/
def EndsToken (p : Payload) (cfg : Config) (s : AuthState) (m : Moment) : Request → Prop
  | .logout headers => headers.bearer = some (.signed p) ∧
      (serve cfg m s (.logout headers)).1 = .ok (.loggedOut true)
  | .passwordResetConfirm (.signed q) newPassword => q.sub = p.sub ∧
      (serve cfg m s (.passwordResetConfirm (.signed q) newPassword)).1 = .ok .passwordUpdated
  | _ => False

instance (p : Payload) (cfg : Config) (s : AuthState) (m : Moment) :
    DecidablePred (EndsToken p cfg s m)
  | .logout _ => inferInstanceAs (Decidable (_ ∧ _))
  | .passwordResetConfirm (.signed _) _ => inferInstanceAs (Decidable (_ ∧ _))
  | .passwordResetConfirm (.other _) _ => inferInstanceAs (Decidable False)
  | .login .. => inferInstanceAs (Decidable False)
  | .refreshToken _ => inferInstanceAs (Decidable False)
  | .passwordResetRequest _ => inferInstanceAs (Decidable False)
  | .createUser .. => inferInstanceAs (Decidable False)
  | .removeUser .. => inferInstanceAs (Decidable False)

namespace Standing

variable {p : Payload} {s : AuthState}

/-- A token that stands verifies until it expires. -/
theorem verifies (h : Standing p s) {now : ℚ} (hnow : now ≤ p.exp) :
    verifyJwt s now (.signed p) none = some p := by
  refine verifyJwt_eq_some.mpr ⟨rfl, h.issued, hnow, nofun, ?_, h.version⟩
  rw [AuthState.isRevoked, List.any_eq_false]
  intro e he
  simp [h.notRevoked e he]

theorem serve_version (h : Standing p s) (cfg : Config) (m : Moment) {R : Request}
    (hends : ¬ EndsToken p cfg s m R) :
    ∀ v ∈ (serve cfg m s R).2.tokenVersions.get? p.sub, p.tv = v := by
  rcases serve_users cfg m s R with hkeeps | ⟨q, newPassword, row, hash, rfl, hanswer, _, hstate⟩
  · rw [hkeeps.tokenVersions]
    exact h.version
  · have hsub : q.sub ≠ p.sub := fun hsub => hends ⟨hsub, hanswer⟩
    rw [hstate, AuthState.resetPassword]
    simp only [Dict.get?_set, if_neg hsub]
    exact h.version

theorem serve_notRevoked (h : Standing p s) (hnumbered : Numbered s) (cfg : Config) (m : Moment)
    {R : Request} (hends : ¬ EndsToken p cfg s m R) :
    ∀ e ∈ (serve cfg m s R).2.revoked, e.1 ≠ p.jti := by
  rcases serve_revoked cfg m s R with
    hsame | ⟨headers, q, expires, rfl, hbearer, hanswer, hissued, hstate⟩
  · rw [hsame]
    exact h.notRevoked
  · have hne : q.jti ≠ p.jti := by
      intro hjti
      rw [hnumbered.jti_inj hissued h.issued hjti] at hbearer
      exact hends ⟨hbearer, hanswer⟩
    intro e he
    rw [hstate] at he
    rcases List.mem_cons.mp he with rfl | he
    · exact hne
    · exact h.notRevoked e (List.mem_of_mem_filter he)

theorem serve (h : Standing p s) (hnumbered : Numbered s) (cfg : Config) (m : Moment)
    {R : Request} (hends : ¬ EndsToken p cfg s m R) : Standing p (serve cfg m s R).2 :=
  ⟨serve_issued cfg m s R h.issued, h.serve_notRevoked hnumbered cfg m hends,
    h.serve_version cfg m hends⟩

end Standing

/-! ### Runs -/

section Runs

variable {cfg : Config}

/-- The condition holds of every call, in the state in which it is served. -/
def Along (cfg : Config) (C : AuthState → Moment → Request → Prop) :
    AuthState → List Call → Prop
  | _, [] => True
  | s, (m, R) :: calls => C s m R ∧ Along cfg C (serve cfg m s R).2 calls

instance (C : AuthState → Moment → Request → Prop) [∀ s m R, Decidable (C s m R)] :
    ∀ s calls, Decidable (Along cfg C s calls)
  | _, [] => inferInstanceAs (Decidable True)
  | s, (m, R) :: calls =>
      let _ := instDecidableAlong C (serve cfg m s R).2 calls
      inferInstanceAs (Decidable (_ ∧ _))

theorem along_append {C : AuthState → Moment → Request → Prop} {s : AuthState}
    {before after : List Call} (h : Along cfg C s (before ++ after)) :
    Along cfg C s before ∧ Along cfg C (serveAll cfg s before) after := by
  induction before generalizing s with
  | nil => exact ⟨trivial, h⟩
  | cons call before ih =>
      obtain ⟨m, R⟩ := call
      obtain ⟨hcall, hrest⟩ := h
      exact ⟨⟨hcall, (ih hrest).1⟩, (ih hrest).2⟩

theorem serveAll_append (s : AuthState) (before after : List Call) :
    serveAll cfg s (before ++ after) = serveAll cfg (serveAll cfg s before) after := by
  induction before generalizing s with
  | nil => rfl
  | cons call before ih => exact ih _

theorem numbered_serveAll {s : AuthState} (h : Numbered s) (calls : List Call) :
    Numbered (serveAll cfg s calls) := by
  induction calls generalizing s with
  | nil => exact h
  | cons call calls ih => exact ih (h.serve cfg call.1 call.2)

theorem synced_serveAll {s : AuthState} (h : Synced s) {calls : List Call}
    (hfresh : Along cfg (InsertsUncached cfg) s calls) : Synced (serveAll cfg s calls) := by
  induction calls generalizing s with
  | nil => exact h
  | cons call calls ih =>
      obtain ⟨hcall, hrest⟩ := hfresh
      exact ih (synced_serve h hcall) hrest

theorem standing_serveAll {p : Payload} {s : AuthState} (h : Standing p s)
    (hnumbered : Numbered s) {calls : List Call}
    (hends : Along cfg (fun s m R => ¬ EndsToken p cfg s m R) s calls) :
    Standing p (serveAll cfg s calls) := by
  induction calls generalizing s with
  | nil => exact h
  | cons call calls ih =>
      obtain ⟨hcall, hrest⟩ := hends
      exact ih (h.serve hnumbered cfg call.1 hcall) (hnumbered.serve cfg call.1 call.2) hrest

/-- The access token of a login stands right after it, if the copies agree. -/
theorem standing_login {m : Moment} {s : AuthState} {username password : String}
    (hsynced : Synced s) (hnumbered : Numbered s)
    (hfresh : InsertsUncached cfg s m (.login username password)) {p : Payload} {refresh : Token}
    {role : Role} {tenant : Option String} {expiresIn : ℤ}
    (hlogin : (serve cfg m s (.login username password)).1 =
      .ok (.tokens (.signed p) refresh role tenant expiresIn)) :
    Standing p (serve cfg m s (.login username password)).2 ∧
      p.sub = username ∧ p.use = .access := by
  have hsynced' := synced_serve hsynced hfresh
  have hseed := hnumbered.seed cfg m
  rw [serve, login] at hlogin hsynced' ⊢
  cases hauth : authenticateUser cfg (ensureUsersSeeded cfg m s) username password with
  | none =>
      rw [hauth] at hlogin
      exact nomatch hlogin
  | some row =>
      simp only [hauth] at hlogin hsynced' ⊢
      injection hlogin with hlogin
      injection hlogin with haccess
      injection haccess with haccess
      obtain ⟨hrow, hname⟩ := UserTable.row?_mem (Option.eq_some_of_filter_eq_some hauth)
      subst haccess
      refine ⟨⟨?_, ?_, ?_⟩, rfl, rfl⟩
      · exact List.mem_append_left _ (List.mem_append_right _ (List.mem_singleton_self _))
      · intro e he
        exact (hseed.revoked e he).ne
      · intro v hv
        rw [show username = row.username from hname.symm] at hv
        exact hsynced' row hrow v hv

/-- The access token of a login verifies until it expires, as long as no logout
revokes it and the password is not reset, in every run in which no row is
inserted while Redis has a version for the name. -/
theorem login_token_verifies (before after : List Call) (m : Moment) (username password : String)
    (hfresh : Along cfg (InsertsUncached cfg) {} (before ++ [(m, .login username password)]))
    (p : Payload) (refresh : Token) (role : Role) (tenant : Option String) (expiresIn : ℤ)
    (hlogin : (serve cfg m (serveAll cfg {} before) (.login username password)).1 =
      .ok (.tokens (.signed p) refresh role tenant expiresIn))
    (hends : Along cfg (fun s m R => ¬ EndsToken p cfg s m R)
      (serveAll cfg {} (before ++ [(m, .login username password)])) after)
    (now : ℚ) (hnow : now ≤ p.exp) :
    verifyJwt (serveAll cfg (serveAll cfg {} (before ++ [(m, .login username password)])) after)
      now (.signed p) none = some p ∧ p.sub = username ∧ p.use = .access := by
  have hnumbered : Numbered {} := ⟨rfl, nofun⟩
  have hsynced : Synced {} := nofun
  obtain ⟨hbefore, hcall, _⟩ := along_append hfresh
  obtain ⟨hstanding, hsub, huse⟩ := standing_login (synced_serveAll hsynced hbefore)
    (numbered_serveAll hnumbered before) hcall hlogin
  rw [serveAll_append] at hends ⊢
  have hrun := standing_serveAll hstanding
    ((numbered_serveAll hnumbered before).serve cfg m (.login username password)) hends
  exact ⟨hrun.verifies hnow, hsub, huse⟩

end Runs

/-! ### A user who comes back -/

def labConfig : Config where
  users := [
    ("admin", "diep-admin-2026", .admin, none),
    ("viewer", "diep-viewer-2026", .viewer, some "default")]
  apiKeys := [("diep-admin-dev-key-CHANGE-ME", "api-admin", .admin)]
  pbkdf2 password salt iterations := salt ++ password ++ toString iterations

def atTime (now : ℚ) : Moment := ⟨now, fun username => username ++ "-salt"⟩

def adminKey : Headers := { apiKey := some "diep-admin-dev-key-CHANGE-ME" }

/-- The token of `dana`, an operator. -/
def danaToken (use : TokenUse) (tv jti : ℕ) (iat exp : ℤ) : Payload :=
  ⟨"dana", .operator, none, use, tv, jti, iat, exp⟩

def danaResets : List Call := [
  (atTime 1000, .createUser adminKey "dana" "first-password" "operator" none),
  (atTime 1010, .passwordResetRequest "dana"),
  (atTime 1020, .passwordResetConfirm (.signed (danaToken .pwreset 0 0 1010 1910))
    "second-password")]

/-- After a reset `dana` logs in, refreshes, and logs out with the new token. -/
theorem dana_token_verifies :
    verifyJwt
      (serveAll labConfig
        (serveAll labConfig {} (danaResets ++ [(atTime 1030, .login "dana" "second-password")]))
        [(atTime 1040, .refreshToken (.signed (danaToken .refresh 1 2 1030 2593030))),
          (atTime 1050, .logout { bearer := some (.signed (danaToken .access 1 3 1040 4640)) })])
      4630 (.signed (danaToken .access 1 1 1030 4630)) none =
        some (danaToken .access 1 1 1030 4630) ∧
      (danaToken .access 1 1 1030 4630).sub = "dana" ∧
      (danaToken .access 1 1 1030 4630).use = .access :=
  login_token_verifies danaResets _ (atTime 1030) "dana" "second-password" (by decide +kernel)
    (danaToken .access 1 1 1030 4630) (.signed (danaToken .refresh 1 2 1030 2593030)) .operator
    none 3600 (by decide +kernel) (by decide +kernel) 4630 (by decide +kernel)

/-- Deleted and created again, `dana` logs in and is given a token that is
refused at once: it has version 0, and Redis still has version 1. -/
theorem recreated_user_locked_out :
    let s := serveAll labConfig {} (danaResets ++ [
      (atTime 1030, .removeUser adminKey "dana"),
      (atTime 1040, .createUser adminKey "dana" "third-password" "operator" none)])
    let out := serve labConfig (atTime 1050) s (.login "dana" "third-password")
    out.1 = .ok (.tokens (.signed (danaToken .access 0 1 1050 4650))
        (.signed (danaToken .refresh 0 2 1050 2593050)) .operator none 3600) ∧
      verifyJwt out.2 1050 (.signed (danaToken .access 0 1 1050 4650)) none = none := by
  decide +kernel

end DiepLab.Auth
