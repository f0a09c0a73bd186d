import DiepLab.Auth.Users
import DiepLab.Library.Protocol

/-!
`auth.py` one operation at a time.

`Users` serves a request as a whole. Here the functions that write the user store
are programs over the statements on `portal_users` and the commands to Redis, so
that concurrent calls can be interleaved between any two of them. A transaction
of one update or one delete takes effect when it commits; of the seeding, whose
inserts commit together, the surroundings decide which of its rows had met a
conflict. The log is not read by any statement.
-/

namespace DiepLab.Auth

open StatementProgram

/-- What the log records of the calls that confirm a password reset. -/
inductive ResetEvent where
  /-- The version in Redis has let a call through. -/
  | passed
  /-- The password is changed. -/
  | changed
  /-- A call that was let through has failed to change it. -/
  | unchanged
  /-- The version of the change is in Redis. -/
  | published
  deriving DecidableEq, Repr

structure UserStore where
  users : UserTable := {}
  revoked : List (ℕ × ℚ) := []
  tokenVersions : Dict ℕ := []
  log : List ResetEvent := []

inductive UserStmt where
  /-- `time.time()`. -/
  | clock
  /-- `EXISTS revoked:jti`, at a time. -/
  | revokedExists (jti : ℕ) (now : ℚ)
  /-- `GET tokenversion:sub`, for a token. -/
  | getVersion (p : Payload)
  | setVersion (username : String) (version : ℕ)
  /-- `UPDATE portal_users SET password_hash = ..., token_version =
  token_version + 1, ... RETURNING token_version`. -/
  | updatePassword (username newPassword : String)
  | roleOf (username : String)
  | countAdmins
  | deleteRow (username : String)
  | countUsers
  | seedRows
  | insertRow (username password : String) (role : Role) (tenant : Option String)

@[reducible] def UserResp : UserStmt → Type
  | .clock => ℚ
  | .revokedExists .. => Bool
  | .getVersion _ => Option ℕ
  | .setVersion .. => Unit
  | .updatePassword .. => Option ℕ
  | .roleOf _ => Option Role
  | .countAdmins => ℕ
  | .deleteRow _ => Unit
  | .countUsers => ℕ
  | .seedRows => Unit
  | .insertRow .. => Unit

/-- What the surroundings decide while one statement runs. -/
structure UserChoice extends Moment where
  fails : Option String := none
  /-- The names whose insert had met a conflict when the seeding commits. -/
  conflicts : List String := []

abbrev UserProg := Prog UserResp Exc

namespace Sql

abbrev clock : UserProg ℚ := Prog.call UserStmt.clock

abbrev revokedExists (jti : ℕ) (now : ℚ) : UserProg Bool :=
  Prog.call (UserStmt.revokedExists jti now)

abbrev getVersion (p : Payload) : UserProg (Option ℕ) := Prog.call (UserStmt.getVersion p)

abbrev setVersion (username : String) (version : ℕ) : UserProg Unit :=
  Prog.call (UserStmt.setVersion username version)

abbrev updatePassword (username newPassword : String) : UserProg (Option ℕ) :=
  Prog.call (UserStmt.updatePassword username newPassword)

abbrev roleOf (username : String) : UserProg (Option Role) :=
  Prog.call (UserStmt.roleOf username)

abbrev countAdmins : UserProg ℕ := Prog.call UserStmt.countAdmins

abbrev deleteRow (username : String) : UserProg Unit := Prog.call (UserStmt.deleteRow username)

abbrev countUsers : UserProg ℕ := Prog.call UserStmt.countUsers

abbrev seedRows : UserProg Unit := Prog.call UserStmt.seedRows

abbrev insertRow (username password : String) (role : Role) (tenant : Option String) :
    UserProg Unit :=
  Prog.call (UserStmt.insertRow username password role tenant)

end Sql

/-! ### What a statement does -/

section Semantics

variable (cfg : Config)

/-- The token carries the version that was found, or none was. -/
def LetsThrough (p : Payload) (version : Option ℕ) : Prop := ∀ v ∈ version, p.tv = v

instance (p : Payload) (version : Option ℕ) : Decidable (LetsThrough p version) :=
  inferInstanceAs (Decidable (∀ v ∈ version, _))

def UserStore.note (s : UserStore) (e : ResetEvent) : UserStore := { s with log := s.log ++ [e] }

def UserStore.countRole (s : UserStore) (role : Role) : ℕ :=
  s.users.rows.countP fun row => row.role = role

/-- A statement that succeeds. -/
def userExec (c : UserChoice) : (q : UserStmt) → UserStore → Except Exc (UserResp q) × UserStore
  | .clock, s => (.ok c.now, s)
  | .revokedExists jti now, s => (.ok (s.revoked.any fun e => e.1 = jti && now < e.2), s)
  | .getVersion p, s =>
      (.ok (s.tokenVersions.get? p.sub),
        if LetsThrough p (s.tokenVersions.get? p.sub) then s.note .passed else s)
  | .setVersion username version, s =>
      (.ok (), { s with tokenVersions := s.tokenVersions.set username version }.note .published)
  | .updatePassword username newPassword, s =>
      match s.users.row? username with
      | none => (.ok none, s.note .unchanged)
      | some row =>
          -- `token_version` is an INTEGER
          if row.tokenVersion + 1 > 2147483647 then
            (.error (.other "integer out of range"), s.note .unchanged)
          else
            (.ok (some (row.tokenVersion + 1)),
              { s with
                users := s.users.setPassword username
                  (hashPassword cfg c.toMoment username newPassword)
                  (row.tokenVersion + 1) }.note .changed)
  | .roleOf username, s => (.ok ((s.users.row? username).map UserRow.role), s)
  | .countAdmins, s => (.ok (s.countRole .admin), s)
  | .deleteRow username, s => (.ok (), { s with users := s.users.delete username })
  | .countUsers, s => (.ok s.users.rows.length, s)
  | .seedRows, s =>
      let rows := (cfg.users.map (seedRow cfg c.toMoment)).filter fun row =>
        row.username ∉ c.conflicts
      (.ok (), { s with users := rows.foldl UserTable.insertNew s.users })
  | .insertRow username password role tenant, s =>
      -- `username` and `tenant` are VARCHAR(100)
      if 100 < username.length ∨ tenant.any (fun t => 100 < t.length) then
        (.error (.other "value too long"), s)
      else
        match s.users.insert {
            username := username, passwordHash := hashPassword cfg c.toMoment username password,
            role := role, tenant := tenant } with
        | none => (.error (.other "duplicate key"), s)
        | some users => (.ok (), { s with users := users })

/-- A statement that fails changes nothing. The version check of a reset whose
Redis fails lets the call through. -/
def userSem (c : UserChoice) (q : UserStmt) (s : UserStore) :
    Except Exc (UserResp q) × UserStore :=
  match q, c.fails with
  | .clock, _ => userExec cfg c .clock s
  | q, none => userExec cfg c q s
  | .getVersion _, some m => (.error (.other m), s.note .passed)
  | .updatePassword _ _, some m => (.error (.other m), s.note .unchanged)
  | _, some m => (.error (.other m), s)

/-- Nothing but calls touches the store. -/
def noEnv : Empty → UserStore → UserStore := nofun

end Semantics

/-! ### The functions -/

section Functions

variable (signed : Payload → Bool)

/-- `verify_jwt` for a use; `signed` is the check of the signature. -/
def verifyJwtSteps (token : Token) (expectedUse : TokenUse) : UserProg (Option Payload) :=
  match token with
  | .other _ => pure none
  | .signed p =>
      if ¬ signed p = true then pure none
      else do
        let now ← Sql.clock
        if (p.exp : ℚ) < now ∨ p.use ≠ expectedUse then pure none
        else do
          -- a failing Redis counts as no revocation and no version
          let revoked ← tryCatch (Sql.revokedExists p.jti now) fun _ => pure false
          if revoked then pure none
          else do
            let version ← tryCatch (Sql.getVersion p) fun _ => pure none
            if LetsThrough p version then pure (some p) else pure none

def confirmPasswordReset (token : Token) (newPassword : String) : UserProg Bool := do
  match ← verifyJwtSteps signed token .pwreset with
  | none => pure false
  | some p => do
      match ← Sql.updatePassword p.sub newPassword with
      | none => pure false
      | some version => do
          -- `_bump_token_version`
          tryCatch (Sql.setVersion p.sub version) fun _ => pure ()
          pure true

def createUserSteps (username password role : String) (tenant : Option String) :
    UserProg Unit := do
  match userRole? role with
  | none => throw (.other ("invalid role '" ++ role ++ "'"))
  | some r => do
      let n ← Sql.countUsers
      if n = 0 then do
        Sql.seedRows
        Sql.insertRow username password r tenant
      else Sql.insertRow username password r tenant

def deleteUserSteps (username : String) : UserProg Unit := do
  match ← Sql.roleOf username with
  | none => throw (.http 404 (.text ("unknown user '" ++ username ++ "'")))
  | some role =>
      if role = .admin then do
        let admins ← Sql.countAdmins
        Prog.raiseIf (admins ≤ 1) (.http 409 (.text "cannot remove the last remaining admin"))
        Sql.deleteRow username
      else Sql.deleteRow username

/-- The calls that add or remove a user. -/
inductive UserCall where
  | createUser (username password role : String) (tenant : Option String)
  | deleteUser (username : String)

def UserCall.serve : UserCall → UserProg Unit
  | .createUser username password role tenant => createUserSteps username password role tenant
  | .deleteUser username => deleteUserSteps username

end Functions

end DiepLab.Auth
