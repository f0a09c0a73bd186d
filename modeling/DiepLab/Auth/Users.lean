import DiepLab.Common
import Mathlib.Data.List.Nodup
import Mathlib.Data.Rat.Floor

/-!
Users and tokens, `auth.py`.

Users are rows of `portal_users`, seeded from the environment when the table is
empty. A token carries the version of its user at the time it was issued.
Redis holds the identifiers of tokens revoked by a logout and, for a user whose
password was reset, a copy of the version; a token is refused when the copy
differs from it.

Signing is symbolic. A token is its payload, and the signature of a payload is
valid if the server has issued it; no other text is a token. Identifiers are
numbered in order of issue. Redis is available, and a request is served as a
whole.
-/

namespace DiepLab.Auth

/-! ### Users -/

inductive Role where
  | viewer | operator | engineer | admin | service
  deriving DecidableEq, Repr

def Role.text : Role → String
  | .viewer => "viewer"
  | .operator => "operator"
  | .engineer => "engineer"
  | .admin => "admin"
  | .service => "service"

/-- The roles of portal users. -/
def userRole? : String → Option Role
  | "viewer" => some .viewer
  | "operator" => some .operator
  | "engineer" => some .engineer
  | "admin" => some .admin
  | _ => none

/-- `pbkdf2_sha256$iterations$salt$digest`. -/
structure PasswordHash where
  iterations : ℕ
  salt : String
  digest : String
  deriving DecidableEq, Repr

/-- A row of `portal_users`. -/
structure UserRow where
  username : String
  passwordHash : PasswordHash
  role : Role
  tenant : Option String
  tokenVersion : ℕ := 0
  mustChangePassword : Bool := false
  deriving DecidableEq, Repr

@[ext] structure UserTable where
  rows : List UserRow := []
  key : (rows.map UserRow.username).Nodup := by exact List.nodup_nil
  deriving DecidableEq

namespace UserTable

variable (users : UserTable)

def names : List String := users.rows.map UserRow.username

/-- `INSERT INTO portal_users`, or none on a conflict. -/
def insert (row : UserRow) : Option UserTable :=
  if h : row.username ∈ users.names then none
  else some {
    rows := users.rows ++ [row]
    key := by
      rw [List.map_append]
      exact List.nodup_append.mpr ⟨users.key, List.nodup_singleton _, fun a ha b hb hab =>
        h ((List.mem_singleton.mp hb).symm.trans hab.symm ▸ ha)⟩ }

/-- `INSERT ... ON CONFLICT (username) DO NOTHING`. -/
def insertNew (row : UserRow) : UserTable := (users.insert row).getD users

/-- `DELETE FROM portal_users WHERE username = username`. -/
def delete (username : String) : UserTable where
  rows := users.rows.filter fun row => row.username ≠ username
  key := users.key.sublist (List.filter_sublist.map _)

/-- `UPDATE portal_users SET password_hash = hash, token_version = version,
must_change_password = false WHERE username = username`. -/
def setPassword (username : String) (hash : PasswordHash) (version : ℕ) : UserTable where
  rows := users.rows.map fun row =>
    if row.username = username then
      { row with passwordHash := hash, tokenVersion := version, mustChangePassword := false }
    else row
  key := by
    rw [List.map_map]
    refine Eq.mpr (congrArg List.Nodup (List.map_congr_left fun row _ => ?_)) users.key
    dsimp only [Function.comp]
    split <;> rfl

/-- `_user_row`. -/
def row? (username : String) : Option UserRow :=
  users.rows.find? fun row => row.username = username

end UserTable

/-! ### Tokens -/

inductive TokenUse where
  | access | refresh | pwreset
  deriving DecidableEq, Repr

structure Payload where
  sub : String
  role : Role
  tenant : Option String
  use : TokenUse
  tv : ℕ
  jti : ℕ
  iat : ℤ
  exp : ℤ
  deriving DecidableEq, Repr

/-- What a client presents as a token. -/
inductive Token where
  | signed (payload : Payload)
  | other (text : String)
  deriving DecidableEq, Repr

structure AuthState where
  users : UserTable := {}
  /-- The keys `revoked:jti` of Redis, each with the time at which it expires. -/
  revoked : List (ℕ × ℚ) := []
  /-- The keys `tokenversion:username`. -/
  tokenVersions : Dict ℕ := []
  /-- The payloads signed so far. -/
  issued : List Payload := []
  deriving DecidableEq

/-- The environment of the process, and PBKDF2. -/
structure Config where
  jwtTtl : ℤ := 3600
  refreshTtl : ℤ := 30 * 24 * 3600
  resetTtl : ℤ := 900
  authEnforced : Bool := true
  /-- `USERS`: the password, role and tenant of a user name. -/
  users : Dict (String × Role × Option String)
  /-- `API_KEYS`: the name and role of a key. -/
  apiKeys : Dict (String × Role)
  pbkdf2 : (password salt : String) → (iterations : ℕ) → String

/-- What the surroundings decide while a request is served: the time, and the
random salt for the password of a user. -/
structure Moment where
  now : ℚ
  salt : String → String

section Functions

variable (cfg : Config) (m : Moment)

def hashPassword (username password : String) : PasswordHash where
  iterations := 200000
  salt := m.salt username
  digest := cfg.pbkdf2 password (m.salt username) 200000

def verifyPassword (password : String) (stored : PasswordHash) : Bool :=
  cfg.pbkdf2 password stored.salt stored.iterations = stored.digest

def seedRow (user : String × String × Role × Option String) : UserRow where
  username := user.1
  passwordHash := hashPassword cfg m user.1 user.2.1
  role := user.2.2.1
  tenant := user.2.2.2

def ensureUsersSeeded (s : AuthState) : AuthState :=
  if s.users.rows = [] then
    { s with users := (cfg.users.map (seedRow cfg m)).foldl UserTable.insertNew s.users }
  else s

/-- `issue_jwt`: the payload, which is then signed. -/
def payload (s : AuthState) (sub : String) (role : Role) (ttl : ℤ) (use : TokenUse)
    (tenant : Option String) (tokenVersion : ℕ) : Payload where
  sub := sub
  role := role
  tenant := tenant
  use := use
  tv := tokenVersion
  jti := s.issued.length
  iat := ⌊m.now⌋
  exp := ⌊m.now⌋ + ttl

def sign (s : AuthState) (p : Payload) : AuthState := { s with issued := s.issued ++ [p] }

def AuthState.isRevoked (s : AuthState) (now : ℚ) (jti : ℕ) : Bool :=
  s.revoked.any fun e => e.1 = jti && now < e.2

def verifyJwt (s : AuthState) (now : ℚ) (token : Token) (expectedUse : Option TokenUse) :
    Option Payload :=
  match token with
  | .other _ => none
  | .signed p =>
      if p ∉ s.issued then none
      else if (p.exp : ℚ) < now then none
      else if expectedUse.any fun use => p.use ≠ use then none
      else if s.isRevoked now p.jti then none
      else if (s.tokenVersions.get? p.sub).any fun version => p.tv ≠ version then none
      else some p

/-- `SETEX revoked:jti`. -/
def AuthState.revoke (s : AuthState) (jti : ℕ) (expires : ℚ) : AuthState :=
  { s with revoked := (jti, expires) :: s.revoked.filter fun e => e.1 ≠ jti }

def revokeToken (s : AuthState) (token : Token) : Bool × AuthState :=
  match verifyJwt s m.now token none with
  | none => (false, s)
  | some p => (true, s.revoke p.jti (m.now + max ⌊p.exp - m.now⌋ 1))

end Functions

/-! ### Callers -/

/-- The header `X-API-Key` and the bearer token of the header `Authorization`. -/
structure Headers where
  apiKey : Option String := none
  bearer : Option Token := none
  deriving DecidableEq

inductive PrincipalKind where
  | disabled | apikey
  | jwt (token : Token)
  deriving DecidableEq

structure Principal where
  name : String
  role : Role
  kind : PrincipalKind
  tenant : Option String := none
  deriving DecidableEq

def roleAllowed (role : Role) (allowed : List Role) : Bool :=
  match role with
  | .admin => true
  | .service => .service ∈ allowed
  | .engineer => [.engineer, .operator, .viewer].any (· ∈ allowed)
  | .operator => [.operator, .viewer].any (· ∈ allowed)
  | .viewer => .viewer ∈ allowed

section Callers

variable (cfg : Config) (m : Moment) (s : AuthState)

/-- The API key of a request; a bearer token may be one. -/
def Headers.key (headers : Headers) : Option String :=
  match given headers.apiKey, headers.bearer with
  | some key, _ => some key
  | none, some (.other text) => if text ∈ cfg.apiKeys.map Prod.fst then some text else none
  | none, _ => none

def principalFromRequest (headers : Headers) : Option Principal :=
  match (headers.key cfg).bind cfg.apiKeys.get? with
  | some (name, role) => some { name := name, role := role, kind := .apikey }
  | none =>
      match headers.bearer with
      | none => none
      | some token =>
          match verifyJwt s m.now token none with
          | some p =>
              if p.use = .access then
                some { name := p.sub, role := p.role, kind := .jwt token, tenant := p.tenant }
              else none
          | none => none

def authenticationRequired : Exc := .http 401 (.text "authentication required")

def notPermitted (role : Role) (allowed : List Role) : Exc :=
  .http 403 (.text ("role '" ++ role.text ++ "' not permitted; need one of [" ++
    String.intercalate ", " (allowed.map fun r => "'" ++ r.text ++ "'") ++ "]"))

def requireRole (allowed : List Role) (headers : Headers) : Except Exc Principal :=
  if cfg.authEnforced = false then
    .ok { name := "auth-disabled", role := .admin, kind := .disabled }
  else
    match principalFromRequest cfg m s headers with
    | none => .error authenticationRequired
    | some principal =>
        if roleAllowed principal.role allowed then .ok principal
        else .error (notPermitted principal.role allowed)

end Callers

/-! ### Endpoints -/

inductive Request where
  | login (username password : String)
  | refreshToken (refreshToken : Token)
  | logout (headers : Headers)
  | passwordResetRequest (username : String)
  | passwordResetConfirm (resetToken : Token) (newPassword : String)
  | createUser (headers : Headers) (username password role : String) (tenant : Option String)
  | removeUser (headers : Headers) (username : String)
  deriving DecidableEq

inductive Answer where
  | tokens (access refresh : Token) (role : Role) (tenant : Option String) (expiresIn : ℤ)
  | access (access : Token) (role : Role) (tenant : Option String) (expiresIn : ℤ)
  | loggedOut (revoked : Bool)
  | accepted (resetToken : Option (Token × ℤ))
  | passwordUpdated
  | created (username role : String) (tenant : Option String)
  | deleted (username : String)
  deriving DecidableEq

/-- A field of the body whose length is out of bounds. -/
def invalidLength (field : String) : Exc := .http 422 (.text ("invalid length of " ++ field))

section Endpoints

variable (cfg : Config) (m : Moment) (s : AuthState)

/-- `authenticate_user`, after the table is seeded. -/
def authenticateUser (username password : String) : Option UserRow :=
  (s.users.row? username).filter fun row => verifyPassword cfg password row.passwordHash

def login (username password : String) : Except Exc Answer × AuthState :=
  let s := ensureUsersSeeded cfg m s
  match authenticateUser cfg s username password with
  | none => (.error (.http 401 (.text "invalid credentials")), s)
  | some row =>
      let access := payload m s username row.role cfg.jwtTtl .access row.tenant row.tokenVersion
      let s := sign s access
      let refresh :=
        payload m s username row.role cfg.refreshTtl .refresh row.tenant row.tokenVersion
      (.ok (.tokens (.signed access) (.signed refresh) row.role row.tenant cfg.jwtTtl),
        sign s refresh)

def refreshToken (token : Token) : Except Exc Answer × AuthState :=
  match verifyJwt s m.now token (some .refresh) with
  | none => (.error (.http 401 (.text "invalid or expired refresh token")), s)
  | some p =>
      let access := payload m s p.sub p.role cfg.jwtTtl .access p.tenant p.tv
      (.ok (.access (.signed access) p.role p.tenant cfg.jwtTtl), sign s access)

def logout (headers : Headers) : Except Exc Answer × AuthState :=
  match requireRole cfg m s [.viewer, .operator, .engineer, .admin, .service] headers with
  | .error e => (.error e, s)
  | .ok principal =>
      match principal.kind with
      | .jwt token => (.ok (.loggedOut (revokeToken m s token).1), (revokeToken m s token).2)
      | _ => (.ok (.loggedOut false), s)

def passwordResetRequest (username : String) : Except Exc Answer × AuthState :=
  let s := ensureUsersSeeded cfg m s
  match s.users.row? username with
  | none => (.ok (.accepted none), s)
  | some row =>
      let reset := payload m s username row.role cfg.resetTtl .pwreset row.tenant row.tokenVersion
      (.ok (.accepted (some (.signed reset, cfg.resetTtl))), sign s reset)

/-- The update of a row and of its version in Redis. -/
def AuthState.resetPassword (s : AuthState) (username : String) (hash : PasswordHash)
    (version : ℕ) : AuthState :=
  { s with
    users := s.users.setPassword username hash version
    tokenVersions := s.tokenVersions.set username version }

def passwordResetConfirm (token : Token) (newPassword : String) :
    Except Exc Answer × AuthState :=
  if newPassword.length < 12 then (.error (invalidLength "new_password"), s)
  else
    match verifyJwt s m.now token (some .pwreset) with
    | none => (.error (.http 400 (.text "invalid or expired reset token")), s)
    | some p =>
        match s.users.row? p.sub with
        | none => (.error (.http 400 (.text "invalid or expired reset token")), s)
        | some row =>
            -- `token_version` is an INTEGER
            if row.tokenVersion + 1 > 2147483647 then (.error (.other "integer out of range"), s)
            else
              (.ok .passwordUpdated,
                s.resetPassword p.sub (hashPassword cfg m p.sub newPassword) (row.tokenVersion + 1))

def createUser (headers : Headers) (username password role : String) (tenant : Option String) :
    Except Exc Answer × AuthState :=
  match requireRole cfg m s [.admin] headers with
  | .error e => (.error e, s)
  | .ok _ =>
      if username.length < 3 ∨ 100 < username.length then (.error (invalidLength "username"), s)
      else if password.length < 12 then (.error (invalidLength "password"), s)
      else
        match userRole? role with
        | none => (.error (.http 422 (.text ("invalid role '" ++ role ++ "'"))), s)
        | some r =>
            let s := ensureUsersSeeded cfg m s
            -- `tenant` is a VARCHAR(100)
            if tenant.any fun t => 100 < t.length then (.error (.other "value too long"), s)
            else match s.users.insert {
                username := username, passwordHash := hashPassword cfg m username password,
                role := r, tenant := tenant } with
            | none => (.error (.http 409 (.text ("user '" ++ username ++ "' already exists"))), s)
            | some users => (.ok (.created username role tenant), { s with users := users })

def removeUser (headers : Headers) (username : String) : Except Exc Answer × AuthState :=
  match requireRole cfg m s [.admin] headers with
  | .error e => (.error e, s)
  | .ok _ =>
      match s.users.row? username with
      | none => (.error (.http 404 (.text ("unknown user '" ++ username ++ "'"))), s)
      | some row =>
          if row.role = .admin ∧ s.users.rows.countP (fun row => row.role = .admin) ≤ 1 then
            (.error (.http 409 (.text "cannot remove the last remaining admin")), s)
          else (.ok (.deleted username), { s with users := s.users.delete username })

def serve : Request → Except Exc Answer × AuthState
  | .login username password => login cfg m s username password
  | .refreshToken token => refreshToken cfg m s token
  | .logout headers => logout cfg m s headers
  | .passwordResetRequest username => passwordResetRequest cfg m s username
  | .passwordResetConfirm token newPassword => passwordResetConfirm cfg m s token newPassword
  | .createUser headers username password role tenant =>
      createUser cfg m s headers username password role tenant
  | .removeUser headers username => removeUser cfg m s headers username

end Endpoints

/-- A request and the moment at which it is served. -/
abbrev Call := Moment × Request

/-- The state after some calls, one after the other. -/
def serveAll (cfg : Config) (s : AuthState) : List Call → AuthState
  | [] => s
  | (m, R) :: calls => serveAll cfg (serve cfg m s R).2 calls

end DiepLab.Auth
