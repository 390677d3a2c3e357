import AgentBox.Common.Method
import AgentBox.Common.SplitCalls
import AgentBox.Common.Table
import Mathlib.Data.List.Sort

/-!
# The administrator and the sessions

`AuthService`, `SessionService` and `AdminService` over the two tables they share. `login`,
`reauthenticate`, `change_password` and `revoke_sessions` check the password on what one transaction
has read and write in a later `BEGIN IMMEDIATE` transaction, on the rows it then finds;
`authenticate` and `revoke` are one such transaction each.

What the rate limiter, the audit log and the random generator answer are arguments of a call. The
digests, the password manager and the normalisation of names are parameters. Times are microseconds.
The confirmation challenges that go with a session are left out: no method here reads them.
-/

namespace AgentBox.Auth

/-! ## Tables -/

/-- A row of `admin_users`, under its id. -/
structure AdminUser where
  username : String
  usernameNormalized : String
  passwordHash : String
  isActive : Bool
  updatedAt : ℕ
  lastLoginAt : Option ℕ
  deriving DecidableEq

/-- A row of `sessions`, under its id. -/
structure ControlPlaneSession where
  userId : String
  tokenHash : String
  csrfHash : String
  createdAt : ℕ
  recentAuthenticatedAt : ℕ
  authEpoch : ℕ
  lastSeenAt : ℕ
  idleExpiresAt : ℕ
  expiresAt : ℕ
  revokedAt : Option ℕ
  clientLabel : Option String
  deriving DecidableEq

namespace ControlPlaneSession

variable (row : ControlPlaneSession) (now : ℕ)

/-- Neither revoked nor expired. -/
def isOpen : Bool :=
  row.revokedAt.isNone && decide (now < row.expiresAt) && decide (now < row.idleExpiresAt)

/-- The clock is behind what the row has seen. -/
def isAhead : Bool :=
  decide (now < row.recentAuthenticatedAt) || decide (now < row.lastSeenAt)

def revoke : ControlPlaneSession :=
  { row with revokedAt := some now }

end ControlPlaneSession

/-- What the schema asks of the tables beyond their primary keys. -/
structure Constraints (users : Dict String AdminUser) (sessions : Dict String ControlPlaneSession) :
    Prop where
  usernames : (users.values.map AdminUser.usernameNormalized).Nodup
  singleActive : (users.values.filter AdminUser.isActive).length ≤ 1
  tokens : (sessions.values.map ControlPlaneSession.tokenHash).Nodup
  owned : ∀ row ∈ sessions.values, row.userId ∈ users
  bounds : ∀ row ∈ sessions.values, 1 ≤ row.authEpoch ∧ row.createdAt ≤ row.recentAuthenticatedAt ∧
    row.recentAuthenticatedAt ≤ row.lastSeenAt

instance (users : Dict String AdminUser) (sessions : Dict String ControlPlaneSession) :
    Decidable (Constraints users sessions) :=
  decidable_of_iff
    ((users.values.map AdminUser.usernameNormalized).Nodup ∧
      (users.values.filter AdminUser.isActive).length ≤ 1 ∧
      (sessions.values.map ControlPlaneSession.tokenHash).Nodup ∧
      (∀ row ∈ sessions.values, row.userId ∈ users) ∧
      ∀ row ∈ sessions.values, 1 ≤ row.authEpoch ∧ row.createdAt ≤ row.recentAuthenticatedAt ∧
        row.recentAuthenticatedAt ≤ row.lastSeenAt)
    ⟨fun h => ⟨h.1, h.2.1, h.2.2.1, h.2.2.2.1, h.2.2.2.2⟩,
      fun h => ⟨h.usernames, h.singleActive, h.tokens, h.owned, h.bounds⟩⟩

structure Database where
  users : Dict String AdminUser
  sessions : Dict String ControlPlaneSession
  constraints : Constraints users sessions

/-! ## Calls -/

structure Setting where
  sessionTtl : ℕ
  sessionIdleTtl : ℕ
  maxActiveSessions : ℕ
  /-- `Field(ge=1)` -/
  maxActiveSessions_pos : 1 ≤ maxActiveSessions
  /-- `keyed_digest` under the application secret, of a purpose and a value -/
  keyedDigest : String → String → String
  /-- `derive_csrf_token` under the application secret, of a session id and a token hash -/
  deriveCsrfToken : String → String → String
  /-- `PasswordManager.verify` of an encoded hash and a password -/
  verify : String → String → Bool
  needsRehash : String → Bool
  dummyHash : String
  /-- `normalize_username`, or `none` where it raises -/
  normalizeUsername : String → Option String

inductive AuthError where
  | invalidCredentials
  | loginRateLimited (retryAfter : ℕ)
  | invalidSession
  | adminNotInitialized
  | passwordPolicyViolation
  | reauthenticationUnavailable
  | reauthenticationRateLimited (retryAfter : ℕ)
  | reauthenticationInvalidSession
  | reauthenticationInvalidCredentials
  /-- an exception of the database, the rate limiter or the audit log that is passed on -/
  | database
  deriving DecidableEq

structure IssuedSession where
  token : String
  csrfToken : String
  sessionId : String
  userId : String
  username : String
  expiresAt : ℕ
  authenticatedAt : ℕ
  authEpoch : ℕ
  deriving DecidableEq

structure AuthenticatedSession where
  sessionId : String
  userId : String
  username : String
  expiresAt : ℕ
  authenticatedAt : ℕ
  authEpoch : ℕ
  csrfToken : String
  deriving DecidableEq

/-- The decision of a rate limiter. -/
inductive Decision where
  | allowed
  | limited (retryAfter : ℕ)
  | notReady
  deriving DecidableEq

/-- What a transaction meets: the clock at its begin, and whether it gets through. A busy database, a
date out of range or a refused audit record roll it back. -/
structure Turn where
  now : ℕ
  committed : Bool
  deriving DecidableEq

structure Login where
  username : String
  password : String
  clientLabel : Option String
  decision : Decision
  /-- what `hash(password)` returns if it is asked, or `none` where the policy refuses the password -/
  rehash : Option String
  token : String
  sessionId : String
  turn : Turn
  /-- whether a failure is registered and audited without an exception -/
  recorded : Bool
  /-- whether `register_success` returns -/
  cleared : Bool
  deriving DecidableEq

structure Reauthentication where
  authenticated : AuthenticatedSession
  password : String
  decision : Decision
  /-- the transaction that reads the password hash -/
  reading : Turn
  /-- what `generate_session_token` returns in the attempts -/
  candidates : List String
  turn : Turn
  recorded : Bool
  deriving DecidableEq

inductive Call where
  | login (r : Login)
  | reauthenticate (r : Reauthentication)
  | authenticate (rawToken : Option String) (turn : Turn)
  | revoke (authenticated : AuthenticatedSession) (turn : Turn)
  /-- `newHash` is what `hash(new_password)` returns, or `none` where the policy refuses it. -/
  | changePassword (currentPassword : String) (newHash : Option String) (turn : Turn)
  | revokeSessions (currentPassword : String) (turn : Turn)
  deriving DecidableEq

/-- The calls that are one `BEGIN IMMEDIATE` transaction. -/
def Call.isAtomic : Call → Bool
  | .authenticate .. | .revoke .. => true
  | .login _ | .reauthenticate _ | .changePassword .. | .revokeSessions .. => false

inductive Reply where
  | issued (s : IssuedSession)
  | authenticated (s : AuthenticatedSession)
  | revoked (count : ℕ)
  | done
  deriving DecidableEq

abbrev Answer := Except AuthError Reply

/-- The `BEGIN IMMEDIATE` transaction a call goes on to. -/
inductive Write where
  | login (userId encodedHash : String) (replacementHash : Option String) (r : Login)
  | reauthenticate (observedHash : String) (r : Reauthentication)
  | authenticate (tokenHash : String) (turn : Turn)
  | revoke (sessionId : String) (turn : Turn)
  | changePassword (adminId observedHash replacementHash : String) (turn : Turn)
  | revokeSessions (adminId : String) (turn : Turn)
  deriving DecidableEq

/-- The hash a login or reauthentication has verified its password against. -/
def Write.verified : Write → Option String
  | .login _ encodedHash _ _ => some encodedHash
  | .reauthenticate observedHash _ => some observedHash
  | _ => none

/-- The tokens a transaction draws. -/
def Write.tokens : Write → List String
  | .login _ _ _ r => [r.token]
  | .reauthenticate _ r => r.candidates.take 4
  | _ => []

/-- The fresh password hashes a transaction stores. -/
def Write.hashes : Write → List String
  | .login _ _ replacementHash _ => replacementHash.toList
  | .changePassword _ _ replacementHash _ => [replacementHash]
  | _ => []

/-! ## The reads -/

/-- The exception of a refused attempt, unless registering or auditing the attempt raises. -/
def refusal (recorded : Bool) (raised unrecorded : AuthError) : Answer :=
  .error (if recorded then raised else unrecorded)

/-- The check before a password is looked at. -/
def Decision.check (decision : Decision) (limited : ℕ → Answer) (notReady : Answer) :
    Except Answer Unit :=
  match decision with
  | .allowed => pure ()
  | .limited retryAfter => throw (limited retryAfter)
  | .notReady => throw notReady

variable (S : Setting) (d : Database)

namespace Login

def normalized (r : Login) : String := (S.normalizeUsername r.username).getD "\x00invalid"

/-- The hash to store instead of `encodedHash`, if that one is outdated. -/
def replacement (r : Login) (encodedHash : String) : Except Answer (Option String) :=
  if S.needsRehash encodedHash then
    (orRaise r.rehash (.error .passwordPolicyViolation)).map some
  else pure none

/-- `login` up to its second transaction -/
def read (r : Login) : Except Answer Write := do
  r.decision.check (fun retryAfter => refusal r.recorded (.loginRateLimited retryAfter) .database)
    (.error .database)
  let found := d.users.firstEntry fun _ user => user.usernameNormalized = r.normalized S
  let encodedHash := found.elim S.dummyHash fun e => e.2.passwordHash
  let refused := refusal r.recorded .invalidCredentials .database
  if S.verify encodedHash r.password = false then throw refused
  let e ← orRaise found refused
  if e.2.isActive = false then throw refused
  let replacementHash ← r.replacement S encodedHash
  return .login e.1 encodedHash replacementHash r

end Login

/-- The session and the user of an authenticated context, where it is still the current one. -/
def context (a : AuthenticatedSession) (now : ℕ) : Option (ControlPlaneSession × AdminUser) := do
  let stored ← d.sessions.get? a.sessionId
  let user ← d.users.get? a.userId
  if stored.userId = a.userId ∧ stored.isOpen now = true ∧ stored.authEpoch = a.authEpoch then
    some (stored, user)
  else none

theorem of_context {d : Database} {a : AuthenticatedSession} {now : ℕ} {stored : ControlPlaneSession}
    {user : AdminUser} (h : context d a now = some (stored, user)) :
    d.sessions.get? a.sessionId = some stored ∧ d.users.get? a.userId = some user ∧
      stored.userId = a.userId ∧ stored.isOpen now = true ∧ stored.authEpoch = a.authEpoch := by
  simp only [context, Option.bind_eq_bind, Option.bind_eq_some_iff] at h
  obtain ⟨stored', hstored, user', huser, h⟩ := h
  split at h
  · next hc =>
    cases h
    exact ⟨hstored, huser, hc⟩
  · cases h

namespace Reauthentication

variable (r : Reauthentication)

def refused (e : AuthError) : Answer :=
  refusal r.recorded e .reauthenticationUnavailable

/-- `now < stored.recent_authenticated_at or now < stored.last_seen_at` -/
def isAhead (now : ℕ) : Bool :=
  (d.sessions.get? r.authenticated.sessionId).any fun stored => stored.isAhead now

/-- `reauthenticate` up to its second transaction -/
def read : Except Answer Write := do
  r.decision.check (fun retryAfter => r.refused (.reauthenticationRateLimited retryAfter))
    (.error .reauthenticationUnavailable)
  if r.reading.committed = false ∨ r.isAhead d r.reading.now = true then
    throw (.error .reauthenticationUnavailable)
  let e ← orRaise (context d r.authenticated r.reading.now) (r.refused .reauthenticationInvalidSession)
  if e.2.isActive = false ∨ S.verify e.2.passwordHash r.password = false then
    throw (r.refused .reauthenticationInvalidCredentials)
  return .reauthenticate e.2.passwordHash r

end Reauthentication

/-- `_verify_local_password` -/
def verifyLocalPassword (password : String) : Except Answer (String × String) := do
  let admin ← orRaise (d.users.firstEntry fun _ user => user.isActive) (.error .adminNotInitialized)
  if S.verify admin.2.passwordHash password = false then throw (.error .invalidCredentials)
  return (admin.1, admin.2.passwordHash)

def Setting.tokenDigest (token : String) : String := S.keyedDigest "session-token" token

/-- A call up to its `BEGIN IMMEDIATE` transaction. -/
def read : Call → Except Answer Write
  | .login r => r.read S d
  | .reauthenticate r => r.read S d
  | .authenticate rawToken turn => do
      let token ← orRaise rawToken (.error .invalidSession)
      if token = "" ∨ 128 < token.length then throw (.error .invalidSession)
      return .authenticate (S.tokenDigest token) turn
  | .revoke authenticated turn => pure (.revoke authenticated.sessionId turn)
  | .changePassword currentPassword newHash turn => do
      let admin ← verifyLocalPassword S d currentPassword
      let replacementHash ← orRaise newHash (.error .passwordPolicyViolation)
      return .changePassword admin.1 admin.2 replacementHash turn
  | .revokeSessions currentPassword turn => do
      let admin ← verifyLocalPassword S d currentPassword
      return .revokeSessions admin.1 turn

/-! ## The transactions -/

/-- The end of a transaction: the tables are stored, or nothing is where one of the constraints is
violated or something else has gone wrong. -/
def commit (turn : Turn) (users : Dict String AdminUser) (sessions : Dict String ControlPlaneSession)
    (reply : Reply) (failure : AuthError) : Answer × Database :=
  if h : turn.committed = true ∧ Constraints users sessions then (.ok reply, ⟨users, sessions, h.2⟩)
  else (.error failure, d)

section
variable (sessions : Dict String ControlPlaneSession) (userId : String)

/-- The sessions of a user that are neither revoked nor expired, oldest first. -/
def activeSessions (now : ℕ) : List (String × ControlPlaneSession) :=
  (sessions.items.filter fun e => e.2.userId = userId && e.2.isOpen now).insertionSort
    fun e f => e.2.createdAt ≤ f.2.createdAt

/-- The sessions `issue` revokes to make room for one more. -/
def evicted (now : ℕ) : List String :=
  let active := activeSessions sessions userId now
  (active.take (active.length + 1 - S.maxActiveSessions)).map Prod.fst

/-- The sessions after those under `ids` were revoked. -/
def revokeAll (ids : List String) (now : ℕ) : Dict String ControlPlaneSession :=
  sessions.updateKeys ids fun row => row.revoke now

/-- The sessions of a user that are not revoked. -/
def unrevoked : List String :=
  (sessions.items.filter fun e => e.2.userId = userId && e.2.revokedAt.isNone).map Prod.fst

end

/-- The row `issue` adds for a login. -/
def Login.row (r : Login) (userId : String) : ControlPlaneSession where
  userId := userId
  tokenHash := S.tokenDigest r.token
  csrfHash := S.keyedDigest "csrf-verifier" (S.deriveCsrfToken r.sessionId (S.tokenDigest r.token))
  createdAt := r.turn.now
  recentAuthenticatedAt := r.turn.now
  authEpoch := 1
  lastSeenAt := r.turn.now
  idleExpiresAt := min (r.turn.now + S.sessionTtl * 1000000) (r.turn.now + S.sessionIdleTtl * 1000000)
  expiresAt := r.turn.now + S.sessionTtl * 1000000
  revokedAt := none
  clientLabel := (r.clientLabel.filter (· ≠ "")).map fun label => (label.take 80).copy

/-- What a login returns about the row it has added. -/
def Login.issued (r : Login) (userId username : String) : IssuedSession where
  token := r.token
  csrfToken := S.deriveCsrfToken r.sessionId (S.tokenDigest r.token)
  sessionId := r.sessionId
  userId := userId
  username := username
  expiresAt := r.turn.now + S.sessionTtl * 1000000
  authenticatedAt := r.turn.now
  authEpoch := 1

/-- `SessionService.issue` -/
def issue (r : Login) (userId : String) : Dict String ControlPlaneSession :=
  (revokeAll d.sessions (evicted S d.sessions userId r.turn.now) r.turn.now).set r.sessionId
    (r.row S userId)

/-- The user's row after a login. -/
def AdminUser.loggedIn (user : AdminUser) (replacementHash : Option String) (now : ℕ) : AdminUser :=
  { user with
    lastLoginAt := some now
    updatedAt := now
    passwordHash := replacementHash.getD user.passwordHash }

/-- `register_success` after the commit: its exception takes the place of what the login returns. -/
def afterwards (cleared : Bool) (p : Answer × Database) : Answer × Database :=
  (if cleared then p.1 else .error .database, p.2)

/-- The second transaction of `login` -/
def writeLogin (userId encodedHash : String) (replacementHash : Option String) (r : Login) :
    Answer × Database :=
  match d.users.get? userId with
  | none => (refusal r.recorded .invalidCredentials .database, d)
  | some user =>
    if user.isActive = false ∨ user.passwordHash ≠ encodedHash then
      (refusal r.recorded .invalidCredentials .database, d)
    else if r.sessionId ∈ d.sessions then (.error .database, d)
    else
      afterwards r.cleared
        (commit d r.turn (d.users.set userId (user.loggedIn replacementHash r.turn.now))
          (issue S d r userId) (.issued (r.issued S userId user.username)) .database)

variable (r : Reauthentication) (stored : ControlPlaneSession)

/-- The first of the drawn tokens whose digest is new. -/
def freshToken : Option String :=
  (r.candidates.take 4).find? fun candidate =>
    S.tokenDigest candidate ≠ stored.tokenHash &&
      (d.sessions.firstEntry fun id row =>
        row.tokenHash = S.tokenDigest candidate && id ≠ r.authenticated.sessionId).isNone

/-- The session's row under a new token. -/
def ControlPlaneSession.rotate (stored : ControlPlaneSession) (sessionId token : String) (now : ℕ) :
    ControlPlaneSession :=
  { stored with
    tokenHash := S.tokenDigest token
    csrfHash := S.keyedDigest "csrf-verifier" (S.deriveCsrfToken sessionId (S.tokenDigest token))
    authEpoch := stored.authEpoch + 1
    recentAuthenticatedAt := now
    lastSeenAt := now
    idleExpiresAt := min stored.expiresAt (now + S.sessionIdleTtl * 1000000) }

/-- What a reauthentication returns about the row it has rotated. -/
def Reauthentication.issued (user : AdminUser)
    (token : String) : IssuedSession where
  token := token
  csrfToken := S.deriveCsrfToken r.authenticated.sessionId (S.tokenDigest token)
  sessionId := r.authenticated.sessionId
  userId := r.authenticated.userId
  username := user.username
  expiresAt := stored.expiresAt
  authenticatedAt := r.turn.now
  authEpoch := stored.authEpoch + 1

/-- The rotation of `reauthenticate`, once the context is found unchanged. -/
def rotate (user : AdminUser) :
    Answer × Database :=
  match freshToken S d r stored with
  | none => (.error .reauthenticationUnavailable, d)
  | some token =>
    if token = "" then (.error .reauthenticationUnavailable, d)
    else
      commit d r.turn d.users
        (d.sessions.set r.authenticated.sessionId
          (stored.rotate S r.authenticated.sessionId token r.turn.now))
        (.issued (r.issued S stored user token)) .reauthenticationUnavailable

/-- The second transaction of `reauthenticate` -/
def writeReauthenticate (observedHash : String) (r : Reauthentication) : Answer × Database :=
  if r.isAhead d r.turn.now then (.error .reauthenticationUnavailable, d)
  else
    match context d r.authenticated r.turn.now with
    | none => (r.refused .reauthenticationInvalidCredentials, d)
    | some (stored, user) =>
      if user.isActive = false ∨ user.passwordHash ≠ observedHash then
        (r.refused .reauthenticationInvalidCredentials, d)
      else rotate S d r stored user

/-- The session and the user a token hash belongs to, where `authenticate` accepts them. -/
def accepted (tokenHash : String) (now : ℕ) : Option (String × ControlPlaneSession × AdminUser) := do
  let e ← d.sessions.firstEntry fun _ row => row.tokenHash = tokenHash
  let user ← d.users.get? e.2.userId
  if e.2.isOpen now = true ∧ user.isActive = true ∧ e.2.isAhead now = false then some (e.1, e.2, user)
  else none

/-- The transaction of `authenticate` -/
def writeAuthenticate (tokenHash : String) (turn : Turn) : Answer × Database :=
  match accepted d tokenHash turn.now with
  | none => (.error .invalidSession, d)
  | some (id, stored, user) =>
    commit d turn d.users
      (d.sessions.set id
        { stored with
          lastSeenAt := turn.now
          idleExpiresAt := min stored.expiresAt (turn.now + S.sessionIdleTtl * 1000000) })
      (.authenticated
        { sessionId := id
          userId := stored.userId
          username := user.username
          expiresAt := stored.expiresAt
          authenticatedAt := stored.recentAuthenticatedAt
          authEpoch := stored.authEpoch
          csrfToken := S.deriveCsrfToken id stored.tokenHash })
      .database

/-- The transaction of `revoke` -/
def writeRevoke (sessionId : String) (turn : Turn) : Answer × Database :=
  match d.sessions.get? sessionId with
  | none => (.error .invalidSession, d)
  | some stored =>
    if stored.revokedAt.isSome then (.error .invalidSession, d)
    else commit d turn d.users (d.sessions.set sessionId (stored.revoke turn.now)) .done .database

/-- The sessions of a user after `change_password` and `revoke_sessions`. -/
def signOut (userId : String) (now : ℕ) : Dict String ControlPlaneSession :=
  revokeAll d.sessions (unrevoked d.sessions userId) now

/-- The second transaction of `change_password` -/
def writeChangePassword (adminId observedHash replacementHash : String) (turn : Turn) :
    Answer × Database :=
  match d.users.get? adminId with
  | none => (.error .invalidCredentials, d)
  | some admin =>
    if admin.isActive = false ∨ admin.passwordHash ≠ observedHash then
      (.error .invalidCredentials, d)
    else
      commit d turn
        (d.users.set adminId { admin with passwordHash := replacementHash, updatedAt := turn.now })
        (signOut d adminId turn.now) (.revoked (unrevoked d.sessions adminId).length) .database

/-- The second transaction of `revoke_sessions` -/
def writeRevokeSessions (adminId : String) (turn : Turn) : Answer × Database :=
  commit d turn d.users (signOut d adminId turn.now)
    (.revoked (unrevoked d.sessions adminId).length) .database

def write : Write → Answer × Database
  | .login userId encodedHash replacementHash r => writeLogin S d userId encodedHash replacementHash r
  | .reauthenticate observedHash r => writeReauthenticate S d observedHash r
  | .authenticate tokenHash turn => writeAuthenticate S d tokenHash turn
  | .revoke sessionId turn => writeRevoke d sessionId turn
  | .changePassword adminId observedHash replacementHash turn =>
    writeChangePassword d adminId observedHash replacementHash turn
  | .revokeSessions adminId turn => writeRevokeSessions d adminId turn

/-- The three services. -/
def accounts : Service Database Call Write Answer where
  atomic := Call.isAtomic
  read := read S
  write := write S

end AgentBox.Auth
