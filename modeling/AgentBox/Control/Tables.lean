import AgentBox.Common.Sha256
import AgentBox.Common.Table
import AgentBox.Common.Text

/-!
# The Control Plane's tables

The rows of the Web Agent Workspace tables with the constraints that can refuse a write: workspaces,
their stop operations, the Project binding ledger, and the Projects and Runtime hosts they refer to.
`AgentWorkspaceSession` is the domain object a service builds from a workspace row before it decides
anything; it can only be built from a valid identity.

Enumerated columns are stored as their values' constructors. Times are microseconds. The display
columns that nothing here reads are left out.
-/

namespace AgentBox.Control

/-! ## Enumerations -/

inductive AgentType where
  | claude
  | codex
  deriving DecidableEq, Repr

def AgentType.value : AgentType → String
  | .claude => "claude"
  | .codex => "codex"

inductive WorkspaceState where
  | starting
  | running
  | needsInteraction
  | trustRequired
  | loginRequired
  | stopping
  | exited
  | stopped
  | missing
  | collision
  | broken
  | unknown
  deriving DecidableEq, Repr

def WorkspaceState.value : WorkspaceState → String
  | .starting => "STARTING"
  | .running => "RUNNING"
  | .needsInteraction => "NEEDS_INTERACTION"
  | .trustRequired => "TRUST_REQUIRED"
  | .loginRequired => "LOGIN_REQUIRED"
  | .stopping => "STOPPING"
  | .exited => "EXITED"
  | .stopped => "STOPPED"
  | .missing => "MISSING"
  | .collision => "COLLISION"
  | .broken => "BROKEN"
  | .unknown => "UNKNOWN"

/-- `state in _TERMINAL` -/
def WorkspaceState.isTerminal (s : WorkspaceState) : Bool := s == .exited || s == .stopped

/-- `state in _RESTARTABLE` -/
def WorkspaceState.isRestartable (s : WorkspaceState) : Bool :=
  s == .exited || s == .stopped || s == .missing || s == .broken || s == .unknown

inductive ReconciliationState where
  | authoritative
  | stopping
  | missing
  | collision
  | exited
  | reconciliationRequired
  | unknown
  deriving DecidableEq, Repr

inductive StopResult where
  | pending
  | stopped
  | reconciliationRequired
  | timeout
  deriving DecidableEq, Repr

/-- `ExecutableEvidenceState` -/
inductive EvidenceState where
  | unobserved
  | verified
  | stale
  deriving DecidableEq, Repr

/-- `ProjectBindingStatus` -/
inductive BindingStatus where
  | pending
  | current
  | reconciliationRequired
  | superseded
  deriving DecidableEq, Repr

inductive ProjectState where
  | creating
  | ready
  | error
  deriving DecidableEq, Repr

/-- The states a workspace may move to, `_TRANSITIONS`. -/
def transitions : WorkspaceState → List WorkspaceState
  | .starting =>
    [.running, .needsInteraction, .trustRequired, .loginRequired, .stopping, .exited, .broken,
      .unknown]
  | .running =>
    [.needsInteraction, .trustRequired, .loginRequired, .stopping, .exited, .broken, .unknown]
  | .needsInteraction => [.running, .stopping, .broken, .unknown]
  | .trustRequired => [.running, .stopping, .broken, .unknown]
  | .loginRequired => [.running, .stopping, .broken, .unknown]
  | .stopping => [.stopped, .unknown, .broken]
  | .exited => [.starting, .stopping]
  | .stopped => [.starting]
  | .missing => [.starting, .stopping]
  | .collision => [.stopping, .unknown]
  | .broken => [.starting, .stopping, .unknown]
  | .unknown => [.starting, .stopping]

/-! ## Rows -/

structure Project where
  relativePath : String
  state : ProjectState
  archivedAt : Option ℕ
  revision : ℕ
  defaultBranch : Option String
  updatedAt : ℕ
  deriving DecidableEq

structure RuntimeHost where
  revision : ℕ
  lastRuntimeEpoch : Option String
  updatedAt : ℕ
  deriving DecidableEq

/-- The identity a Runtime generation is fenced by. -/
structure Identity where
  projectId : String
  agentType : AgentType
  hostId : String
  hostRevision : ℕ
  bindingRevision : ℕ
  bindingDigest : String
  generation : ℕ
  deriving DecidableEq

structure WorkspaceRow where
  id : String
  projectId : String
  authorizationScope : String
  hostId : String
  hostRevision : ℕ
  agentType : AgentType
  state : WorkspaceState
  runtimeSessionName : String
  runtimeMarker : String
  executableFingerprint : Option String
  generation : ℕ
  bindingRevision : ℕ
  bindingDigest : String
  revision : ℕ
  createdAt : ℕ
  updatedAt : ℕ
  lastSeenAt : ℕ
  exitCode : Option ℤ
  failureCode : Option String
  reconciliationState : ReconciliationState
  evidenceState : EvidenceState
  evidenceGeneration : Option ℕ
  evidenceRuntimeEpoch : Option String
  deriving DecidableEq

def WorkspaceRow.identity (r : WorkspaceRow) : Identity where
  projectId := r.projectId
  agentType := r.agentType
  hostId := r.hostId
  hostRevision := r.hostRevision
  bindingRevision := r.bindingRevision
  bindingDigest := r.bindingDigest
  generation := r.generation

structure StopRow where
  workspaceId : String
  identity : Identity
  result : StopResult
  failureCode : Option String
  createdAt : ℕ
  updatedAt : ℕ
  deriving DecidableEq

structure BindingRow where
  relativeKey : String
  projectRevision : ℕ
  bindingDigest : Option String
  previousRevision : Option ℕ
  previousDigest : Option String
  hostId : String
  hostRevision : ℕ
  status : BindingStatus
  createdAt : ℕ
  updatedAt : ℕ
  deriving DecidableEq

/-- The tables by primary key; a binding's key is its Project and its revision. -/
structure Database where
  projects : Dict String Project
  hosts : Dict String RuntimeHost
  workspaces : Dict String WorkspaceRow
  stops : Dict String StopRow
  bindings : Dict (String × ℕ) BindingRow

/-! ## Identifiers -/

/-- The exceptions the Control Plane's services raise, and those of the database beneath them. -/
inductive ServiceError where
  | domain (message : String)
  | notFound (what : String)
  | conflict (message : String)
  | notReady (what : String)
  | stopNotFound (what : String)
  | epoch (message : String)
  /-- A constraint refused the statement: `sqlalchemy.exc.IntegrityError`. -/
  | integrity
  /-- An update matched no row. -/
  | staleData
  /-- An integer does not fit a column: `OverflowError`. -/
  | overflow
  deriving DecidableEq, Repr

variable (s : String)

def isProjectId : Bool := matchesHexAfter "prj_" 32 s

def isHostId : Bool := matchesHexAfter "wri_" 32 s

def isWorkspaceId : Bool := matchesHexAfter "aws_" 32 s

def isStopId : Bool := matchesHexAfter "wso_" 32 s

/-- 64 lowercase hexadecimal characters. -/
def isDigest : Bool := matchesHexAfter "" 64 s

/-- `validate_positive_u64` -/
def isPositiveU64 (n : ℕ) : Bool := decide (1 ≤ n) && decide (n ≤ 0xFFFFFFFFFFFFFFFF)

/-- The largest integer an SQLite column holds. -/
def maxSqliteSequence : ℕ := 0x7FFFFFFFFFFFFFFF

/-- The first `n` hexadecimal characters of a SHA-256 digest. -/
def hexDigest (n : ℕ) (bytes : List UInt8) : String :=
  String.ofList ((hexBytes (sha256 bytes)).toList.take n)

variable (projectId : String) (agent : AgentType)

/-- `workspace_id(project_id, agent_type)` -/
def workspaceId : String :=
  "aws_" ++ hexDigest 32 (utf8 ("agentbox-waw-v1\x00" ++ projectId ++ "\x00" ++ agent.value))

def managedSessionName : String :=
  "agentbox-waw-" ++ agent.value ++ "-" ++ hexDigest 16 (utf8 projectId)

/-- The checks of the domain objects on the fields of an identity, in their order. -/
def Identity.validate (i : Identity) : Except ServiceError Unit :=
  let u64 (field : String) : ServiceError :=
    .domain (field ++ " must be an unsigned integer in 1..2^64-1")
  if !isProjectId i.projectId then .error (.domain "invalid project identifier")
  else if !isHostId i.hostId then .error (.domain "invalid runtime_host identifier")
  else if !isPositiveU64 i.hostRevision then .error (u64 "runtime_host_installation_revision")
  else if !isPositiveU64 i.bindingRevision then .error (u64 "binding_revision")
  else if !isDigest i.bindingDigest then
    .error (.domain "binding_digest must be 64 lowercase hexadecimal characters")
  else if !isPositiveU64 i.generation then .error (u64 "generation")
  else .ok ()

/-- `managed_marker`, the generation-and-binding-fenced Runtime marker. -/
def managedMarker (i : Identity) (workspaceId : String) : Except ServiceError String :=
  let u64 (field : String) : ServiceError :=
    .domain (field ++ " must be an unsigned integer in 1..2^64-1")
  if !isHostId i.hostId then .error (.domain "invalid runtime_host identifier")
  else if !isPositiveU64 i.hostRevision then .error (u64 "runtime_host_installation_revision")
  else if !isProjectId i.projectId then .error (.domain "invalid project identifier")
  else if !isWorkspaceId workspaceId then .error (.domain "invalid workspace identifier")
  else if !isPositiveU64 i.generation then .error (u64 "generation")
  else if !isPositiveU64 i.bindingRevision then .error (u64 "binding_revision")
  else if !isDigest i.bindingDigest then
    .error (.domain "binding_digest must be 64 lowercase hexadecimal characters")
  else
    .ok ("waw-v1:" ++ i.hostId ++ ":" ++ hexDigest 32 (utf8 ("\x00".intercalate
      ["agentbox-waw-v1", i.hostId, toString i.hostRevision, i.projectId, i.agentType.value,
        workspaceId, toString i.generation, toString i.bindingRevision, i.bindingDigest])))

/-! ## The domain object -/

/-- `AgentWorkspaceSession`; its identity has been validated. -/
structure AgentWorkspaceSession where
  identity : Identity
  state : WorkspaceState
  reconciliationState : ReconciliationState
  valid : identity.validate = .ok ()

namespace AgentWorkspaceSession

/-- The session of an identity and, where a row gives one, of the row's own id. -/
def init (identity : Identity) (state : WorkspaceState) (reconciliationState : ReconciliationState)
    (id : Option String) : Except ServiceError AgentWorkspaceSession :=
  match h : identity.validate with
  | .error e => .error e
  | .ok () =>
    match id with
    | none => .ok ⟨identity, state, reconciliationState, h⟩
    | some id =>
      if !isWorkspaceId id then .error (.domain "invalid workspace identifier")
      else if id ≠ workspaceId identity.projectId identity.agentType then
        .error (.domain "workspace id does not match project and agent_type")
      else .ok ⟨identity, state, reconciliationState, h⟩

/-- The session of a stored row. -/
def ofRow (r : WorkspaceRow) : Except ServiceError AgentWorkspaceSession :=
  init r.identity r.state r.reconciliationState (some r.id)

/-- A move to the state the session is in is no move; any other has to be in the table. -/
def transition (s : AgentWorkspaceSession) (target : WorkspaceState)
    (reconciliationState : Option ReconciliationState) : Except ServiceError AgentWorkspaceSession :=
  if target = s.state then .ok s
  else if target ∉ transitions s.state then
    .error (.domain ("invalid workspace transition " ++ s.state.value ++ "->" ++ target.value))
  else .ok { s with
    state := target
    reconciliationState := reconciliationState.getD s.reconciliationState }

end AgentWorkspaceSession

/-! ## Constraints -/

/-- The text as SQLite's functions see it. -/
def cString (s : String) : List Char := s.toList.takeWhile (· ≠ '\x00')

/-- `GLOB '*[^[:cntrl:]]*'`. SQLite has no character classes: the bracket ends at the first `]`, so
this looks for a character outside `[:cntrl` that is followed by `]`. -/
def globCntrl : List Char → Bool
  | c :: d :: rest => (!("[:cntrl".toList.contains c) && d == ']') || globCntrl (d :: rest)
  | _ => false

/-- `ck_waw_sessions_failure_code` -/
def failureCodeOk : Option String → Bool
  | none => true
  | some code =>
    decide (1 ≤ (cString code).length) && decide ((cString code).length ≤ 64) &&
      !globCntrl (cString code)

namespace WorkspaceRow

variable (r : WorkspaceRow)

/-- `ck_waw_sessions_executable_evidence_consistency` -/
def evidenceOk : Bool :=
  match r.evidenceState with
  | .unobserved =>
    r.executableFingerprint.isNone && r.evidenceGeneration.isNone && r.evidenceRuntimeEpoch.isNone
  | .verified =>
    r.executableFingerprint.isSome && r.evidenceGeneration == some r.generation &&
      r.evidenceRuntimeEpoch.isSome
  | .stale =>
    (r.evidenceGeneration.isNone && r.evidenceRuntimeEpoch.isNone) ||
      (r.executableFingerprint.isSome && r.evidenceGeneration.isSome &&
        r.evidenceRuntimeEpoch.isSome)

/-- The check constraints on columns that a service changes. -/
def checked : Bool :=
  decide (1 ≤ r.generation) && decide (1 ≤ r.revision) && r.evidenceOk &&
    (r.exitCode.all fun c => decide (-128 ≤ c) && decide (c ≤ 255)) && failureCodeOk r.failureCode

/-- The integers of the row fit their columns. -/
def fits : Bool :=
  decide (r.generation ≤ maxSqliteSequence) && decide (r.revision ≤ maxSqliteSequence) &&
    decide (r.bindingRevision ≤ maxSqliteSequence) && decide (r.hostRevision ≤ maxSqliteSequence)

/-- The stored row after an update that turned `read` into `new`. -/
def merge (read new stored : WorkspaceRow) : WorkspaceRow :=
  { stored with
    state := column read.state new.state stored.state
    runtimeMarker := column read.runtimeMarker new.runtimeMarker stored.runtimeMarker
    executableFingerprint :=
      column read.executableFingerprint new.executableFingerprint stored.executableFingerprint
    generation := column read.generation new.generation stored.generation
    revision := column read.revision new.revision stored.revision
    updatedAt := column read.updatedAt new.updatedAt stored.updatedAt
    lastSeenAt := column read.lastSeenAt new.lastSeenAt stored.lastSeenAt
    exitCode := column read.exitCode new.exitCode stored.exitCode
    failureCode := column read.failureCode new.failureCode stored.failureCode
    reconciliationState :=
      column read.reconciliationState new.reconciliationState stored.reconciliationState
    evidenceState := column read.evidenceState new.evidenceState stored.evidenceState
    evidenceGeneration := column read.evidenceGeneration new.evidenceGeneration stored.evidenceGeneration
    evidenceRuntimeEpoch :=
      column read.evidenceRuntimeEpoch new.evidenceRuntimeEpoch stored.evidenceRuntimeEpoch }

end WorkspaceRow

namespace Database

/-- The foreign key on a host's id and revision. -/
def hasHost (d : Database) (hostId : String) (revision : ℕ) : Bool :=
  (d.hosts.get? hostId).any fun h => h.revision == revision

end Database

end AgentBox.Control
