import AgentBox.Common.Method
import AgentBox.Common.SplitCalls
import AgentBox.Control.Tables

/-!
# The workspace session service

`WorkspaceSessionService` over the Control Plane's tables. `classify_runtime_epoch`, `create`,
`create_from_current_binding` and `record_executable_evidence` run `BEGIN IMMEDIATE` and are atomic.
`transition`, `begin_start`, `begin_stop` and `complete_stop` select the row, compare its revision in
Python, and update by primary key the columns that differ from what they read.

The random part of a stop operation's id and the clock reading are arguments of the call. Callers
pass the enumerations' values; a text outside an enumeration is refused before any row is read.
-/

namespace AgentBox.Control

inductive EpochClassification where
  | firstBind
  | apiRestart
  | runtimeRestart
  deriving DecidableEq, Repr

inductive Call where
  | classifyRuntimeEpoch (hostId : String) (hostRevision : ℕ) (observed : String) (now : ℕ)
  | create (identity : Identity) (authorizationScope : String) (executableFingerprint : Option String)
      (now : ℕ)
  | createFromCurrentBinding (projectId : String) (agent : AgentType) (authorizationScope : String)
      (now : ℕ)
  | transition (id : String) (expectedRevision : ℕ) (state : WorkspaceState)
      (reconciliationState : Option ReconciliationState) (exitCode : Option ℤ)
      (failureCode : Option String) (now : ℕ)
  | beginStart (id : String) (expectedRevision now : ℕ)
  | recordExecutableEvidence (id : String) (expectedRevision generation : ℕ)
      (runtimeEpoch executableFingerprint : String) (now : ℕ)
  | beginStop (id : String) (expectedRevision : ℕ) (stopOperationId : String) (now : ℕ)
  | completeStop (stopOperationId : String) (result : StopResult) (failureCode : Option String)
      (now : ℕ)
  deriving DecidableEq

/-- The methods that run `BEGIN IMMEDIATE`. -/
def Call.isAtomic : Call → Bool
  | .classifyRuntimeEpoch .. | .create .. | .createFromCurrentBinding .. |
    .recordExecutableEvidence .. => true
  | .transition .. | .beginStart .. | .beginStop .. | .completeStop .. => false

inductive Reply where
  | workspace (row : WorkspaceRow)
  | stop (stopOperationId : String) (record : StopRow)
  | classification (c : EpochClassification)
  deriving DecidableEq

/-- What a call returns or raises, and the workspace rows its update statements have matched. -/
structure Answer where
  reply : Except ServiceError Reply
  updated : List String
  deriving DecidableEq

/-- What a method has decided to write. -/
inductive Write where
  | insert (row : WorkspaceRow)
  | update (id : String) (read new : WorkspaceRow)
  | beginStop (id : String) (read new : WorkspaceRow) (stopOperationId : String) (record : StopRow)
  | completeStop (id : String) (read new : WorkspaceRow) (stopOperationId : String)
      (record record' : StopRow)
  | observe (hostId : String) (host : RuntimeHost) (c : EpochClassification)
  | fence (hostId : String) (host : RuntimeHost) (now : ℕ)
  deriving DecidableEq

/-- An exception before anything is written. -/
def raised (e : ServiceError) : Answer := ⟨.error e, []⟩

/-- A return without a write. -/
def returned (r : Reply) : Answer := ⟨.ok r, []⟩

/-- A domain function called by a method: its exception is the method's. -/
def domain {α : Type} (x : Except ServiceError α) : Except Answer α := x.mapError raised

@[simp] theorem domain_eq_ok_iff {α : Type} {x : Except ServiceError α} {a : α} :
    domain x = .ok a ↔ x = .ok a := by
  cases x <;> simp [domain, Except.mapError]

/-- `_runtime_epoch` -/
def runtimeEpoch (value : String) : Except ServiceError ℕ :=
  let digits := value.toList
  let wellFormed := value == "0" || (digits.head?.any fun c => '1' ≤ c && c ≤ '9') &&
    digits.all isDigit && decide (digits.length ≤ 20)
  if !wellFormed || decimal value = 0 || 0xFFFFFFFFFFFFFFFF < decimal value then
    .error (.epoch "Runtime epoch is invalid")
  else .ok (decimal value)

section
variable (d : Database)

/-- The verified epoch against the one the host row has recorded. -/
def compareEpoch (hostId : String) (host : RuntimeHost) (observed : String) (epoch now : ℕ) :
    Except Answer Write :=
  match host.lastRuntimeEpoch with
  | none =>
    pure (.observe hostId { host with lastRuntimeEpoch := some observed, updatedAt := now } .firstBind)
  | some previousRaw => do
      let previous ← domain (runtimeEpoch previousRaw)
      if epoch < previous then throw (raised (.epoch "Runtime epoch is stale"))
      return if epoch = previous then .observe hostId { host with updatedAt := now } .apiRestart
        else .fence hostId { host with lastRuntimeEpoch := some observed, updatedAt := now } now

def classifyRuntimeEpoch (hostId : String) (hostRevision : ℕ) (observed : String) (now : ℕ) :
    Except Answer Write := do
  let epoch ← domain (runtimeEpoch observed)
  if hostRevision < 1 then throw (raised (.epoch "Runtime host identity is invalid"))
  let host ← orRaise (d.hosts.get? hostId) (raised (.epoch "Runtime host identity is not current"))
  if host.revision ≠ hostRevision then
    throw (raised (.epoch "Runtime host identity is not current"))
  compareEpoch hostId host observed epoch now

/-- The first-generation row of `_insert_workspace`. -/
def firstRow (s : AgentWorkspaceSession) (scope marker : String) (fingerprint : Option String)
    (now : ℕ) : WorkspaceRow where
  id := workspaceId s.identity.projectId s.identity.agentType
  projectId := s.identity.projectId
  authorizationScope := scope
  hostId := s.identity.hostId
  hostRevision := s.identity.hostRevision
  agentType := s.identity.agentType
  state := .starting
  runtimeSessionName := managedSessionName s.identity.projectId s.identity.agentType
  runtimeMarker := marker
  executableFingerprint := fingerprint
  generation := 1
  bindingRevision := s.identity.bindingRevision
  bindingDigest := s.identity.bindingDigest
  revision := 1
  createdAt := now
  updatedAt := now
  lastSeenAt := now
  exitCode := none
  failureCode := none
  reconciliationState := .authoritative
  evidenceState := if fingerprint.isSome then .stale else .unobserved
  evidenceGeneration := none
  evidenceRuntimeEpoch := none

/-- `_insert_workspace` -/
def insertWorkspace (s : AgentWorkspaceSession) (scope : String) (fingerprint : Option String)
    (now : ℕ) : Except Answer Write := do
  let marker ← domain (managedMarker { s.identity with generation := 1 }
    (workspaceId s.identity.projectId s.identity.agentType))
  return .insert (firstRow s scope marker fingerprint now)

/-- `project is None or project.archived_at is not None or project.state != "ready"`, negated. -/
def isReady (p : Project) : Bool := p.archivedAt.isNone && p.state == .ready

def create (identity : Identity) (scope : String) (fingerprint : Option String) (now : ℕ) :
    Except Answer Write := do
  if scope = "" ∨ 128 < scope.length then throw (raised (.domain "authorization_scope is invalid"))
  if fingerprint.any fun f => !isDigest f then
    throw (raised (.domain "executable_fingerprint must be lowercase SHA-256"))
  let s ← domain (AgentWorkspaceSession.init { identity with generation := 1 } .starting
    .authoritative none)
  if !(d.projects.get? identity.projectId).any isReady then
    throw (raised (.notReady identity.projectId))
  if !d.hasHost identity.hostId identity.hostRevision then
    throw (raised (.conflict "runtime host identity is not current"))
  insertWorkspace s scope fingerprint now

/-- The Project's binding with status `CURRENT`, with its revision. -/
def currentBinding (projectId : String) : Option (ℕ × BindingRow) :=
  (d.bindings.items.find? fun e => e.1.1 = projectId ∧ e.2.status = .current).map
    fun e => (e.1.2, e.2)

def createFromCurrentBinding (projectId : String) (agent : AgentType) (scope : String) (now : ℕ) :
    Except Answer Write := do
  if scope = "" ∨ 128 < scope.length then throw (raised (.domain "authorization_scope is invalid"))
  let project ← orRaise (d.projects.get? projectId) (raised (.notReady projectId))
  if !isReady project then throw (raised (.notReady projectId))
  let notCurrent := raised (.notReady "Project binding is not current")
  let (bindingRevision, binding) ← orRaise (currentBinding d projectId) notCurrent
  let bindingDigest ← orRaise binding.bindingDigest notCurrent
  if binding.projectRevision ≠ project.revision ∨ binding.relativeKey ≠ project.relativePath then
    throw notCurrent
  if !d.hasHost binding.hostId binding.hostRevision then
    throw (raised (.conflict "runtime host identity is not current"))
  let s ← domain (AgentWorkspaceSession.init ⟨projectId, agent, binding.hostId, binding.hostRevision,
    bindingRevision, bindingDigest, 1⟩ .starting .authoritative none)
  insertWorkspace s scope none now

variable (row : WorkspaceRow)

/-- The row `transition` leaves, `next` being the domain object's answer. -/
def transitioned (next : AgentWorkspaceSession)
    (reconciliationState : Option ReconciliationState) (exitCode : Option ℤ)
    (failureCode : Option String) (now : ℕ) : WorkspaceRow :=
  { row with
    state := next.state
    reconciliationState :=
      if reconciliationState.isSome then next.reconciliationState else row.reconciliationState
    exitCode := exitCode
    failureCode := failureCode
    revision := row.revision + 1
    updatedAt := now
    lastSeenAt := now }

def transition (id : String) (expectedRevision : ℕ) (state : WorkspaceState)
    (reconciliationState : Option ReconciliationState) (exitCode : Option ℤ)
    (failureCode : Option String) (now : ℕ) : Except Answer Write := do
  if expectedRevision < 1 then throw (raised (.conflict "expected revision is invalid"))
  let row ← orRaise (d.workspaces.get? id) (raised (.notFound id))
  if row.revision ≠ expectedRevision then throw (raised (.conflict "workspace revision is stale"))
  let current ← domain (AgentWorkspaceSession.ofRow row)
  let next ← domain (current.transition state reconciliationState)
  return .update id row (transitioned row next reconciliationState exitCode failureCode now)

/-- The row `begin_start` leaves: the next generation. -/
def restarted (marker : String) (now : ℕ) : WorkspaceRow :=
  { row with
    generation := row.generation + 1
    state := .starting
    reconciliationState := .authoritative
    runtimeMarker := marker
    exitCode := none
    failureCode := none
    evidenceState := if row.evidenceState = .verified then .stale else row.evidenceState
    revision := row.revision + 1
    updatedAt := now
    lastSeenAt := now }

def beginStart (id : String) (expectedRevision now : ℕ) : Except Answer Write := do
  let row ← orRaise (d.workspaces.get? id) (raised (.notFound id))
  if row.revision ≠ expectedRevision ∨ !row.state.isRestartable then
    throw (raised (.conflict "workspace is stale or not restartable"))
  if maxSqliteSequence ≤ row.generation then throw (raised (.conflict "generation sequence exhausted"))
  let marker ← domain (managedMarker { row.identity with generation := row.generation + 1 } row.id)
  return .update id row (restarted row marker now)

variable (generation epoch : ℕ) (fingerprint : String)

/-- The row `record_executable_evidence` leaves. -/
def evidenced (now : ℕ) :
    WorkspaceRow :=
  { row with
    executableFingerprint := some fingerprint
    evidenceState := .verified
    evidenceGeneration := some generation
    evidenceRuntimeEpoch := some (toString epoch)
    revision := row.revision + 1
    updatedAt := now
    lastSeenAt := now }

/-- The row's evidence is what has been observed. -/
def hasEvidence : Bool :=
  row.executableFingerprint == some fingerprint && row.evidenceGeneration == some generation &&
    row.evidenceRuntimeEpoch == some (toString epoch)

def recordExecutableEvidence (id : String) (expectedRevision generation : ℕ)
    (epoch fingerprint : String) (now : ℕ) : Except Answer Write := do
  if expectedRevision < 1 then throw (raised (.conflict "expected revision is invalid"))
  if generation < 1 then throw (raised (.conflict "evidence generation is invalid"))
  let parsed ← domain (runtimeEpoch epoch)
  if !isDigest fingerprint then throw (raised (.conflict "executable fingerprint is invalid"))
  let row ← orRaise (d.workspaces.get? id) (raised (.notFound id))
  let observed := hasEvidence row generation parsed fingerprint
  if row.revision ≠ expectedRevision ∨ row.generation ≠ generation then
    throw (if row.revision = expectedRevision + 1 ∧ row.evidenceState = .verified ∧ observed then
        returned (.workspace row)
      else raised (.conflict "workspace evidence target is stale"))
  if row.evidenceState = .verified then
    throw (if observed then returned (.workspace row)
      else raised (.conflict "executable evidence differs from current"))
  return .update id row (evidenced row generation parsed fingerprint now)

/-- The stop operation of a row, as `begin_stop` inserts it. -/
def pendingStop (now : ℕ) : StopRow where
  workspaceId := row.id
  identity := row.identity
  result := .pending
  failureCode := none
  createdAt := now
  updatedAt := now

/-- The row `begin_stop` leaves. -/
def stopping (now : ℕ) : WorkspaceRow :=
  { row with
    state := .stopping
    reconciliationState := .stopping
    revision := row.revision + 1
    updatedAt := now }

def beginStop (id : String) (expectedRevision : ℕ) (stopOperationId : String) (now : ℕ) :
    Except Answer Write := do
  let row ← orRaise (d.workspaces.get? id) (raised (.notFound id))
  if row.revision ≠ expectedRevision then throw (raised (.conflict "workspace revision is stale"))
  let current ← domain (AgentWorkspaceSession.ofRow row)
  let _ ← domain (current.transition .stopping none)
  return .beginStop id row (stopping row now) stopOperationId (pendingStop row now)

/-- `failure_code is not None and (not failure_code or len > 64 or a control character)`, negated. -/
def validStopFailure : Option String → Bool
  | none => true
  | some code => code ≠ "" && decide (code.length ≤ 64) && code.toList.all fun c => decide (32 ≤ c.toNat)

/-- The row `complete_stop` leaves. -/
def completed (result : StopResult) (failureCode : Option String) (now : ℕ) :
    WorkspaceRow :=
  { row with
    state := if result = .stopped then .stopped else .unknown
    reconciliationState := if result = .stopped then .authoritative else .reconciliationRequired
    failureCode := failureCode
    revision := row.revision + 1
    updatedAt := now
    lastSeenAt := now }

def completeStop (stopOperationId : String) (result : StopResult) (failureCode : Option String)
    (now : ℕ) : Except Answer Write := do
  if result = .pending then throw (raised (.conflict "stop completion result must be terminal"))
  let record ← orRaise (d.stops.get? stopOperationId) (raised (.stopNotFound stopOperationId))
  if record.result ≠ .pending then
    throw (if record.result = result then returned (.stop stopOperationId record)
      else raised (.conflict "stop operation is already terminal"))
  if !validStopFailure failureCode then throw (raised (.conflict "stop failure code is invalid"))
  let stale := raised (.conflict "stop operation binding is stale")
  let row ← orRaise (d.workspaces.get? record.workspaceId) stale
  if row.identity ≠ record.identity ∨ row.state ≠ .stopping ∨ row.reconciliationState ≠ .stopping then
    throw stale
  return .completeStop record.workspaceId row (completed row result failureCode now) stopOperationId
    record { record with result := result, failureCode := failureCode, updatedAt := now }

/-- The read of a method. -/
def read : Call → Except Answer Write
  | .classifyRuntimeEpoch hostId hostRevision observed now =>
    classifyRuntimeEpoch d hostId hostRevision observed now
  | .create identity scope fingerprint now => create d identity scope fingerprint now
  | .createFromCurrentBinding projectId agent scope now =>
    createFromCurrentBinding d projectId agent scope now
  | .transition id expected state reconciliation exitCode failureCode now =>
    transition d id expected state reconciliation exitCode failureCode now
  | .beginStart id expected now => beginStart d id expected now
  | .recordExecutableEvidence id expected generation epoch fingerprint now =>
    recordExecutableEvidence d id expected generation epoch fingerprint now
  | .beginStop id expected stopOperationId now => beginStop d id expected stopOperationId now
  | .completeStop stopOperationId result failureCode now =>
    completeStop d stopOperationId result failureCode now

/-! ## What a read has found -/

section
variable {d} {r : Write}
variable {c : Call}

/-- What the methods that go on to write have found, and what they write. -/
inductive Decides (d : Database) : Call → Write → Prop
  | observe {hostId : String} {hostRevision : ℕ} {observed : String} {now : ℕ}
      {host host' : RuntimeHost} (c : EpochClassification) : d.hosts.get? hostId = some host →
      host'.revision = host.revision →
      Decides d (.classifyRuntimeEpoch hostId hostRevision observed now) (.observe hostId host' c)
  | fence {hostId : String} {hostRevision : ℕ} {observed : String} {now : ℕ}
      {host host' : RuntimeHost} : d.hosts.get? hostId = some host → host'.revision = host.revision →
      Decides d (.classifyRuntimeEpoch hostId hostRevision observed now) (.fence hostId host' now)
  | create {identity : Identity} {scope marker : String} {fingerprint : Option String} {now : ℕ}
      {s : AgentWorkspaceSession} :
      managedMarker (firstRow s scope marker fingerprint now).identity
        (firstRow s scope marker fingerprint now).id = .ok marker →
      Decides d (.create identity scope fingerprint now)
        (.insert (firstRow s scope marker fingerprint now))
  | createFromCurrentBinding {projectId : String} {agent : AgentType} {scope marker : String} {now : ℕ}
      {s : AgentWorkspaceSession} :
      managedMarker (firstRow s scope marker none now).identity
        (firstRow s scope marker none now).id = .ok marker →
      Decides d (.createFromCurrentBinding projectId agent scope now)
        (.insert (firstRow s scope marker none now))
  | transition {id : String} {row : WorkspaceRow} {state : WorkspaceState}
      {reconciliation : Option ReconciliationState} {exitCode : Option ℤ} {failureCode : Option String}
      {now : ℕ} (next : AgentWorkspaceSession) : d.workspaces.get? id = some row →
      Decides d (.transition id row.revision state reconciliation exitCode failureCode now)
        (.update id row (transitioned row next reconciliation exitCode failureCode now))
  | beginStart {id marker : String} {row : WorkspaceRow} {now : ℕ} : d.workspaces.get? id = some row →
      managedMarker { row.identity with generation := row.generation + 1 } row.id = .ok marker →
      Decides d (.beginStart id row.revision now) (.update id row (restarted row marker now))
  | recordExecutableEvidence {id epoch fingerprint : String} {row : WorkspaceRow} {now parsed : ℕ} :
      d.workspaces.get? id = some row →
      Decides d (.recordExecutableEvidence id row.revision row.generation epoch fingerprint now)
        (.update id row (evidenced row row.generation parsed fingerprint now))
  | beginStop {id stopOperationId : String} {row : WorkspaceRow} {now : ℕ} :
      d.workspaces.get? id = some row →
      Decides d (.beginStop id row.revision stopOperationId now)
        (.beginStop id row (stopping row now) stopOperationId (pendingStop row now))
  | completeStop {stopOperationId : String} {result : StopResult} {failureCode : Option String}
      {now : ℕ} {record : StopRow} {row : WorkspaceRow} : d.stops.get? stopOperationId = some record →
      d.workspaces.get? record.workspaceId = some row →
      Decides d (.completeStop stopOperationId result failureCode now)
        (.completeStop record.workspaceId row (completed row result failureCode now) stopOperationId
          record { record with result := result, failureCode := failureCode, updatedAt := now })

theorem decides_of_compareEpoch {hostId : String} {host : RuntimeHost} {observed : String}
    {hostRevision epoch now : ℕ} (hhost : d.hosts.get? hostId = some host)
    (h : compareEpoch hostId host observed epoch now = .ok r) :
    Decides d (.classifyRuntimeEpoch hostId hostRevision observed now) r := by
  unfold compareEpoch at h
  split at h
  · obtain rfl := pure_eq_ok_iff.mp h
    exact .observe _ hhost rfl
  · simp only [bind_eq_ok_iff, throw_or_eq_ok_iff, domain_eq_ok_iff, pure_eq_ok_iff] at h
    obtain ⟨previous, -, -, rfl⟩ := h
    split
    · exact .observe _ hhost rfl
    · exact .fence hhost rfl

theorem decides_of_read (h : read d c = .ok r) : Decides d c r := by
  cases c <;> simp only [read, classifyRuntimeEpoch, create, createFromCurrentBinding, insertWorkspace,
    transition, beginStart, recordExecutableEvidence, beginStop, completeStop, bind_eq_ok_iff,
    throw_or_eq_ok_iff, orRaise_eq_ok_iff, domain_eq_ok_iff, pure_eq_ok_iff] at h
  case classifyRuntimeEpoch =>
    obtain ⟨epoch, -, -, host, hhost, -, h⟩ := h
    exact decides_of_compareEpoch hhost h
  case create =>
    obtain ⟨-, -, s, -, -, -, marker, hmarker, rfl⟩ := h
    exact .create hmarker
  case createFromCurrentBinding =>
    obtain ⟨-, -, -, -, -, -, -, -, -, -, s, -, marker, hmarker, rfl⟩ := h
    exact .createFromCurrentBinding hmarker
  case transition =>
    obtain ⟨-, row, hrow, hrev, -, -, next, -, rfl⟩ := h
    obtain rfl := not_not.mp hrev
    exact .transition next hrow
  case beginStart =>
    obtain ⟨row, hrow, hstale, -, marker, hmarker, rfl⟩ := h
    obtain rfl := not_not.mp (not_or.mp hstale).1
    exact .beginStart hrow hmarker
  case recordExecutableEvidence =>
    obtain ⟨-, -, parsed, -, -, row, hrow, hstale, -, rfl⟩ := h
    obtain ⟨hrev, hgen⟩ := not_or.mp hstale
    obtain rfl := not_not.mp hrev
    obtain rfl := not_not.mp hgen
    exact .recordExecutableEvidence hrow
  case beginStop =>
    obtain ⟨row, hrow, hrev, -, -, -, -, rfl⟩ := h
    obtain rfl := not_not.mp hrev
    exact .beginStop hrow
  case completeStop =>
    obtain ⟨-, record, hrecord, -, -, row, hrow, -, rfl⟩ := h
    exact .completeStop hrecord hrow

/-- What a call is answered with when it writes nothing. -/
def IsPlain (c : Call) (a : Answer) : Prop :=
  a.updated = [] ∧ ∀ row, a.reply = .ok (.workspace row) → c.isAtomic = true

@[simp] theorem isPlain_raised (c : Call) (e : ServiceError) : IsPlain c (raised e) := by
  simp [IsPlain, raised]

@[simp] theorem isPlain_ite {p : Prop} [Decidable p] {a b : Answer} :
    IsPlain c (if p then a else b) ↔ (p → IsPlain c a) ∧ (¬p → IsPlain c b) := by
  split <;> simp [*]

@[simp] theorem errorsMeet_domain {α : Type} (c : Call) (x : Except ServiceError α) :
    ErrorsMeet (IsPlain c) (domain x) := by
  cases x with
  | error e => exact (errorsMeet_throw (raised e)).mpr (isPlain_raised c e)
  | ok a => exact errorsMeet_pure a

@[simp] theorem errorsMeet_compareEpoch (c : Call) (hostId : String) (host : RuntimeHost)
    (observed : String) (epoch now : ℕ) :
    ErrorsMeet (IsPlain c) (compareEpoch hostId host observed epoch now) := by
  unfold compareEpoch
  split <;> simp

/-- A call that ends with its read has updated nothing; only atomic ones return a row then. -/
theorem isPlain_of_read {a : Answer} (h : read d c = .error a) : IsPlain c a := by
  have hmeet : ErrorsMeet (IsPlain c) (read d c) := by
    cases c with
    | classifyRuntimeEpoch => simp [read, classifyRuntimeEpoch]
    | create => simp [read, create, insertWorkspace]
    | createFromCurrentBinding => simp [read, createFromCurrentBinding, insertWorkspace]
    | transition => simp [read, transition]
    | beginStart => simp [read, beginStart]
    | recordExecutableEvidence id expected generation epoch fingerprint now =>
      have hplain : ∀ row, IsPlain (.recordExecutableEvidence id expected generation epoch fingerprint now)
          (returned (.workspace row)) := fun row => ⟨rfl, fun _ _ => rfl⟩
      simp [read, recordExecutableEvidence, hplain]
    | beginStop => simp [read, beginStop]
    | completeStop stopOperationId result failureCode now =>
      have hplain : ∀ record, IsPlain (.completeStop stopOperationId result failureCode now)
          (returned (.stop stopOperationId record)) :=
        fun record => ⟨rfl, fun row hrow => by cases Except.ok.inj hrow⟩
      simp [read, completeStop, hplain]
  exact hmeet a h

end

/-! ## Writes -/

/-- One `UPDATE` of a workspace row by primary key. -/
def updateRow (id : String) (read new : WorkspaceRow) : Except ServiceError Database :=
  match d.workspaces.get? id with
  | none => .error .staleData
  | some stored =>
    let row := read.merge new stored
    if !row.fits then .error .overflow
    else if !row.checked then .error .integrity
    else .ok { d with workspaces := d.workspaces.set id row }

/-- The constraints on an inserted workspace row: its keys, its references and its checks. -/
def admitsWorkspace (row : WorkspaceRow) : Bool :=
  decide (row.id ∉ d.workspaces) &&
    (d.workspaces.values.all fun r => decide (r.projectId ≠ row.projectId ∨ r.agentType ≠ row.agentType) &&
      decide (r.runtimeSessionName ≠ row.runtimeSessionName)) &&
    decide (row.projectId ∈ d.projects) && d.hasHost row.hostId row.hostRevision && row.checked

/-- `uq_waw_stops_generation`: one stop operation per workspace, generation and binding revision. -/
def sameStop (r s : StopRow) : Bool :=
  r.workspaceId == s.workspaceId && r.identity.generation == s.identity.generation &&
    r.identity.bindingRevision == s.identity.bindingRevision

/-- The constraints on an inserted stop operation. -/
def admitsStop (stopOperationId : String) (record : StopRow) : Bool :=
  decide (stopOperationId ∉ d.stops) && isStopId stopOperationId &&
    (d.stops.first (sameStop record)).isNone && decide (record.workspaceId ∈ d.workspaces) &&
    d.hasHost record.identity.hostId record.identity.hostRevision

/-- An update of a stop operation by primary key. -/
def StopRow.merge (read new stored : StopRow) : StopRow :=
  { stored with
    result := column read.result new.result stored.result
    failureCode := column read.failureCode new.failureCode stored.failureCode
    updatedAt := column read.updatedAt new.updatedAt stored.updatedAt }

/-- A row that a restart of the Runtime on this host identity makes doubtful. -/
def isFenced (hostId : String) (hostRevision : ℕ) (r : WorkspaceRow) : Bool :=
  r.hostId == hostId && r.hostRevision == hostRevision && !r.state.isTerminal

/-- The row a restart leaves. -/
def fenced (now : ℕ) (r : WorkspaceRow) : WorkspaceRow :=
  { r with
    state := .unknown
    reconciliationState := .reconciliationRequired
    failureCode := some "RUNTIME_RESTART"
    evidenceState := .stale
    revision := r.revision + 1
    updatedAt := now
    lastSeenAt := now }

/-- A stop operation the restart leaves open. -/
def isFencedStop (hostId : String) (hostRevision : ℕ) (s : StopRow) : Bool :=
  s.identity.hostId == hostId && s.identity.hostRevision == hostRevision && s.result == .pending

def fencedStop (now : ℕ) (s : StopRow) : StopRow :=
  { s with
    result := .reconciliationRequired
    failureCode := some "RUNTIME_RESTART"
    updatedAt := now }

/-- A failed statement rolls the whole transaction back. -/
def rolledBack (e : ServiceError) : Answer × Database := (⟨.error e, []⟩, d)

/-- The write of a method: one transaction. -/
def write : Write → Answer × Database
  | .insert row =>
    if !row.fits then rolledBack d .overflow
    else if !admitsWorkspace d row then
      rolledBack d (.conflict "Project/AgentType workspace already exists")
    else (⟨.ok (.workspace row), []⟩, { d with workspaces := d.workspaces.set row.id row })
  | .update id read new =>
    match updateRow d id read new with
    | .error e => rolledBack d e
    | .ok d' => (⟨.ok (.workspace new), [id]⟩, d')
  | .beginStop id read new stopOperationId record =>
    match updateRow d id read new with
    | .error e => rolledBack d e
    | .ok d' =>
      if !admitsStop d' stopOperationId record then rolledBack d .integrity
      else (⟨.ok (.stop stopOperationId record), [id]⟩,
        { d' with stops := d'.stops.set stopOperationId record })
  | .completeStop id read new stopOperationId record record' =>
    match updateRow d id read new with
    | .error e => rolledBack d e
    | .ok d' =>
      match d'.stops.get? stopOperationId with
      | none => rolledBack d .staleData
      | some stored => (⟨.ok (.stop stopOperationId record'), [id]⟩,
          { d' with stops := d'.stops.set stopOperationId (record.merge record' stored) })
  | .observe hostId host c =>
    (⟨.ok (.classification c), []⟩, { d with hosts := d.hosts.set hostId host })
  | .fence hostId host now =>
    let touched := isFenced hostId host.revision
    (⟨.ok (.classification .runtimeRestart),
        (d.workspaces.items.filter fun e => touched e.2).map Prod.fst⟩,
      { d with
        hosts := d.hosts.set hostId host
        workspaces := d.workspaces.updateWhere touched (fenced now)
        stops := d.stops.updateWhere (isFencedStop hostId host.revision) (fencedStop now) })

end

/-- The service with its read and write steps. -/
def sessions : Service Database Call Write Answer where
  atomic := Call.isAtomic
  read := read
  write := write

end AgentBox.Control
