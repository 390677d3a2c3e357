import AgentBox.Common.Method
import AgentBox.Lifecycle.Stores
import Mathlib.Data.Finset.Insert
import Mathlib.Data.Finset.Erase

/-!
# The lifecycle registry

`WAWLifecycleRegistry` answers requests to start, stop and observe workspaces. It remembers the last
identity and observation of each workspace, a floor below which no generation starts, and which
workspaces are quarantined because a process of theirs may still run. With the durable stores a
generation is burnt before its process is created, and the evidence about its control group decides
whether a next one may start.

Requests are handled one after another. What the executor, the attestation factory and the recovery
observer do during a request is the request's `Script`; `cancelled` stands for a cancellation of the
request at the await that ends so. `World.log` lists the effects in their order.

The other requests (authority, bindings, attachments, evidence) change nothing here but what `Outside`
holds, or hydrate a floor.

Reference: `waw_lifecycle.py`.
-/

namespace AgentBox.Lifecycle

open Method

/-! ## Observations -/

inductive WorkspaceState
  | starting | running | needsInteraction | trustRequired | loginRequired | stopping | exited | stopped
  | missing | collision | broken | unknown
deriving DecidableEq, Repr

inductive ReconciliationState
  | authoritative | stopping | missing | collision | exited | reconciliationRequired | unknown
deriving DecidableEq, Repr

/-- A process state is a workspace state or `NOT_STARTED`. -/
inductive ProcessState
  | notStarted
  | at (state : WorkspaceState)
deriving DecidableEq, Repr

structure Observation where
  state : WorkspaceState
  reconciliation : ReconciliationState
  process : ProcessState
  exitCode : Option ℤ
  runtimeEpoch : ℕ
deriving DecidableEq

/-- `_OBSERVATION_PROCESS_STATES` -/
def WorkspaceState.processes : WorkspaceState → List ProcessState
  | .starting => [.at .running, .notStarted]
  | .running => [.at .running]
  | .needsInteraction => [.at .running]
  | .trustRequired => [.at .running]
  | .loginRequired => [.notStarted]
  | .stopping => [.at .running, .at .stopped]
  | .exited => [.at .stopped]
  | .stopped => [.at .stopped]
  | .missing => [.notStarted]
  | .collision => [.at .unknown]
  | .broken => [.at .unknown]
  | .unknown => [.at .unknown]

/-- `_OBSERVATION_RECONCILIATION_STATES` -/
def WorkspaceState.reconciliations : WorkspaceState → List ReconciliationState
  | .starting => [.authoritative, .stopping]
  | .running => [.authoritative]
  | .needsInteraction => [.authoritative]
  | .trustRequired => [.authoritative]
  | .loginRequired => [.authoritative]
  | .stopping => [.stopping, .authoritative]
  | .exited => [.exited, .authoritative]
  | .stopped => [.authoritative]
  | .missing => [.missing]
  | .collision => [.collision]
  | .broken => [.reconciliationRequired, .unknown]
  | .unknown => [.reconciliationRequired, .unknown]

/-- The states in which a start is answered `ALREADY_RUNNING`. -/
def WorkspaceState.isRunning (state : WorkspaceState) : Bool :=
  [.running, .needsInteraction, .trustRequired, .loginRequired].contains state

/-! ## Requests -/

inductive Code
  | protocolInvalid | bindingBootstrapRequired | agentUnsupported | reconciliationRequired
  | projectIdentityChanged | runtimeInstallationMismatch | workspaceNotFound | workspaceNotRunning
  | runtimeUnavailable | runtimePeerForbidden | internalBounded
deriving DecidableEq, Repr

/-- What a request can end with instead of an answer. -/
inductive Fault
  /-- `WAWControlDispatchError` -/
  | dispatch (code : Code)
  /-- `WAWCgroupAttestationError` -/
  | attestationInvalid
  /-- `WAWCgroupAttestationStoreError` -/
  | recordStore
  /-- `WAWWorkspaceAttestationError` -/
  | attestationStore
  /-- `RuntimeOperationError`, `OSError` or `TimeoutError` -/
  | operation
  /-- any other `Exception` -/
  | other
  /-- `asyncio.CancelledError`, which is no `Exception` -/
  | cancelled
deriving DecidableEq, Repr

inductive Action
  | start | stop | status | reconcile
deriving DecidableEq, Repr

structure Request where
  requestId : String
  action : Action
  identity : Identity
deriving DecidableEq

inductive Status
  | started | alreadyRunning | stopped | stopInProgress | alreadyStopped | observed | reconciled
  | reconciliationRequired
deriving DecidableEq, Repr

/-- An answer: its fields are those of the request and of the observation. -/
structure Response where
  request : Request
  status : Status
  observation : Option Observation
deriving DecidableEq

/-- How the bounded wait for a cleanup stop ends. -/
inductive Cleanup
  | done (result : Except Fault Observation)
  /-- the time is over; the task goes on detached -/
  | pending
  /-- the request was cancelled; the task goes on detached -/
  | cancelled

/-- What the ports do during one request. -/
structure Script where
  /-- the executor's method for the action -/
  call : Except Fault Observation
  /-- `_build_cgroup_attestation` -/
  factory : Except Fault CgroupRecord
  /-- the executor's `stop` in `_cleanup_failed_start` -/
  cleanup : Cleanup
  finalizePrevious : Except Fault Unit
  observeRecovery : Except Fault CgroupRecord
  finalizeCandidate : Except Fault Unit

/-! ## State -/

structure Config where
  hostId : String
  hostRevision : String
  runtimeEpoch : ℕ
  /-- the workspace attestation store is configured -/
  hasAttestations : Bool
  /-- the cgroup attestation store is configured -/
  hasRecords : Bool
  hasExecutor : Bool
  /-- the factory is a `WAWCgroupRecoveryObserver` -/
  observes : Bool
  /-- the factory is a `WAWCgroupRecoveryCleaner` -/
  cleans : Bool
  /-- the records that the attestation codec accepts -/
  encodes : CgroupRecord → Bool
  /-- `_SUPPORTED_AGENT_TYPES` -/
  supports : String → Bool

inductive Effect
  | startCalled (i : Identity)
  | stopCalled (i : Identity)
  | stopReturned (i : Identity) (o : Observation)
  | observeCalled (i : Identity)
  | attested (a : Attestation)
  | recorded (r : CgroupRecord)
deriving DecidableEq

/-- What the requests other than the lifecycle's change. -/
structure Outside where
  /-- the epoch of the API authority -/
  authority : Option String
  /-- revision and digest of each Project's binding -/
  bindings : Dict String (String × String)
  cache : Dict String (Request × Response)
  /-- how the dispatch gate and the peer check refuse everything -/
  refuses : Option Fault

structure World extends Outside where
  workspaces : Dict String (Identity × Observation)
  floor : String → ℕ
  recoveredFloor : String → ℕ
  quarantine : Finset String
  detached : List Identity
  attestations : Attestations
  records : Records
  log : List Effect

abbrev Op := Method Fault World

section
variable (cfg : Config) (s : World) (action : Action) (i : Identity) (request : Request)
  (script : Script) (r : CgroupRecord)

def note (e : Effect) : Op Unit := modify fun s => { s with log := s.log ++ [e] }

variable (w : String)

def isolate : Op Unit := modify fun s => { s with quarantine := insert w s.quarantine }

def raiseFloor (g : ℕ) : Op Unit :=
  modify fun s => { s with floor := Function.update s.floor w (max (s.floor w) g) }

variable (o : Observation)

/-- `_validate_observation` -/
def validate : Except Fault Unit :=
  if !o.state.reconciliations.contains o.reconciliation then .error (.dispatch .internalBounded)
  else if !o.state.processes.contains o.process then .error (.dispatch .internalBounded)
  else if o.exitCode.isSome ≠ (o.state = .exited) then .error (.dispatch .internalBounded)
  else if o.runtimeEpoch = 0 then .error (.dispatch .internalBounded)
  else if o.runtimeEpoch ≠ cfg.runtimeEpoch then .error (.dispatch .runtimeInstallationMismatch)
  else if o.exitCode.any fun c => c < -128 || 255 < c then .error (.dispatch .internalBounded)
  else .ok ()

/-! ## Before the decision -/

/-- `_hydrate_durable_generation_floor` -/
def World.hydrate : World :=
  match cfg.hasAttestations, s.attestations.get? w with
  | true, some a =>
    { s with
      floor := Function.update s.floor w (max (s.floor w) a.minGeneration)
      quarantine :=
        if w ∉ s.workspaces ∧ s.recoveredFloor w < a.minGeneration then insert w s.quarantine
        else s.quarantine }
  | _, _ => s

/-- `_check_identity` -/
def checkIdentity : Except Fault Unit :=
  if i.generation < 1 ∨ 0xFFFFFFFFFFFFFFFF < i.generation then .error (.dispatch .protocolInvalid)
  else if i.generation < s.floor i.workspaceId then
    .error (.dispatch
      (if i.workspaceId ∉ s.workspaces then .reconciliationRequired else .projectIdentityChanged))
  else if i.hostId ≠ cfg.hostId ∨ i.hostRevision ≠ cfg.hostRevision then
    .error (.dispatch .runtimeInstallationMismatch)
  else
    match s.bindings.get? i.projectId with
    | none => .error (.dispatch .bindingBootstrapRequired)
    | some binding =>
      if (i.bindingRevision, i.bindingDigest) ≠ binding then
        .error (.dispatch .projectIdentityChanged)
      else .ok ()

/-- The only evidence that is not settled is that of the running generation. -/
def activeLive (snapshot : Snapshot) : Bool :=
  match s.workspaces.get? i.workspaceId, snapshot.latestUnresolved with
  | some current, some r =>
    current.1.generation == i.generation && snapshot.unresolvedGenerations == [r.generation] &&
      r.cleanup == .live && r.populated
  | _, _ => false

/-- What the evidence about earlier generations means for the request. -/
def World.screen : Option World :=
  if !cfg.hasRecords || i.workspaceId ∈ s.quarantine then some s
  else
    (s.records.snapshot i.workspaceId).map fun snapshot =>
      { s with
        floor := Function.update s.floor i.workspaceId
          (max (s.floor i.workspaceId) (snapshot.latestGeneration.getD 0))
        quarantine :=
          if snapshot.latestUnresolved.isSome && !activeLive s i snapshot then
            insert i.workspaceId s.quarantine
          else s.quarantine }

/-! ## Evidence -/

/-- `_cgroup_attestation_store.write(record)` -/
def writeRecord : Op Unit := do
  match write cfg.encodes (← get).records r with
  | none => throw .recordStore
  | some .unchanged => pure ()
  | some .replaced =>
    modify fun s => { s with records := s.records.put r }
    note (.recorded r)

/-- `_fence_cgroup_attestation` -/
def fenceRecord : Op Unit :=
  if cfg.hasRecords then writeRecord cfg (if r.cleanup = .live then { r with cleanup := .fenced } else r)
  else pure ()

/-- `_fence_cgroup_for_identity` -/
def fenceIdentity : Op Unit := do
  if cfg.hasRecords then
    match (← get).records.get? i.workspaceId i.generation with
    | none => pure ()
    | some r => fenceRecord cfg r
  else pure ()

/-- `verify_waw_cgroup_attestation_context` for an identity. -/
def matchesContext (i : Identity) : Bool :=
  r.workspaceId == i.workspaceId && r.projectId == i.projectId && r.agentType == i.agentType &&
    r.runtimeEpoch == cfg.runtimeEpoch && r.generation == i.generation

/-! ## Recovery -/

/-- The active identity, or the binding, that the acknowledged record has to belong to. -/
def acknowledges (binding : String × String) : Bool :=
  match s.workspaces.get? r.workspaceId with
  | some (active, _) =>
    active.projectId == r.projectId && active.agentType == r.agentType &&
      active.generation == r.generation && active.hostId == cfg.hostId &&
      active.hostRevision == cfg.hostRevision &&
      binding == (active.bindingRevision, active.bindingDigest)
  | none => s.bindings.get? r.projectId == some binding

variable (a : Attestation)

/-- The floor that an acknowledged record has to settle. -/
def settlesFloor (r : CgroupRecord) (binding : String × String) : Bool :=
  a.minGeneration == r.generation && binding == (a.bindingRevision, a.bindingDigest) &&
    a.hostId == cfg.hostId && a.hostRevision == cfg.hostRevision &&
    decide (a.runtimeEpoch ≤ cfg.runtimeEpoch)

/-- The stored record that an acknowledgement is about: the latest unresolved one, or the one of the
same generation. -/
def acknowledged : Op CgroupRecord :=
  match s.records.snapshot r.workspaceId with
  | none => throw .recordStore
  | some snapshot =>
    match snapshot.latestUnresolved.or (s.records.get? r.workspaceId r.generation) with
    | some found =>
      if r.generation ≠ found.generation then throw (.dispatch .reconciliationRequired)
      else pure found
    | none => throw (.dispatch .reconciliationRequired)

def replaceRecord : Op Unit := do
  modify fun s => { s with records := s.records.put r }
  note (.recorded r)

/-- Every record of the workspace is `EMPTY_DURABLE`. -/
def allEmpty : Bool :=
  match s.records.ofWorkspace w with
  | some records => (unresolved records).isEmpty
  | none => false

/-- The record is made durable; the result is `fully_empty`. -/
def settleRecord (found r : CgroupRecord) : Op Bool := do
  let s ← get
  if found.runtimeEpoch < cfg.runtimeEpoch || (found.present && !r.present) then
    match recoverEmpty cfg.encodes s.records found r with
    | none => throw (.dispatch .reconciliationRequired)
    | some .unchanged => pure true
    | some .replaced =>
      replaceRecord r
      pure true
  else if found = r then
    match s.records.snapshot r.workspaceId with
    | none => throw (.dispatch .reconciliationRequired)
    | some snapshot =>
      pure (snapshot.unresolvedGenerations.isEmpty &&
        snapshot.latestGeneration == some r.generation)
  else
    match acknowledgeEmpty cfg.encodes s.records r with
    | none => throw (.dispatch .reconciliationRequired)
    | some () =>
      replaceRecord r
      return allEmpty (← get) r.workspaceId

/-- `recover_epoch(expected=floor, empty=record)` -/
def recoverEpoch (r : CgroupRecord) : Op Unit := do
  if cfg.encodes r && r.workspaceId == a.workspaceId && r.generation == a.minGeneration &&
      decide (a.runtimeEpoch < r.runtimeEpoch) then
    modify fun s =>
      { s with attestations := s.attestations.put { a with runtimeEpoch := r.runtimeEpoch } }
    note (.attested { a with runtimeEpoch := r.runtimeEpoch })
  else throw (.dispatch .reconciliationRequired)

/-- A workspace that is not quarantined becomes so, if there is anything to acknowledge. -/
def enterAcknowledgement : Op Unit :=
  if r.workspaceId ∉ s.quarantine then
    match s.records.snapshot r.workspaceId with
    | none => throw (.dispatch .reconciliationRequired)
    | some snapshot => do
        raiseIf (snapshot.latestUnresolved = none ∧
          s.records.get? r.workspaceId r.generation ≠ some r) (.dispatch .reconciliationRequired)
        isolate r.workspaceId
  else pure ()

/-- The record is made durable if it belongs to the workspace's floor. -/
def settleFloor (found r : CgroupRecord) (binding : String × String) : Op Bool :=
  match cfg.hasAttestations, s.attestations.get? r.workspaceId with
  | false, _ => settleRecord cfg found r
  | true, none => throw (.dispatch .reconciliationRequired)
  | true, some a => do
      raiseIf (¬settlesFloor cfg a r binding) (.dispatch .reconciliationRequired)
      let empty ← settleRecord cfg found r
      onlyIf (empty ∧ a.runtimeEpoch ≠ cfg.runtimeEpoch) (recoverEpoch cfg a r)
      pure empty

/-- The workspace is no longer quarantined. -/
def clear (g : ℕ) : Op Unit :=
  modify fun s =>
    { s with
      quarantine := s.quarantine.erase w
      recoveredFloor := Function.update s.recoveredFloor w g }

/-- `_acknowledge_cgroup_cleanup_unlocked` -/
def acknowledge (binding : String × String) : Op Unit := do
  let s ← get
  enterAcknowledgement s r
  raiseIf (r.cleanup ≠ .emptyDurable ∨ r.populated ∨ r.hasLeaves) (.dispatch .reconciliationRequired)
  raiseIf (r.runtimeEpoch ≠ cfg.runtimeEpoch) (.dispatch .runtimeInstallationMismatch)
  raiseIf (¬acknowledges cfg s r binding) (.dispatch .reconciliationRequired)
  let found ← acknowledged s r
  raiseIf (found.projectId ≠ r.projectId ∨ found.agentType ≠ r.agentType ∨ found.limits ≠ r.limits)
    .attestationInvalid
  let fullyEmpty ← settleFloor cfg s found r binding
  onlyIf fullyEmpty (clear r.workspaceId r.generation)

/-- The exceptions that `_recover_persisted_workspace` catches. -/
def isRecoverable : Fault → Bool
  | .dispatch _ | .recordStore | .attestationStore | .operation => true
  | _ => false

/-- The floor that is about to be recovered belongs to the request's binding and to this host. -/
def recovers (snapshot : Snapshot) : Bool :=
  snapshot.latestGeneration == some a.minGeneration && a.bindingRevision == i.bindingRevision &&
    a.bindingDigest == i.bindingDigest && a.hostId == cfg.hostId &&
    a.hostRevision == cfg.hostRevision && decide (a.runtimeEpoch ≤ cfg.runtimeEpoch)

def finalizesPrevious : Bool :=
  cfg.cleans && (s.records.get? i.workspaceId a.minGeneration).any fun r =>
    r.cleanup == .emptyDurable && r.runtimeEpoch == cfg.runtimeEpoch && r.present

/-- The body of the `try` in `_recover_persisted_workspace`. -/
def tryRecover : Op Unit := do
  let s ← get
  match s.records.snapshot i.workspaceId with
  | none => throw .recordStore
  | some snapshot =>
    match s.attestations.get? i.workspaceId with
    | none => pure ()
    | some a =>
      if recovers cfg i a snapshot then
        onlyIf (finalizesPrevious cfg s i a) (Method.liftExcept script.finalizePrevious)
        let candidate ← Method.liftExcept script.observeRecovery
        acknowledge cfg candidate (i.bindingRevision, i.bindingDigest)
        onlyIf cfg.cleans (Method.liftExcept script.finalizeCandidate)
      else pure ()

/-- `_recover_persisted_workspace` -/
def recover : Op Unit := do
  let s ← get
  if i.workspaceId ∈ s.workspaces || !cfg.hasAttestations || !cfg.hasRecords || !cfg.observes ||
      !s.detached.isEmpty then
    pure ()
  else
    tryCatch (tryRecover cfg i script) fun e =>
      if isRecoverable e then isolate i.workspaceId else throw e

/-! ## Failed starts -/

/-- A process is known to be gone. -/
def Observation.isStopped : Bool :=
  o.state == .stopped && o.process == .at .stopped && o.reconciliation == .authoritative

/-- `_register_detached_cleanup` -/
def registerDetached : Op Unit :=
  modify fun s =>
    { s with
      detached := s.detached ++ [i]
      quarantine := insert i.workspaceId s.quarantine }

/-- `_cleanup_failed_start` -/
def cleanupFailedStart (cleanup : Cleanup) : Op Unit := do
  raiseIf (32 ≤ (← get).detached.length) (.dispatch .reconciliationRequired)
  note (.stopCalled i)
  match cleanup with
  | .cancelled =>
    registerDetached i
    throw .cancelled
  | .pending =>
    registerDetached i
    throw (.dispatch .reconciliationRequired)
  | .done (.error e) => throw e
  | .done (.ok o) =>
    note (.stopReturned i o)
    Method.liftExcept (validate cfg o)
    raiseIf (¬o.isStopped) (.dispatch .reconciliationRequired)

/-- What is remembered of a start that failed. -/
def unknownObservation : Observation :=
  ⟨.unknown, .reconciliationRequired, .at .unknown, none, cfg.runtimeEpoch⟩

def stoppedObservation : Observation := ⟨.stopped, .authoritative, .at .stopped, none, cfg.runtimeEpoch⟩

def remember : Op Unit :=
  modify fun s => { s with workspaces := s.workspaces.set i.workspaceId (i, o) }

def release : Op Unit :=
  modify fun s => { s with quarantine := s.quarantine.erase w }

/-- `_rollback_failed_executor_start` -/
def rollback (cleanup : Cleanup) : Op Unit := do
  raiseFloor i.workspaceId i.generation
  remember i (unknownObservation cfg)
  isolate i.workspaceId
  tryCatch (cleanupFailedStart cfg i cleanup) fun e => do
    fenceIdentity cfg i
    throw (if e = .cancelled then .cancelled else .dispatch .reconciliationRequired)
  fenceIdentity cfg i
  remember i (stoppedObservation cfg)
  onlyIf (!cfg.hasAttestations && !cfg.hasRecords) (release i.workspaceId)

/-- An exception becomes the request's answer to reconcile; a cancellation goes on. -/
def orReconcile (m : Op Unit) : Op Unit :=
  tryCatch m fun e => throw (if e = .cancelled then .cancelled else .dispatch .reconciliationRequired)

/-- An exception is put aside; a cancellation goes on. -/
def putAside (m : Op Unit) : Op Unit :=
  tryCatch m fun e => if e = .cancelled then throw .cancelled else pure ()

/-- The evidence of a failed request is fenced, if there is any. -/
def fenceBuilt : Op Unit :=
  match script.factory with
  | .ok r => fenceRecord cfg r
  | .error _ => fenceIdentity cfg i

/-- Cleanup and fencing after the executor has started the process. -/
def abandonStart : Op Unit := do
  putAside (cleanupFailedStart cfg i script.cleanup)
  putAside (fenceBuilt cfg i script)
  throw (.dispatch .reconciliationRequired)

/-! ## Carrying out a request -/

/-- `_attestation_store.advance`, before the executor does anything. -/
def burn : Op Unit := do
  match advance (← get).attestations i cfg.runtimeEpoch with
  | some a =>
    modify fun s => { s with attestations := s.attestations.put a }
    note (.attested a)
  | none =>
    isolate i.workspaceId
    throw (.dispatch .reconciliationRequired)

/-- The call that an action makes. -/
def callOf : Effect :=
  match action with
  | .start => .startCalled i
  | .stop => .stopCalled i
  | _ => .observeCalled i

/-- What the executor's method returns, checked. -/
def takeResult : Op Observation := do
  let o ← Method.liftExcept script.call
  onlyIf (action = .stop) (note (.stopReturned i o))
  Method.liftExcept (validate cfg o)
  pure o

/-- The handler of a call that failed. -/
def callFailed (e : Fault) : Op Observation :=
  match action with
  | .start => do
      rollback cfg i script.cleanup
      throw e
  | .stop =>
    if cfg.hasRecords then do
      isolate i.workspaceId
      orReconcile (fenceIdentity cfg i)
      throw (.dispatch .reconciliationRequired)
    else throw e
  | _ => throw e

/-- `await method(identity)` with its handler. -/
def callExecutor : Op Observation := do
  note (callOf action i)
  tryCatch (takeResult cfg action i script) (callFailed cfg action i script)

/-- The record of a started generation is live and populated, that of a stopped one is not live. -/
def isExpected : Bool :=
  if action = .start then r.cleanup == .live && r.populated else r.cleanup != .live

/-- The evidence after a start or a stop is built, checked and written. -/
def attest : Op Unit := do
  let r ← Method.liftExcept script.factory
  raiseIf (¬matchesContext cfg r i) .attestationInvalid
  raiseIf (¬isExpected action r) (.dispatch .reconciliationRequired)
  writeRecord cfg r

/-- The evidence after a start or a stop, with the handlers. -/
def collectEvidence : Op Unit :=
  if cfg.hasRecords then
    match action with
    | .start =>
      tryCatch (attest cfg .start i script) fun e =>
        if e = .cancelled then throw e else abandonStart cfg i script
    | .stop =>
      tryCatch (attest cfg .stop i script) fun e =>
        if e = .cancelled then throw e
        else do
          isolate i.workspaceId
          orReconcile (fenceBuilt cfg i script)
          throw (.dispatch .reconciliationRequired)
    | _ => pure ()
  else pure ()

/-- The reserved generation is read back after the start. -/
def readBack : Op Unit := do
  let found := (← get).attestations.get? i.workspaceId
  onlyIf (cfg.hasAttestations ∧ found ≠ some (i.attested cfg.runtimeEpoch)) do
    isolate i.workspaceId
    abandonStart cfg i script

def answerOf : Status :=
  match action with
  | .start => .started
  | .stop => if o.state = .stopped then .stopped else .stopInProgress
  | .status => .observed
  | .reconcile => .reconciled

/-- The exact stop that may retry a failed cleanup, in the composition without stores. -/
def isCleanupRetry : Bool :=
  request.action == .stop && !cfg.hasAttestations && !cfg.hasRecords &&
    (s.workspaces.get? request.identity.workspaceId).any (fun current =>
      current.1 == request.identity) && !s.detached.contains request.identity

/-- The request has passed all checks. -/
def perform (retry : Bool) (script : Script) : Op Response := do
  let i := request.identity
  onlyIf (request.action = .start ∧ cfg.hasAttestations) (burn cfg i)
  let o ← callExecutor cfg request.action i script
  collectEvidence cfg request.action i script
  onlyIf (request.action = .start) (readBack cfg i script)
  remember i o
  onlyIf (retry ∧ o.state = .stopped) (release i.workspaceId)
  onlyIf (request.action = .start) (raiseFloor i.workspaceId i.generation)
  return ⟨request, answerOf request.action o, some o⟩

/-! ## The decision -/

inductive Verdict
  | refuse (code : Code)
  | alreadyRunning (o : Observation)
  | alreadyStopped (o : Observation)
  | go
deriving DecidableEq

/-- The checks of a start against the remembered workspace. -/
def startVerdict : Option (Identity × Observation) → Verdict
  | some (current, o) =>
    if current.projectId ≠ i.projectId ∨ current.agentType ≠ i.agentType ∨
        current.bindingRevision ≠ i.bindingRevision ∨ current.bindingDigest ≠ i.bindingDigest then
      .refuse .projectIdentityChanged
    else if current ≠ i ∧ i.generation ≤ s.floor i.workspaceId then .refuse .projectIdentityChanged
    else if current = i ∧ o.state = .stopped then .refuse .projectIdentityChanged
    else if o.state.isRunning then .alreadyRunning o
    else if i.generation ≤ s.floor i.workspaceId then .refuse .projectIdentityChanged
    else .go
  | none =>
    if i.generation ≤ s.floor i.workspaceId then
      .refuse (if cfg.hasAttestations then .reconciliationRequired else .projectIdentityChanged)
    else .go

/-- The checks of a request against the remembered workspace. -/
def verdict : Verdict :=
  let current := s.workspaces.get? request.identity.workspaceId
  let decided :=
    match request.action, current with
    | .start, current => startVerdict cfg s request.identity current
    | _, none => .refuse .workspaceNotFound
    | action, some (i, o) =>
      if i ≠ request.identity then .refuse .projectIdentityChanged
      else if action = .stop ∧ o.state = .stopped then .alreadyStopped o
      else .go
  if decided = .go ∧ !cfg.hasExecutor then .refuse .runtimeUnavailable else decided

/-- The request has been found consistent with the quarantine. -/
def resolve (retry : Bool) (script : Script) : Op Response := do
  match verdict cfg (← get) request with
  | .refuse code => throw (.dispatch code)
  | .alreadyRunning o => return ⟨request, .alreadyRunning, some o⟩
  | .alreadyStopped o =>
    orReconcile (fenceIdentity cfg request.identity)
    return ⟨request, .alreadyStopped, some o⟩
  | .go => perform cfg request retry script

/-- The checks up to the evidence about earlier generations. -/
def admission : Op Unit := do
  let s ← get
  raiseIf (s.authority = none) (.dispatch .bindingBootstrapRequired)
  raiseIf (¬cfg.supports request.identity.agentType) (.dispatch .agentUnsupported)
  modify fun s => s.hydrate cfg request.identity.workspaceId
  Method.liftExcept (checkIdentity cfg (← get) request.identity)

/-- The evidence about earlier generations, and recovery from it. -/
def examine : Op Unit := do
  match (← get).screen cfg request.identity with
  | none => throw (.dispatch .reconciliationRequired)
  | some t => do
      modify fun _ => t
      onlyIf (request.action = .start ∧ request.identity.workspaceId ∈ t.quarantine)
        (recover cfg request.identity script)

/-- What the quarantine leaves of the request. -/
def respond : Op Response := do
  let s ← get
  if request.action = .reconcile ∧ request.identity.workspaceId ∈ s.quarantine then
    return ⟨request, .reconciliationRequired, none⟩
  else
    raiseIf (request.identity.workspaceId ∈ s.quarantine ∧ ¬isCleanupRetry cfg s request)
      (.dispatch .reconciliationRequired)
    resolve cfg request (isCleanupRetry cfg s request) script

/-- `_lifecycle` -/
def lifecycle : Op Response := do
  admission cfg request
  examine cfg request script
  respond cfg request script

/-- The request cache after an answer: it keeps the newest 1024. -/
def remembered (cache : Dict String (Request × Response)) (request : Request) (response : Response) :
    Dict String (Request × Response) :=
  let next := (cache.erase request.requestId).set request.requestId (request, response)
  if next.length ≤ 1024 then next
  else
    match next.keys.head? with
    | some oldest => next.erase oldest
    | none => next

/-- `dispatch(request)`; the fingerprint of a request is the request. -/
def dispatch : Op Response := do
  let s ← get
  match s.refuses, s.cache.get? request.requestId with
  | some e, _ => throw e
  | none, some (known, response) =>
    raiseIf (known ≠ request) (.dispatch .protocolInvalid)
    return response
  | none, none =>
    let response ← lifecycle cfg request script
    modify fun s => { s with cache := remembered s.cache request response }
    return response

/-! ## Runs -/

inductive Event
  | dispatch (request : Request) (script : Script)
  /-- the cleanup task at this place of the list ends -/
  | detachedDone (n : ℕ) (result : Except Fault Observation)
  /-- a request about the authority, the bindings, an attachment -/
  | outside (change : Outside)
  /-- a request for executable evidence hydrates the floor of a workspace -/
  | hydrate (w : String)

/-- `_consume_detached_cleanup` -/
def World.detachedDone (n : ℕ) (result : Except Fault Observation) : World :=
  match s.detached[n]? with
  | none => s
  | some i =>
    { s with
      detached := s.detached.eraseIdx n
      log := s.log ++ (match result with
        | .ok o => [.stopReturned i o]
        | .error _ => []) }

def World.step : Event → World
  | .dispatch request script => ((AgentBox.Lifecycle.dispatch cfg request script).call s).2
  | .detachedDone n result => s.detachedDone n result
  | .outside change => { s with toOutside := change }
  | .hydrate w => s.hydrate cfg w

/-- A registry that has just been created over the two directories. -/
def World.initial (outside : Outside) (attestations : Attestations) (records : Records) : World where
  toOutside := outside
  workspaces := .empty
  floor := fun _ => 0
  recoveredFloor := fun _ => 0
  quarantine := ∅
  detached := []
  attestations := attestations
  records := records
  log := []

end

/-! ## A small registry -/

namespace Sample

/-- A host with both stores. -/
def config : Config where
  hostId := "h"
  hostRevision := "1"
  runtimeEpoch := 1
  hasAttestations := true
  hasRecords := true
  hasExecutor := true
  observes := true
  cleans := false
  encodes := fun _ => true
  supports := fun _ => true

/-- The same host without stores. -/
def bare : Config := { config with hasAttestations := false, hasRecords := false }

variable (generation : ℕ)

def identity : Identity := ⟨"w", "p", "a", generation, "1", "d", "h", "1"⟩

def outside : Outside where
  authority := some "e"
  bindings := Dict.empty.set "p" ("1", "d")
  cache := .empty
  refuses := none

def initial : World := .initial outside .empty .empty

def running : Observation := ⟨.running, .authoritative, .at .running, none, 1⟩

def stopped : Observation := ⟨.stopped, .authoritative, .at .stopped, none, 1⟩

def record (cleanup : CleanupState) : CgroupRecord where
  workspaceId := "w"
  projectId := "p"
  agentType := "a"
  generation := generation
  runtimeEpoch := 1
  layout := ""
  limits := ""
  invocation := ""
  anchors := ""
  physical := ""
  hasLeaves := false
  frozen := false
  populated := cleanup = .live
  cleanup := cleanup
  present := true

/-- The executor returns an observation and the factory a record. -/
def script (o : Observation) (r : CgroupRecord) : Script where
  call := .ok o
  factory := .ok r
  cleanup := .pending
  finalizePrevious := .ok ()
  observeRecovery := .error .other
  finalizeCandidate := .ok ()

def start : Request := ⟨"start " ++ toString generation, .start, identity generation⟩

def stop : Request := ⟨"stop " ++ toString generation, .stop, identity generation⟩

def started : Event := .dispatch (start generation) (script running (record generation .live))

end Sample

end AgentBox.Lifecycle
