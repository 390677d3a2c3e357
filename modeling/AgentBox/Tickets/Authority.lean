import AgentBox.Common.Number
import AgentBox.Tickets.Claims
import Mathlib.Data.Finset.Card

/-!
# The attachment authority

Reference: `agentbox_core/waw_tickets.py::AttachmentAuthority`.

The bounded in-memory ticket and writer-lease authority as an explicit state and one `Method` per
public method. What a method takes from outside the object is an argument of it: the readings of
`self._clock()` (used where the caller passes no `now`), the random tokens and calendar times of
`issue`, and the outcome of the publication callbacks. Python object identity is modelled by an
allocation number that `reserve` gives to each handle it creates. The calls made to the publication
callbacks are logged in `callbacks`.
-/

namespace AgentBox.Tickets

/-- A SHA-256 ticket digest. -/
abbrev Digest := List UInt8

/-- A point of civil time; display metadata only. -/
abbrev Timestamp := ℤ

/-- The identity of a Python object that is only ever compared with `is`. -/
abbrev ObjectId := ℕ

variable {τ : Type} [PyNumber τ] [DecidableEq τ]

/-- One transient response containing a bearer and its server-issued claims. -/
structure IssuedAttachmentTicket (τ : Type) where
  ticket : String
  claims : AttachmentTuple
  issuedAtMonotonic : τ
  expiresAtMonotonic : τ
  expiresAt : Timestamp
deriving DecidableEq

/-- An admitted writer lease; terminal bytes and credentials are absent. -/
structure ActiveAttachment (τ : Type) where
  claims : AttachmentTuple
  openedAtMonotonic : τ
  lastHeartbeatMonotonic : τ
  leaseExpiresAtMonotonic : τ
  absoluteExpiresAtMonotonic : τ
  context : Option AuthenticatedAttachmentContext
deriving DecidableEq

def ActiveAttachment.activeAt (a : ActiveAttachment τ) (now : τ) : Prop :=
  now < a.leaseExpiresAtMonotonic ∧ now < a.absoluteExpiresAtMonotonic

instance (a : ActiveAttachment τ) (now : τ) : Decidable (a.activeAt now) :=
  inferInstanceAs (Decidable (_ ∧ _))

structure PendingTicket (τ : Type) where
  digest : Digest
  claims : AttachmentTuple
  issuedAtMonotonic : τ
  expiresAtMonotonic : τ
  context : Option AuthenticatedAttachmentContext
deriving DecidableEq

inductive AdmissionStage
  | reserved | runtimePrepared | verified | preparedAudited | ready | quarantined | committed
  | admittedAudited | active | fenced
deriving DecidableEq, Repr

/-- `tuple(AdmissionStage).index(stage)` -/
def AdmissionStage.index : AdmissionStage → ℕ
  | .reserved => 0
  | .runtimePrepared => 1
  | .verified => 2
  | .preparedAudited => 3
  | .ready => 4
  | .quarantined => 5
  | .committed => 6
  | .admittedAudited => 7
  | .active => 8
  | .fenced => 9

/-- Authority-issued local handle. Its fields are frozen and `identity` is the object's identity, so
two handles are one object exactly when they are equal. -/
structure StagedAttachment (τ : Type) where
  identity : ObjectId
  claims : AttachmentTuple
  context : AuthenticatedAttachmentContext
  connectionId : ObjectId
  startedAtMonotonic : τ
  deadlineMonotonic : τ
  leaseExpiresAtMonotonic : τ
  absoluteExpiresAtMonotonic : τ
deriving DecidableEq

structure StagedRecord (τ : Type) where
  handle : StagedAttachment τ
  stage : AdmissionStage
deriving DecidableEq

/-- A call made to a publication's callbacks on behalf of a handle. -/
inductive PublicationCall (τ : Type)
  | release (handle : StagedAttachment τ)
  | discard (handle : StagedAttachment τ)
  | take (handle : StagedAttachment τ)
deriving DecidableEq

/-- The constructor's arguments, with the checks that `__init__` makes. `leaseSeed` and
`authorityEpoch` are the given or the randomly drawn values. -/
structure Config (τ : Type) [PyNumber τ] where
  authorityEpoch : ℕ
  leaseSeed : ℕ
  ticketTtl : τ
  leaseTtl : τ
  absoluteLease : τ
  maxRecords : ℕ
  replayCacheSize : ℕ
  maxWriters : ℕ
  maxPerAdmin : ℕ
  ttl_positive : ¬ ticketTtl ≤ PyNumber.literal 0 ∧ ¬ leaseTtl ≤ PyNumber.literal 0 ∧
    ¬ absoluteLease ≤ PyNumber.literal 0
  lease_within_absolute : ¬ absoluteLease < leaseTtl
  records_valid : 1 ≤ maxRecords ∧ maxRecords ≤ 64 ∧ 1 ≤ replayCacheSize
  writers_valid : 1 ≤ maxWriters ∧ maxWriters ≤ 32 ∧ 1 ≤ maxPerAdmin ∧ maxPerAdmin ≤ 4
  epoch_valid : 1 ≤ authorityEpoch ∧ authorityEpoch ≤ maxU64
  seed_valid : 1 ≤ leaseSeed ∧ leaseSeed ≤ maxU64

/-- The mutable state of the authority. -/
structure Authority (τ : Type) where
  nextLeaseNumber : ℕ
  pending : Dict Digest (PendingTicket τ)
  active : Dict String (ActiveAttachment τ)
  cleanupPending : Dict String AttachmentTuple
  cleanupContexts : Dict String (Option AuthenticatedAttachmentContext)
  staged : Dict String (StagedRecord τ)
  replayed : List Digest
  shutdownStarted : Bool
  /-- The allocation number of the next handle. -/
  nextIdentity : ObjectId
  callbacks : List (PublicationCall τ)

/-- The state that `__init__` builds. -/
def Authority.initial (cfg : Config τ) : Authority τ where
  nextLeaseNumber := cfg.leaseSeed
  pending := .empty
  active := .empty
  cleanupPending := .empty
  cleanupContexts := .empty
  staged := .empty
  replayed := []
  shutdownStarted := false
  nextIdentity := 0
  callbacks := []

namespace Authority

variable (s : Authority τ)

/-- `self._active.keys() | self._cleanup_pending.keys() | self._staged.keys()` -/
def occupied : Finset String :=
  s.active.keys.toFinset ∪ s.cleanupPending.keys.toFinset ∪ s.staged.keys.toFinset

def recordCount : ℕ := s.pending.length + s.occupied.card

/-- `context is not None and context.user_id == user_id` -/
def names (userId : String) (context : Option AuthenticatedAttachmentContext) : Bool :=
  context.any fun c => c.userId == userId

/-- `_admin_count` -/
def adminCount (userId : String) : ℕ :=
  let contexts := s.pending.values.map PendingTicket.context
    ++ s.active.values.map ActiveAttachment.context
    ++ s.cleanupContexts.values
    ++ (s.staged.items.filter fun e => e.1 ∉ s.active ∧ e.1 ∉ s.cleanupPending).map
        fun e => some e.2.handle.context
  contexts.countP (names userId)

/-- The handles whose publication has been read, in order. -/
def taken : List (StagedAttachment τ) :=
  s.callbacks.filterMap fun
    | .take handle => some handle
    | _ => none

/-- `self._replayed.append(digest)` on the bounded replay cache. -/
def remember (size : ℕ) (replayed : List Digest) (digest : Digest) : List Digest :=
  (replayed ++ [digest]).drop (replayed.length + 1 - size)

/-- Take a ticket out of the pending table and remember its digest. -/
def burn (cfg : Config τ) (digest : Digest) (s : Authority τ) : Authority τ :=
  { s with
    pending := s.pending.erase digest
    replayed := remember cfg.replayCacheSize s.replayed digest }

/-- Turn the active lease of a workspace into a cleanup obligation. -/
def lapse (workspace : String) (lease : ActiveAttachment τ) (s : Authority τ) : Authority τ :=
  { s with
    active := s.active.erase workspace
    cleanupPending := s.cleanupPending.set workspace lease.claims
    cleanupContexts := s.cleanupContexts.set workspace lease.context }

/-- Replace a record's stage and close its workspace behind a cleanup obligation. -/
def fenceRecord (record : StagedRecord τ) (s : Authority τ) : Authority τ :=
  let workspace := record.handle.claims.workspaceId
  { s with
    staged := s.staged.set workspace { record with stage := .fenced }
    active := s.active.erase workspace
    cleanupPending := s.cleanupPending.set workspace record.handle.claims
    cleanupContexts := s.cleanupContexts.set workspace (some record.handle.context) }

end Authority

abbrev AuthorityM (τ : Type) := Method Raised (Authority τ)

variable (handle : StagedAttachment τ)

/-- A comparison of printed fields, raising as `hmac.compare_digest` does. -/
def compared (x : Option Bool) : AuthorityM τ Bool :=
  match x with
  | some b => pure b
  | none => throw .typeError

def rejectShutdown : AuthorityM τ Unit := do
  let s ← get
  Method.raiseIf (s.shutdownStarted = true)
    (.ticket .stale "attachment authority is shutting down")

/-! ## Staged reservations -/

/-- `_exact_staged`; an object of another type fails it as an unknown handle does. -/
def exactStaged : AuthorityM τ (StagedRecord τ) := do
  let s ← get
  match s.staged.get? handle.claims.workspaceId with
  | none => throw (.code .stale)
  | some record =>
    if record.handle = handle then pure record else throw (.code .stale)

/-- Permanently close local authority; retain the slot until exact cleanup. -/
def fence : AuthorityM τ Unit := do
  let record ← exactStaged handle
  modify (Authority.fenceRecord record)

/-- `_check_reserved` -/
def checkReservedAt (now : τ) : AuthorityM τ (StagedRecord τ) := do
  let record ← exactStaged handle
  if PyNumber.isFinite now = false ∨ now < handle.startedAtMonotonic ∨
      pyMin handle.deadlineMonotonic handle.leaseExpiresAtMonotonic ≤ now ∨
      record.stage = .fenced ∨ record.stage = .active then
    if record.stage ≠ .active then
      fence handle
    throw (.code .stale)
  return record

/-- Revalidate local reservation after every external await. -/
def checkReserved (now : Option τ) (clock : τ) : AuthorityM τ Unit := do
  let _ ← checkReservedAt handle (now.getD clock)

/-- Write back a record's stage. -/
def setStage (record : StagedRecord τ) (stage : AdmissionStage) (s : Authority τ) : Authority τ :=
  { s with
    staged := s.staged.set record.handle.claims.workspaceId { record with stage := stage } }

/-- Record one coordinator-proven phase, never skip a required phase. `none` is an argument that is
not an `AdmissionStage`. -/
def advance (stage : Option AdmissionStage) (now : Option τ) (clock : τ) : AuthorityM τ Unit := do
  rejectShutdown
  let record ← checkReservedAt handle (now.getD clock)
  match stage with
  | none => do
    fence handle
    throw (.code .stale)
  | some stage =>
    if stage = .active ∨ stage = .fenced ∨ stage.index ≠ record.stage.index + 1 then
      fence handle
      throw (.code .stale)
    modify (setStage record stage)

/-- Append to the log of publication callbacks. -/
def logCall (c : PublicationCall τ) : AuthorityM τ Unit :=
  modify fun s => { s with callbacks := s.callbacks ++ [c] }

/-- How the callbacks of an `AdmissionPublication` end during one activation. -/
structure PublicationOutcome where
  releaseRaises : Bool
  discardRaises : Bool
deriving DecidableEq, Repr

variable (publication : PublicationOutcome)

/-- The guarded block of an activation: queue readers cannot pass `isActive` while it runs. -/
def releaseReserved (clockAfter : τ) : AuthorityM τ Unit := do
  logCall (.release handle)
  Method.raiseIf (publication.releaseRaises = true) .callback
  let record ← checkReservedAt handle clockAfter
  Method.raiseIf (record.stage ≠ .admittedAudited) (.code .stale)

/-- The handler of that block. -/
def discardReserved : AuthorityM τ Unit := do
  fence handle
  logCall (.discard handle)
  Method.raiseIf (publication.discardRaises = true) .callback
  throw (.code .deliveryFailed)

/-- Linearize ACTIVE and the exact bounded queue release under one lock. `clock` is the reading used
when no `now` is given and `clockAfter` the one taken after the release. -/
def activateWithPublication
    (now : Option τ) (clock clockAfter : τ) : AuthorityM τ (ActiveAttachment τ) := do
  rejectShutdown
  let current := now.getD clock
  let record ← checkReservedAt handle current
  if record.stage ≠ .admittedAudited then
    fence handle
    throw (.code .stale)
  let lease : ActiveAttachment τ := {
    claims := handle.claims
    openedAtMonotonic := current
    lastHeartbeatMonotonic := current
    leaseExpiresAtMonotonic := handle.leaseExpiresAtMonotonic
    absoluteExpiresAtMonotonic := handle.absoluteExpiresAtMonotonic
    context := some handle.context }
  tryCatch (releaseReserved handle publication clockAfter)
    (fun _ => discardReserved handle publication)
  modify fun s =>
    { setStage record .active s with active := s.active.set handle.claims.workspaceId lease }
  return lease

/-! ## Writer leases -/

/-- The branch every reader of an active lease takes when it has expired: the lease becomes a cleanup
obligation and a staged record of the workspace is fenced. -/
def expireLease (workspace : String) (lease : ActiveAttachment τ) : AuthorityM τ Unit := do
  modify (Authority.lapse workspace lease)
  let s ← get
  match s.staged.get? workspace with
  | some record => fence record.handle
  | none => pure ()

variable (expected : AttachmentTuple)

/-- The active lease with exactly these claims and this context. -/
def exactActive (context : Option AuthenticatedAttachmentContext) :
    AuthorityM τ (Option (ActiveAttachment τ)) := do
  let s ← get
  match s.active.get? expected.workspaceId with
  | none => return none
  | some active =>
    if !(← compared (sameTuple active.claims expected)) then return none
    if !(← compared (sameContext active.context context)) then return none
    return some active

/-- Renew an exact active lease without changing its lease number. -/
def heartbeat (cfg : Config τ) (expected : AttachmentTuple) (now : Option τ) (clock : τ)
    (context : Option AuthenticatedAttachmentContext) : AuthorityM τ (ActiveAttachment τ) := do
  rejectShutdown
  let current := now.getD clock
  match ← exactActive expected context with
  | none => throw (.ticket .leaseMismatch "lease does not match")
  | some active =>
    if ¬ active.activeAt current then
      expireLease expected.workspaceId active
      throw (.ticket .leaseExpired "lease has expired")
    let updated := { active with
      lastHeartbeatMonotonic := current
      leaseExpiresAtMonotonic :=
        pyMin (current + cfg.leaseTtl) active.absoluteExpiresAtMonotonic }
    modify fun s => { s with active := s.active.set expected.workspaceId updated }
    return updated

variable (now : Option τ) (clock : τ) (context : Option AuthenticatedAttachmentContext)

/-- Return whether the exact authority-held lease is still current. -/
def isActive : AuthorityM τ Bool := do
  match ← exactActive expected context with
  | none => return false
  | some active =>
    if ¬ active.activeAt (now.getD clock) then
      expireLease expected.workspaceId active
      return false
    return true

/-- Release only the exact active lease; stale callers cannot free a new writer. -/
def detach : AuthorityM τ (ActiveAttachment τ) := do
  match ← exactActive expected context with
  | none => throw (.ticket .leaseMismatch "lease does not match")
  | some active =>
    if ¬ active.activeAt (now.getD clock) then
      expireLease expected.workspaceId active
      throw (.ticket .leaseExpired "lease has expired")
    let s ← get
    match s.staged.get? expected.workspaceId with
    | some record => do
      fence record.handle
      return active
    | none => do
      modify fun s => { s with active := s.active.erase expected.workspaceId }
      return active

/-- Read a complete opaque queue frame only while the exact writer is live. `taken` is what `take`
gives: a frame or nothing, or `none` when it raises. -/
def readPublished (taken : Option (Option (List UInt8))) (clock : τ) :
    AuthorityM τ (Option (List UInt8)) := do
  let record ← exactStaged handle
  if record.stage ≠ .active then return none
  if !(← isActive handle.claims none clock (some handle.context)) then return none
  logCall (.take handle)
  match taken with
  | some frame => return frame
  | none => throw .callback

/-! ## Cleanup -/

/-- Accept exact trusted Runtime proof plus durable failure metadata. -/
def acknowledgeStagedCleanup (connectionId : Option ObjectId)
    (cleanupState : String) (failureAudited : Bool) : AuthorityM τ Unit := do
  let record ← exactStaged handle
  Method.raiseIf (record.stage ≠ .fenced ∨ connectionId ≠ some handle.connectionId ∨
      cleanupState ≠ "ATTACH_PTY_CLOSED" ∨ failureAudited = false)
    (.code .leaseMismatch)
  let workspace := handle.claims.workspaceId
  modify fun s => { s with
    staged := s.staged.erase workspace
    cleanupPending := s.cleanupPending.erase workspace
    cleanupContexts := s.cleanupContexts.erase workspace }

/-- Release an expired writer slot only after exact positive cleanup proof. -/
def acknowledgeCleanup (cleanupState : String) : AuthorityM τ Unit := do
  let s ← get
  let workspace := expected.workspaceId
  Method.raiseIf (workspace ∈ s.staged) (.code .leaseMismatch)
  let mismatch : Raised :=
    .ticket .leaseMismatch "cleanup acknowledgement does not match expired lease"
  match s.cleanupPending.get? workspace with
  | none => throw mismatch
  | some claims =>
    if !(← compared (sameTuple claims expected)) then throw mismatch
    Method.raiseIf (cleanupState ≠ "ATTACH_PTY_CLOSED")
      (.ticket .leaseMismatch "positive PTY cleanup proof is required")
    modify fun s => { s with
      cleanupPending := s.cleanupPending.erase workspace
      cleanupContexts := s.cleanupContexts.erase workspace }

end AgentBox.Tickets
