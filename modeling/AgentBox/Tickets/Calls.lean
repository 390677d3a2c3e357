import AgentBox.Tickets.Authority

/-!
# Bulk operations, tickets and calls of the attachment authority

Reference: `agentbox_core/waw_tickets.py::AttachmentAuthority`.

The methods that walk a whole table, those that create and redeem tickets, and the calls a client can
make. `step` is the state a call leaves behind, whether it returns or raises.
-/

namespace AgentBox.Tickets

variable {τ : Type} [PyNumber τ] [DecidableEq τ]
variable (cfg : Config τ)

/-! ## Bulk operations

Each loop runs over a snapshot. A body writes only the entry of its own turn, so what the snapshot
says of an entry is what the source reads from it then. -/

/-- `_burn_pending_and_fence_live_records`: retain every live writer record until its exact cleanup
proof arrives. -/
def burnPendingAndFenceLiveRecords : AuthorityM τ Unit := do
  modify fun s => { s with
    replayed := s.pending.keys.foldl (Authority.remember cfg.replayCacheSize) s.replayed
    pending := .empty }
  let s ← get
  s.active.items.foldlM
    (fun _ (workspace, active) => do
      let s ← get
      match s.staged.get? workspace with
      | some record => fence record.handle
      | none => modify (Authority.lapse workspace active)) ()
  let s ← get
  s.staged.values.foldlM
    (fun _ record => if record.stage ≠ .fenced then fence record.handle else pure ()) ()

/-- Synchronously fence issuance and retain every cleanup obligation. -/
def beginShutdown : AuthorityM τ Unit := do
  let s ← get
  if s.shutdownStarted then return
  modify fun s => { s with shutdownStarted := true }
  burnPendingAndFenceLiveRecords cfg

/-- Burn tickets and retain all live writer cleanup obligations. -/
def invalidateAll : AuthorityM τ Unit := burnPendingAndFenceLiveRecords cfg

variable (sessionId : String) (authEpoch : ℕ)

/-- `context.session_id == session_id and context.auth_epoch == auth_epoch` -/
def inSession (context : AuthenticatedAttachmentContext) : Bool :=
  context.sessionId == sessionId && context.authEpoch == authEpoch

/-- Fence tickets and leases for one authenticated session epoch. -/
def revokeSession : AuthorityM τ (List String) := do
  Method.raiseIf (sessionId = "") (.ticket .invalid "session_id is invalid")
  Method.raiseIf ((validatePositiveU64 "auth_epoch" authEpoch).isOk = false)
    (.ticket .invalid "auth_epoch is invalid")
  let s ← get
  let revoked ← s.pending.items.foldlM
    (fun revoked (digest, pending) =>
      if pending.context.any (inSession sessionId authEpoch) then do
        modify (Authority.burn cfg digest)
        return revoked ++ [pending.claims.attachmentId]
      else return revoked) []
  let s ← get
  let revoked ← s.active.items.foldlM
    (fun revoked (workspace, active) =>
      if active.context.any (inSession sessionId authEpoch) then do
        modify (Authority.lapse workspace active)
        return revoked ++ [active.claims.attachmentId]
      else return revoked) revoked
  let s ← get
  s.staged.values.foldlM
    (fun revoked record =>
      if inSession sessionId authEpoch record.handle.context then do
        fence record.handle
        return if record.handle.claims.attachmentId ∉ revoked then
          revoked ++ [record.handle.claims.attachmentId] else revoked
      else return revoked) revoked

/-- Remove expired pending tickets and leases without evicting live records. -/
def sweep (now : Option τ) (clock : τ) : AuthorityM τ (List String) := do
  let current := now.getD clock
  let s ← get
  let expired ← s.pending.items.foldlM
    (fun expired (digest, pending) =>
      if pending.expiresAtMonotonic ≤ current then do
        modify (Authority.burn cfg digest)
        return expired ++ [pending.claims.attachmentId]
      else return expired) []
  let s ← get
  let expired ← s.active.items.foldlM
    (fun expired (workspace, active) =>
      if ¬ active.activeAt current then do
        expireLease workspace active
        return expired ++ [active.claims.attachmentId]
      else return expired) expired
  let s ← get
  s.staged.values.foldlM
    (fun expired record =>
      if record.stage ≠ .active ∧ record.stage ≠ .fenced ∧
          record.handle.deadlineMonotonic ≤ current then do
        fence record.handle
        return expired ++ [record.handle.claims.attachmentId]
      else return expired) expired

/-! ## Tickets -/

/-- `_allocate_lease_number` -/
def allocateLeaseNumber : AuthorityM τ ℕ := do
  let s ← get
  let number := if s.nextLeaseNumber = 0 then 1 else s.nextLeaseNumber
  Method.raiseIf (maxU64 < number) (.code .sequenceExhausted)
  modify fun s => { s with nextLeaseNumber := number + 1 }
  return number

/-- `_ticket_digest`; its three format checks raise one error. -/
def ticketDigest (ticket : String) : Except Raised Digest :=
  if matchesHexAfter "wat_" 32 ticket then .ok (sha256 (utf8 ticket))
  else .error (.ticket .invalid "ticket format is invalid")

/-- The 32 hexadecimal digits that `secrets.token_hex(16)` draws. -/
def HexToken : Type := { token : String // matchesHexAfter "" 32 token = true }

/-- What one round of the ticket search takes from outside: a random token, or `none` when secure
randomness is unavailable, and the calendar expiry, or `none` when its arithmetic overflows. -/
structure TicketDraw where
  token : Option HexToken
  utc : Option Timestamp

/-- `IssuedAttachmentTicket(...)` as one round of the search builds it. -/
def drawTicket (claims : AttachmentTuple) (now : τ) (expiresAt : Option Timestamp)
    (draw : TicketDraw) : Except Raised (IssuedAttachmentTicket τ) := do
  let token ← orRaise draw.token
    (.ticket .randomnessUnavailable "secure ticket randomness is unavailable")
  let utc ← orRaise (expiresAt.or draw.utc) .overflow
  if now + cfg.ticketTtl < now then
    throw (.ticket .invalid "ticket expiry precedes issuance")
  return {
    ticket := "wat_" ++ token.val
    claims := claims
    issuedAtMonotonic := now
    expiresAtMonotonic := now + cfg.ticketTtl
    expiresAt := utc }

/-- The bounded search for a ticket whose digest is neither pending nor remembered. -/
def searchTicket (cfg : Config τ) (claims : AttachmentTuple) (now : τ) (expiresAt : Option Timestamp) :
    List TicketDraw → AuthorityM τ (IssuedAttachmentTicket τ × Digest)
  | [] => throw (.ticket .capacity "ticket collision")
  | draw :: draws => do
    let issued ← Method.liftExcept (drawTicket cfg claims now expiresAt draw)
    let digest ← Method.liftExcept (ticketDigest issued.ticket)
    let s ← get
    if digest ∉ s.pending ∧ digest ∉ s.replayed then return (issued, digest)
    else searchTicket cfg claims now expiresAt draws

/-- The keyword arguments of `issue`. -/
structure IssueArguments where
  workspaceId : String
  projectId : String
  agentType : String
  attachmentId : String
  generation : ℕ
  authEpoch : ℕ
  runtimeHostInstallationId : String
  runtimeHostInstallationRevision : ℕ
  bindingRevision : ℕ
  bindingDigest : String
  origin : String
  expiresAt : Option Timestamp
  context : Option AuthenticatedAttachmentContext

variable (a : IssueArguments)

/-- `AttachmentTuple(...)` as `issue` builds it, with the agent type converted between the checks. -/
def IssueArguments.claims (leaseNumber apiAuthorityEpoch : ℕ) :
    Except Raised AttachmentTuple := do
  validateWorkspaceId a.workspaceId
  validateProjectId a.projectId
  let agent ← orRaise (AgentType.ofValue a.agentType) (.ticket .invalid "agent_type is invalid")
  AttachmentFields.accept {
    workspaceId := a.workspaceId
    projectId := a.projectId
    agentType := agent
    attachmentId := a.attachmentId
    leaseNumber := leaseNumber
    generation := a.generation
    authEpoch := a.authEpoch
    apiAuthorityEpoch := apiAuthorityEpoch
    runtimeHostInstallationId := a.runtimeHostInstallationId
    runtimeHostInstallationRevision := a.runtimeHostInstallationRevision
    bindingRevision := a.bindingRevision
    bindingDigest := a.bindingDigest
    mode := "writer" }

/-- The second half of `issue`: allocate a lease number, build the claims, draw a ticket for them and
enter it in the pending table. -/
def enterTicket (now : τ) (draws : Fin 3 → TicketDraw) :
    AuthorityM τ (IssuedAttachmentTicket τ) := do
  let leaseNumber ← allocateLeaseNumber
  let claims ← Method.liftExcept (a.claims leaseNumber cfg.authorityEpoch)
  let (issued, digest) ← searchTicket cfg claims now a.expiresAt (List.ofFn draws)
  modify fun s => { s with pending := s.pending.set digest {
    digest := digest
    claims := claims
    issuedAtMonotonic := issued.issuedAtMonotonic
    expiresAtMonotonic := issued.expiresAtMonotonic
    context := a.context } }
  return issued

/-- Reserve one pending ticket without acquiring the writer slot. -/
def issue (clock : τ) (draws : Fin 3 → TicketDraw) :
    AuthorityM τ (IssuedAttachmentTicket τ) := do
  rejectShutdown
  let now := clock
  let _ ← sweep cfg (some now) clock
  let s ← get
  Method.raiseIf (a.workspaceId ∈ s.cleanupPending ∨
      (s.staged.get? a.workspaceId).any (fun record => record.stage = .fenced))
    (.code .writerBusy)
  Method.raiseIf (cfg.maxRecords ≤ s.recordCount)
    (.ticket .capacity "attachment capacity is exhausted")
  Method.raiseIf (a.context.any fun c => cfg.maxPerAdmin ≤ s.adminCount c.userId) (.code .capacity)
  Method.raiseIf (a.origin = "" ∨ 256 < a.origin.length) (.ticket .invalid "origin is invalid")
  match a.context with
  | some context =>
    if !(← compared (compareDigest context.origin a.origin)) then
      throw (.ticket .invalid "origin does not match attachment context")
  | none => pure ()
  enterTicket cfg a now draws

variable (ticket : String) (expected : AttachmentTuple)

/-- Synthetic compatibility path: immediately acquire a writer lease. -/
def consume (now : Option τ)
    (clock : τ) (context : Option AuthenticatedAttachmentContext) :
    AuthorityM τ (ActiveAttachment τ) := do
  rejectShutdown
  let current := now.getD clock
  let digest ← Method.liftExcept (ticketDigest ticket)
  let s ← get
  match s.pending.get? digest with
  | none => do
    Method.raiseIf (digest ∈ s.replayed) (.ticket .replayed "ticket was already consumed")
    throw (.ticket .invalid "ticket is unknown")
  | some pending => do
    modify (Authority.burn cfg digest)
    Method.raiseIf (pending.expiresAtMonotonic ≤ current) (.ticket .expired "ticket has expired")
    if !(← compared (sameTuple pending.claims expected)) then
      throw (.ticket .stale "ticket tuple does not match")
    if !(← compared (sameContext pending.context context)) then
      throw (.ticket .stale "ticket context does not match")
    let s ← get
    let workspace := expected.workspaceId
    match s.active.get? workspace with
    | some active => do
      Method.raiseIf (active.activeAt current) (.ticket .writerBusy "workspace writer is busy")
      expireLease workspace active
      throw (.ticket .writerBusy "workspace writer cleanup proof is pending")
    | none => do
      Method.raiseIf (workspace ∈ s.cleanupPending)
        (.ticket .writerBusy "workspace writer cleanup proof is pending")
      Method.raiseIf (workspace ∈ s.staged ∨ cfg.maxWriters ≤ s.occupied.card) (.code .writerBusy)
      let lease : ActiveAttachment τ := {
        claims := expected
        openedAtMonotonic := current
        lastHeartbeatMonotonic := current
        leaseExpiresAtMonotonic := current + cfg.leaseTtl
        absoluteExpiresAtMonotonic := current + cfg.absoluteLease
        context := pending.context }
      modify fun s => { s with active := s.active.set workspace lease }
      return lease

/-- The keyword arguments of `reserve`; `none` stands for an argument of a wrong type where the source
tests the type, and for `None` elsewhere. -/
structure ReserveArguments (τ : Type) where
  context : Option AuthenticatedAttachmentContext
  connectionId : Option ObjectId
  startedAt : τ
  now : Option τ
  presentedClaims : Option (Dict String String)
  presentedRuntimeEpoch : Option String

/-- `(presented_claims is None) != (presented_runtime_epoch is None) or (…)`: what a wire adapter
presented does not agree with the ticket. -/
def ReserveArguments.disagrees (a : ReserveArguments τ) (claims : AttachmentTuple)
    (context : AuthenticatedAttachmentContext) : Bool :=
  match a.presentedClaims, a.presentedRuntimeEpoch with
  | none, none => false
  | some presented, some epoch => !samePresentedTuple claims presented || epoch != context.runtimeEpoch
  | _, _ => true

/-- Burn once and reserve one workspace without creating an active lease. -/
def reserve
    (a : ReserveArguments τ) (clock : τ) : AuthorityM τ (StagedAttachment τ) := do
  rejectShutdown
  let current := a.now.getD clock
  let digest ← Method.liftExcept (ticketDigest ticket)
  let s ← get
  match s.pending.get? digest with
  | none => throw (.code (if digest ∈ s.replayed then .replayed else .invalid))
  | some pending => do
    modify (Authority.burn cfg digest)
    Method.raiseIf (PyNumber.isNumber current = false ∨ PyNumber.isNumber a.startedAt = false ∨
        PyNumber.isFinite current = false ∨ PyNumber.isFinite a.startedAt = false ∨
        a.startedAt < PyNumber.literal 0 ∨ current < a.startedAt)
      (.code .invalid)
    match a.connectionId, a.context with
    | some connectionId, some context => do
      Method.raiseIf (pending.expiresAtMonotonic ≤ current) (.code .expired)
      Method.raiseIf (a.startedAt + PyNumber.literal 5 ≤ current) (.code .stale)
      if !(← compared (sameTuple pending.claims expected)) then throw (.code .stale)
      if !(← compared (sameContext pending.context (some context))) then throw (.code .stale)
      Method.raiseIf (expected.authEpoch ≠ context.authEpoch ∨
          expected.apiAuthorityEpoch ≠ cfg.authorityEpoch ∨ a.disagrees pending.claims context)
        (.code .stale)
      let _ ← sweep cfg (some current) clock
      let s ← get
      let workspace := expected.workspaceId
      Method.raiseIf (workspace ∈ s.active ∨ workspace ∈ s.cleanupPending ∨ workspace ∈ s.staged)
        (.code .writerBusy)
      Method.raiseIf (cfg.maxWriters ≤ s.occupied.card) (.code .writerBusy)
      Method.raiseIf (cfg.maxPerAdmin ≤ s.adminCount context.userId) (.code .capacity)
      let handle : StagedAttachment τ := {
        identity := s.nextIdentity
        claims := expected
        context := context
        connectionId := connectionId
        startedAtMonotonic := a.startedAt
        deadlineMonotonic := pyMin (a.startedAt + PyNumber.literal 5) pending.expiresAtMonotonic
        leaseExpiresAtMonotonic := current + cfg.leaseTtl
        absoluteExpiresAtMonotonic := current + cfg.absoluteLease }
      modify fun s => { s with
        nextIdentity := s.nextIdentity + 1
        staged := s.staged.set workspace { handle := handle, stage := .reserved } }
      return handle
    | _, _ => throw (.code .invalid)

/-! ## Calls -/

/-- One call of a public method, with the clock readings and callback outcomes it meets. -/
inductive Call (τ : Type)
  | issue (arguments : IssueArguments) (clock : τ) (draws : Fin 3 → TicketDraw)
  | consume (ticket : String) (expected : AttachmentTuple) (now : Option τ) (clock : τ)
      (context : Option AuthenticatedAttachmentContext)
  | reserve (ticket : String) (expected : AttachmentTuple) (arguments : ReserveArguments τ)
      (clock : τ)
  | stage (handle : StagedAttachment τ)
  | checkReserved (handle : StagedAttachment τ) (now : Option τ) (clock : τ)
  | advance (handle : StagedAttachment τ) (stage : Option AdmissionStage) (now : Option τ)
      (clock : τ)
  | activateWithPublication (handle : StagedAttachment τ) (publication : PublicationOutcome)
      (now : Option τ) (clock clockAfter : τ)
  | fence (handle : StagedAttachment τ)
  | readPublished (handle : StagedAttachment τ) (taken : Option (Option (List UInt8))) (clock : τ)
  | acknowledgeStagedCleanup (handle : StagedAttachment τ) (connectionId : Option ObjectId)
      (cleanupState : String) (failureAudited : Bool)
  | heartbeat (expected : AttachmentTuple) (now : Option τ) (clock : τ)
      (context : Option AuthenticatedAttachmentContext)
  | isActive (expected : AttachmentTuple) (now : Option τ) (clock : τ)
      (context : Option AuthenticatedAttachmentContext)
  | detach (expected : AttachmentTuple) (now : Option τ) (clock : τ)
      (context : Option AuthenticatedAttachmentContext)
  | acknowledgeCleanup (expected : AttachmentTuple) (cleanupState : String)
  | revokeSession (sessionId : String) (authEpoch : ℕ)
  | invalidateAll
  | sweep (now : Option τ) (clock : τ)
  | beginShutdown

/-- What a call returns. -/
inductive Reply (τ : Type)
  | ticket (issued : IssuedAttachmentTicket τ)
  | lease (lease : ActiveAttachment τ)
  | handle (handle : StagedAttachment τ)
  | stage (stage : AdmissionStage)
  | flag (value : Bool)
  | frame (frame : Option (List UInt8))
  | attachments (ids : List String)
  | unit

/-- The method body behind a call. -/
def Call.body : Call τ → AuthorityM τ (Reply τ)
  | .issue a clock draws => return .ticket (← Tickets.issue cfg a clock draws)
  | .consume ticket expected now clock context =>
    return .lease (← Tickets.consume cfg ticket expected now clock context)
  | .reserve ticket expected a clock => return .handle (← Tickets.reserve cfg ticket expected a clock)
  | .stage handle => return .stage (← exactStaged handle).stage
  | .checkReserved handle now clock => do Tickets.checkReserved handle now clock; return .unit
  | .advance handle next now clock => do Tickets.advance handle next now clock; return .unit
  | .activateWithPublication handle publication now clock clockAfter =>
    return .lease (← Tickets.activateWithPublication handle publication now clock clockAfter)
  | .fence handle => do Tickets.fence handle; return .unit
  | .readPublished handle taken clock => return .frame (← Tickets.readPublished handle taken clock)
  | .acknowledgeStagedCleanup handle connectionId cleanupState failureAudited => do
      Tickets.acknowledgeStagedCleanup handle connectionId cleanupState failureAudited
      return .unit
  | .heartbeat expected now clock context =>
    return .lease (← Tickets.heartbeat cfg expected now clock context)
  | .isActive expected now clock context =>
    return .flag (← Tickets.isActive expected now clock context)
  | .detach expected now clock context =>
    return .lease (← Tickets.detach expected now clock context)
  | .acknowledgeCleanup expected cleanupState => do
      Tickets.acknowledgeCleanup expected cleanupState
      return .unit
  | .revokeSession sessionId authEpoch =>
    return .attachments (← Tickets.revokeSession cfg sessionId authEpoch)
  | .invalidateAll => do Tickets.invalidateAll cfg; return .unit
  | .sweep now clock => return .attachments (← Tickets.sweep cfg now clock)
  | .beginShutdown => do Tickets.beginShutdown cfg; return .unit

/-- How a call ends. -/
def outcome (s : Authority τ) (c : Call τ) : Except Raised (Reply τ) :=
  ((c.body cfg).call s).1

/-- The state a call leaves behind, also when it raises. -/
def step (s : Authority τ) (c : Call τ) : Authority τ := ((c.body cfg).call s).2

/-! ## A small run -/

/-- An authority with the default limits and an integer clock. -/
def sampleConfig : Config ℤ where
  authorityEpoch := 7
  leaseSeed := 1
  ticketTtl := 30
  leaseTtl := 60
  absoluteLease := 300
  maxRecords := 64
  replayCacheSize := 256
  maxWriters := 32
  maxPerAdmin := 4
  ttl_positive := by decide
  lease_within_absolute := by decide
  records_valid := by decide
  writers_valid := by decide
  epoch_valid := by decide
  seed_valid := by decide

/-- A ticket request without a session context. -/
def sampleIssue : IssueArguments where
  workspaceId := "aws_2aaa0c2327a0b83d64b832a95112c783"
  projectId := "prj_00000000000000000000000000000001"
  agentType := "claude"
  attachmentId := "att_00000000000000000000000000000001"
  generation := 1
  authEpoch := 1
  runtimeHostInstallationId := "wri_00000000000000000000000000000001"
  runtimeHostInstallationRevision := 1
  bindingRevision := 1
  bindingDigest := "0000000000000000000000000000000000000000000000000000000000000001"
  origin := "https://agentbox.invalid"
  expiresAt := none
  context := none

/-- The claims of the first ticket issued for that request. -/
def sampleClaims : AttachmentTuple where
  workspaceId := "aws_2aaa0c2327a0b83d64b832a95112c783"
  projectId := "prj_00000000000000000000000000000001"
  agentType := .claude
  attachmentId := "att_00000000000000000000000000000001"
  leaseNumber := 1
  generation := 1
  authEpoch := 1
  apiAuthorityEpoch := 7
  runtimeHostInstallationId := "wri_00000000000000000000000000000001"
  runtimeHostInstallationRevision := 1
  bindingRevision := 1
  bindingDigest := "0000000000000000000000000000000000000000000000000000000000000001"
  mode := "writer"
  accepted := by decide +kernel

/-- A drawn token. -/
def sampleToken : HexToken := ⟨"000000000000000000000000000000aa", by decide⟩

/-- Issue a ticket and redeem it. -/
def sampleCalls : List (Call ℤ) :=
  [.issue sampleIssue 0 fun _ => ⟨some sampleToken, some 0⟩,
   .consume ("wat_" ++ sampleToken.val) sampleClaims (some 1) 0 none]

end AgentBox.Tickets
