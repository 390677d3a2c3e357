import AgentBox.Common.Run
import AgentBox.Stream.Supervisor
import AgentBox.Wire.Frame

/-!
# The Runtime's end of an encrypted attachment

A session is created for a reserved attachment, selects what the browser gets first (a fresh redraw, or
what follows the cursor it resumes from), and after its commit publishes output whenever it is asked:
it reads the ring after its own cursor, encrypts the frames, declares what is gone in a `GAP` frame, and
moves the cursor. Every exception closes the session for good.

The crypto profile is a port of the session here, and the registry's cleanup after a close is left out.

Reference: `packages/agentbox-runtime/src/agentbox_runtime/waw_encrypted_stream.py`.
-/

namespace AgentBox.Stream

open Method Wire
open Tickets (AttachmentTuple)

/-! ## State -/

inductive Phase
  | waitKeyInit | waitKeyConfirm | waitReady | waitCommit | committed | closed
deriving DecidableEq, Repr

inductive GapReason
  | cursorExpired | ringOverflow | slowClient | baselineRedraw
deriving DecidableEq, Repr

def GapReason.value : GapReason → String
  | .cursorExpired => "cursor_expired"
  | .ringOverflow => "ring_overflow"
  | .slowClient => "slow_client"
  | .baselineRedraw => "baseline_redraw"

/-- A range `[fromCursor, toCursor)` that is not sent. -/
structure Gap where
  fromCursor : ℕ
  toCursor : ℕ
  reason : GapReason
deriving DecidableEq

/-- `_PendingInput` -/
structure PendingInput where
  hop : ℕ
  cryptoSequence : ℕ
  payload : Bytes
  admittedAt : ℚ

/-- The session's state, for crypto profiles of type `κ`. -/
structure Session (κ : Type) where
  lease : RuntimeAttachmentLease
  admission : Record
  epoch : String
  /-- the resume cursor of the hello -/
  resume : Option ℕ
  /-- when the attachment was reserved -/
  started : ℚ
  phase : Phase
  closed : Bool
  tx : ℕ
  crypto : κ
  observedProcessState : RuntimeProbeState
  input : List PendingInput
  inputBytes : ℕ
  lastHealth : ℚ
  /-- the deadlines of the pings under way -/
  pings : List ℚ
  baseline : ℕ
  cursor : ℕ
  baselineRecords : List OutputFrame
  baselineGap : Option Gap
  baselineSent : Bool
  outputWindow : ℤ
  outputUsed : ℕ

/-- A session and the supervisor it belongs to. -/
structure Runtime (κ : Type) where
  supervisor : Supervisor
  session : Session κ

/-- `encrypt_output` of a crypto profile; `none` is its `WAWCryptoError`. -/
structure CryptoProfile (κ : Type) where
  encryptOutput : κ → Bytes → ℕ → Option (Bytes × κ)

/-- What a frame that the session has emitted says. -/
inductive Content
  | gap (gap : Gap)
  | output (record : OutputFrame)
  | control (kind : FrameType)
deriving DecidableEq

structure Sent where
  content : Content
  wire : Bytes

/-- The places of a call that ask the outside. -/
inductive Site
  | start | enter | inside | ack (n : ℕ) | state | exit | close | replay (again : Bool)
  | select (left : ℕ) | gap | record (n : ℕ) | output (n : ℕ) | finish | leave
deriving DecidableEq

/-- One call of `output`: its argument and what the outside answers. -/
structure OutputCall where
  maximumEncodedBytes : ℤ
  answer : Site → Answer
  evidence : Option RuntimeProbeEvidence
  /-- the producer's run in the first replay and in the second -/
  produced : Bool → Production

abbrev Op (κ : Type) := Method Failure (Runtime κ)

variable {κ : Type}

/-- A call of the supervisor. -/
def onSupervisor {α : Type} (m : Method Failure Supervisor α) : Op κ α :=
  zoom Runtime.supervisor (fun s t => { s with supervisor := t }) m

/-- An update of the session. -/
def update (f : Session κ → Session κ) : Op κ Unit :=
  modify fun s => { s with session := f s.session }

def getSession : Op κ (Session κ) := do return (← get).session

def recordOf (members : List (String × Scalar)) : Record :=
  members.foldl (fun r m => r.set m.1 m.2) .empty

/-- A decimal text. -/
def decimal (n : ℕ) : Scalar := .text (toString n)

/-- `admission_fields` -/
def admissionFields (c : AttachmentTuple) : Except Failure Record :=
  match validateAdmission (recordOf
    [("workspace_id", .text c.workspaceId), ("project_id", .text c.projectId),
     ("agent_type", .text c.agentType.value), ("attachment_id", .text c.attachmentId),
     ("lease_number", decimal c.leaseNumber), ("generation", decimal c.generation),
     ("auth_epoch", decimal c.authEpoch), ("api_authority_epoch", decimal c.apiAuthorityEpoch),
     ("runtime_host_installation_id", .text c.runtimeHostInstallationId),
     ("runtime_host_installation_revision", decimal c.runtimeHostInstallationRevision),
     ("binding_revision", decimal c.bindingRevision), ("binding_digest", .text c.bindingDigest),
     ("mode", .text c.mode)]) with
  | .ok r => .ok r
  | .error _ => .error .valueError

/-- `_bound` -/
def Session.bound (s : Session κ) (extra : List (String × Scalar)) : Record :=
  recordOf (("protocol_version", .int 1) :: s.admission.items ++
    ("runtime_epoch", .text s.epoch) :: extra)

/-! ## Checks and emission -/

/-- `_health_expired` -/
def Session.healthExpired (s : Session κ) (now : ℚ) : Bool :=
  decide (s.lastHealth + 10 ≤ now) || s.pings.any (· ≤ now)

/-- `_check` -/
def check (a : Answer) (active : Bool) : Op κ ℚ := do
  let s ← getSession
  let now ← Method.liftExcept (orRaise a.clock (.stream .internalBounded))
  raiseIf (s.closed ∨ ¬ a.peer ∨ ¬ a.current) (.stream .attachmentStale)
  raiseIf (s.lease.expiresAt ≤ now) (.stream .attachmentStale)
  raiseIf (s.phase ≠ .committed ∧ s.started + 5 ≤ now) (.stream .admissionTimeout)
  raiseIf (active ∧ s.phase ≠ .committed) (.stream .attachmentNotReady)
  raiseIf (s.phase = .committed ∧ s.healthExpired now) (.stream .runtimeUnavailable)
  return now

/-- `_emit` -/
def emit (kind : FrameType) (payload : Payload) (a : Answer) : Op κ Bytes := do
  let s ← getSession
  raiseIf s.closed (.stream .attachmentStale)
  raiseIf (maxU64 < s.tx) (.stream .sequenceExhausted)
  match encodeWireFrame kind .runtimeToApi payload s.tx (some s.admission) (some (.text s.epoch)) true
      a.cpu with
  | .error e => throw (.wire e)
  | .ok raw => do
    update fun s => { s with tx := s.tx + 1 }
    return raw

/-- Emit a control frame. -/
def emitControl (kind : FrameType) (members : List (String × Scalar)) (a : Answer) : Op κ Sent := do
  let wire ← emit kind (.record (recordOf (("protocol_version", .int 1) :: members))) a
  return ⟨.control kind, wire⟩

/-- `close`; output is cleared after a crypto failure and after the end of the process. -/
def close (clear : Bool) : Op κ Unit := do
  update fun s => { s with
    closed := true
    phase := .closed
    input := []
    pings := []
    inputBytes := 0
    baselineRecords := []
    baselineGap := none }
  if clear then onSupervisor Supervisor.clearRuntimeOutput

/-- `runtime_attachment_guard` around a body. -/
def guarded {α : Type} (requireWriter requireRunning : Bool) (enter leave : Answer)
    (evidence : Option RuntimeProbeEvidence) (body : RuntimeProbeEvidence → Op κ α) : Op κ α := do
  let s ← getSession
  let e ← onSupervisor (Supervisor.enterGuard s.lease requireWriter requireRunning enter evidence)
  let result ← body e
  onSupervisor (Supervisor.checkAttachment s.lease leave)
  return result

/-! ## The state of the process -/

/-- `_ack`, as far as it concerns the wire. -/
def ack (pending : PendingInput) (result : String) (reason : Option String) (a : Answer) : Op κ Sent :=
  emitControl .ack
    [("runtime_input_hop_sequence", decimal pending.hop),
     ("crypto_sequence", decimal pending.cryptoSequence), ("result", .text result),
     ("reason_code", reason.elim .null .text)] a

variable (answer : Site → Answer) (profile : CryptoProfile κ) (c : OutputCall)

/-- The acknowledgements of queued input that was never written, from number `n` on. -/
def ackUncertain (answer : Site → Answer) : ℕ → List PendingInput → Op κ (List Sent)
  | _, [] => pure []
  | n, pending :: rest => do
    let sent ← ack pending "write_uncertain" (some "INPUT_WRITE_UNCERTAIN") (answer (.ack n))
    let more ← ackUncertain answer (n + 1) rest
    return sent :: more

/-- Give up the queued input. -/
def dropInput : Op κ (List Sent) := do
  let s ← getSession
  let acks ← ackUncertain answer 0 s.input
  update fun s => { s with input := [], inputBytes := 0 }
  return acks

variable (state : RuntimeProbeState)

/-- `_terminal`, for the two states it is called with. -/
def terminal (exitCode : Option ℤ) : Op κ (List Sent) := do
  let acks ← dropInput answer
  let exit ← emitControl .exit
    [("state", .text state.value), ("exit_code", exitCode.elim .null .int)] (answer .exit)
  let code := if state = .stopped then "WORKSPACE_STOPPED" else "WORKSPACE_EXITED"
  let closing ← emitControl .close
    [("code", .text code), ("workspace_state_at_close", .text state.value)] (answer .close)
  close true
  return acks ++ [exit, closing]

/-- The reason in a `STATE` frame. -/
def stateReason : RuntimeProbeState → Option String
  | .loginRequired => some "WORKSPACE_AUTH_REQUIRED"
  | .trustRequired => some "WORKSPACE_TRUST_REQUIRED"
  | .missing => some "WORKSPACE_MISSING"
  | .collision => some "WORKSPACE_COLLISION"
  | .unknown => some "RECONCILIATION_REQUIRED"
  | _ => none

/-- The `STATE` frame for a state that is new. -/
def publishState : Op κ (List Sent) := do
  let s ← getSession
  if state = s.observedProcessState then return []
  update fun s => { s with observedProcessState := state }
  let bound := ["workspace_id", "project_id", "agent_type", "generation"].map fun key =>
    (key, (s.admission.get? key).getD .null)
  let sent ← emitControl .state
    (bound ++ [("runtime_epoch", .text s.epoch), ("state", .text state.value),
      ("reason_code", (stateReason state).elim .null .text)]) (answer .state)
  return [sent]

/-- Input is kept only for a running process. -/
def keepInput : Op κ (List Sent) :=
  if state ≠ .running then dropInput answer else pure []

/-- `_process_state` -/
def processState (e : RuntimeProbeEvidence) : Op κ (List Sent) := do
  if e.state = .exited ∨ e.state = .stopped then terminal answer e.state e.exitCode
  else do
    let acks ← keepInput answer e.state
    let states ← publishState answer e.state
    if e.state ≠ .running ∧ e.state ≠ .needsInteraction then do
      let closing ← emitControl .close
        [("code", .text "ATTACHMENT_STALE"), ("workspace_state_at_close", .text e.state.value)]
        (answer .close)
      close false
      return acks ++ states ++ [closing]
    else return acks ++ states

/-! ## Selection -/

/-- `_gap_payload` -/
def gapPayload (g : Gap) : Payload :=
  .record (recordOf [("protocol_version", .int 1), ("from_cursor", decimal g.fromCursor),
    ("to_cursor", decimal g.toCursor), ("reason", .text g.reason.value)])

variable (records : List OutputFrame) (gap : Option Gap)

/-- The encoded size of a selection. -/
def selectionSize (cpu : ℕ) : Except Failure ℕ :=
  let size := (records.map fun r => r.payload.length + 84).sum
  match gap with
  | none => .ok size
  | some g =>
    match encodeWireFrame .gap .runtimeToApi (gapPayload g) 1 none none true cpu with
    | .ok raw => .ok (size + raw.length)
    | .error e => .error (.wire e)

/-- The loop of `_select`: while the selection is too large, its first record goes into the gap. -/
def selectFrom (answer : Site → Answer) (budget : ℤ) :
    List OutputFrame → Option Gap → Except Failure (List OutputFrame × Option Gap)
  | [], gap => do
    let size ← selectionSize [] gap (answer (.select 0)).cpu
    if (size : ℤ) ≤ budget then .ok ([], gap) else .error (.stream .outputBackpressure)
  | omitted :: rest, gap => do
    let size ← selectionSize (omitted :: rest) gap (answer (.select (rest.length + 1))).cpu
    if (size : ℤ) ≤ budget then .ok (omitted :: rest, gap)
    else if rest = [] ∨ gap.any (·.reason = .baselineRedraw) then
      .error (.stream .outputBackpressure)
    else
      let start := gap.elim omitted.startCursor Gap.fromCursor
      selectFrom answer budget rest (some ⟨start, omitted.endCursor + 1, .slowClient⟩)

/-- `OUTPUT_LIMIT` -/
def outputLimit : ℕ := 32768

/-- `_select` -/
def select (budget : ℤ) :
    Except Failure (List OutputFrame × Option Gap) :=
  if records.any (fun r => decide (outputLimit < r.payload.length)) then
    .error (.stream .outputBackpressure)
  else selectFrom answer budget records gap

/-! ## Output -/

/-- What one call sends, and the cursor after it. -/
structure Selection where
  records : List OutputFrame
  gap : Option Gap
  nextCursor : ℕ

/-- The end of the last record. -/
def endOf (otherwise : ℕ) : ℕ :=
  (records.getLast?.map OutputFrame.endCursor).getD otherwise

/-- The first publication: the baseline. -/
def takeBaseline : Op κ Selection := do
  let s ← getSession
  let (records, gap) ←
    Method.liftExcept (select c.answer s.baselineRecords s.baselineGap c.maximumEncodedBytes)
  update fun s => { s with baselineSent := true, baselineRecords := [], baselineGap := none }
  return ⟨records, gap, endOf records s.baseline⟩

/-- A replay for the committed writer. -/
def replayAttached (again : Bool) (cursor : ℕ) : Op κ OutputReplay := do
  let s ← getSession
  onSupervisor (Supervisor.replayOutput cursor s.lease.claims.generation s.epoch
    (some (s.lease, c.answer (.replay again))) (c.produced again))

/-- What the ring has after the cursor. A gap is followed by a second replay, whose kind is not looked
at. -/
def replayLive : Op κ (OutputReplay × Option Gap) := do
  let s ← getSession
  let replay ← replayAttached c false s.cursor
  match replay.kind, replay.gapStart, replay.gapEnd with
  | .frames, _, _ => return (replay, none)
  | .gap, some gapStart, some gapEnd => do
    let again ← replayAttached c true gapEnd
    return (again, some ⟨gapStart, gapEnd + 1, .ringOverflow⟩)
  | .gap, _, _ => throw .assertion

/-- Every other publication. -/
def takeLive : Op κ Selection := do
  let (replay, gap) ← replayLive c
  let (records, gap) ← Method.liftExcept (select c.answer replay.frames gap c.maximumEncodedBytes)
  let supervisor := (← get).supervisor
  return ⟨records, gap, supervisor.ring.nextCursor - 1⟩

def takeOutput : Op κ Selection := do
  let s ← getSession
  if s.baselineSent then takeLive c else takeBaseline c

/-- Emit the `GAP` frame. -/
def sendGap : Op κ (List Sent) :=
  match gap with
  | none => pure []
  | some g => do
    let wire ← emit .gap (gapPayload g) (c.answer .gap)
    return [⟨.gap g, wire⟩]

/-- Encrypt and emit the records, from number `n` on. -/
def sendRecords (profile : CryptoProfile κ) (c : OutputCall) : ℕ → List OutputFrame → Op κ (List Sent)
  | _, [] => pure []
  | n, r :: rest => do
    discard (check (c.answer (.record n)) true)
    let s ← getSession
    match profile.encryptOutput s.crypto r.payload r.endCursor with
    | none => throw .crypto
    | some (envelope, crypto) => do
      update fun s => { s with crypto := crypto }
      let wire ← emit .output (.bytes envelope) (c.answer (.output n))
      let more ← sendRecords profile c (n + 1) rest
      return ⟨.output r, wire⟩ :: more

/-- The body of the guard in `output`. -/
def publishOutput (e : RuntimeProbeEvidence) : Op κ (List Sent) := do
  discard (check (c.answer .inside) true)
  let states ← processState c.answer e
  if states ≠ [] ∨ e.state ≠ .running then return states
  let selection ← takeOutput c
  let gaps ← sendGap c selection.gap
  let outputs ← sendRecords profile c 0 selection.records
  discard (check (c.answer .finish) true)
  update fun s => { s with
    cursor := selection.nextCursor
    outputUsed := s.outputUsed + ((gaps ++ outputs).map (·.wire.length)).sum }
  return gaps ++ outputs

/-- `int(now)` -/
def truncate (now : ℚ) : ℤ := now.num.tdiv now.den

/-- A new second gives a new output window. -/
def Session.enterWindow (now : ℚ) (s : Session κ) : Session κ :=
  if truncate now ≠ s.outputWindow then { s with outputWindow := truncate now, outputUsed := 0 } else s

/-- The body of the `try` in `output`. -/
def tryOutput : Op κ (List Sent) := do
  let now ← check (c.answer .start) true
  update (Session.enterWindow now)
  let s ← getSession
  if 1048576 < s.outputUsed + c.maximumEncodedBytes then return []
  raiseIf (c.maximumEncodedBytes < 512 ∨ 65536 < c.maximumEncodedBytes) .valueError
  guarded true false (c.answer .enter) (c.answer .leave) c.evidence (publishOutput profile c)

/-- The handlers of `output`: every exception closes the session. -/
def closeAndRaise {α : Type} (e : Failure) : Op κ α := do
  close (e = .crypto)
  throw (if e = .crypto then .stream .streamCryptoFailure else e)

/-- `output` -/
def output : Op κ (List Sent) :=
  tryCatch (tryOutput profile c) closeAndRaise

/-! ## Opening -/

/-- A replay before the commit. -/
def replayPending (cursor : ℕ) (p : Production) : Op κ OutputReplay := do
  let s ← getSession
  onSupervisor (Supervisor.replayOutput cursor s.lease.claims.generation s.epoch none p)

/-- The creation of a session: its fields and what the outside answers. -/
structure OpenCall (κ : Type) where
  lease : RuntimeAttachmentLease
  epoch : String
  resume : Option ℕ
  started : ℚ
  crypto : κ
  /-- the clock when the session is created -/
  now : ℚ
  answer : Site → Answer
  evidence : Option RuntimeProbeEvidence
  redraw : Supervisor.Redraw
  /-- the producer, should it run -/
  produced : Bool → Production
  /-- the crypto profile is created -/
  keyed : Bool

variable (o : OpenCall κ)

/-- The fields that `__init__` sets before it selects any output. -/
def OpenCall.session (admission : Record) : Session κ where
  lease := o.lease
  admission := admission
  epoch := o.epoch
  resume := o.resume
  started := o.started
  phase := .waitKeyInit
  closed := false
  tx := 1
  crypto := o.crypto
  observedProcessState := .running
  input := []
  inputBytes := 0
  lastHealth := o.now
  pings := []
  baseline := 0
  cursor := 0
  baselineRecords := []
  baselineGap := none
  baselineSent := false
  outputWindow := truncate o.now
  outputUsed := 0

/-- The resumed branch of `_prepare_output`: the records and the gap before them. -/
def resumeOutput (cursor : ℕ) : Op κ (List OutputFrame × Option Gap × ℕ) := do
  let head := (← get).supervisor.ring.nextCursor - 1
  raiseIf (head < cursor) (.stream .protocolInvalid)
  update fun s => { s with cursor := cursor }
  let replay ← replayPending cursor (o.produced false)
  match replay.kind, replay.gapStart, replay.gapEnd with
  | .frames, _, _ => return (replay.frames, none, head)
  | .gap, some gapStart, some gapEnd => do
    let again ← replayPending gapEnd (o.produced true)
    return (again.frames, some ⟨gapStart, gapEnd + 1, .cursorExpired⟩, head)
  | .gap, _, _ => throw .assertion

/-- What a failed redraw means for the session. -/
def redrawFailure : Failure → Failure
  | .runtime .redrawIdentityUnconfirmed => .stream .reconciliationRequired
  | .runtime .redrawUnavailable => .stream .runtimeUnavailable
  | .runtime .redrawTimeout => .stream .outputBackpressure
  | .runtime .redrawCaptureFailed => .stream .outputBackpressure
  | .runtime .redrawLimitInvalid => .stream .outputBackpressure
  | e => e

/-- The fresh branch of `_prepare_output`. -/
def redrawOutput : Op κ (List OutputFrame × Option Gap × ℕ) := do
  let s ← getSession
  let publication ← tryCatch (onSupervisor (Supervisor.publishFreshRedraw s.lease o.redraw))
    fun e => throw (redrawFailure e)
  let gap := if publication.hasMore then some ⟨0, 0, .baselineRedraw⟩ else none
  return (publication.frames, gap, publication.baselineCursor)

/-- The cursor to resume from; 0 asks for a fresh stream too. -/
def OpenCall.resumeCursor : Option ℕ := o.resume.filter (· ≠ 0)

/-- The records, the gap before them and the baseline. -/
def initialOutput : Op κ (List OutputFrame × Option Gap × ℕ) :=
  match o.resumeCursor with
  | some cursor => resumeOutput o cursor
  | none => redrawOutput o

/-- `_prepare_output` -/
def prepareOutput : Op κ Unit := do
  let (records, gap, head) ← initialOutput o
  update fun s => { s with baseline := head }
  let (records, gap) ← Method.liftExcept (select o.answer records gap 65536)
  update fun s => { s with baselineRecords := records, baselineGap := gap }

/-- The rest of `__init__`. -/
def construct : Op κ Unit :=
  guarded false true (o.answer .enter) (o.answer .leave) o.evidence fun _ => do
    prepareOutput o
    raiseIf (¬ o.keyed) .crypto

/-! ## Admission -/

/-- `_verify_precommit_output`: the live frames after the baseline. -/
def verifyPrecommitOutput (p : Production) (a : Answer) : Op κ (List OutputFrame) := do
  let s ← getSession
  let replay ← replayPending s.baseline p
  raiseIf (replay.kind ≠ .frames) (.stream .outputBackpressure)
  let records := s.baselineRecords ++ replay.frames
  let size ← Method.liftExcept (selectionSize records s.baselineGap a.cpu)
  raiseIf (65536 < size ∨ records.any fun r => decide (outputLimit < r.payload.length))
    (.stream .outputBackpressure)
  return replay.frames

/-- The answers of the outside while a frame of the handshake is received. -/
structure AdmissionCall where
  arrival : Answer
  /-- the crypto profile's reply to a key frame, unless it fails -/
  keyReply : Option Record
  /-- the frame's fence is the session's -/
  fenced : Bool
  /-- the clock when the frame arrives -/
  now : ℚ
  enter : Answer
  evidence : Option RuntimeProbeEvidence
  first : Answer
  verify : Answer
  produced : Production
  commitEnter : Answer
  commitEvidence : Option RuntimeProbeEvidence
  commitInside : Answer
  opening : Supervisor.Opening
  commitLeave : Answer
  /-- the answers for the reply, whose fence is new -/
  fence : String
  reply : Answer
  last : Answer
  leave : Answer

/-- `receive` of `STREAM_READY`. -/
def streamReady (c : AdmissionCall) : Op κ Bytes :=
  guarded false true c.enter c.leave c.evidence fun _ => do
    discard (check c.first false)
    discard (verifyPrecommitOutput c.produced c.verify)
    let s ← getSession
    let reply ← emit .streamReadyAck (.record (s.bound [("state", .text "RUNNING"),
      ("output_cursor", decimal s.baseline), ("admission_fence", .text c.fence)])) c.reply
    discard (check c.last false)
    update fun s => { s with phase := .waitCommit }
    return reply

/-- `receive` of `ADMISSION_COMMIT`. -/
def admissionCommit (c : AdmissionCall) : Op κ Bytes := do
  raiseIf (¬ c.fenced) (.stream .attachmentStale)
  guarded false true c.enter c.leave c.evidence fun _ => do
    discard (check c.first false)
    let live ← verifyPrecommitOutput c.produced c.verify
    let s ← getSession
    onSupervisor (Supervisor.commitRuntimeAttachment s.lease c.commitEnter c.commitInside c.commitLeave
      c.commitEvidence c.opening)
    update fun s => { s with baselineRecords := s.baselineRecords ++ live }
    let s ← getSession
    let reply ← emit .admissionCommitAck (.record (s.bound [("result", .text "committed"),
      ("reason_code", .null)])) c.reply
    discard (check c.last false)
    update fun s => { s with phase := .committed, lastHealth := c.now }
    return reply

/-- `receive` of a key frame. -/
def receiveKey (reply : FrameType) (phase : Phase) (c : AdmissionCall) : Op κ Bytes := do
  match c.keyReply with
  | none => throw .crypto
  | some r => do
    let raw ← emit reply (.record r) c.reply
    update fun s => { s with phase := phase }
    return raw

/-- `receive`, for the frames of the handshake. -/
def receive (kind : FrameType) (c : AdmissionCall) : Op κ Bytes :=
  tryCatch (do
    discard (check c.arrival false)
    let s ← getSession
    match s.phase, kind with
    | .waitKeyInit, .keyInit => receiveKey .keyAttest .waitKeyConfirm c
    | .waitKeyConfirm, .keyConfirm => receiveKey .keyConfirmAck .waitReady c
    | .waitReady, .streamReady => streamReady c
    | .waitCommit, .admissionCommit => admissionCommit c
    | _, _ => do
      discard (check c.last true)
      throw (.stream .protocolInvalid)) closeAndRaise

/-! ## Runs -/

/-- What the other methods of a session do to it between two calls: they number frames, use the crypto
profile, queue input and watch the peer's health, and they may close it. -/
structure Interlude (κ : Type) where
  tx : ℕ
  crypto : κ
  observedProcessState : RuntimeProbeState
  input : List PendingInput
  inputBytes : ℕ
  lastHealth : ℚ
  pings : List ℚ
  supervisorState : SupervisorState
  attachment : Option ℕ
  closes : Bool

def Interlude.apply (i : Interlude κ) (r : Runtime κ) : Runtime κ where
  supervisor := { r.supervisor with state := i.supervisorState, attachment := i.attachment }
  session := { r.session with
    tx := i.tx
    crypto := i.crypto
    observedProcessState := i.observedProcessState
    input := i.input
    inputBytes := i.inputBytes
    lastHealth := i.lastHealth
    pings := i.pings
    closed := r.session.closed || i.closes }

inductive Event (κ : Type)
  /-- output that arrives between two calls -/
  | append (chunks : List Bytes)
  | receive (kind : FrameType) (call : AdmissionCall)
  | output (call : OutputCall)
  | interlude (interlude : Interlude κ)

/-- A session with the frames it has returned from `output`. The stream starts after `origin`. -/
structure Channel (κ : Type) where
  runtime : Runtime κ
  origin : ℕ
  sent : List Sent

namespace Channel

variable (profile : CryptoProfile κ)

def step (t : Channel κ) : Event κ → Channel κ
  | .append chunks =>
    { t with runtime := { t.runtime with supervisor := t.runtime.supervisor.produce chunks } }
  | .receive kind c => { t with runtime := ((Stream.receive kind c).call t.runtime).2 }
  | .output c =>
    match (Stream.output profile c).call t.runtime with
    | (.ok frames, r) => { t with runtime := r, sent := t.sent ++ frames }
    | (.error _, r) => { t with runtime := r }
  | .interlude i => { t with runtime := i.apply t.runtime }

/-- How a session comes about: its attachment is reserved, output may arrive, and it is created. -/
structure Start (κ : Type) where
  supervisor : Supervisor
  reserve : Answer
  ports : Bool
  between : List Bytes
  call : OpenCall κ

/-- The new session; one that could not be created counts as closed. -/
def opened (s : Start κ) : Channel κ :=
  let reserved := (Supervisor.reserveRuntimeAttachment s.call.lease s.reserve s.ports).call s.supervisor
  let supervisor := reserved.2.produce s.between
  let origin := s.call.resumeCursor.getD supervisor.ring.head
  let failed : Channel κ := ⟨⟨supervisor, { s.call.session .empty with closed := true }⟩, origin, []⟩
  match reserved.1, admissionFields s.call.lease.claims with
  | .ok _, .ok admission =>
    match (construct s.call).call ⟨supervisor, s.call.session admission⟩ with
    | (.ok _, r) => ⟨r, origin, []⟩
    | (.error _, r) => { failed with runtime := { r with session := failed.runtime.session } }
  | _, _ => failed

/-- The channel after the first `i` events. -/
def reached (s : Start κ) (events : List (Event κ)) (i : ℕ) : Channel κ :=
  stateAt (step profile) (opened s) events i

end Channel

end AgentBox.Stream
