import AgentBox.Stream.Session

/-!
# Every method of an encrypted attachment, over an arbitrary supervisor

The frames an encrypted session returns and the input it writes. All its methods are here: the
handshake, input and its queue, output, health, and the ways a session ends. The supervisor, the clock,
the peer and the crypto profile are outside. A call carries their replies, which are asked for one after
the other, so nothing is assumed about them.

Which output a call selects is one of the replies; `AgentBox.Stream.Session` has the selection itself.

Reference: `packages/agentbox-runtime/src/agentbox_runtime/waw_encrypted_stream.py`.
-/

namespace AgentBox.Stream.Attachment

open Method

/-! ## Frames and replies -/

/-- The codes of `EncryptedStreamError`. -/
inductive Code
  | protocolInvalid | attachmentStale | attachmentNotReady | admissionTimeout | runtimeUnavailable
  | sequenceExhausted | controlRateLimited | inputWriteUncertain | randomnessUnavailable
  | outputBackpressure | reconciliationRequired | streamCryptoFailure | internalBounded
deriving DecidableEq, Repr

/-- What a method raises. Of a `RuntimeOperationError` only matters whether its code has `ATTACHMENT` in
it. -/
inductive Fault
  | operation (namesAttachment : Bool)
  | stream (code : Code)
  | crypto
  | other
deriving DecidableEq, Repr

/-- `"ATTACHMENT" in code` -/
def Fault.namesAttachment : Fault → Bool
  | .operation b => b
  | .stream code => code = .attachmentStale ∨ code = .attachmentNotReady
  | _ => false

/-- `except (RuntimeOperationError, EncryptedStreamError)` -/
def Fault.isExpected : Fault → Bool
  | .operation _ => true
  | .stream _ => true
  | _ => false

inductive InputResult
  | accepted | rejected | writtenToPty | writeUncertain
deriving DecidableEq, Repr

inductive InputReason
  | inputRateLimited | workspaceExited | workspaceStopped | reconciliationRequired
  | workspaceNotRunning | attachmentStale | inputWriteUncertain
deriving DecidableEq, Repr

inductive CloseCode
  | controlRateLimited | runtimeUnavailable | attachmentStale | workspaceStopped | workspaceExited
deriving DecidableEq, Repr

/-- What a frame to the API says, without the fields that are the same throughout a session. -/
inductive Message
  | helloAck | keyAttest | keyConfirmAck | streamReadyAck (fence : String) | admissionCommitAck
  | ack (hop cryptoSequence : ℕ) (result : InputResult) (reason : Option InputReason)
  | state (state : RuntimeProbeState) (reason : Option String)
  | exit (state : RuntimeProbeState) (exitCode : Option ℤ)
  | close (code : CloseCode) (workspaceState : String)
  | ping (nonce : String) (tick : ℤ) | pong (nonce : String) (tick : ℤ) | heartbeat (tick : ℤ)
  | resizeAck (hop columns rows : ℕ)
  | detachAck (hop : ℕ) (confirmed : Bool)
  | gap (gap : Gap) | output (record : OutputFrame)
deriving DecidableEq

def Message.isClose : Message → Bool
  | .close _ _ => true
  | _ => false

structure Frame where
  hop : ℕ
  message : Message
deriving DecidableEq

/-- A frame of the API. -/
inductive Request
  | keyInit | keyConfirm | streamReady | admissionCommit (fence : String) | close | input
  | heartbeat (attachmentId leaseNumber : String) (tick : ℤ)
  | ping (nonce : String) (tick : ℤ) | pong (nonce : String) (tick : ℤ)
  | resize (attachmentId leaseNumber : String) (columns rows : ℕ)
  | detach (attachmentId leaseNumber : String)
  | other
deriving DecidableEq

structure Incoming where
  hop : ℕ
  request : Request
deriving DecidableEq

/-- One answer of the outside; which field is read depends on what was asked. -/
structure Reply where
  /-- the registry's clock, unless its reading is no finite number or behind an earlier one -/
  now : Option ℚ
  /-- the clock itself -/
  clock : ℚ
  peer : Bool
  /-- `lease.current()` -/
  current : Bool
  /-- the guard's evidence, or what it raises before its body -/
  enter : Except Fault RuntimeProbeEvidence
  /-- what the guard raises after its body -/
  leave : Except Fault Unit
  /-- another call of the supervisor or of the crypto profile -/
  done : Except Fault Unit
  supervisorState : SupervisorState
  /-- the frame passes the encoder's checks -/
  encodes : Bool
  /-- the plaintext and the crypto sequence of an input, unless it fails to decrypt -/
  plaintext : Option (Bytes × ℕ)
  /-- the output window has room for the call -/
  room : Bool
  selection : Except Fault (Option Gap × List OutputFrame)
  /-- fresh random text -/
  token : String
  /-- the cleanup is confirmed -/
  cleaned : Bool

/-- What is fixed for a session whose encoded frames are of type `ρ`. -/
structure Config (ρ : Type) where
  attachmentId : String
  leaseNumber : String
  started : ℚ
  expiresAt : ℚ
  decode : ρ → Option Incoming

/-! ## State -/

/-- An entry of `_terminal_acks`. -/
structure TerminalAck where
  hop : ℕ
  cryptoSequence : ℕ
  time : ℚ
  result : InputResult
  reason : Option InputReason
  replayed : Bool
deriving DecidableEq

/-- What a session has done, in order. -/
inductive Event
  /-- a frame was numbered; the flag marks a copy from `replay_input_result` -/
  | frame (frame : Frame) (copy : Bool)
  /-- an input was answered with `accepted` -/
  | accepted (input : PendingInput)
  /-- `write_input` was called, and returned or raised -/
  | wrote (input : PendingInput) (returned : Bool)

structure Session (ρ : Type) where
  phase : Phase
  closed : Bool
  rx : ℕ
  tx : ℕ
  fence : String
  commit : Option (ρ × Frame)
  commitRetried : Bool
  detach : Option (ρ × Frame)
  detachAt : ℚ
  detachRetried : Bool
  observed : RuntimeProbeState
  input : List PendingInput
  inputBytes : ℕ
  terminalAcks : List TerminalAck
  lastHealth : ℚ
  lastSentHealth : ℚ
  healthTick : ℤ
  controlTokens : ℚ
  controlTick : ℚ
  /-- nonce, tick and deadline -/
  pings : List (String × ℤ × ℚ)
  sentPingTokens : ℚ
  sentPingTick : ℚ
  /-- the locals of `flush_input`, which outlive an exception in its loop -/
  replies : List Frame
  written : Bool
  /-- the replies asked for in this call -/
  asked : ℕ
  log : List Event

/-- A session as `__init__` leaves it. -/
def Session.initial (ρ : Type) (now : ℚ) : Session ρ where
  phase := .waitKeyInit
  closed := false
  rx := 2
  tx := 1
  fence := ""
  commit := none
  commitRetried := false
  detach := none
  detachAt := 0
  detachRetried := false
  observed := .running
  input := []
  inputBytes := 0
  terminalAcks := []
  lastHealth := now
  lastSentHealth := now
  healthTick := 0
  controlTokens := 2
  controlTick := now
  pings := []
  sentPingTokens := 2
  sentPingTick := now
  replies := []
  written := false
  asked := 0
  log := []

variable {ρ : Type}

abbrev Op (ρ : Type) := Method Fault (Session ρ)

section
variable (cfg : Config ρ) (r : ℕ → Reply) (state : RuntimeProbeState) (p : PendingInput)
  (hop cryptoSequence : ℕ) (e : RuntimeProbeEvidence)

/-- The next reply of the outside. -/
def ask : Op ρ Reply := do
  let s ← get
  modify fun s => { s with asked := s.asked + 1 }
  return r s.asked

/-- `_health_expired` -/
def Session.healthExpired (s : Session ρ) (now : ℚ) : Bool :=
  decide (s.lastHealth + 10 ≤ now) || s.pings.any (·.2.2 ≤ now)

/-- `_check` -/
def check (active checkHealth : Bool) : Op ρ ℚ := do
  let a ← ask r
  let now ← Method.liftExcept (orRaise a.now (.stream .internalBounded))
  let s ← get
  raiseIf (s.closed ∨ ¬ a.peer ∨ ¬ a.current) (.stream .attachmentStale)
  raiseIf (cfg.expiresAt ≤ now) (.stream .attachmentStale)
  raiseIf (s.phase ≠ .committed ∧ cfg.started + 5 ≤ now) (.stream .admissionTimeout)
  raiseIf (active ∧ s.phase ≠ .committed) (.stream .attachmentNotReady)
  raiseIf (checkHealth ∧ s.phase = .committed ∧ s.healthExpired now) (.stream .runtimeUnavailable)
  return now

/-- `_emit` -/
def emit (message : Message) (cleanupReply copy : Bool) : Op ρ Frame := do
  let s ← get
  raiseIf (s.closed ∧ ¬ cleanupReply) (.stream .attachmentStale)
  raiseIf (Wire.maxU64 < s.tx) (.stream .sequenceExhausted)
  let a ← ask r
  raiseIf (¬ a.encodes) .other
  modify fun s => { s with tx := s.tx + 1, log := s.log ++ [.frame ⟨s.tx, message⟩ copy] }
  return ⟨s.tx, message⟩

/-- `close`; says whether the cleanup is confirmed. -/
def close : Op ρ Bool := do
  let a ← ask r
  modify fun s => { s with
    closed := true
    phase := .closed
    input := []
    terminalAcks := []
    pings := []
    inputBytes := 0 }
  return a.cleaned

/-- Emit a `CLOSE` frame and close. -/
def emitClose (code : CloseCode) (workspaceState : String) : Op ρ Frame := do
  let reply ← emit r (.close code workspaceState) false false
  discard (close r)
  return reply

/-- `runtime_attachment_guard` around a body. -/
def guarded {α : Type} (body : RuntimeProbeEvidence → Op ρ α) : Op ρ α := do
  let a ← ask r
  let e ← Method.liftExcept a.enter
  let result ← body e
  Method.liftExcept a.leave
  return result

/-- A call of the supervisor or of the crypto profile that may raise. -/
def request : Op ρ Unit := do
  let a ← ask r
  Method.liftExcept a.done

/-! ## Acknowledgements -/

/-- `_prune_acks` -/
def Session.pruneAcks (now : ℚ) (s : Session ρ) : Session ρ :=
  { s with terminalAcks := s.terminalAcks.filter fun e => decide (now < e.time + 5) }

def TerminalAck.hasKey (e : TerminalAck) : Bool :=
  decide (e.hop = hop ∧ e.cryptoSequence = cryptoSequence)

/-- `self._terminal_acks[key] = entry`, which replaces an entry with the same key. -/
def Session.setAck (entry : TerminalAck) (s : Session ρ) : Session ρ :=
  { s with terminalAcks :=
      if s.terminalAcks.any (·.hasKey entry.hop entry.cryptoSequence) then
        s.terminalAcks.map fun e => if e.hasKey entry.hop entry.cryptoSequence then entry else e
      else s.terminalAcks ++ [entry] }

variable (result : InputResult) (reason : Option InputReason)

/-- Remember a terminal acknowledgement, while there is room. -/
def rememberAck : Op ρ Unit := do
  let a ← ask r
  modify (Session.pruneAcks a.clock)
  let s ← get
  onlyIf (s.terminalAcks.length < 256)
    (modify (Session.setAck ⟨hop, cryptoSequence, a.clock, result, reason, false⟩))

/-- `_ack` -/
def ack : Op ρ Frame := do
  onlyIf (result ≠ .accepted) (rememberAck r hop cryptoSequence result reason)
  emit r (.ack hop cryptoSequence result reason) false false

def ackUncertain : Op ρ Frame :=
  ack r p.hop p.cryptoSequence .writeUncertain (some .inputWriteUncertain)

/-- `while self._input`: take an input off the queue and give it up. -/
def drainFrom : List PendingInput → Op ρ (List Frame)
  | [] => pure []
  | p :: rest => do
    modify fun s => { s with input := rest }
    let reply ← ackUncertain r p
    let more ← drainFrom rest
    return reply :: more

def drain : Op ρ (List Frame) := do
  let s ← get
  let replies ← drainFrom r s.input
  modify fun s => { s with inputBytes := 0 }
  return replies

/-- `replay_input_result` -/
def replayInputResult : Op ρ Frame := do
  let now ← check cfg r true true
  modify (Session.pruneAcks now)
  let s ← get
  match s.terminalAcks.find? (·.hasKey hop cryptoSequence) with
  | none => throw (.stream .protocolInvalid)
  | some entry => do
    raiseIf entry.replayed (.stream .protocolInvalid)
    modify (Session.setAck { entry with replayed := true })
    emit r (.ack hop cryptoSequence entry.result entry.reason) false true

/-! ## The state of the process -/

/-- `_terminal`, for the two states it is called with. -/
def terminal (exitCode : Option ℤ) : Op ρ (List Frame) := do
  let replies ← drain r
  let exit ← emit r (.exit state exitCode) false false
  let closing ← emitClose r (if state = .stopped then .workspaceStopped else .workspaceExited)
    state.value
  return replies ++ [exit, closing]

/-- Input is kept only for a running process. -/
def keepInput : Op ρ (List Frame) :=
  if state ≠ .running then drain r else pure []

/-- The `STATE` frame for a state that is new. -/
def publishState : Op ρ (List Frame) := do
  let s ← get
  if state = s.observed then return []
  else do
    modify fun s => { s with observed := state }
    let reply ← emit r (.state state (stateReason state)) false false
    return [reply]

/-- The states in which a session goes on. -/
def isOpenState : Bool := state = .running ∨ state = .needsInteraction

def closeUnlessOpen : Op ρ (List Frame) :=
  if isOpenState state then pure []
  else do
    let closing ← emitClose r .attachmentStale state.value
    return [closing]

/-- `_process_state` -/
def processState (exitCode : Option ℤ) : Op ρ (List Frame) :=
  if state = .exited ∨ state = .stopped then terminal r state exitCode
  else do
    let replies ← keepInput r state
    let states ← publishState r state
    let closing ← closeUnlessOpen r state
    return replies ++ states ++ closing

/-- `_workspace_state` -/
def workspaceState : SupervisorState → String
  | .running => "RUNNING"
  | .detached => "RUNNING"
  | .inputUncertain => "RUNNING"
  | .stopped => "STOPPED"
  | .stopping => "STOPPING"
  | .broken => "BROKEN"
  | _ => "UNKNOWN"

/-! ## Input -/

/-- `_input_rejection` -/
def inputRejection (supervisor : SupervisorState) : Option InputReason :=
  if state = .exited then some .workspaceExited
  else if state = .stopped then some .workspaceStopped
  else if supervisor = .inputUncertain then some .reconciliationRequired
  else if state = .running then none
  else some .workspaceNotRunning

/-- The queue has no room for a plaintext. -/
def Session.isFull (s : Session ρ) (plaintext : Bytes) : Bool :=
  decide (4 ≤ s.input.length) || decide (65536 < s.inputBytes + plaintext.length + 84)

/-- A refused input, and what the state of the process adds to that. -/
def rejectInput (reason : InputReason) : Op ρ (List Frame) := do
  let reply ← ack r hop cryptoSequence .rejected (some reason)
  if reason = .inputRateLimited then return [reply]
  else do
    let states ← processState r (if reason = .reconciliationRequired then .unknown else e.state)
      e.exitCode
    return reply :: states

/-- An admitted input. -/
def queueInput : Op ρ (List Frame) := do
  let states ← processState r e.state none
  modify fun s => { s with
    input := s.input ++ [p]
    inputBytes := s.inputBytes + p.payload.length + 84 }
  let reply ← ack r p.hop p.cryptoSequence .accepted none
  return states ++ [reply]

/-- The body of the guard in `_receive_input`; says whether the input is queued. -/
def admitInput : Op ρ (List Frame × Bool) := do
  discard (check cfg r true true)
  let a ← ask r
  let s ← get
  match inputRejection e.state a.supervisorState with
  | some reason => do
    let replies ← rejectInput r p.hop p.cryptoSequence e reason
    return (replies, false)
  | none =>
    if s.isFull p.payload then do
      let replies ← rejectInput r p.hop p.cryptoSequence e .inputRateLimited
      return (replies, false)
    else do
      let replies ← queueInput r p e
      return (replies, true)

/-- The handler in `_receive_input`: an input that has no answer yet is refused. -/
def refuseInput (before : ℕ) (e : Fault) : Op ρ (List Frame × Bool) := do
  let s ← get
  if e.isExpected ∧ s.tx = before ∧ s.closed = false then do
    let reply ← ack r p.hop p.cryptoSequence .rejected
      (some (if e.namesAttachment then .attachmentStale else .reconciliationRequired))
    discard (close r)
    return ([reply], false)
  else throw e

/-- `_receive_input` -/
def receiveInput (hop : ℕ) (now : ℚ) : Op ρ (List Frame) := do
  let a ← ask r
  match a.plaintext with
  | none => throw .crypto
  | some (plaintext, cryptoSequence) => do
    let p : PendingInput := ⟨hop, cryptoSequence, plaintext, now⟩
    let s ← get
    let (replies, queued) ← tryCatch (guarded r (admitInput cfg r p)) (refuseInput r p s.tx)
    onlyIf queued (modify fun s => { s with log := s.log ++ [.accepted p] })
    return replies

/-- `write_input` -/
def writeInput : Op ρ Unit := do
  let a ← ask r
  modify fun s => { s with log := s.log ++ [.wrote p a.done.isOk] }
  Method.liftExcept a.done

/-- Take the first input off the queue. -/
def Session.popInput (s : Session ρ) : Session ρ :=
  { s with input := s.input.tail, inputBytes := s.inputBytes - (p.payload.length + 84) }

def addReplies (frames : List Frame) : Op ρ Unit :=
  modify fun s => { s with replies := s.replies ++ frames }

/-- The body of the guard in the loop of `flush_input`; says whether the method returns here. -/
def flushGuarded : Op ρ Bool := do
  let states ← processState r e.state (if e.state = .running then none else e.exitCode)
  addReplies states
  if e.state ≠ .running then return true
  else do
    modify (Session.popInput p)
    discard (check cfg r true true)
    let a ← ask r
    raiseIf (p.admittedAt + 5 ≤ a.clock) (.stream .inputWriteUncertain)
    writeInput r p
    modify fun s => { s with written := true }
    return false

/-- The handler in the loop: an input still at the head of the queue is taken off it. -/
def flushHandler (e : Fault) : Op ρ Bool :=
  if e.isExpected then do
    let s ← get
    onlyIf (s.input.head?.any (·.hop = p.hop)) (modify (Session.popInput p))
    return false
  else throw e

/-- What the loop does after the guard: acknowledge, and give up everything after a failure. Says whether
the loop goes on. -/
def flushOutcome : Op ρ Bool := do
  let s ← get
  if s.written then do
    let reply ← ack r p.hop p.cryptoSequence .writtenToPty none
    addReplies [reply]
    return true
  else do
    let reply ← ackUncertain r p
    addReplies [reply]
    let more ← drain r
    addReplies more
    discard (close r)
    return false

/-- The loop of `flush_input` over the queue. -/
def flushFrom : List PendingInput → Op ρ Unit
  | [] => pure ()
  | p :: rest => do
    modify fun s => { s with written := false }
    let returns ← tryCatch (guarded r (flushGuarded cfg r p)) (flushHandler p)
    if returns then pure ()
    else do
      let goesOn ← flushOutcome r p
      if goesOn then flushFrom rest else pure ()

def closeAndRaise {α : Type} (e : Fault) : Op ρ α := do
  discard (close r)
  throw (if e = .crypto then .stream .streamCryptoFailure else e)

/-- The handler of the methods that know no crypto failure. -/
def closeAndReraise {α : Type} (e : Fault) : Op ρ α := do
  discard (close r)
  throw e

/-- `flush_input` -/
def flushInput : Op ρ (List Frame) :=
  tryCatch (do
    modify fun s => { s with replies := [] }
    discard (check cfg r true true)
    let s ← get
    flushFrom cfg r s.input
    let s ← get
    return s.replies) (closeAndReraise r)

/-! ## Receiving -/

/-- A new frame of the session, or the identical resend of one. -/
inductive Returned
  | sent (frames : List Frame)
  | resent (frame : Frame)
deriving DecidableEq

def keyReply (message : Message) (phase : Phase) : Op ρ (List Frame) := do
  request r
  let reply ← emit r message false false
  modify fun s => { s with phase := phase }
  return [reply]

/-- `receive` of `STREAM_READY`. -/
def streamReady : Op ρ (List Frame) :=
  guarded r fun _ => do
    discard (check cfg r false true)
    request r
    let a ← ask r
    modify fun s => { s with fence := a.token }
    let reply ← emit r (.streamReadyAck a.token) false false
    discard (check cfg r false true)
    modify fun s => { s with phase := .waitCommit }
    return [reply]

/-- `receive` of `ADMISSION_COMMIT`. -/
def admissionCommit (raw : ρ) (fence : String) (now : ℚ) : Op ρ (List Frame) := do
  let s ← get
  raiseIf (fence ≠ s.fence) (.stream .attachmentStale)
  guarded r fun _ => do
    discard (check cfg r false true)
    request r
    request r
    let reply ← emit r .admissionCommitAck false false
    modify fun s => { s with commit := some (raw, reply) }
    discard (check cfg r false true)
    modify fun s => { s with phase := .committed, lastHealth := now, lastSentHealth := now }
    return [reply]

/-- The control budget of `PING` and `PONG`. -/
def Session.refill (now : ℚ) (s : Session ρ) : Session ρ :=
  { s with controlTokens := min 2 (s.controlTokens + (now - s.controlTick) * 2), controlTick := now }

/-- Spend a control token, or close. -/
def spendControl (now : ℚ) (body : Op ρ (List Frame)) : Op ρ (List Frame) := do
  modify (Session.refill now)
  let s ← get
  if s.controlTokens < 1 then do
    let a ← ask r
    let reply ← emitClose r .controlRateLimited (workspaceState a.supervisorState)
    return [reply]
  else do
    modify fun s => { s with controlTokens := s.controlTokens - 1 }
    body

def receivePong (nonce : String) (tick : ℤ) (now : ℚ) : Op ρ (List Frame) := do
  let s ← get
  modify fun s => { s with pings := s.pings.filter (·.1 ≠ nonce) }
  raiseIf (¬ (s.pings.find? (·.1 = nonce)).any fun p => decide (p.2.1 = tick ∧ now < p.2.2))
    (.stream .protocolInvalid)
  return []

def receiveHeartbeat (tick : ℤ) (now : ℚ) : Op ρ (List Frame) := do
  let s ← get
  raiseIf (tick ≤ s.healthTick ∨ now < s.lastHealth + 5) (.stream .controlRateLimited)
  modify fun s => { s with healthTick := tick, lastHealth := now }
  return []

/-- `HEARTBEAT`, `RESIZE` and `DETACH` name the attachment. -/
def requireOwn (attachmentId leaseNumber : String) : Op ρ Unit :=
  raiseIf (attachmentId ≠ cfg.attachmentId ∨ leaseNumber ≠ cfg.leaseNumber) (.stream .attachmentStale)

def receiveResize (hop columns rows : ℕ) : Op ρ (List Frame) :=
  guarded r fun _ => do
    request r
    let reply ← emit r (.resizeAck hop columns rows) false false
    return [reply]

/-- `DETACH`: what is queued is flushed, the session closed, and the acknowledgement sent nonetheless. -/
def receiveDetach (raw : ρ) (hop : ℕ) (now : ℚ) : Op ρ (List Frame) := do
  let outcomes ← flushInput cfg r
  let confirmed ← close r
  let reply ← emit r (.detachAck hop confirmed) true false
  modify fun s => { s with detach := some (raw, reply), detachAt := now }
  return outcomes ++ [reply]

/-- `_active` -/
def active (raw : ρ) (frame : Incoming) (now : ℚ) : Op ρ (List Frame) :=
  match frame.request with
  | .input => receiveInput cfg r frame.hop now
  | .heartbeat attachmentId leaseNumber tick => do
    requireOwn cfg attachmentId leaseNumber
    receiveHeartbeat tick now
  | .ping nonce tick => spendControl r now do
    let reply ← emit r (.pong nonce tick) false false
    return [reply]
  | .pong nonce tick => spendControl r now (receivePong nonce tick now)
  | .resize attachmentId leaseNumber columns rows => do
    requireOwn cfg attachmentId leaseNumber
    receiveResize r frame.hop columns rows
  | .detach attachmentId leaseNumber => do
    requireOwn cfg attachmentId leaseNumber
    receiveDetach cfg r raw frame.hop now
  | _ => throw (.stream .protocolInvalid)

/-- A frame in its turn. -/
def receiveFrame (raw : ρ) (now : ℚ) : Op ρ (List Frame) := do
  match cfg.decode raw with
  | none => throw .other
  | some frame => do
    let s ← get
    raiseIf (frame.hop ≠ s.rx) (.stream .protocolInvalid)
    modify fun s => { s with rx := s.rx + 1 }
    match frame.request, s.phase with
    | .close, _ => do
      discard (close r)
      return []
    | .keyInit, .waitKeyInit => keyReply r .keyAttest .waitKeyConfirm
    | .keyConfirm, .waitKeyConfirm => keyReply r .keyConfirmAck .waitReady
    | .streamReady, .waitReady => streamReady cfg r
    | .admissionCommit fence, .waitCommit => admissionCommit cfg r raw fence now
    | _, _ => do
      discard (check cfg r true true)
      active cfg r raw frame now

/-- The second arrival of the commit. -/
def retryCommit (frame : Frame) (now : ℚ) : Op ρ Returned := do
  let s ← get
  raiseIf (s.commitRetried ∨ cfg.started + 5 ≤ now ∨ s.rx ≠ 6 ∨ s.tx ≠ 6) (.stream .protocolInvalid)
  guarded r fun _ => do
    modify fun s => { s with commitRetried := true }
    return .resent frame

variable [DecidableEq ρ]

def receiveOpen (raw : ρ) (now : ℚ) : Op ρ Returned := do
  discard (check cfg r false true)
  let s ← get
  match s.commit.filter (·.1 = raw) with
  | some (_, reply) => retryCommit cfg r reply now
  | none => do
    let frames ← receiveFrame cfg r raw now
    return .sent frames

/-- `receive` -/
def receive (raw : ρ) : Op ρ Returned :=
  tryCatch (do
    let a ← ask r
    let now ← Method.liftExcept (orRaise a.now (.stream .internalBounded))
    let s ← get
    match s.detach.filter fun d => decide (d.1 = raw ∧ s.detachRetried = false ∧ now < s.detachAt + 1) with
    | some (_, reply) => do
      modify fun s => { s with detachRetried := true }
      return .resent reply
    | none => receiveOpen cfg r raw now) (closeAndRaise r)

/-! ## The other methods -/

/-- `hello_ack` -/
def helloAck : Op ρ (List Frame) :=
  guarded r fun _ => do
    discard (check cfg r false true)
    let s ← get
    raiseIf (s.tx ≠ 1) (.stream .protocolInvalid)
    let reply ← emit r .helloAck false false
    return [reply]

def sendRecords : List OutputFrame → Op ρ (List Frame)
  | [] => pure []
  | record :: rest => do
    discard (check cfg r true true)
    request r
    let reply ← emit r (.output record) false false
    let more ← sendRecords rest
    return reply :: more

def sendGap (gap : Option Gap) : Op ρ (List Frame) :=
  match gap with
  | none => pure []
  | some g => do
    let reply ← emit r (.gap g) false false
    return [reply]

/-- The selected output of a running process. -/
def sendSelection : Op ρ (List Frame) := do
  let a ← ask r
  let (gap, records) ← Method.liftExcept a.selection
  let gaps ← sendGap r gap
  let outputs ← sendRecords cfg r records
  discard (check cfg r true true)
  return gaps ++ outputs

/-- The body of the guard in `output`. -/
def publishOutput : Op ρ (List Frame) := do
  discard (check cfg r true true)
  let states ← processState r e.state e.exitCode
  if states ≠ [] ∨ e.state ≠ .running then return states
  else sendSelection cfg r

/-- `output` -/
def output : Op ρ (List Frame) :=
  tryCatch (do
    discard (check cfg r true true)
    let a ← ask r
    if a.room then do
      request r
      guarded r (publishOutput cfg r)
    else return []) (closeAndRaise r)

/-- `int(now * 1000)`, at least 1 -/
def tickOf (now : ℚ) : ℤ := max 1 ((now * 1000).num.tdiv (now * 1000).den)

/-- `ping` -/
def ping : Op ρ (List Frame) := do
  let now ← check cfg r true true
  modify fun s => { s with
    sentPingTokens := min 2 (s.sentPingTokens + (now - s.sentPingTick) * 2), sentPingTick := now }
  let s ← get
  raiseIf (2 ≤ s.pings.length ∨ s.sentPingTokens < 1) (.stream .controlRateLimited)
  let a ← ask r
  raiseIf (s.pings.any (·.1 = a.token)) (.stream .randomnessUnavailable)
  modify fun s => { s with
    pings := s.pings ++ [(a.token, tickOf now, now + 5)], sentPingTokens := s.sentPingTokens - 1 }
  let reply ← emit r (.ping a.token (tickOf now)) false false
  return [reply]

/-- The heartbeat that is due every five seconds. -/
def sendHeartbeat (now : ℚ) : Op ρ (List Frame) := do
  let s ← get
  if s.lastSentHealth + 5 ≤ now then do
    modify fun s => { s with lastSentHealth := now }
    let reply ← emit r (.heartbeat (tickOf now)) false false
    return [reply]
  else return []

/-- `tick` of a committed session. -/
def tickCommitted (now : ℚ) : Op ρ (List Frame) := do
  let s ← get
  if s.healthExpired now then do
    let a ← ask r
    let reply ← emitClose r .runtimeUnavailable (workspaceState a.supervisorState)
    return [reply]
  else do
    let states ← guarded r fun e => processState r e.state e.exitCode
    if states ≠ [] then return states else sendHeartbeat r now

/-- `tick` -/
def tick : Op ρ (List Frame) :=
  tryCatch (do
    let now ← check cfg r false false
    let s ← get
    if s.phase = .committed then tickCommitted r now
    else do
      request r
      request r
      return []) (closeAndReraise r)

end

/-! ## Runs -/

inductive Action (ρ : Type)
  | helloAck | receive (raw : ρ) | flushInput | output | tick | ping
  | replayInputResult (hop cryptoSequence : ℕ)

/-- A call of a method, with the replies of the outside. -/
structure Call (ρ : Type) where
  action : Action ρ
  replies : ℕ → Reply

/-- A session and what it has returned. -/
structure Run (ρ : Type) where
  session : Session ρ
  sent : List Frame
  resent : List Frame

variable [DecidableEq ρ]

variable (cfg : Config ρ)

def perform (c : Call ρ) : Op ρ Returned := do
  modify fun s => { s with asked := 0 }
  match c.action with
  | .helloAck => Returned.sent <$> helloAck cfg c.replies
  | .receive raw => receive cfg c.replies raw
  | .flushInput => Returned.sent <$> flushInput cfg c.replies
  | .output => Returned.sent <$> output cfg c.replies
  | .tick => Returned.sent <$> tick cfg c.replies
  | .ping => Returned.sent <$> ping cfg c.replies
  | .replayInputResult hop cryptoSequence =>
    (fun reply => Returned.sent [reply]) <$> replayInputResult cfg c.replies hop cryptoSequence

def Run.step (t : Run ρ) (c : Call ρ) : Run ρ :=
  match (perform cfg c).call t.session with
  | (.ok (.sent frames), s) => { t with session := s, sent := t.sent ++ frames }
  | (.ok (.resent frame), s) => { t with session := s, resent := t.resent ++ [frame] }
  | (.error _, s) => { t with session := s }

/-- The session after the first `i` calls. -/
def Run.reached (now : ℚ) (calls : List (Call ρ)) (i : ℕ) : Run ρ :=
  stateAt (Run.step cfg) ⟨.initial ρ now, [], []⟩ calls i

end AgentBox.Stream.Attachment
