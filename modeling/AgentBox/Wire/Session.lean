import AgentBox.Common.Run
import AgentBox.Wire.Frame
import Mathlib.Data.Finset.Insert
import Mathlib.Logic.Function.Basic

/-!
# The observed four-leg transcript

Reference: `agentbox_protocol/waw_wire.py::WireSession`.

The API observes every frame of one attachment on its four legs and accepts it only in the order the
handshake and the relay allow. `accept` is one observation: `observe` makes every check, and the state
changes only after the last of them, so a rejected call leaves the session closed and otherwise as it
was. A `Transcript` is a session together with the frames it has accepted.
-/

namespace AgentBox.Wire

/-- `ADMISSION_TIMEOUT_NS` -/
def admissionTimeoutNs : ℤ := 5000000000

/-- The state of a session; `ι` is the type of the private connection tokens. -/
structure WireSession (ι : Type) where
  admission : Record
  /-- `_context["runtime_epoch"]` -/
  runtimeEpoch : Scalar
  streamId : ι
  started : ℤ
  lastNow : ℤ
  next : Leg → ℕ
  seen : Dict (Leg × FrameType) WireFrame
  terminal : Finset Leg
  mustClose : Finset Leg
  crypto : Leg → ℕ
  /-- read only for the two legs that carry `OUTPUT` -/
  cursor : Leg → ℕ
  retries : Finset (Leg × FrameType)
  detachAt : Option ℤ
  detach : Dict Leg WireFrame
  failed : Bool
  closed : Bool
  exits : Dict Leg WireFrame
  /-- read only for `INPUT` and `OUTPUT`, as is `pendingBytes` -/
  pending : FrameType → List Bytes
  pendingBytes : FrameType → ℕ

/-- The state `__init__` sets up. -/
def WireSession.fresh {ι : Type} (admission : Record) (runtimeEpoch : Scalar) (streamId : ι)
    (startedAt : ℤ) : WireSession ι where
  admission := admission
  runtimeEpoch := runtimeEpoch
  streamId := streamId
  started := startedAt
  lastNow := startedAt
  next := fun _ => 1
  seen := .empty
  terminal := ∅
  mustClose := ∅
  crypto := fun _ => 1
  cursor := fun _ => 0
  retries := ∅
  detachAt := none
  detach := .empty
  failed := false
  closed := false
  exits := .empty
  pending := fun _ => []
  pendingBytes := fun _ => 0

/-- `WireSession.__init__`; a missing token is `none`. -/
def WireSession.init {ι : Type} (admission : Record) (runtimeEpoch : Scalar) (streamId : Option ι)
    (startedAt : ℤ) : Except WireError (WireSession ι) :=
  match validateAdmission admission, deriveContext admission runtimeEpoch, streamId with
  | .ok admission, .ok context, some streamId =>
    if startedAt < 0 then .error .protocolInvalid
    else .ok (.fresh admission ((context.get? "runtime_epoch").getD .null) streamId startedAt)
  | _, _, _ => .error .protocolInvalid

namespace WireSession

variable {ι : Type} (s : WireSession ι) (frame : WireFrame) (now : ℤ)

/-- `_has` -/
def has (leg : Leg) (kind : FrameType) : Bool := (s.seen.get? (leg, kind)).isSome

/-- `admitted` -/
def admitted : Bool :=
  s.has .apiToBrowser .admitted && !s.failed && !s.closed

/-- `committed` -/
def committed : Bool :=
  (s.seen.get? (.runtimeToApi, .admissionCommitAck)).any fun ack =>
    ack.field "result" == some (.text "committed")

/-- `close`: record external transport destruction; it can never be reopened. -/
def close : WireSession ι :=
  { s with
    closed := true
    seen := .empty
    detach := .empty
    pending := fun _ => []
    pendingBytes := fun _ => 0 }

/-- `_require` -/
def require (leg : Leg) (kind : FrameType) : Except WireError WireFrame :=
  orRaise (s.seen.get? (leg, kind)) .protocolInvalid

/-- Raise unless the condition holds. -/
def ensure (c : Bool) : Except WireError Unit := if c then .ok () else .error .protocolInvalid

/-! ## Replays -/

/-- The frame a replay has to repeat; the cases without one raise. -/
def original : Except WireError (Option WireFrame) :=
  if frame.key = (.apiToRuntime, .detach) then
    match s.detachAt with
    | none => .error .protocolInvalid
    | some detachAt =>
      if now - detachAt ≥ admissionTimeoutNs ∨ .runtimeToApi ∈ s.detach then .error .protocolInvalid
      else .ok (s.detach.get? .apiToRuntime)
  else if frame.key = (.apiToRuntime, .admissionCommit) then
    if s.has .apiToBrowser .admitted ∨ s.next .runtimeToApi > 6 ∨ s.next .apiToRuntime > 6 then
      .error .protocolInvalid
    else .ok (s.seen.get? frame.key)
  else if frame.key = (.runtimeToApi, .admissionCommitAck) then
    if (.apiToRuntime, .admissionCommit) ∉ s.retries ∨ s.has .apiToBrowser .admitted then
      .error .protocolInvalid
    else .ok (s.seen.get? frame.key)
  else .error .protocolInvalid

/-- `_retry`: the session after a permitted replay. -/
def retry : Except WireError (WireSession ι) := do
  let original ← s.original frame now
  ensure (!s.failed && decide (frame.key ∉ s.retries) &&
    original.any fun f => f.wire == frame.wire)
  ensure (frame.frameType == .detach || decide (now - s.started < admissionTimeoutNs))
  return { s with retries := insert frame.key s.retries }

/-! ## Order -/

/-- The frame that has to have been seen before one of the handshake. -/
def prerequisite : Leg × FrameType → Option (Leg × FrameType)
  | (.browserToApi, .keyInit) => some (.browserToApi, .wsHello)
  | (.apiToRuntime, .runtimeHello) => some (.browserToApi, .keyInit)
  | (.apiToRuntime, .keyInit) => some (.apiToRuntime, .runtimeHello)
  | (.runtimeToApi, .helloAck) => some (.apiToRuntime, .keyInit)
  | (.runtimeToApi, .keyAttest) => some (.runtimeToApi, .helloAck)
  | (.apiToBrowser, .keyAttest) => some (.runtimeToApi, .keyAttest)
  | (.browserToApi, .keyConfirm) => some (.apiToBrowser, .keyAttest)
  | (.apiToRuntime, .keyConfirm) => some (.browserToApi, .keyConfirm)
  | (.runtimeToApi, .keyConfirmAck) => some (.apiToRuntime, .keyConfirm)
  | (.apiToBrowser, .keyConfirmAck) => some (.runtimeToApi, .keyConfirmAck)
  | (.apiToRuntime, .streamReady) => some (.apiToBrowser, .keyConfirmAck)
  | (.runtimeToApi, .streamReadyAck) => some (.apiToRuntime, .streamReady)
  | (.apiToRuntime, .admissionCommit) => some (.runtimeToApi, .streamReadyAck)
  | (.runtimeToApi, .admissionCommitAck) => some (.apiToRuntime, .admissionCommit)
  | (.apiToBrowser, .admitted) => some (.runtimeToApi, .admissionCommitAck)
  | _ => none

/-- The relayed key frame repeats the payload of its source. -/
def orderKey : Except WireError Unit :=
  if frame.frameType.isKey ∧ frame.leg = .apiToRuntime then do
    let source ← s.require .browserToApi frame.frameType
    ensure (frame.payload == source.payload)
  else if frame.frameType.isKey ∧ frame.leg = .apiToBrowser then do
    let source ← s.require .runtimeToApi frame.frameType
    ensure (frame.payload == source.payload)
  else .ok ()

/-- The fields of a handshake frame that repeat those of an earlier one. -/
def orderFields : Except WireError Unit :=
  match frame.frameType with
  | .runtimeHello => do
    let hello ← s.require .browserToApi .wsHello
    ensure (frame.agrees hello "resume_cursor" && frame.agrees hello "previous_runtime_epoch")
  | .streamReadyAck => do
    let hello ← s.require .runtimeToApi .helloAck
    ensure (frame.agrees hello "output_cursor")
  | .admitted => do
    let hello ← s.require .runtimeToApi .helloAck
    ensure (frame.agrees hello "output_cursor")
    ensure s.committed
  | .admissionCommit => do
    let ready ← s.require .runtimeToApi .streamReadyAck
    ensure (frame.agrees ready "admission_fence")
  | _ => .ok ()

/-- The frame that has to come first has been seen. -/
def orderFirst : Except WireError Unit :=
  match prerequisite frame.key with
  | some (leg, kind) => discard (s.require leg kind)
  | none => .ok ()

/-- `_order` -/
def order : Except WireError Unit := do
  s.orderFirst frame
  s.orderKey frame
  if frame.json.isSome then s.orderFields frame

/-! ## Relay -/

variable (kind : FrameType)

/-- The leg on which a kind of encrypted record enters the relay. -/
def sourceLeg : Leg := if kind = .input then .browserToApi else .runtimeToApi

/-- The bytes of one kind that may be pending. -/
def relayLimit : ℕ :=
  if kind = .input ∨ ¬ s.has .apiToBrowser .admitted then 65536 else 262144

/-- `_relay_check`: one bounded FIFO relation; whether the frame enters the relay. -/
def relayCheck : Except WireError Bool :=
  let kind := frame.frameType
  if frame.leg = sourceLeg kind then
    if s.pendingBytes kind + frame.wire.length > s.relayLimit kind ∨ (s.pending kind).length ≥ 256 then
      .error .protocolInvalid
    else .ok true
  else if (s.pending kind).head? ≠ some frame.payload then .error .protocolInvalid
  else .ok false

/-! ## Phases -/

/-- The kinds of a failed session. -/
def isClosing : Bool :=
  kind == .state || kind == .error || kind == .close || kind == .exit

/-- A kind that belongs to the handshake of some leg. -/
def isHandshakeKind : Bool :=
  [Leg.browserToApi, .apiToBrowser, .apiToRuntime, .runtimeToApi].any
    (·.handshake.contains kind.value)

/-- `_phase` while the leg's handshake is not complete. -/
def handshakePhase : Except WireError Unit :=
  let leg := frame.leg
  let kind := frame.frameType
  if leg.handshake[frame.hopSequence - 1]? = some kind.value then
    if s.failed then .error .protocolInvalid else s.order frame
  else if kind = .close ∧ leg = .apiToRuntime ∧ s.has .apiToRuntime .runtimeHello then .ok ()
  else if leg = .runtimeToApi ∧ frame.hopSequence ≤ 2 ∧ kind = .error then
    discard (s.require .apiToRuntime .keyInit)
  else if leg = .runtimeToApi ∧ 3 ≤ frame.hopSequence ∧
      (kind = .state ∨ kind = .error ∨ kind = .close) then
    ensure (kind != .close || decide (leg ∈ s.mustClose))
  else if leg = .apiToBrowser ∧ kind = .error then .ok ()
  else if leg = .apiToBrowser ∧ (kind = .state ∨ kind = .close) then
    ensure (s.has .apiToBrowser .keyAttest && (kind != .close || decide (leg ∈ s.mustClose)))
  else .error .protocolInvalid

/-- The kinds accepted once a detach has been requested. -/
def allowedInDetach : Bool :=
  kind == .detach || kind == .detachAck || kind == .close || kind == .error || kind == .state ||
    kind == .ack || kind == .exit

/-- The detach exchange of the phase check: one request and one answer per leg, forwarded in order. -/
def detachPhase : Except WireError Unit :=
  let leg := frame.leg
  if frame.frameType = .detach then
    ensure (decide (leg ∉ s.detach) && (leg != .apiToRuntime || decide (.browserToApi ∈ s.detach)))
  else if frame.frameType = .detachAck then do
    let request ← orRaise (s.detach.get? (if leg = .runtimeToApi then .apiToRuntime else .browserToApi))
      .protocolInvalid
    ensure (decide (leg ∉ s.detach) &&
      frame.field "acknowledged_hop_sequence" == some (.text (toString request.hopSequence)))
    if leg = .apiToBrowser then
      let response ← orRaise (s.detach.get? .runtimeToApi) .protocolInvalid
      ensure (["result", "cleanup_state", "reason_code"].all (frame.agrees response))
  else .ok ()

/-- `_phase` after the leg's handshake. -/
def openPhase : Except WireError Unit :=
  let leg := frame.leg
  let kind := frame.frameType
  if kind = .exit ∧ s.failed then
    ensure (leg == .apiToBrowser && decide (leg ∉ s.exits) &&
      (s.exits.get? .runtimeToApi).any frame.sameJson)
  else if (kind = .close ∨ kind = .error ∨ kind = .state) ∧ s.failed then .ok ()
  else if (leg = .browserToApi ∨ leg = .apiToBrowser) ∧ ¬ s.admitted then .error .protocolInvalid
  else if (leg = .apiToRuntime ∨ leg = .runtimeToApi) ∧ ¬ s.committed then .error .protocolInvalid
  else if leg = .apiToRuntime ∧ kind ≠ .close ∧ ¬ s.admitted then .error .protocolInvalid
  else if isHandshakeKind kind then .error .protocolInvalid
  else if s.detach.items ≠ [] ∧ ¬ allowedInDetach kind then .error .protocolInvalid
  else do
    s.order frame
    s.detachPhase frame

/-- `_phase` -/
def phase : Except WireError Unit :=
  let leg := frame.leg
  let kind := frame.frameType
  if leg ∈ s.terminal ∨ (leg ∈ s.mustClose ∧ kind ≠ .close) then .error .protocolInvalid
  else if s.failed ∧ ¬ isClosing kind then .error .protocolInvalid
  else if kind = .state ∧ frame.field "state" = some (.text "RUNNING") ∧
      (s.failed ∨ ¬ s.has .apiToBrowser .admitted) then .error .protocolInvalid
  else if frame.hopSequence ≤ leg.handshake.length then s.handshakePhase frame
  else s.openPhase frame

/-! ## Acceptance -/

/-- The checks on an encrypted record: the relay's queue, the transcript's context, and the record's
own counters. The envelope, and whether the record enters the relay. -/
def checkRecord : Except WireError (AwceEnvelope × Bool) := do
  let source ← s.relayCheck frame
  let envelope ← orRaise (decodeAwce frame.payload).toOption .protocolInvalid
  let confirmation ← s.require .runtimeToApi .keyConfirmAck
  match confirmation.field "transcript_context_hash" with
  | some (.str hash) =>
    ensure (envelope.contextId == (Bytes.ofHex hash).take 16 &&
      envelope.cryptoSequence == s.crypto frame.leg)
    ensure (frame.frameType != .output || decide (s.cursor frame.leg < envelope.streamCursor))
    return (envelope, source)
  | _ => throw .protocolInvalid

/-- The counters and queues after an encrypted record. -/
def relayed (envelope : AwceEnvelope) (source : Bool) : WireSession ι :=
  let kind := frame.frameType
  { s with
    pending := Function.update s.pending kind
      (if source then s.pending kind ++ [frame.payload] else (s.pending kind).tail)
    pendingBytes := Function.update s.pendingBytes kind
      (if source then s.pendingBytes kind + frame.wire.length
       else s.pendingBytes kind - (24 + ((s.pending kind).headD []).length))
    crypto := Function.update s.crypto frame.leg (s.crypto frame.leg + 1)
    cursor := if kind = .output then Function.update s.cursor frame.leg envelope.streamCursor
      else s.cursor }

/-- The bookkeeping of the detach exchange. -/
def detached : WireSession ι :=
  if frame.frameType = .detach then
    { s with
      detach := s.detach.set frame.leg frame
      detachAt := if frame.leg = .apiToRuntime then some now else s.detachAt }
  else if frame.frameType = .detachAck then
    { s with
      detach := s.detach.set frame.leg frame
      mustClose := insert frame.leg s.mustClose }
  else s

/-- A rate limit the browser may recover from. -/
def nonfatalControlLimit : Bool :=
  frame.frameType == .error && frame.leg == .apiToBrowser && s.has .apiToBrowser .admitted &&
    frame.field "code" == some (.text "CONTROL_RATE_LIMITED") &&
    frame.field "retryable" == some (.bool true)

/-- An error or state that ends the attachment. -/
def isFatal : Bool :=
  (frame.frameType == .error && !s.nonfatalControlLimit frame) ||
    (frame.frameType == .state && frame.json.isSome &&
      frame.field "state" != some (.text "RUNNING") &&
      (!s.has .apiToBrowser .admitted || frame.field "state" != some (.text "NEEDS_INTERACTION")))

/-- What a closing frame does to the session. -/
def settled : WireSession ι :=
  match frame.frameType with
  | .close => { s with terminal := insert frame.leg s.terminal, failed := true }
  | .exit =>
    { s with
      exits := s.exits.set frame.leg frame
      mustClose := insert frame.leg s.mustClose
      failed := true }
  | .admissionCommitAck =>
    if frame.field "result" = some (.text "rejected") then
      { s with failed := true, mustClose := insert frame.leg s.mustClose }
    else s
  | _ =>
    if s.isFatal frame then
      if (frame.leg = .runtimeToApi ∧ frame.hopSequence ≤ 2) ∨
          (frame.leg = .apiToBrowser ∧ ¬ s.has .apiToBrowser .keyAttest) then
        { s with failed := true, terminal := insert frame.leg s.terminal }
      else { s with failed := true, mustClose := insert frame.leg s.mustClose }
    else s

/-- A failed session relays nothing. -/
def drained : WireSession ι :=
  if s.failed then { s with pending := fun _ => [], pendingBytes := fun _ => 0 } else s

/-- File a handshake frame. -/
def recorded : WireSession ι :=
  if frame.frameType.isKey ∨ frame.frameType.value ∈ frame.leg.handshake then
    { s with seen := s.seen.set frame.key frame }
  else s

/-- Count the frame; the last sequence number ends the leg. -/
def counted : WireSession ι :=
  { s with
    next := Function.update s.next frame.leg (s.next frame.leg + 1)
    lastNow := now
    terminal := if frame.hopSequence = maxU64 then insert frame.leg s.terminal else s.terminal }

/-- The session after a frame in sequence. -/
def advanced : WireSession ι :=
  ((((s.detached frame now).settled frame).drained).recorded frame).counted frame now

/-- What `accept` is called with: the leg and the time are `none` for an object of another type. -/
structure Call (ι : Type) where
  leg : Option Leg
  raw : Raw
  streamId : ι
  now : Option ℤ
  /-- thread time the validation takes, in nanoseconds -/
  cpu : ℕ

/-- A frame that is in sequence on its leg. -/
def observeNext : Except WireError (WireFrame × WireSession ι) := do
  s.phase frame
  if frame.frameType.isOpaque then
    let (envelope, source) ← s.checkRecord frame
    return (frame, (s.relayed frame envelope source).advanced frame now)
  else return (frame, s.advanced frame now)

/-- The body of `accept`. -/
def observe [DecidableEq ι] (s : WireSession ι) (c : Call ι) :
    Except WireError (WireFrame × WireSession ι) := do
  ensure (!s.closed && decide (c.streamId = s.streamId))
  let now ← orRaise c.now .protocolInvalid
  ensure (decide (s.lastNow ≤ now))
  let leg ← orRaise c.leg .protocolInvalid
  ensure (s.has .apiToBrowser .admitted || decide (now - s.started < admissionTimeoutNs))
  let frame ← decodeWireFrame c.raw leg (some s.admission) (some s.runtimeEpoch)
    (s.has .apiToRuntime .runtimeHello) c.cpu
  if frame.hopSequence ≠ s.next leg then
    let s ← s.retry frame now
    return ({ frame with replay := true }, { s with lastNow := now })
  else s.observeNext frame now

/-- `accept`: every invalid event closes the trace. -/
def accept [DecidableEq ι] (s : WireSession ι) (c : Call ι) :
    Except WireError WireFrame × WireSession ι :=
  match s.observe c with
  | .ok (frame, t) => (.ok frame, t)
  | .error e => (.error e, s.close)

end WireSession

/-! ## Transcripts -/

/-- A frame and the time at which it was accepted. -/
structure Observed where
  frame : WireFrame
  time : ℤ

/-- A session and the frames it has accepted, in order. -/
structure Transcript (ι : Type) where
  session : WireSession ι
  frames : List Observed

namespace Transcript

variable {ι : Type} [DecidableEq ι]

/-- One call of `accept`. -/
def accept (t : Transcript ι) (c : WireSession.Call ι) : Transcript ι :=
  match t.session.accept c with
  | (.ok frame, s) => ⟨s, t.frames ++ [⟨frame, s.lastNow⟩]⟩
  | (.error _, s) => ⟨s, t.frames⟩

/-- The transcript of a session that was called with the first `i` of `calls`. -/
def reached (s : WireSession ι) (calls : List (WireSession.Call ι)) (i : ℕ) : Transcript ι :=
  stateAt accept ⟨s, []⟩ calls i

end Transcript

/-! ## A sample attachment

The whole handshake, an encrypted record in each direction that has entered the relay, and one that
has left it. -/

namespace Sample

/-- The bytes of an ASCII text. -/
def text (s : String) : Bytes := s.toByteArray.data.toList

/-- A text member: its name, and its value between quotes. -/
def member (name : String) (value : Bytes) : Bytes :=
  34 :: (text name ++ 34 :: 58 :: 34 :: (value ++ [34, 44]))

/-- `n` copies of a character. -/
def times (n : ℕ) (c : Char) : Bytes := List.replicate n (UInt8.ofNat c.toNat)

def identity : Bytes := List.flatten
  [member "attachment_id" (text "att_" ++ times 32 'a'),
   member "workspace_id" (text "aws_" ++ times 32 'b'),
   member "project_id" (text "prj_" ++ times 32 'c'),
   member "agent_type" (text "claude"),
   member "runtime_host_installation_id" (text "wri_" ++ times 32 'd'),
   member "runtime_host_installation_revision" (text "1"),
   member "auth_epoch" (text "2"), member "api_authority_epoch" (text "3"),
   member "lease_number" (text "4"), member "generation" (text "5"),
   member "binding_revision" (text "6"), member "binding_digest" (times 64 'e')]

def epoch : Bytes := member "runtime_epoch" (text "7")

def admission : Bytes := List.flatten [identity, member "mode" (text "writer"), epoch]

def noise : Bytes := member "noise_protocol" (text "Noise_NX_25519_AESGCM_SHA256")

def envelopeVersion : Bytes := text "\"crypto_envelope_version\":1,"

def keyInit : Bytes := List.flatten
  [admission, noise, envelopeVersion, member "browser_ephemeral_public_key" (times 43 'A'),
   member "noise_message_1" (times 43 'A')]

def keyAttest : Bytes := List.flatten
  [admission, noise, envelopeVersion,
   member "runtime_attestation_x25519_fingerprint" (times 64 '1'),
   member "runtime_ephemeral_public_key" (times 43 'A'),
   member "noise_message_2" (times 171 'A')]

def keyConfirm : Bytes := List.flatten
  [identity, epoch, member "protocol_id" (text "agentbox-waw/v1"), envelopeVersion, noise,
   member "ciphertext" (times 64 'A')]

def keyConfirmAck : Bytes := List.flatten
  [keyConfirm, member "status" (text "verified"), member "transcript_context_hash" (times 64 '2')]

def running : Bytes := List.flatten
  [admission, member "state" (text "RUNNING"), member "output_cursor" (text "0")]

def fence : Bytes := member "admission_fence" (times 64 '3')

def hello : Bytes := admission ++ text "\"resume_cursor\":null,\"previous_runtime_epoch\":null,"

/-- An encrypted record of one tag and one byte. -/
def envelope (direction : UInt8) (cursor : UInt8) : Bytes :=
  [65, 87, 67, 69, 1, direction, 0, 0, 0, 0, 0, 0, 0, 0, 0, 1, 0, 0, 0, 0, 0, 0, 0, cursor, 0, 0, 0,
   17] ++ List.replicate 16 0x22 ++ List.replicate 17 9

variable (time : ℤ) (leg : Leg) (kind : FrameType)

/-- A call with a frame. -/
def call (hopSequence : ℕ) (payload : Bytes) :
    WireSession.Call Unit :=
  ⟨some leg, .bytes (pack kind payload hopSequence), (), some time, 0⟩

/-- A call with a control frame. -/
def control (hopSequence : ℕ) (members : Bytes) :
    WireSession.Call Unit :=
  call time leg kind hopSequence (123 :: (members ++ (text "\"protocol_version\":1" ++ [125])))

def calls : List (WireSession.Call Unit) :=
  [control 1 .browserToApi .wsHello 1 (hello ++ member "ticket" (text "wat_" ++ times 32 'f')),
   control 2 .browserToApi .keyInit 2 keyInit,
   control 3 .apiToRuntime .runtimeHello 1 (hello ++ member "capability" (times 64 '4')),
   control 4 .apiToRuntime .keyInit 2 keyInit,
   control 5 .runtimeToApi .helloAck 1
     (running ++ text "\"input_limit\":16384,\"output_limit\":32768,"),
   control 6 .runtimeToApi .keyAttest 2 keyAttest,
   control 7 .apiToBrowser .keyAttest 1 keyAttest,
   control 8 .browserToApi .keyConfirm 3 keyConfirm,
   control 9 .apiToRuntime .keyConfirm 3 keyConfirm,
   control 10 .runtimeToApi .keyConfirmAck 3 keyConfirmAck,
   control 11 .apiToBrowser .keyConfirmAck 2 keyConfirmAck,
   control 12 .apiToRuntime .streamReady 4 admission,
   control 13 .runtimeToApi .streamReadyAck 4 (running ++ fence),
   control 14 .apiToRuntime .admissionCommit 5 (admission ++ fence),
   control 15 .runtimeToApi .admissionCommitAck 5
     (admission ++ member "result" (text "committed") ++ text "\"reason_code\":null,"),
   call 16 .runtimeToApi .output 6 (envelope 2 1),
   control 17 .apiToBrowser .admitted 3
     (running ++ member "lease_expires_at" (text "2026-07-01T12:00:00.000000Z")),
   call 18 .browserToApi .input 4 (envelope 1 0),
   call 19 .apiToRuntime .input 6 (envelope 1 0)]

/-- The bound admission tuple. -/
def bound : Record :=
  match jsonBytes (123 :: (identity ++ (text "\"mode\":\"writer\"" ++ [125]))) with
  | .ok r => r
  | .error _ => .empty

/-- The browser is told of an exit. -/
def announcement : WireSession.Call Unit :=
  control 20 .apiToBrowser .exit 4 (member "state" (text "EXITED") ++ text "\"exit_code\":0,")

/-- The transcript after the first `i` calls. -/
def transcript (i : ℕ) : Transcript Unit := .reached (.fresh bound (.str ['7']) () 0) calls i

set_option maxRecDepth 100000 in
/-- Every call of the sample is accepted, and an announcement after them as well. -/
theorem transcript_accepted : (transcript 19).session.closed = false ∧
    (transcript 19).session.failed = false ∧
    ((transcript 19).session.accept announcement).1.toOption.map (·.key) =
      some (.apiToBrowser, .exit) ∧ (transcript 19).frames.map (·.frame.key) =
      [(.browserToApi, .wsHello), (.browserToApi, .keyInit), (.apiToRuntime, .runtimeHello),
       (.apiToRuntime, .keyInit), (.runtimeToApi, .helloAck), (.runtimeToApi, .keyAttest),
       (.apiToBrowser, .keyAttest), (.browserToApi, .keyConfirm), (.apiToRuntime, .keyConfirm),
       (.runtimeToApi, .keyConfirmAck), (.apiToBrowser, .keyConfirmAck),
       (.apiToRuntime, .streamReady), (.runtimeToApi, .streamReadyAck),
       (.apiToRuntime, .admissionCommit), (.runtimeToApi, .admissionCommitAck),
       (.runtimeToApi, .output), (.apiToBrowser, .admitted), (.browserToApi, .input),
       (.apiToRuntime, .input)] := by
  decide +kernel

end Sample

end AgentBox.Wire
