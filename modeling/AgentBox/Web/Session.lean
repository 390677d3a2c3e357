import AgentBox.Web.Frame
import AgentBox.Wire.Session

/-!
# The observed transcript in the browser

Reference: `apps/web/src/features/workspace/wawWire.ts`, `WireSession`, and `deriveContext` of
`wawCryptoContext.ts`.

The browser's code has its own copy of the session that the API runs on the four legs of an attachment.
`fail()` is `none`; `accept` catches it and closes the session. Frames keep the names of their kinds,
which the source writes as numbers, and the `Map`s keyed by `seenKey` are keyed by leg and kind.
-/

namespace AgentBox.Web

open Wire

/-- `deriveContext` -/
def deriveContext (admission : Record) (runtimeEpoch : Scalar) : Option Record := do
  let validated ← validateAdmission admission
  let record := pick validated (admissionKeys.filter (· ≠ "mode"))
  if !validU64 (some runtimeEpoch) then none
  else
    validateContext (((record.set "runtime_epoch" runtimeEpoch).set "protocol_id"
      (.text "agentbox-waw/v1")).set "crypto_envelope_version" (.int 1))

/-- `ADMISSION_NS` -/
def admissionNs : ℤ := 5000000000

/-- `HANDSHAKE` -/
def handshake : Leg → List ℕ
  | .browserToApi => [1, 3, 5]
  | .apiToBrowser => [4, 6, 8]
  | .apiToRuntime => [2, 3, 5, 22, 24]
  | .runtimeToApi => [7, 4, 6, 23, 25]

/-- `KEY_TYPES` -/
def keyTypes : List ℕ := [3, 4, 5, 6]

/-- The private fields of a session; `ι` is the type of the stream tokens. -/
structure WireSession (ι : Type) where
  admission : Record
  /-- `#context.runtime_epoch` -/
  runtimeEpoch : Scalar
  streamId : ι
  started : ℤ
  lastNow : ℤ
  next : Leg → ℕ
  seen : Dict (Leg × FrameType) WireFrame
  terminal : Finset Leg
  mustClose : Finset Leg
  crypto : Leg → ℕ
  cursor : Leg → ℕ
  retries : Finset (Leg × FrameType)
  detachAt : Option ℤ
  detach : Dict Leg WireFrame
  exits : Dict Leg WireFrame
  /-- read only for `INPUT` and `OUTPUT`, as is `pendingBytes` -/
  pending : FrameType → List Bytes
  pendingBytes : FrameType → ℕ
  failed : Bool
  closed : Bool

/-- The initial values of the fields. -/
def WireSession.fresh {ι : Type} (admission : Record) (runtimeEpoch : Scalar) (streamId : ι)
    (startedAt : ℤ) : WireSession ι where
  admission := admission
  runtimeEpoch := runtimeEpoch
  streamId := streamId
  started := startedAt
  lastNow := startedAt
  next := fun _ => 1
  seen := .empty
  terminal := ∅
  mustClose := ∅
  crypto := fun _ => 1
  cursor := fun _ => 0
  retries := ∅
  detachAt := none
  detach := .empty
  exits := .empty
  pending := fun _ => []
  pendingBytes := fun _ => 0
  failed := false
  closed := false

/-- The constructor; `none` for a stream token that is no object. -/
def WireSession.init {ι : Type} (admission : Record) (runtimeEpoch : Scalar) (streamId : Option ι)
    (startedAt : ℤ) : Option (WireSession ι) := do
  let bound ← validateAdmission admission
  let context ← deriveContext admission runtimeEpoch
  let streamId ← streamId
  if startedAt < 0 then none
  else some (.fresh bound ((context.get? "runtime_epoch").getD .null) streamId startedAt)

/-- An event of a transcript, as both sessions are told of it; the leg and the time are `none` for a
value of another type. `cpu` and `elapsed` are what the decoders of the server and of the browser take,
in nanoseconds and in microseconds. -/
structure Event (ι : Type) where
  leg : Option Leg
  raw : Bytes
  streamId : ι
  now : Option ℤ
  cpu : ℕ
  elapsed : ℕ

/-- The event as a call of the server's `accept`. -/
def Event.call {ι : Type} (e : Event ι) : Wire.WireSession.Call ι :=
  ⟨e.leg, .bytes e.raw, e.streamId, e.now, e.cpu⟩

namespace WireSession

variable {ι : Type} (t : WireSession ι) (frame : WireFrame) (now : ℤ) (leg : Leg) (kind : FrameType)

/-- `#has` -/
def has : Bool := (t.seen.get? (leg, kind)).isSome

/-- `admitted` -/
def admitted : Bool :=
  t.has .apiToBrowser .admitted && !t.failed && !t.closed

/-- `committed` -/
def committed : Bool :=
  ((t.seen.get? (.runtimeToApi, .admissionCommitAck)).bind (·.field "result")) ==
    some (.text "committed")

/-- `#clearPending` -/
def clearPending : WireSession ι :=
  { t with pending := fun _ => [], pendingBytes := fun _ => 0 }

/-- `close` -/
def close : WireSession ι :=
  { t with closed := true, seen := .empty, detach := .empty }.clearPending

/-- `#require` -/
def require : Option WireFrame :=
  t.seen.get? (leg, kind)

/-- `if (bad) fail()` -/
def failIf (bad : Bool) : Option Unit := if bad then none else some ()

/-! ## Replays -/

/-- The part of `#retry` that finds the frame to be repeated. -/
def original : Option (Option WireFrame) :=
  let kind := frame.frameType
  let leg := frame.leg
  if kind = .detach ∧ leg = .apiToRuntime then
    match t.detachAt with
    | none => none
    | some detachAt =>
      if now - detachAt ≥ admissionNs ∨ .runtimeToApi ∈ t.detach then none
      else some (t.detach.get? .apiToRuntime)
  else if kind = .admissionCommit ∧ leg = .apiToRuntime then
    if t.has .apiToBrowser .admitted ∨ t.next .runtimeToApi > 6 ∨ t.next .apiToRuntime > 6 then none
    else some (t.seen.get? (leg, kind))
  else if kind = .admissionCommitAck ∧ leg = .runtimeToApi then
    if (.apiToRuntime, .admissionCommit) ∉ t.retries ∨ t.has .apiToBrowser .admitted then none
    else some (t.seen.get? (leg, kind))
  else none

/-- `#retry` -/
def retry : Option (WireSession ι) := do
  let original ← t.original frame now
  let key := (frame.leg, frame.frameType)
  failIf (t.failed || decide (key ∈ t.retries) || !original.any (·.wire == frame.wire))
  failIf (frame.frameType != .detach && decide (now - t.started ≥ admissionNs))
  return { t with retries := insert key t.retries }

/-! ## Order -/

/-- `prerequisites` -/
def prerequisites : List ((Leg × FrameType) × (Leg × FrameType)) :=
  [((.browserToApi, .keyInit), (.browserToApi, .wsHello)),
   ((.apiToRuntime, .runtimeHello), (.browserToApi, .keyInit)),
   ((.apiToRuntime, .keyInit), (.apiToRuntime, .runtimeHello)),
   ((.runtimeToApi, .helloAck), (.apiToRuntime, .keyInit)),
   ((.runtimeToApi, .keyAttest), (.runtimeToApi, .helloAck)),
   ((.apiToBrowser, .keyAttest), (.runtimeToApi, .keyAttest)),
   ((.browserToApi, .keyConfirm), (.apiToBrowser, .keyAttest)),
   ((.apiToRuntime, .keyConfirm), (.browserToApi, .keyConfirm)),
   ((.runtimeToApi, .keyConfirmAck), (.apiToRuntime, .keyConfirm)),
   ((.apiToBrowser, .keyConfirmAck), (.runtimeToApi, .keyConfirmAck)),
   ((.apiToRuntime, .streamReady), (.apiToBrowser, .keyConfirmAck)),
   ((.runtimeToApi, .streamReadyAck), (.apiToRuntime, .streamReady)),
   ((.apiToRuntime, .admissionCommit), (.runtimeToApi, .streamReadyAck)),
   ((.runtimeToApi, .admissionCommitAck), (.apiToRuntime, .admissionCommit)),
   ((.apiToBrowser, .admitted), (.runtimeToApi, .admissionCommitAck))]

/-- The frame that has to come first has been seen. -/
def orderFirst : Option Unit :=
  match prerequisites.lookup (frame.leg, frame.frameType) with
  | some previous => (t.require previous.1 previous.2).map fun _ => ()
  | none => some ()

/-- The relayed key frame repeats the payload of its source. -/
def orderKey : Option Unit :=
  let leg := frame.leg
  let kind := frame.frameType
  if kind.value ∈ keyTypes ∧ (leg = .apiToRuntime ∨ leg = .apiToBrowser) then do
    let source ← t.require (if leg = .apiToRuntime then .browserToApi else .runtimeToApi) kind
    failIf (!(frame.payload == source.payload))
  else some ()

/-- The record of an earlier frame has the same values under these names. -/
def repeats (r : Record) (names : List String) : Option Unit := do
  let earlier ← t.require leg kind
  let record ← earlier.json
  failIf (names.any fun name => r.get? name != record.get? name)

/-- The fields of a handshake frame that repeat those of an earlier one. -/
def orderFields (kind : FrameType) (r : Record) : Option Unit := do
  if kind = .runtimeHello then
    t.repeats .browserToApi .wsHello r ["resume_cursor", "previous_runtime_epoch"]
  if kind = .streamReadyAck ∨ kind = .admitted then
    t.repeats .runtimeToApi .helloAck r ["output_cursor"]
  if kind = .admissionCommit then
    t.repeats .runtimeToApi .streamReadyAck r ["admission_fence"]
  failIf (kind == .admitted && !t.committed)

/-- `#order` -/
def order : Option Unit := do
  t.orderFirst frame
  t.orderKey frame
  match frame.json with
  | none => some ()
  | some r => t.orderFields frame.frameType r

/-! ## Relay -/

/-- `#relayCheck` -/
def relayCheck : Option Bool :=
  let kind := frame.frameType
  let queue := t.pending kind
  if frame.leg = (if kind = .input then .browserToApi else .runtimeToApi) then
    let limit := if kind = .input ∨ ¬ t.has .apiToBrowser .admitted then 65536 else 262144
    if t.pendingBytes kind + frame.wire.length > limit ∨ queue.length ≥ 256 then none
    else some true
  else
    match queue with
    | [] => none
    | first :: _ => if first ≠ frame.payload then none else some false

/-! ## Phases -/

/-- `#phase` while the leg's handshake is not complete. -/
def handshakePhase : Option Unit :=
  let leg := frame.leg
  let kind := frame.frameType
  let seq := frame.hopSequence
  if (handshake leg)[seq - 1]? = some kind.value then
    if t.failed then none else t.order frame
  else if kind = .close ∧ leg = .apiToRuntime ∧ t.has .apiToRuntime .runtimeHello then some ()
  else if leg = .runtimeToApi ∧ seq ≤ 2 ∧ kind = .error then
    (t.require .apiToRuntime .keyInit).map fun _ => ()
  else if leg = .runtimeToApi ∧ seq ≥ 3 ∧ kind ∈ [.state, .error, .close] then
    failIf (kind == .close && decide (leg ∉ t.mustClose))
  else if leg = .apiToBrowser ∧ kind ∈ [.error, .state, .close] then
    if kind = .error then some ()
    else failIf (!t.has .apiToBrowser .keyAttest || (kind == .close && decide (leg ∉ t.mustClose)))
  else none

/-- The detach exchange of the phase check. -/
def detachPhase : Option Unit :=
  let leg := frame.leg
  if frame.frameType = .detach then
    failIf (decide (leg ∈ t.detach) || (leg == .apiToRuntime && decide (.browserToApi ∉ t.detach)))
  else if frame.frameType = .detachAck then do
    let request ← t.detach.get? (if leg = .runtimeToApi then .apiToRuntime else .browserToApi)
    failIf (decide (leg ∈ t.detach))
    let r ← frame.json
    failIf (r.get? "acknowledged_hop_sequence" != some (.text (toString request.hopSequence)))
    if leg = .apiToBrowser then
      let response ← (t.detach.get? .runtimeToApi).bind (·.json)
      failIf (["result", "cleanup_state", "reason_code"].any fun name =>
        r.get? name != response.get? name)
  else some ()

/-- The `EXIT` that the API passes on after the one of the Runtime. -/
def exitPhase : Option Unit := do
  let original ← (t.exits.get? .runtimeToApi).bind (·.json)
  let incoming ← frame.json
  failIf (frame.leg != .apiToBrowser || decide (frame.leg ∈ t.exits) ||
    original.keys.any fun name => original.get? name != incoming.get? name)

/-- `#phase` after the leg's handshake. -/
def openPhase : Option Unit :=
  let leg := frame.leg
  let kind := frame.frameType
  if kind = .exit ∧ t.failed then t.exitPhase frame
  else if kind ∈ [.close, .error, .state] ∧ t.failed then some ()
  else if (leg = .browserToApi ∨ leg = .apiToBrowser) ∧ ¬ t.admitted then none
  else if ¬ (leg = .browserToApi ∨ leg = .apiToBrowser) ∧ ¬ t.committed then none
  else if leg = .apiToRuntime ∧ kind ≠ .close ∧ ¬ t.admitted then none
  else if [Leg.browserToApi, .apiToBrowser, .apiToRuntime, .runtimeToApi].any
      fun l => (handshake l).contains kind.value then none
  else if t.detach.length > 0 ∧
      kind ∉ [.detach, .detachAck, .close, .error, .state, .ack, .exit] then none
  else do
    t.order frame
    t.detachPhase frame

/-- `#phase` -/
def phase : Option Unit :=
  let leg := frame.leg
  let kind := frame.frameType
  if leg ∈ t.terminal ∨ (leg ∈ t.mustClose ∧ kind ≠ .close) then none
  else if t.failed ∧ kind ∉ [.state, .error, .close, .exit] then none
  else if kind = .state ∧ frame.field "state" = some (.text "RUNNING") ∧
      (t.failed ∨ ¬ t.has .apiToBrowser .admitted) then none
  else if frame.hopSequence ≤ (handshake leg).length then t.handshakePhase frame
  else t.openPhase frame

/-! ## Acceptance -/

/-- The checks on an encrypted record: the envelope, and whether it enters the relay. -/
def checkRecord : Option (AwceFields × Bool) := do
  let source ← t.relayCheck frame
  let envelope ← (decodeAwce frame.payload).toOption
  let confirmation ← t.require .runtimeToApi .keyConfirmAck
  match confirmation.field "transcript_context_hash" with
  | some (.str hash) =>
    failIf (!(envelope.contextId == Bytes.ofHex (hash.take 32)) ||
      envelope.cryptoSequence != t.crypto frame.leg)
    failIf (frame.frameType == .output && decide (envelope.streamCursor ≤ t.cursor frame.leg))
    return (envelope, source)
  | _ => none

/-- The queues and counters after an encrypted record. -/
def relayed (envelope : AwceFields) (source : Bool) : WireSession ι :=
  let kind := frame.frameType
  let leg := frame.leg
  let t := if source then
      { t with
        pending := Function.update t.pending kind (t.pending kind ++ [frame.payload])
        pendingBytes :=
          Function.update t.pendingBytes kind (t.pendingBytes kind + frame.wire.length) }
    else
      { t with
        pending := Function.update t.pending kind (t.pending kind).tail
        pendingBytes := Function.update t.pendingBytes kind
          (t.pendingBytes kind - (24 + ((t.pending kind).headD []).length)) }
  let t := { t with crypto := Function.update t.crypto leg (t.crypto leg + 1) }
  if kind = .output then { t with cursor := Function.update t.cursor leg envelope.streamCursor } else t

/-- The bookkeeping of the detach exchange. -/
def detached : WireSession ι :=
  if frame.frameType = .detach then
    let t := { t with detach := t.detach.set frame.leg frame }
    if frame.leg = .apiToRuntime then { t with detachAt := some now } else t
  else if frame.frameType = .detachAck then
    { t with
      detach := t.detach.set frame.leg frame
      mustClose := insert frame.leg t.mustClose }
  else t

/-- `nonfatalControlLimit` -/
def nonfatalControlLimit : Bool :=
  frame.frameType == .error && frame.leg == .apiToBrowser && t.has .apiToBrowser .admitted &&
    frame.field "code" == some (.text "CONTROL_RATE_LIMITED") &&
    frame.field "retryable" == some (.bool true)

/-- An error or state that ends the attachment. -/
def isFatal : Bool :=
  (frame.frameType == .error && !t.nonfatalControlLimit frame) ||
    (frame.frameType == .state && frame.field "state" != some (.text "RUNNING") &&
      (!t.has .apiToBrowser .admitted || frame.field "state" != some (.text "NEEDS_INTERACTION")))

/-- What a closing frame does to the session. -/
def settled : WireSession ι :=
  let leg := frame.leg
  let kind := frame.frameType
  if kind = .close then { t with terminal := insert leg t.terminal, failed := true }
  else if kind = .exit then
    { t with
      exits := t.exits.set leg frame
      mustClose := insert leg t.mustClose
      failed := true }
  else if kind = .error ∨ kind = .state then
    if t.isFatal frame then
      if (leg = .runtimeToApi ∧ frame.hopSequence ≤ 2) ∨
          (leg = .apiToBrowser ∧ ¬ t.has .apiToBrowser .keyAttest) then
        { t with failed := true, terminal := insert leg t.terminal }
      else { t with failed := true, mustClose := insert leg t.mustClose }
    else t
  else if kind = .admissionCommitAck ∧ frame.field "result" = some (.text "rejected") then
    { t with failed := true, mustClose := insert leg t.mustClose }
  else t

/-- `if (this.#failed) this.#clearPending()` -/
def drained : WireSession ι := if t.failed then t.clearPending else t

/-- File a handshake frame. -/
def recorded : WireSession ι :=
  if frame.frameType.value ∈ keyTypes ∨ frame.frameType.value ∈ handshake frame.leg then
    { t with seen := t.seen.set (frame.leg, frame.frameType) frame }
  else t

/-- Count the frame; the last sequence number ends the leg. -/
def counted : WireSession ι :=
  let t := { t with
    next := Function.update t.next frame.leg (t.next frame.leg + 1)
    lastNow := now }
  if frame.hopSequence = maxU64 then { t with terminal := insert frame.leg t.terminal } else t

/-- The session after a frame in sequence. -/
def advanced : WireSession ι :=
  ((((t.detached frame now).settled frame).drained).recorded frame).counted frame now

/-- `accept` from `#phase` on. -/
def observeNext : Option (WireFrame × WireSession ι) := do
  t.phase frame
  if frame.frameType = .input ∨ frame.frameType = .output then
    let (envelope, source) ← t.checkRecord frame
    return (frame, (t.relayed frame envelope source).advanced frame now)
  else return (frame, t.advanced frame now)

/-- The body of `accept`. -/
def observe [DecidableEq ι] (t : WireSession ι) (e : Event ι) : Option (WireFrame × WireSession ι) := do
  failIf (t.closed || decide (e.streamId ≠ t.streamId))
  let now ← e.now
  failIf (decide (now < t.lastNow))
  let leg ← e.leg
  failIf (!t.has .apiToBrowser .admitted && decide (now - t.started ≥ admissionNs))
  let frame ← decodeWireFrame e.raw leg (some t.admission) (some t.runtimeEpoch)
    (t.has .apiToRuntime .runtimeHello) e.elapsed
  if frame.hopSequence ≠ t.next leg then
    let t ← t.retry frame now
    return ({ frame with replay := true }, { t with lastNow := now })
  else t.observeNext frame now

/-- `accept`: an invalid observation closes the session. -/
def accept [DecidableEq ι] (t : WireSession ι) (e : Event ι) : Option WireFrame × WireSession ι :=
  match t.observe e with
  | some (frame, t) => (some frame, t)
  | none => (none, t.close)

end WireSession

end AgentBox.Web
