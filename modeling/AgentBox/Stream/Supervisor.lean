import AgentBox.Stream.Ring
import AgentBox.Tickets.Claims
import AgentBox.Wire.Schema
import Mathlib.Data.Rat.Floor

/-!
# The supervisor of a workspace

One supervisor owns a workspace's process and its output ring, and at most one attachment may write to
it. This is the part of it that an encrypted attachment uses: reserve, guard, commit and clean up an
attachment, publish a fresh redraw, and replay output. The transport behind the supervisor, the clock
and the attachment's authority are outside; a call carries what they answer. The output producer is
one of them: whenever it runs it may append any chunks to the ring.

Reference: `packages/agentbox-runtime/src/agentbox_runtime/waw_supervisor.py`.
-/

namespace AgentBox.Stream

open Method Tickets

/-- The codes of `RuntimeOperationError` that these methods raise. -/
inductive RuntimeCode
  | attachmentStale | attachmentExpired | attachmentRevoked | attachmentRequired | attachmentReplayed
  | workspaceNotRunning | probeUnavailable | probeUnconfirmed
  | writerBusy | workspaceWriterBusy | attachInvalid | attachUnconfirmed | runtimeUnavailable
  | outputStale | outputStopped | outputInvalid
  | redrawIdentityUnconfirmed | redrawUnavailable | redrawTimeout | redrawCaptureFailed
  | redrawLimitInvalid
deriving DecidableEq, Repr

/-- The codes of `EncryptedStreamError`. -/
inductive StreamCode
  | protocolInvalid | attachmentStale | attachmentNotReady | admissionTimeout | runtimeUnavailable
  | sequenceExhausted | outputBackpressure | reconciliationRequired | streamCryptoFailure
  | internalBounded
deriving DecidableEq, Repr

/-- What a method of the supervisor or of a session raises. -/
inductive Failure
  | runtime (code : RuntimeCode)
  | stream (code : StreamCode)
  | pty (error : PtyError)
  | wire (error : Wire.WireError)
  | crypto
  | valueError
  | assertion
  /-- an exception of a port -/
  | port
deriving DecidableEq

inductive SupervisorState
  | admitted | starting | running | needsInteraction | trustRequired | loginRequired | detached
  | stopping | stopped | broken | inputUncertain | reconciliationRequired
deriving DecidableEq, Repr

inductive RuntimeProbeState
  | running | needsInteraction | trustRequired | loginRequired | stopped | missing | exited
  | collision | unknown
deriving DecidableEq, Repr

def RuntimeProbeState.value : RuntimeProbeState → String
  | .running => "RUNNING"
  | .needsInteraction => "NEEDS_INTERACTION"
  | .trustRequired => "TRUST_REQUIRED"
  | .loginRequired => "LOGIN_REQUIRED"
  | .stopped => "STOPPED"
  | .missing => "MISSING"
  | .exited => "EXITED"
  | .collision => "COLLISION"
  | .unknown => "UNKNOWN"

/-! ## What the outside answers -/

/-- The answers of clock and authorities at one check. -/
structure Answer where
  /-- the clock, unless its reading is no finite number or behind an earlier one -/
  clock : Option ℚ
  /-- `lease.current()` -/
  current : Bool
  /-- `peer.current()` -/
  peer : Bool
  /-- nanoseconds of thread time for validating a control payload -/
  cpu : ℕ

/-- The evidence of a probe that names this very process. -/
structure RuntimeProbeEvidence where
  state : RuntimeProbeState
  exitCode : Option ℤ
deriving DecidableEq

/-- What the producer of the transport returns. -/
inductive Returned
  | raised
  | int (n : ℤ)
  | other
deriving DecidableEq

/-- One run of the producer: the chunks it appends on the way, and what it returns. -/
structure Production where
  chunks : List Bytes
  returned : Returned

/-- `RuntimeAttachmentLease`; the handle is the identity of the object. -/
structure RuntimeAttachmentLease where
  handle : ℕ
  claims : AttachmentTuple
  runtimeEpoch : String
  expiresAt : ℚ

/-- The fields of the stop binding that an attachment has to match. -/
structure StopBinding where
  workspaceId : String
  projectId : String
  agentType : AgentType
  generation : ℕ
  runtimeHostInstallationId : String
  runtimeHostInstallationRevision : ℕ
  bindingRevision : ℕ
  bindingDigest : String
deriving DecidableEq

/-- The binding that claims are made for. -/
def StopBinding.ofClaims (c : AttachmentTuple) : StopBinding where
  workspaceId := c.workspaceId
  projectId := c.projectId
  agentType := c.agentType
  generation := c.generation
  runtimeHostInstallationId := c.runtimeHostInstallationId
  runtimeHostInstallationRevision := c.runtimeHostInstallationRevision
  bindingRevision := c.bindingRevision
  bindingDigest := c.bindingDigest

/-- The supervisor's state. -/
structure Supervisor where
  ring : OutputRing
  state : SupervisorState
  binding : StopBinding
  runtimeEpoch : String
  /-- the handle of the committed writer -/
  attachment : Option ℕ
  /-- the handle of the reserved attachment -/
  runtimePending : Option ℕ
  lastAttachmentId : Option String
  /-- an output source has been admitted -/
  outputSource : Bool
  /-- the transport has a `produce_output` -/
  producer : Bool

namespace Supervisor

section
variable (lease : RuntimeAttachmentLease) (a : Answer)

/-! ## Attachments -/

/-- `_check_attachment` -/
def checkAttachment : Method Failure Supervisor Unit := do
  let s ← get
  raiseIf (lease.runtimeEpoch ≠ s.runtimeEpoch) (.runtime .attachmentStale)
  raiseIf (.ofClaims lease.claims ≠ s.binding) (.runtime .attachmentStale)
  raiseIf (¬ a.clock.any (· < lease.expiresAt)) (.runtime .attachmentExpired)
  raiseIf (¬ a.current) (.runtime .attachmentRevoked)

/-- `_require_attachment` -/
def requireAttachment : Method Failure Supervisor Unit := do
  checkAttachment lease a
  let s ← get
  raiseIf (s.attachment ≠ some lease.handle) (.runtime .attachmentRequired)

/-- `probe`; without evidence the transport cannot or does not answer. -/
def probe (evidence : Option RuntimeProbeEvidence) : Method Failure Supervisor RuntimeProbeEvidence := do
  let s ← get
  match evidence with
  | none => throw (.runtime .probeUnavailable)
  | some e => do
    raiseIf (e.state = .exited ∧ e.exitCode.any fun c => ¬ (-128 ≤ c ∧ c ≤ 255))
      (.runtime .probeUnconfirmed)
    raiseIf (e.state ≠ .exited ∧ e.exitCode.isSome) (.runtime .probeUnconfirmed)
    raiseIf (s.state = .stopped ∧ e.state ≠ .stopped) (.runtime .probeUnconfirmed)
    return e

/-- The part of `runtime_attachment_guard` before its body. What comes after is `checkAttachment`. -/
def enterGuard (requireWriter requireRunning : Bool) (a : Answer)
    (evidence : Option RuntimeProbeEvidence) : Method Failure Supervisor RuntimeProbeEvidence := do
  checkAttachment lease a
  let s ← get
  raiseIf (s.runtimePending ≠ some lease.handle) (.runtime .attachmentStale)
  raiseIf (requireWriter ∧ s.attachment ≠ some lease.handle) (.runtime .attachmentRequired)
  let e ← probe evidence
  raiseIf (requireRunning ∧ (e.state ≠ .running ∨ (s.state ≠ .running ∧ s.state ≠ .detached)))
    (.runtime .workspaceNotRunning)
  return e

/-- `reserve_runtime_attachment`; the flag says that the transport has the ports for it. -/
def reserveRuntimeAttachment (ports : Bool) : Method Failure Supervisor Unit := do
  checkAttachment lease a
  let s ← get
  raiseIf (¬ ports) (.runtime .runtimeUnavailable)
  raiseIf (s.runtimePending.isSome ∨ s.attachment.isSome) (.runtime .workspaceWriterBusy)
  raiseIf (s.lastAttachmentId = some lease.claims.attachmentId) (.runtime .attachmentStale)
  modify fun s => { s with runtimePending := some lease.handle }

/-- `cleanup_runtime_attachment`; the flag says whether the transport confirms the closure. -/
def cleanupRuntimeAttachment (confirmed : Bool) : Method Failure Supervisor Bool := do
  let s ← get
  if s.runtimePending ≠ some lease.handle ∨
      (s.attachment.isSome ∧ s.attachment ≠ some lease.handle) then return false
  else if ¬ confirmed then
    modify fun s => { s with state := .reconciliationRequired }
    return false
  else
    modify fun s => { s with
      runtimePending := none
      attachment := none
      lastAttachmentId := some lease.claims.attachmentId
      state := if s.state = .running ∨ s.state = .detached then .detached else s.state }
    return true

/-- What the transport does while an attachment is committed. -/
structure Opening where
  /-- a detached process is found alive -/
  reconciled : Bool
  /-- the attachment's terminal is opened -/
  opened : Bool
  /-- after a failure, the closure is confirmed -/
  cleaned : Bool

/-- Open the attachment's terminal, or fence the reservation. -/
def openTerminal (o : Opening) : Method Failure Supervisor Unit :=
  if o.opened then pure ()
  else do
    let cleaned ← cleanupRuntimeAttachment lease o.cleaned
    if ¬ cleaned then modify fun s => { s with state := .reconciliationRequired }
    throw (.runtime .attachUnconfirmed)

/-- `attach` for a Runtime lease. -/
def attach (o : Opening) : Method Failure Supervisor Unit := do
  checkAttachment lease a
  let s ← get
  raiseIf (s.runtimePending.any (· ≠ lease.handle)) (.runtime .workspaceWriterBusy)
  raiseIf (s.state ≠ .running ∧ s.state ≠ .detached) (.runtime .attachInvalid)
  raiseIf (s.attachment.any (· ≠ lease.handle)) (.runtime .writerBusy)
  raiseIf (s.attachment = none ∧ s.lastAttachmentId = some lease.claims.attachmentId)
    (.runtime .attachmentReplayed)
  raiseIf (s.state = .detached ∧ ¬ o.reconciled) (.runtime .attachUnconfirmed)
  openTerminal lease o
  modify fun s => { s with attachment := some lease.handle, state := .running }

/-- `commit_runtime_attachment` -/
def commitRuntimeAttachment (enter inside leave : Answer)
    (evidence : Option RuntimeProbeEvidence) (o : Opening) : Method Failure Supervisor Unit := do
  discard (enterGuard lease false true enter evidence)
  attach lease inside o
  checkAttachment lease leave

/-! ## Output -/

variable (s : Supervisor)

/-- `append_output`, by the holder of the admitted source. -/
def appendOutput (payload : Bytes) : Except Failure (ℕ × Supervisor) :=
  if s.outputSource = false ∨
      (s.state ≠ .running ∧ s.state ≠ .detached ∧ s.state ≠ .inputUncertain) then
    .error (.runtime .outputInvalid)
  else
    match s.ring.append payload with
    | .ok (frame, ring) => .ok (frame.endCursor, { s with ring := ring })
    | .error e => .error (.pty e)

/-- The producer appends a chunk; what it does about a refusal is up to it. -/
def offer (chunk : Bytes) : Supervisor :=
  match s.appendOutput chunk with
  | .ok (_, t) => t
  | .error _ => s

/-- The producer's appends, one after the other. -/
def produce (chunks : List Bytes) : Supervisor := chunks.foldl offer s

/-- The producer runs while a writer is attached. -/
def runsProducer : Bool := s.attachment.isSome && s.producer

/-- The producer's turn in a replay. -/
def runProducer (p : Production) : Method Failure Supervisor Unit := do
  let s ← get
  if s.runsProducer then
    modify fun s => s.produce p.chunks
    match p.returned with
    | .raised => throw .port
    | .other => throw (.runtime .outputInvalid)
    | .int n => raiseIf (n < 0) (.runtime .outputInvalid)

/-- `self._ring.replay(after_cursor)` -/
def readRing (afterCursor : ℕ) : Method Failure Supervisor OutputReplay := do
  let s ← get
  match s.ring.replay afterCursor with
  | .ok replay => return replay
  | .error e => throw (.pty e)

/-- The check of an attachment that may be missing. -/
def requireGiven : Option (RuntimeAttachmentLease × Answer) → Method Failure Supervisor Unit
  | some (lease, a) => requireAttachment lease a
  | none => pure ()

/-- `replay_output`; an attachment comes with the answers at its check. -/
def replayOutput (afterCursor generation : ℕ) (runtimeEpoch : String)
    (attachment : Option (RuntimeAttachmentLease × Answer)) (p : Production) :
    Method Failure Supervisor OutputReplay := do
  requireGiven attachment
  let s ← get
  raiseIf (generation ≠ s.binding.generation) (.runtime .outputStale)
  raiseIf (s.state = .stopped) (.runtime .outputStopped)
  raiseIf (runtimeEpoch ≠ s.runtimeEpoch) (.runtime .outputStale)
  runProducer p
  readRing afterCursor

/-- `clear_runtime_output` -/
def clearRuntimeOutput : Method Failure Supervisor Unit :=
  modify fun s => { s with ring := s.ring.clear }

/-! ## Redraws -/

/-- `_physical_rows` -/
def physicalRows (payload : Bytes) : ℕ :=
  lineFeeds payload + if payload ≠ [] ∧ payload.getLast? ≠ some 10 then 1 else 0

/-- `BoundedRedraw` with the conditions of its `__post_init__`. -/
structure BoundedRedraw where
  payload : Bytes
  hasMore : Bool
  bytes : payload.length ≤ 61440
  rows : physicalRows payload ≤ 24

/-- The pieces of a payload, each of `width` bytes but the last; `n` bounds their number. -/
def chunksOf (width : ℕ) : ℕ → Bytes → List Bytes
  | 0, _ => []
  | n + 1, payload =>
    if payload = [] then [] else payload.take width :: chunksOf width n (payload.drop width)

/-- What clock and transport answer during a redraw. -/
structure Redraw where
  enter : Answer
  evidence : Option RuntimeProbeEvidence
  started : Option ℚ
  /-- what the capture returns, when it does -/
  capture : Except Failure (Option BoundedRedraw)
  finished : Option ℚ
  inside : Answer
  /-- the output source is the one the capture started with -/
  sameSource : Bool
  post : Option RuntimeProbeEvidence
  leave : Answer

/-- `RuntimeRedrawPublication` -/
structure RuntimeRedrawPublication where
  frames : List OutputFrame
  baselineCursor : ℕ
  hasMore : Bool

/-- The capture's own errors are passed on, others are not. -/
def captured (d : Redraw) : Except Failure (Option BoundedRedraw) :=
  match d.capture with
  | .ok redraw => .ok redraw
  | .error (.runtime code) => .error (.runtime code)
  | .error _ => .error (.runtime .redrawCaptureFailed)

/-- Append the redraw to the ring. -/
def appendRedraw (redraw : BoundedRedraw) : Method Failure Supervisor RuntimeRedrawPublication := do
  let s ← get
  match s.ring.appendBatch (chunksOf 32768 redraw.payload.length redraw.payload) with
  | .error _ => throw (.runtime .redrawLimitInvalid)
  | .ok (frames, ring) => do
    modify fun s => { s with ring := ring }
    return ⟨frames, ring.nextCursor - 1, redraw.hasMore⟩

/-- `publish_fresh_redraw` -/
def publishFreshRedraw (d : Redraw) : Method Failure Supervisor RuntimeRedrawPublication := do
  let e ← enterGuard lease false true d.enter d.evidence
  raiseIf (e.state ≠ .running) (.runtime .redrawIdentityUnconfirmed)
  let s ← get
  raiseIf (¬ s.outputSource) (.runtime .redrawUnavailable)
  let started ← Method.liftExcept (orRaise d.started (.runtime .redrawTimeout))
  let redraw ← Method.liftExcept (captured d)
  let finished ← Method.liftExcept (orRaise d.finished (.runtime .redrawTimeout))
  raiseIf (finished < started ∨ started + 1 ≤ finished) (.runtime .redrawTimeout)
  checkAttachment lease d.inside
  let s ← get
  raiseIf (s.runtimePending ≠ some lease.handle ∨ ¬ d.sameSource) (.runtime .redrawIdentityUnconfirmed)
  let post ← probe d.post
  raiseIf (post.state ≠ .running) (.runtime .redrawIdentityUnconfirmed)
  let redraw ← Method.liftExcept (orRaise redraw (.runtime .redrawLimitInvalid))
  let publication ← appendRedraw redraw
  checkAttachment lease d.leave
  return publication

end

/-! ## What the methods leave behind -/

section
variable {s : Supervisor} {lease : RuntimeAttachmentLease} {a : Answer}
  {evidence : Option RuntimeProbeEvidence}

theorem checkAttachment_keeps : (checkAttachment lease a).Keeps Eq := by
  intro s
  simp [checkAttachment]

theorem requireAttachment_keeps : (requireAttachment lease a).Keeps Eq := by
  intro s
  exact checkAttachment_keeps.pass fun _ => by simp

theorem probe_keeps (evidence : Option RuntimeProbeEvidence) : (probe evidence).Keeps Eq := by
  intro s
  cases evidence <;> simp [probe]

theorem enterGuard_keeps {requireWriter requireRunning : Bool} :
    (enterGuard lease requireWriter requireRunning a evidence).Keeps Eq := by
  refine fun s => checkAttachment_keeps.pass fun _ => ?_
  simp only [wp_bind, wp_get, wp_raiseIf, implies_true, true_and]
  intro _ _
  exact (probe_keeps evidence).wp fun _ t ht => by simp [← ht]

theorem offer_eq (s : Supervisor) (chunk : Bytes) :
    ∃ ring, s.offer chunk = { s with ring := ring } ∧ s.ring.Grows ring := by
  unfold offer appendOutput
  split
  · next hoffer =>
    split at hoffer
    · cases hoffer
    · cases happend : s.ring.append chunk with
      | error e => rw [happend] at hoffer; cases hoffer
      | ok p =>
        rw [happend] at hoffer
        cases hoffer
        exact ⟨p.2, rfl, (OutputRing.append_ok happend).2.2.1⟩
  · exact ⟨s.ring, rfl, .refl _⟩

/-- The producer changes nothing but the ring, which grows. -/
theorem produce_eq (s : Supervisor) (chunks : List Bytes) :
    ∃ ring, s.produce chunks = { s with ring := ring } ∧ s.ring.Grows ring := by
  induction chunks generalizing s with
  | nil => exact ⟨s.ring, rfl, .refl _⟩
  | cons chunk chunks ih =>
    obtain ⟨ring, hoffer, hgrows⟩ := offer_eq s chunk
    obtain ⟨ring', hrest, hgrows'⟩ := ih { s with ring := ring }
    refine ⟨ring', ?_, hgrows.trans hgrows'⟩
    rw [produce, List.foldl_cons, hoffer]
    exact hrest

/-- The supervisor after a replay. -/
def afterProducer (s : Supervisor) (p : Production) : Supervisor :=
  if s.runsProducer then s.produce p.chunks else s

theorem afterProducer_eq (s : Supervisor) (p : Production) :
    ∃ ring, s.afterProducer p = { s with ring := ring } ∧ s.ring.Grows ring := by
  unfold afterProducer
  split
  · exact produce_eq s p.chunks
  · exact ⟨s.ring, rfl, .refl _⟩

theorem requireGiven_keeps (attachment : Option (RuntimeAttachmentLease × Answer)) :
    (requireGiven attachment).Keeps Eq := by
  intro s
  cases attachment with
  | none => exact rfl
  | some given => exact requireAttachment_keeps s

theorem runProducer_keeps (p : Production) : (runProducer p).Keeps fun s t => t = s.afterProducer p := by
  intro s
  simp only [runProducer, wp_bind, wp_get, wp_ite, wp_modify, wp_pure, afterProducer]
  refine ⟨fun hruns => ?_, fun hruns => by rw [if_neg hruns]⟩
  rw [if_pos hruns]
  cases p.returned <;> simp

/-- A replay reads the ring that the producer leaves behind. -/
theorem wp_replayOutput {afterCursor generation : ℕ} {runtimeEpoch : String}
    {attachment : Option (RuntimeAttachmentLease × Answer)} {p : Production}
    {Q : OutputReplay → Supervisor → Prop}
    (hQ : ∀ v, (s.afterProducer p).ring.replay afterCursor = .ok v → Q v (s.afterProducer p)) :
    (replayOutput afterCursor generation runtimeEpoch attachment p).wp s Q fun _ _ => True := by
  refine (requireGiven_keeps attachment).pass fun _ => ?_
  simp only [wp_bind, wp_get, wp_raiseIf, implies_true, true_and]
  intro _ _ _
  refine (runProducer_keeps p).wp fun _ t ht => ?_
  subst ht
  simp only [readRing, wp_bind, wp_get]
  split
  · next v hv => exact hQ v hv
  · trivial

/-- A redraw is appended to the ring in one piece. -/
theorem wp_publishFreshRedraw {d : Redraw} {Q : RuntimeRedrawPublication → Supervisor → Prop}
    (hQ : ∀ v ring, Frames s.ring.head v.frames ring.head → s.ring.Grows ring →
      v.baselineCursor = ring.head → Q v { s with ring := ring }) :
    (publishFreshRedraw lease d).wp s Q fun _ _ => True := by
  refine enterGuard_keeps.pass fun _ => ?_
  simp only [wp_bind, wp_get, wp_raiseIf, wp_liftExcept, implies_true, true_and, and_true]
  intro _ _ started _ captured _ finished _ _
  refine checkAttachment_keeps.wp fun _ t ht => ?_
  subst ht
  intro _
  refine (probe_keeps d.post).wp fun post t ht => ?_
  subst ht
  intro _ redraw _
  simp only [appendRedraw, wp_bind, wp_get]
  split
  · trivial
  · next frames ring happend =>
    obtain ⟨hframes, hgrows⟩ := OutputRing.appendBatch_ok happend
    simp only [wp_bind, wp_modify, wp_pure]
    exact checkAttachment_keeps.wp fun _ t ht => ht ▸ hQ _ ring hframes hgrows rfl

theorem openTerminal_keeps (o : Opening) : (openTerminal lease o).Keeps Eq := by
  intro s
  simp only [openTerminal, wp_ite, wp_pure, wp_bind, implies_true, true_and]
  intro _
  exact wp_of_forall (fun _ _ => by simp) fun _ _ => trivial

/-- A commit does not touch the ring. -/
theorem commitRuntimeAttachment_keeps {enter inside leave : Answer} {o : Opening} :
    (commitRuntimeAttachment lease enter inside leave evidence o).Keeps fun s t => t.ring = s.ring := by
  refine fun s => enterGuard_keeps.discard.pass fun _ => ?_
  rw [wp_bind]
  refine checkAttachment_keeps.pass fun _ => ?_
  simp only [wp_bind, wp_get, wp_raiseIf, wp_modify, implies_true, true_and]
  intro _ _ _ _ _
  refine (openTerminal_keeps o).wp fun _ t ht => ?_
  subst ht
  exact checkAttachment_keeps.wp fun _ t ht => by rw [← ht]

end

end Supervisor

end AgentBox.Stream
