import AgentBox.Stream.Supervisor
import AgentBox.Common.Run

/-!
# The single writer of a workspace

The life of a supervisor's attachments: one lease is reserved, the same lease is committed as the writer,
and it is cleaned up by closing its terminal. The transport is arbitrary; every call carries what the
transport answers to it, and the calls of `close_attachment` are recorded with their results. The output
ring, which none of this depends on, is left to the model of the supervisor.

A lease's handle is the identity of the object, so `is` compares handles.

Reference: `packages/agentbox-runtime/src/agentbox_runtime/waw_supervisor.py`.
-/

namespace AgentBox.Stream.Writer

open List Method

variable {lease : RuntimeAttachmentLease}

/-- The codes of `RuntimeOperationError`, and what other exceptions there are. -/
inductive Refusal
  | startInvalid | startFailed | resumeInvalid | resumeFailed | runtimeUnavailable
  | attachmentStale | attachmentExpired | attachmentRevoked | attachmentRequired | attachmentReplayed
  | workspaceWriterBusy | writerBusy | attachInvalid | attachUnconfirmed | workspaceNotRunning
  | probeUnavailable | probeUnconfirmed | detachUnconfirmed | inputReconciliationRequired
  | inputUncertain | resizeFailed | stopStale | stopInvalid | stopUnconfirmed
  | stopFailed | redrawFailed
  /-- `validate_input` refuses the data -/
  | inputInvalid
  /-- a Runtime lease has no heartbeat time -/
  | attributeError
deriving DecidableEq, Repr

/-- What `close_attachment` answers. -/
inductive Closing
  /-- the transport has no such port -/
  | absent
  | raised
  /-- something that is no `RuntimeAttachmentCleanupEvidence` -/
  | other
  /-- evidence for the lease with this handle; no number of members if it is no integer -/
  | evidence (lease : ℕ) (closed : Bool) (remainingMembers : Option ℤ)
deriving DecidableEq, Repr

/-- The evidence that confirms the closure of a lease's terminal. -/
def Closing.exact (handle : ℕ) : Closing := .evidence handle true (some 0)

/-- One call of `close_attachment`, with the reservation at that moment. -/
structure Close where
  lease : RuntimeAttachmentLease
  reserved : Option RuntimeAttachmentLease
  result : Closing

/-- The supervisor's fields that its attachments depend on. -/
structure Owner where
  state : SupervisorState
  binding : StopBinding
  runtimeEpoch : String
  attachment : Option RuntimeAttachmentLease
  runtimePending : Option RuntimeAttachmentLease
  lastAttachmentId : Option String
  outputSource : Bool
  closes : List Close

abbrev Op := Method Refusal Owner

variable (lease) (a : Answer)

/-- `x is lease` -/
def isLease (x : Option RuntimeAttachmentLease) (lease : RuntimeAttachmentLease) : Bool :=
  x.any fun l => l.handle == lease.handle

/-! ## Checks -/

/-- `_check_attachment` -/
def checkAttachment : Op Unit := do
  let s ← get
  raiseIf (lease.runtimeEpoch ≠ s.runtimeEpoch) .attachmentStale
  raiseIf (.ofClaims lease.claims ≠ s.binding) .attachmentStale
  raiseIf (¬a.clock.any (· < lease.expiresAt)) .attachmentExpired
  raiseIf (¬a.current) .attachmentRevoked

/-- `_require_attachment` -/
def requireAttachment : Op Unit := do
  checkAttachment lease a
  let s ← get
  raiseIf (isLease s.attachment lease = false) .attachmentRequired

/-- `probe`; without evidence the transport cannot or does not answer. -/
def probe (evidence : Option RuntimeProbeEvidence) : Op RuntimeProbeEvidence := do
  let s ← get
  let e ← Method.liftExcept (orRaise evidence .probeUnavailable)
  raiseIf (e.state = .exited ∧ e.exitCode.any fun c => ¬(-128 ≤ c ∧ c ≤ 255)) .probeUnconfirmed
  raiseIf (e.state ≠ .exited ∧ e.exitCode.isSome) .probeUnconfirmed
  raiseIf (s.state = .stopped ∧ e.state ≠ .stopped) .probeUnconfirmed
  return e

/-- The part of `runtime_attachment_guard` before its body. -/
def enterGuard (requireWriter requireRunning : Bool) (a : Answer)
    (evidence : Option RuntimeProbeEvidence) : Op RuntimeProbeEvidence := do
  checkAttachment lease a
  let s ← get
  raiseIf (isLease s.runtimePending lease = false) .attachmentStale
  raiseIf (requireWriter ∧ isLease s.attachment lease = false) .attachmentRequired
  let e ← probe evidence
  raiseIf (requireRunning ∧ (e.state ≠ .running ∨ (s.state ≠ .running ∧ s.state ≠ .detached)))
    .workspaceNotRunning
  return e

/-! ## Reservation and cleanup -/

/-- `reserve_runtime_attachment`; the flag says that the transport has the ports for it. -/
def reserveRuntimeAttachment (ports : Bool) : Op Unit := do
  checkAttachment lease a
  let s ← get
  raiseIf (¬ports) .runtimeUnavailable
  raiseIf (s.runtimePending.isSome ∨ s.attachment.isSome) .workspaceWriterBusy
  raiseIf (s.lastAttachmentId = some lease.claims.attachmentId) .attachmentStale
  modify fun s => { s with runtimePending := some lease }

/-- The call of the transport's `close_attachment`. -/
def closeAttachment (c : Closing) : Op Unit :=
  onlyIf (c ≠ .absent) (modify fun s => { s with closes := s.closes ++ [⟨lease, s.runtimePending, c⟩] })

/-- Release the reservation of a lease whose terminal is closed. -/
def release : Op Unit :=
  modify fun s => { s with
    runtimePending := none
    attachment := none
    lastAttachmentId := some lease.claims.attachmentId
    state := if s.state = .running ∨ s.state = .detached then .detached else s.state }

def setState (state : SupervisorState) : Op Unit := modify fun s => { s with state := state }

/-- `cleanup_runtime_attachment` -/
def cleanupRuntimeAttachment (c : Closing) : Op Bool := do
  let s ← get
  if isLease s.runtimePending lease = false ∨ (s.attachment.isSome ∧ isLease s.attachment lease = false) then
    return false
  else do
    closeAttachment lease c
    if c ≠ .exact lease.handle then do
      setState .reconciliationRequired
      return false
    else do
      release lease
      return true

/-! ## The writer -/

/-- What the transport answers to `open_attachment`. -/
inductive Opening
  /-- the port is missing, and the transport may insist on it -/
  | absent (required : Bool)
  | opened
  | failed
deriving DecidableEq, Repr

/-- Open the attachment's terminal, or fence the reservation. -/
def openTerminal (o : Opening) (c : Closing) : Op Unit :=
  match o with
  | .absent required => raiseIf (required = true) .runtimeUnavailable
  | .opened => pure ()
  | .failed => do
    let cleaned ← cleanupRuntimeAttachment lease c
    onlyIf (cleaned = false) (setState .reconciliationRequired)
    throw .attachUnconfirmed

/-- `attach` for a Runtime lease; `reconciled` says that a detached process is found alive or that the
transport cannot tell. -/
def attach (reconciled : Bool) (o : Opening) (c : Closing) : Op Unit := do
  checkAttachment lease a
  let s ← get
  raiseIf (s.runtimePending.isSome ∧ isLease s.runtimePending lease = false) .workspaceWriterBusy
  raiseIf (s.state ≠ .running ∧ s.state ≠ .detached) .attachInvalid
  raiseIf (s.attachment.any fun l => l.claims ≠ lease.claims) .writerBusy
  raiseIf (s.attachment.isNone ∧ s.lastAttachmentId = some lease.claims.attachmentId)
    .attachmentReplayed
  raiseIf (s.state = .detached ∧ ¬reconciled) .attachUnconfirmed
  openTerminal lease o c
  modify fun s => { s with attachment := some lease, state := .running }

/-- What is answered while a reservation is committed. -/
structure Commit where
  enter : Answer
  evidence : Option RuntimeProbeEvidence
  inside : Answer
  reconciled : Bool
  opening : Opening
  closing : Closing
  leave : Answer

/-- `commit_runtime_attachment` -/
def commitRuntimeAttachment (r : Commit) : Op Unit := do
  discard (enterGuard lease false true r.enter r.evidence)
  attach lease r.inside r.reconciled r.opening r.closing
  checkAttachment lease r.leave

/-- `detach` for a Runtime lease. -/
def detach (c : Closing) : Op Unit := do
  requireAttachment lease a
  let cleaned ← cleanupRuntimeAttachment lease c
  raiseIf (cleaned = false) .detachUnconfirmed

/-- `write_input`; the flags say that the data is valid and that the transport took it. -/
def writeInput (valid written : Bool) : Op Unit := do
  requireAttachment lease a
  let s ← get
  raiseIf (s.state = .inputUncertain) .inputReconciliationRequired
  raiseIf (valid = false) .inputInvalid
  onlyIf (written = false) do
    setState .inputUncertain
    throw .inputUncertain

/-- `resize` for a Runtime lease. -/
def resize (resized : Bool) (c : Closing) : Op Unit := do
  requireAttachment lease a
  let s ← get
  raiseIf (s.state = .inputUncertain) .inputReconciliationRequired
  onlyIf (resized = false) do
    let cleaned ← cleanupRuntimeAttachment lease c
    onlyIf (cleaned = false) (setState .reconciliationRequired)
    throw .resizeFailed

/-- `heartbeat` on Runtime leases, which have no heartbeat time to compare. -/
def heartbeat (current renewed : RuntimeAttachmentLease) (a b : Answer) : Op Unit := do
  requireAttachment current a
  checkAttachment renewed b
  raiseIf (renewed.claims ≠ current.claims) .attachmentStale
  throw .attributeError

/-- `publish_fresh_redraw`, as far as the attachment goes: the capture and the ring are outside, and
either of them may refuse. -/
def publishFreshRedraw (enter inside leave : Answer)
    (evidence post : Option RuntimeProbeEvidence) (captured sameSource appended : Bool) : Op Unit := do
  let e ← enterGuard lease false true enter evidence
  raiseIf (e.state ≠ .running) .redrawFailed
  let s ← get
  raiseIf (¬s.outputSource) .redrawFailed
  raiseIf (captured = false) .redrawFailed
  checkAttachment lease inside
  let t ← get
  raiseIf (isLease t.runtimePending lease = false ∨ sameSource = false) .redrawFailed
  let p ← probe post
  raiseIf (p.state ≠ .running) .redrawFailed
  raiseIf (appended = false) .redrawFailed
  checkAttachment lease leave

/-! ## Start and stop -/

/-- The states that a start may report. -/
def startStates : List SupervisorState := [.running, .needsInteraction, .trustRequired, .loginRequired]

/-- `start`; the answer is the state of exact and ready evidence, and whether the output sink is
bound. -/
def start (evidence : Option SupervisorState) (bound : Bool) : Op Unit := do
  let s ← get
  raiseIf (s.state ≠ .admitted) .startInvalid
  match evidence.filter startStates.contains with
  | none => do
    setState .broken
    throw .startFailed
  | some state => do
    modify fun s => { s with outputSource := true }
    onlyIf (bound = false) do
      setState .broken
      throw .startFailed
    setState state

/-- `resume_after_login`; `validated` says that the port is there and takes the evidence. -/
def resumeAfterLogin (validated : Bool) (evidence : Option SupervisorState) : Op Unit := do
  let s ← get
  raiseIf (s.state ≠ .loginRequired) .resumeInvalid
  raiseIf (validated = false) .runtimeUnavailable
  setState .starting
  match evidence.filter [SupervisorState.running, .needsInteraction, .trustRequired].contains with
  | none => do
    setState .reconciliationRequired
    throw .resumeFailed
  | some state => setState state

/-- What the transport answers to `stop`. -/
inductive Stopping
  | raised
  | inexact
  | exact
deriving DecidableEq, Repr

/-- `_stop_transport`; `fenced` is the answer of the pending publication's invalidation. -/
def stopTransport (fenced : Bool) (r : Stopping) : Op Unit := do
  let s ← get
  raiseIf (s.state = .stopping ∨ s.state = .stopped) .stopInvalid
  setState .stopping
  onlyIf (s.runtimePending.isSome ∧ fenced = false) do
    setState .reconciliationRequired
    throw .stopUnconfirmed
  match r with
  | .raised => do
    setState .broken
    throw .stopFailed
  | .inexact => do
    setState .reconciliationRequired
    throw .stopUnconfirmed
  | .exact =>
    modify fun s => { s with attachment := none, outputSource := false, state := .stopped }

/-- `stop` -/
def stop (fenced : Bool) (r : Stopping) : Op Unit := do
  requireAttachment lease a
  stopTransport fenced r

/-- `exact_stop` -/
def exactStop (operation : StopBinding) (isPending fenced : Bool) (r : Stopping) : Op Unit := do
  let s ← get
  raiseIf (operation ≠ s.binding) .stopStale
  raiseIf (isPending = false) .stopInvalid
  raiseIf (s.state = .stopping ∨ s.state = .stopped) .stopInvalid
  stopTransport fenced r

/-! ## Calls -/

/-- The calls of a registry and its sessions, and of whoever starts and stops the workspace. -/
inductive Call
  | start (evidence : Option SupervisorState) (bound : Bool)
  | resumeAfterLogin (validated : Bool) (evidence : Option SupervisorState)
  | reserve (lease : RuntimeAttachmentLease) (a : Answer) (ports : Bool)
  | enterGuard (lease : RuntimeAttachmentLease) (requireWriter requireRunning : Bool) (a : Answer)
      (evidence : Option RuntimeProbeEvidence)
  | commit (lease : RuntimeAttachmentLease) (r : Commit)
  | cleanup (lease : RuntimeAttachmentLease) (c : Closing)
  | detach (lease : RuntimeAttachmentLease) (a : Answer) (c : Closing)
  | writeInput (lease : RuntimeAttachmentLease) (a : Answer) (valid written : Bool)
  | resize (lease : RuntimeAttachmentLease) (a : Answer) (resized : Bool) (c : Closing)
  | heartbeat (current renewed : RuntimeAttachmentLease) (a b : Answer)
  | redraw (lease : RuntimeAttachmentLease) (enter inside leave : Answer)
      (evidence post : Option RuntimeProbeEvidence) (captured sameSource appended : Bool)
  | stop (lease : RuntimeAttachmentLease) (a : Answer) (fenced : Bool) (r : Stopping)
  | exactStop (operation : StopBinding) (isPending fenced : Bool) (r : Stopping)

def perform : Call → Op Unit
  | .start evidence bound => start evidence bound
  | .resumeAfterLogin validated evidence => resumeAfterLogin validated evidence
  | .reserve lease a ports => reserveRuntimeAttachment lease a ports
  | .enterGuard lease requireWriter requireRunning a evidence =>
    discard (enterGuard lease requireWriter requireRunning a evidence)
  | .commit lease r => commitRuntimeAttachment lease r
  | .cleanup lease c => discard (cleanupRuntimeAttachment lease c)
  | .detach lease a c => detach lease a c
  | .writeInput lease a valid written => writeInput lease a valid written
  | .resize lease a resized c => resize lease a resized c
  | .heartbeat current renewed a b => heartbeat current renewed a b
  | .redraw lease enter inside leave evidence post captured sameSource appended =>
    publishFreshRedraw lease enter inside leave evidence post captured sameSource appended
  | .stop lease a fenced r => stop lease a fenced r
  | .exactStop operation isPending fenced r => exactStop operation isPending fenced r

/-- A supervisor before its start. -/
def Owner.admitted (binding : StopBinding) (runtimeEpoch : String) : Owner :=
  ⟨.admitted, binding, runtimeEpoch, none, none, none, false, []⟩

variable (s : Owner)

def Owner.step (call : Call) : Owner := ((perform call).call s).2

/-- The supervisor after the first `k` calls. -/
def reached (calls : List Call) (k : ℕ) : Owner := stateAt Owner.step s calls k

/-! ## What a part of a method can do -/

/-- The writer, if there is one, is the reserved lease. -/
def Owner.Single : Prop :=
  ∀ lease, s.attachment = some lease → isLease s.runtimePending lease = true

/-- The states that only a new generation leaves. -/
def settled : SupervisorState → Bool
  | .inputUncertain | .broken | .reconciliationRequired | .stopping | .stopped => true
  | _ => false

/-- What holds of every part of a method that reserves nothing. -/
structure Tended (s t : Owner) : Prop where
  single : s.Single → t.Single
  settled : settled s.state = true → settled t.state = true
  /-- only the reserved lease is closed, and the reservation ends with exact evidence -/
  closes : ∃ new, t.closes = s.closes ++ new ∧
    (∀ c ∈ new, c.reserved = s.runtimePending ∧ isLease s.runtimePending c.lease = true) ∧
    (t.runtimePending = s.runtimePending ∨
      (t.runtimePending = none ∧ ∃ c ∈ new, c.result = .exact c.lease.handle))

theorem Tended.refl : Tended s s :=
  ⟨id, id, [], (append_nil _).symm, (fun _ hc => absurd hc not_mem_nil), .inl rfl⟩

variable {s t : Owner}

theorem Tended.trans {u : Owner} (h : Tended s t) (h' : Tended t u) : Tended s u := by
  obtain ⟨new, hlog, hlease, hpending⟩ := h.closes
  obtain ⟨new', hlog', hlease', hpending'⟩ := h'.closes
  refine ⟨h'.single ∘ h.single, h'.settled ∘ h.settled, new ++ new', ?_, ?_, ?_⟩
  · rw [hlog', hlog, append_assoc]
  · intro c hc
    rcases mem_append.mp hc with hc | hc
    · exact hlease c hc
    · have hreserved := hlease' c hc
      rcases hpending with heq | ⟨hnone, -⟩
      · rwa [heq] at hreserved
      · rw [hnone] at hreserved
        cases hreserved.2
  · rcases hpending' with heq | ⟨hnone, c, hc, hexact⟩
    · rcases hpending with hkept | ⟨hnone, c, hc, hexact⟩
      · exact .inl (heq.trans hkept)
      · exact .inr ⟨heq.trans hnone, c, mem_append_left _ hc, hexact⟩
    · exact .inr ⟨hnone, c, mem_append_right _ hc, hexact⟩

instance : Std.Refl Tended := ⟨Tended.refl⟩

instance : IsTrans Owner Tended := ⟨fun _ _ _ => Tended.trans⟩

/-- A change of the state alone. -/
theorem tended_setState {state : SupervisorState} (h : settled state = true) :
    (setState state).Always Tended :=
  always_modify fun _ =>
    ⟨id, fun _ => h, [], (append_nil _).symm, (fun _ hc => absurd hc not_mem_nil), .inl rfl⟩

theorem checkAttachment_always : (checkAttachment lease a).Always Eq :=
  always_read fun _ => always_unless fun _ =>
    always_unless fun _ => always_unless fun _ =>
    always_raiseIf _ _

theorem probe_always (evidence : Option RuntimeProbeEvidence) : (probe evidence).Always Eq :=
  always_read fun _ => always_bind (always_liftExcept _) fun _ =>
    always_unless fun _ => always_unless fun _ =>
    always_unless fun _ => always_pure _

theorem enterGuard_always (requireWriter requireRunning : Bool)
    (a : Answer) (evidence : Option RuntimeProbeEvidence) :
    (enterGuard lease requireWriter requireRunning a evidence).Always Eq :=
  always_bind (checkAttachment_always _ _) fun _ => always_read fun _ =>
    always_unless fun _ => always_unless fun _ =>
    always_bind (probe_always _) fun _ => always_unless fun _ => always_pure _

theorem requireAttachment_always : (requireAttachment lease a).Always Eq :=
  always_bind (checkAttachment_always _ _) fun _ => always_read fun _ => always_raiseIf _ _

/-- A part that changes nothing. -/
theorem tended_of_eq {α : Type} {m : Op α} (h : m.Always Eq) : m.Always Tended :=
  h.mono fun s _ heq => heq ▸ Tended.refl s

theorem tended_of_mem_nil (hsingle : s.Single → t.Single)
    (hsettled : settled s.state = true → settled t.state = true) (hcloses : t.closes = s.closes)
    (hpending : t.runtimePending = s.runtimePending) : Tended s t :=
  ⟨hsingle, hsettled, [], by rw [hcloses, append_nil],
    (fun _ hc => absurd hc not_mem_nil), .inl hpending⟩

/-! ## Cleanup -/

variable {c : Closing} {lease}

/-- The transport closes the reserved lease without confirming it. -/
theorem tended_unconfirmed (h : isLease s.runtimePending lease = true) : (do
      closeAttachment lease c
      setState .reconciliationRequired
      return false : Op Bool).wp s (fun _ t => Tended s t) fun _ t => Tended s t := by
  simp only [closeAttachment, setState, wp_bind, wp_onlyIf, wp_modify, wp_pure]
  refine ⟨fun _ => ⟨id, fun _ => rfl, [⟨lease, s.runtimePending, c⟩], rfl, ?_, .inl rfl⟩, fun _ => ?_⟩
  · intro c' hc'
    rw [mem_singleton.mp hc']
    exact ⟨rfl, h⟩
  · exact tended_of_mem_nil id (fun _ => rfl) rfl rfl

/-- The transport closes the reserved lease and confirms it. -/
theorem tended_confirmed (h : isLease s.runtimePending lease = true) : (do
      closeAttachment lease (.exact lease.handle)
      release lease
      return true : Op Bool).wp s (fun _ t => Tended s t) fun _ t => Tended s t := by
  simp only [closeAttachment, release, wp_bind, wp_onlyIf, wp_modify, wp_pure]
  refine ⟨fun _ => ⟨?_, ?_, [⟨lease, s.runtimePending, .exact lease.handle⟩], rfl, ?_,
    .inr ⟨rfl, _, mem_singleton_self _, rfl⟩⟩, fun habsent => absurd (fun heq => by cases heq) habsent⟩
  · intro _ lease' hlease'
    cases hlease'
  · intro hsettled
    have hstate : ¬(s.state = .running ∨ s.state = .detached) := by
      rintro (heq | heq) <;> rw [heq] at hsettled <;> cases hsettled
    simp only [if_neg hstate]
    exact hsettled
  · intro c hc
    rw [mem_singleton.mp hc]
    exact ⟨rfl, h⟩

variable (lease)

theorem tended_cleanup (c : Closing) : (cleanupRuntimeAttachment lease c).Always Tended := by
  intro s
  unfold cleanupRuntimeAttachment
  rw [wp_bind, wp_get, wp_ite]
  refine ⟨fun _ => .refl s, fun hreserved => ?_⟩
  have hlease : isLease s.runtimePending lease = true := by simpa using (not_or.mp hreserved).1
  by_cases hexact : c = .exact lease.handle
  · subst hexact
    simp only [ne_eq, not_true_eq_false, if_false]
    exact tended_confirmed hlease
  · simp only [ne_eq, hexact, not_false_eq_true, if_true]
    exact tended_unconfirmed hlease

/-- A failed port fences the reservation, and the call raises. -/
theorem tended_fence (c : Closing) (e : Refusal) : (do
      let cleaned ← cleanupRuntimeAttachment lease c
      onlyIf (cleaned = false) (setState .reconciliationRequired)
      throw e : Op Unit).Always Tended :=
  always_bind (tended_cleanup lease c) fun _ =>
    always_bind (always_onlyIf fun _ => tended_setState rfl) fun _ => always_throw _

/-! ## The methods -/

theorem tended_openTerminal (o : Opening) (c : Closing) (s : Owner) :
    (openTerminal lease o c).wp s (fun _ t => t = s) fun _ t => Tended s t := by
  cases o with
  | absent required =>
    rw [openTerminal, wp_raiseIf]
    exact ⟨fun _ => .refl s, fun _ => rfl⟩
  | opened => exact rfl
  | failed =>
    unfold openTerminal
    refine wp_seq (tended_cleanup lease c s) fun cleaned t ht => ?_
    refine wp_seq_mono (always_onlyIf (fun _ => tended_setState rfl) t) (fun _ u hu => ?_)
      fun _ _ hu => ht.trans hu
    exact ht.trans hu

/-- Committing the reserved lease makes it the writer. -/
theorem tended_attach {a : Answer} {reconciled : Bool} {o : Opening}
    (hreserved : isLease s.runtimePending lease = true) :
    (attach lease a reconciled o c).wp s (fun _ t => Tended s t) fun _ t => Tended s t := by
  unfold attach
  refine wp_seq_mono (checkAttachment_always lease a s) (fun _ t ht => ?_) fun _ t ht => ht ▸ .refl s
  subst ht
  simp only [wp_bind, wp_get, wp_raiseIf, wp_modify]
  refine ⟨fun _ => .refl s, fun _ => ⟨fun _ => .refl s, fun hstate => ⟨fun _ => .refl s, fun _ =>
    ⟨fun _ => .refl s, fun _ => ⟨fun _ => .refl s, fun _ => ?_⟩⟩⟩⟩⟩
  refine wp_imp (tended_openTerminal lease o c s) fun _ t ht => ?_
  subst ht
  refine tended_of_mem_nil (fun _ lease' hlease' => ?_) (fun hsettled => ?_) rfl rfl
  · cases hlease'
    exact hreserved
  · -- a settled state was refused
    exfalso
    apply hstate
    constructor <;> intro heq <;> rw [heq] at hsettled <;> cases hsettled

theorem enterGuard_returns (requireWriter requireRunning : Bool)
    (a : Answer) (evidence : Option RuntimeProbeEvidence) (s : Owner) :
    (enterGuard lease requireWriter requireRunning a evidence).wp s
      (fun _ t => t = s ∧ isLease s.runtimePending lease = true) fun _ t => t = s := by
  unfold enterGuard
  refine wp_seq_mono (checkAttachment_always lease a s) (fun _ t ht => ?_) fun _ t ht => ht.symm
  subst ht
  rw [wp_bind, wp_get]
  refine wp_unless (fun _ => rfl) fun hreserved => ?_
  refine wp_unless (fun _ => rfl) fun _ => ?_
  refine wp_seq_mono (probe_always evidence s) (fun e t ht => ?_) fun _ t ht => ht.symm
  subst ht
  exact wp_unless (fun _ => rfl) fun _ => ⟨rfl, by simpa using hreserved⟩

theorem tended_commit (r : Commit) : (commitRuntimeAttachment lease r).Always Tended := by
  intro s
  unfold commitRuntimeAttachment
  rw [wp_bind, wp_discard]
  refine wp_mono (enterGuard_returns lease false true r.enter r.evidence s) (fun _ t ht => ?_)
    fun _ t ht => ht ▸ .refl s
  obtain ⟨rfl, hreserved⟩ := ht
  refine wp_seq (tended_attach lease hreserved) fun _ u hu => ?_
  exact wp_mono (checkAttachment_always lease r.leave u) (fun _ _ heq => heq ▸ hu)
    fun _ _ heq => heq ▸ hu

theorem tended_detach (c : Closing) : (detach lease a c).Always Tended :=
  always_bind (tended_of_eq (requireAttachment_always lease a)) fun _ =>
    always_bind (tended_cleanup lease c) fun _ => always_raiseIf _ _

theorem tended_writeInput (valid written : Bool) : (writeInput lease a valid written).Always Tended :=
  always_bind (tended_of_eq (requireAttachment_always lease a)) fun _ => always_read fun _ =>
    always_unless fun _ => always_unless fun _ =>
    always_onlyIf fun _ => always_bind (tended_setState rfl) fun _ => always_throw _

theorem tended_resize (resized : Bool) (c : Closing) : (resize lease a resized c).Always Tended :=
  always_bind (tended_of_eq (requireAttachment_always lease a)) fun _ => always_read fun _ =>
    always_unless fun _ => always_onlyIf fun _ => tended_fence lease c .resizeFailed

theorem tended_heartbeat (current renewed : RuntimeAttachmentLease) (a b : Answer) :
    (heartbeat current renewed a b).Always Tended :=
  always_bind (tended_of_eq (requireAttachment_always current a)) fun _ =>
    always_bind (tended_of_eq (checkAttachment_always renewed b)) fun _ =>
    always_unless fun _ => always_throw _

theorem tended_redraw (enter inside leave : Answer)
    (evidence post : Option RuntimeProbeEvidence) (captured sameSource appended : Bool) :
    (publishFreshRedraw lease enter inside leave evidence post captured sameSource appended).Always
      Tended :=
  always_bind (tended_of_eq (enterGuard_always _ _ _ _ _)) fun _ => always_unless fun _ =>
    always_read fun _ => always_unless fun _ =>
    always_unless fun _ => always_bind (tended_of_eq (checkAttachment_always _ _)) fun _ =>
    always_read fun _ => always_unless fun _ =>
    always_bind (tended_of_eq (probe_always _)) fun _ => always_unless fun _ =>
    always_unless fun _ => tended_of_eq (checkAttachment_always _ _)

theorem tended_stopTransport (fenced : Bool) (r : Stopping) : (stopTransport fenced r).Always Tended := by
  refine always_read fun _ => always_unless fun _ =>
    always_bind (tended_setState rfl) fun _ => always_bind ?_ fun _ => ?_
  · exact always_onlyIf fun _ => always_bind (tended_setState rfl) fun _ => always_throw _
  · cases r with
    | raised | inexact => exact always_bind (tended_setState rfl) fun _ => always_throw _
    | exact =>
      refine always_modify fun s => tended_of_mem_nil ?_ (fun _ => rfl) rfl rfl
      intro _ lease hlease
      cases hlease

theorem tended_stop (fenced : Bool) (r : Stopping) : (stop lease a fenced r).Always Tended :=
  always_bind (tended_of_eq (requireAttachment_always lease a)) fun _ => tended_stopTransport fenced r

theorem tended_exactStop (operation : StopBinding) (isPending fenced : Bool) (r : Stopping) :
    (exactStop operation isPending fenced r).Always Tended :=
  always_read fun _ => always_unless fun _ =>
    always_unless fun _ => always_unless fun _ =>
    tended_stopTransport fenced r

/-- A method that begins in a state which is not settled may choose the next one. -/
theorem tended_choose (hstate : settled s.state = false)
    (hattachment : t.attachment = s.attachment) (hcloses : t.closes = s.closes)
    (hpending : t.runtimePending = s.runtimePending) : Tended s t := by
  refine tended_of_mem_nil (fun hsingle lease hlease => ?_) (fun h => ?_) hcloses hpending
  · rw [hpending]
    exact hsingle lease (hattachment ▸ hlease)
  · rw [hstate] at h
    cases h

theorem tended_start (evidence : Option SupervisorState) (bound : Bool) :
    (start evidence bound).Always Tended := by
  intro s
  unfold start
  rw [wp_bind, wp_get]
  refine wp_unless (fun _ => .refl s) fun hadmitted => ?_
  have hstate : settled s.state = false := by
    rw [not_not.mp hadmitted]
    rfl
  split
  · exact tended_choose hstate rfl rfl rfl
  · rw [wp_bind, wp_modify, wp_bind, wp_onlyIf]
    exact ⟨fun _ => tended_choose hstate rfl rfl rfl, fun _ => tended_choose hstate rfl rfl rfl⟩

theorem tended_resumeAfterLogin (validated : Bool) (evidence : Option SupervisorState) :
    (resumeAfterLogin validated evidence).Always Tended := by
  intro s
  unfold resumeAfterLogin
  rw [wp_bind, wp_get]
  refine wp_unless (fun _ => .refl s) fun hlogin => ?_
  have hstate : settled s.state = false := by
    rw [not_not.mp hlogin]
    rfl
  refine wp_unless (fun _ => .refl s) fun _ => ?_
  rw [wp_bind]
  split
  · exact tended_choose hstate rfl rfl rfl
  · exact tended_choose hstate rfl rfl rfl

/-! ## Reservations -/

/-- A reservation is made where there is none and nobody writes. -/
def Reserves (s t : Owner) : Prop :=
  s.runtimePending = none ∧ s.attachment = none ∧ ∃ lease, t = { s with runtimePending := some lease }

theorem reserve_wp (ports : Bool) (s : Owner) :
    (reserveRuntimeAttachment lease a ports).wp s (fun _ t => Reserves s t) fun _ t => t = s := by
  unfold reserveRuntimeAttachment
  refine wp_seq_mono (checkAttachment_always lease a s) (fun _ t ht => ?_) fun _ t ht => ht.symm
  subst ht
  simp only [wp_bind, wp_get, wp_raiseIf, wp_modify]
  refine ⟨fun _ => trivial, fun _ => ⟨fun _ => trivial, fun hfree => ⟨fun _ => trivial, fun _ => ?_⟩⟩⟩
  rw [not_or, Option.not_isSome_iff_eq_none, Option.not_isSome_iff_eq_none] at hfree
  exact ⟨hfree.1, hfree.2, lease, rfl⟩

/-- What a call does. -/
theorem step_spec (s : Owner) (call : Call) : Tended s (s.step call) ∨ Reserves s (s.step call) := by
  cases call with
  | reserve lease a ports =>
    have hwp := reserve_wp lease a ports s
    refine state_of_wp (P := fun t => Tended s t ∨ Reserves s t) ?_
    exact wp_mono hwp (fun _ _ h => .inr h) fun _ _ h => .inl (h ▸ .refl s)
  | start evidence bound => exact .inl ((tended_start evidence bound).state s)
  | resumeAfterLogin validated evidence => exact .inl ((tended_resumeAfterLogin validated evidence).state s)
  | enterGuard lease requireWriter requireRunning a evidence =>
    refine .inl (state_of_wp ?_)
    rw [perform, wp_discard]
    exact tended_of_eq (enterGuard_always _ _ _ _ _) s
  | commit lease r => exact .inl ((tended_commit lease r).state s)
  | cleanup lease c =>
    refine .inl (state_of_wp ?_)
    rw [perform, wp_discard]
    exact tended_cleanup lease c s
  | detach lease a c => exact .inl ((tended_detach lease a c).state s)
  | writeInput lease a valid written => exact .inl ((tended_writeInput lease a valid written).state s)
  | resize lease a resized c => exact .inl ((tended_resize lease a resized c).state s)
  | heartbeat current renewed a b => exact .inl ((tended_heartbeat current renewed a b).state s)
  | redraw lease enter inside leave evidence post captured sameSource appended =>
    exact .inl ((tended_redraw _ _ _ _ _ _ _ _ _).state s)
  | stop lease a fenced r => exact .inl ((tended_stop lease a fenced r).state s)
  | exactStop operation isPending fenced r =>
    exact .inl ((tended_exactStop operation isPending fenced r).state s)

theorem single_step (h : s.Single) (call : Call) : (s.step call).Single := by
  rcases step_spec s call with ht | ⟨-, hnone, lease, heq⟩
  · exact ht.single h
  · intro lease' hlease'
    rw [heq] at hlease'
    change s.attachment = some lease' at hlease'
    rw [hnone] at hlease'
    cases hlease'

theorem settled_step (h : settled s.state = true) (call : Call) :
    settled (s.step call).state = true := by
  rcases step_spec s call with ht | ⟨-, -, lease, heq⟩
  · exact ht.settled h
  · rw [heq]
    exact h

variable {lease}

/-- The lease that a call releases is closed by that call, with exact evidence. -/
theorem Tended.released (h : Tended s t) (hlease : s.runtimePending = some lease) :
    t.runtimePending = some lease ∨ (t.runtimePending = none ∧ ∃ new, t.closes = s.closes ++ new ∧
      ∃ c ∈ new, c.lease.handle = lease.handle ∧ c.result = .evidence lease.handle true (some 0)) := by
  obtain ⟨new, hlog, hreserved, hpending⟩ := h.closes
  rcases hpending with heq | ⟨hnone, c, hc, hexact⟩
  · exact .inl (heq.trans hlease)
  · have hsame : c.lease.handle = lease.handle := by
      have := (hreserved c hc).2
      rw [hlease] at this
      exact (beq_iff_eq.mp this).symm
    refine .inr ⟨hnone, new, hlog, c, hc, hsame, ?_⟩
    rw [hexact, hsame]
    rfl

/-! ## Runs -/

/-- What holds of every run of calls on a workspace's supervisor. -/
structure SingleWriter (s : Owner) (calls : List Call) : Prop where
  /-- the writer is the reserved lease itself -/
  same : ∀ k lease, (reached s calls k).attachment = some lease →
    isLease (reached s calls k).runtimePending lease = true
  /-- a call closes the lease that is reserved then, and that was reserved before the call -/
  closes : ∀ k, ∃ new, (reached s calls (k + 1)).closes = (reached s calls k).closes ++ new ∧
    ∀ c ∈ new, c.reserved = (reached s calls k).runtimePending ∧ isLease c.reserved c.lease = true
  /-- a reservation stays until the transport returned exact evidence for it -/
  released : ∀ k lease, (reached s calls k).runtimePending = some lease →
    (reached s calls (k + 1)).runtimePending = some lease ∨
      ((reached s calls (k + 1)).runtimePending = none ∧
        ∃ new, (reached s calls (k + 1)).closes = (reached s calls k).closes ++ new ∧
          ∃ c ∈ new, c.lease.handle = lease.handle ∧ c.result = .evidence lease.handle true (some 0))
  /-- a fault is for good -/
  sticky : ∀ k m, k ≤ m → (reached s calls k).state ∈
      [SupervisorState.inputUncertain, .broken, .reconciliationRequired] →
    (reached s calls m).state ≠ .running ∧ (reached s calls m).state ≠ .detached

variable (binding : StopBinding) (runtimeEpoch : String) (calls : List Call)

theorem single_reached (k : ℕ) :
    (reached (.admitted binding runtimeEpoch) calls k).Single := by
  refine invariant_stateAt (I := Owner.Single) ?_ (fun _ call h => single_step h call) k
  intro lease hlease
  cases hlease

theorem settled_reached {calls : List Call} {k m : ℕ} (hkm : k ≤ m)
    (h : settled (reached s calls k).state = true) : settled (reached s calls m).state = true := by
  refine persists_run (I := fun t : Owner => settled t.state = true) hkm h fun _ _ call _ hk => ?_
  exact settled_step hk call

/-- What call `k` of a run does; nothing, when the run is over. -/
theorem reached_spec (s : Owner) (calls : List Call) (k : ℕ) :
    Tended (reached s calls k) (reached s calls (k + 1)) ∨
      Reserves (reached s calls k) (reached s calls (k + 1)) := by
  unfold reached
  cases hc : calls[k]? with
  | none => rw [stateAt_of_none hc]; exact .inl (.refl _)
  | some call => rw [stateAt_succ hc]; exact step_spec _ call

/-- In every run there is one writer at most, which is the reserved lease; only that lease is closed; its
reservation ends with exact evidence; and faults stay. -/
theorem single_writer :
    SingleWriter (.admitted binding runtimeEpoch) calls where
  same k := single_reached binding runtimeEpoch calls k
  closes k := by
    rcases reached_spec (.admitted binding runtimeEpoch) calls k with ht | ⟨-, -, lease, heq⟩
    · obtain ⟨new, hlog, hreserved, -⟩ := ht.closes
      refine ⟨new, hlog, fun c hc => ⟨(hreserved c hc).1, ?_⟩⟩
      rw [(hreserved c hc).1]
      exact (hreserved c hc).2
    · refine ⟨[], ?_, fun _ hc => absurd hc not_mem_nil⟩
      rw [heq, append_nil]
  released k lease hlease := by
    rcases reached_spec (.admitted binding runtimeEpoch) calls k with ht | ⟨hnone, -⟩
    · exact ht.released hlease
    · rw [hnone] at hlease
      cases hlease
  sticky k m hkm hstate := by
    have hsettled : settled (reached (.admitted binding runtimeEpoch) calls k).state = true := by
      simp only [mem_cons, not_mem_nil, or_false] at hstate
      rcases hstate with heq | heq | heq <;> rw [heq] <;> rfl
    have hlater := settled_reached hkm hsettled
    constructor <;> intro heq <;> rw [heq] at hlater <;> cases hlater

end AgentBox.Stream.Writer
