import AgentBox.Wire.Session

/-!
# What one call of `accept` can do

`accepted` says once what an accepted frame means: the session was open and the call timely, and
the frame is either a permitted replay, which changes the retry set only, or the next frame of its
leg, which `Advance` describes field by field. Every invariant of the transcript is derived from it.
-/

namespace AgentBox.Wire.WireSession

variable {ι : Type} {s t : WireSession ι} {frame f : WireFrame} {now : ℤ}
  {u : Unit} {kind : FrameType} {envelope : AwceEnvelope} {source : Bool}

theorem ensure_eq_ok_iff {c : Bool} : ensure c = .ok u ↔ c = true := by
  cases c <;> simp [ensure]

theorem require_eq_ok_iff {leg : Leg} : s.require leg kind = .ok f ↔ s.seen.get? (leg, kind) = some f :=
  orRaise_eq_ok_iff

/-! ## Replays -/

/-- The frames that may be sent twice. -/
def replayable : List (Leg × FrameType) :=
  [(.apiToRuntime, .detach), (.apiToRuntime, .admissionCommit), (.runtimeToApi, .admissionCommitAck)]

/-- The frame that a replay of this leg and kind repeats. -/
def remembered (s : WireSession ι) (frame : WireFrame) : Option WireFrame :=
  if frame.key = (.apiToRuntime, .detach) then s.detach.get? .apiToRuntime
  else s.seen.get? frame.key

theorem original_ok {o : Option WireFrame} (h : s.original frame now = .ok o) :
    frame.key ∈ replayable ∧ o = s.remembered frame := by
  unfold original at h
  split at h
  · next hkey =>
    split at h
    · cases h
    · cases (error_or_eq_ok_iff.mp h).2
      simp [replayable, remembered, hkey]
  split at h
  · next hkey =>
    cases (error_or_eq_ok_iff.mp h).2
    simp [replayable, remembered, hkey]
  split at h
  · next hkey =>
    cases (error_or_eq_ok_iff.mp h).2
    simp [replayable, remembered, hkey]
  · cases h

theorem frameType_of_replayable (h : frame.key ∈ replayable) :
    frame.frameType ∈ [.detach, .admissionCommit, .admissionCommitAck] :=
  List.mem_map_of_mem (f := Prod.snd) h

theorem retry_ok (h : s.retry frame now = .ok t) :
    frame.key ∈ replayable ∧ s.failed = false ∧ frame.key ∉ s.retries ∧
      (∃ o, s.remembered frame = some o ∧ o.wire = frame.wire) ∧
      t = { s with retries := insert frame.key s.retries } := by
  simp only [retry, bind_eq_ok_iff, ensure_eq_ok_iff, Bool.and_eq_true, Bool.not_eq_true',
    decide_eq_true_eq, Option.any_eq_true, beq_iff_eq, pure_eq_ok_iff] at h
  obtain ⟨_, horiginal, _, ⟨⟨hfailed, hretries⟩, o, ho, hwire⟩, _, -, rfl⟩ := h
  obtain ⟨hkey, rfl⟩ := original_ok horiginal
  exact ⟨hkey, hfailed, hretries, ⟨o, ho, hwire⟩, rfl⟩

/-! ## Frames in sequence -/

/-- The frame ends the attachment. -/
def fails (s : WireSession ι) (frame : WireFrame) : Bool :=
  frame.frameType == .close || frame.frameType == .exit ||
    (frame.frameType == .admissionCommitAck && frame.field "result" == some (.text "rejected")) ||
    s.isFatal frame

/-- The frame is filed in `seen`. -/
def isFiled (frame : WireFrame) : Bool :=
  frame.frameType.isKey || decide (frame.frameType.value ∈ frame.leg.handshake)

/-- The frame is part of the detach exchange. -/
def isDetach (frame : WireFrame) : Bool := frame.frameType == .detach || frame.frameType == .detachAck

theorem detached_eq (s : WireSession ι) (frame : WireFrame) (now : ℤ) :
    ∃ detachAt mustClose, s.detached frame now = { s with
      detach := if isDetach frame then s.detach.set frame.leg frame else s.detach
      detachAt := detachAt
      mustClose := mustClose } := by
  unfold detached isDetach
  split
  · next h =>
    refine ⟨if frame.leg = .apiToRuntime then some now else s.detachAt, s.mustClose, ?_⟩
    simp [h]
  · next hdetach =>
    split
    · next h => exact ⟨s.detachAt, insert frame.leg s.mustClose, by simp [h]⟩
    · next h => exact ⟨s.detachAt, s.mustClose, by simp [h, hdetach]⟩

theorem settled_eq (s : WireSession ι) (frame : WireFrame) :
    ∃ terminal mustClose exits, s.settled frame = { s with
      terminal := terminal
      mustClose := mustClose
      exits := exits
      failed := s.failed || s.fails frame } := by
  unfold settled
  split
  · next h => exact ⟨insert frame.leg s.terminal, s.mustClose, s.exits, by simp [fails, h]⟩
  · next h =>
    exact ⟨s.terminal, insert frame.leg s.mustClose, s.exits.set frame.leg frame, by simp [fails, h]⟩
  · next h =>
    split
    · next hr => exact ⟨s.terminal, insert frame.leg s.mustClose, s.exits, by simp [fails, h, hr]⟩
    · next hr =>
      have hfails : s.fails frame = false := by simp [fails, isFatal, h, hr]
      exact ⟨s.terminal, s.mustClose, s.exits, by simp [hfails]⟩
  · next hclose hexit hack =>
    have hfails : s.fails frame = s.isFatal frame := by
      simp [fails, beq_false_of_ne hclose, beq_false_of_ne hexit, beq_false_of_ne hack]
    rw [hfails]
    split
    · next h =>
      split
      · exact ⟨insert frame.leg s.terminal, s.mustClose, s.exits, by simp [h]⟩
      · exact ⟨s.terminal, insert frame.leg s.mustClose, s.exits, by simp [h]⟩
    · next h => exact ⟨s.terminal, s.mustClose, s.exits, by simp [h]⟩

/-- The fields after a frame in sequence that later proofs read. -/
theorem advanced_eq (s : WireSession ι) (frame : WireFrame) (now : ℤ) :
    ∃ detachAt mustClose terminal exits, s.advanced frame now = { s with
      detach := if isDetach frame then s.detach.set frame.leg frame else s.detach
      detachAt := detachAt
      mustClose := mustClose
      terminal := terminal
      exits := exits
      failed := s.failed || s.fails frame
      pending := if s.failed || s.fails frame then fun _ => [] else s.pending
      pendingBytes := if s.failed || s.fails frame then fun _ => 0 else s.pendingBytes
      seen := if isFiled frame then s.seen.set frame.key frame else s.seen
      next := Function.update s.next frame.leg (s.next frame.leg + 1)
      lastNow := now } := by
  obtain ⟨detachAt, m₁, hdetached⟩ := detached_eq s frame now
  obtain ⟨terminal, mustClose, exits, hsettled⟩ := settled_eq (s.detached frame now) frame
  have hfails : (s.detached frame now).fails frame = s.fails frame := by rw [hdetached]; rfl
  rw [hfails, hdetached] at hsettled
  unfold advanced
  rw [hdetached, hsettled]
  refine ⟨detachAt, mustClose,
    if frame.hopSequence = maxU64 then insert frame.leg terminal else terminal, exits, ?_⟩
  unfold drained recorded counted isFiled
  cases s.failed || s.fails frame <;>
    by_cases hfiled : frame.frameType.isKey ∨ frame.frameType.value ∈ frame.leg.handshake <;>
    simp [hfiled]

/-! ## Encrypted records -/

/-- What an encrypted record does to the queue of its kind: it enters at the end on one leg and
leaves from the front, byte for byte, on the other. -/
inductive Queued (s : WireSession ι) (frame : WireFrame) (pending : FrameType → List Bytes)
    (pendingBytes : FrameType → ℕ) : Prop
  | enters (hleg : frame.leg = sourceLeg frame.frameType)
      (hbytes : s.pendingBytes frame.frameType + frame.wire.length ≤ s.relayLimit frame.frameType)
      (hlength : (s.pending frame.frameType).length < 256)
      (hpending : pending = Function.update s.pending frame.frameType
        (s.pending frame.frameType ++ [frame.payload]))
      (hpendingBytes : pendingBytes = Function.update s.pendingBytes frame.frameType
        (s.pendingBytes frame.frameType + frame.wire.length))
  | leaves (rest : List Bytes) (hleg : frame.leg ≠ sourceLeg frame.frameType)
      (hhead : s.pending frame.frameType = frame.payload :: rest)
      (hpending : pending = Function.update s.pending frame.frameType rest)
      (hpendingBytes : pendingBytes = Function.update s.pendingBytes frame.frameType
        (s.pendingBytes frame.frameType - (24 + frame.payload.length)))

/-- The counters of an encrypted record. -/
structure Numbered (s : WireSession ι) (frame : WireFrame) (envelope : AwceEnvelope) : Prop where
  decoded : decodeAwce frame.payload = .ok envelope
  sequence : envelope.cryptoSequence = s.crypto frame.leg
  cursor : frame.frameType = .output → s.cursor frame.leg < envelope.streamCursor

theorem checkRecord_ok (h : s.checkRecord frame = .ok (envelope, source)) :
    s.relayCheck frame = .ok source ∧ Numbered s frame envelope := by
  simp only [checkRecord, bind_eq_ok_iff, orRaise_eq_ok_iff] at h
  obtain ⟨_, hrelay, _, hdecode, _, -, h⟩ := h
  split at h
  · simp only [bind_eq_ok_iff, ensure_eq_ok_iff, Bool.and_eq_true, beq_iff_eq] at h
    obtain ⟨_, hfirst, _, hsecond, h⟩ := h
    cases h
    exact ⟨hrelay, toOption_eq_some_iff.mp hdecode, hfirst.2, fun hkind => by simpa [hkind] using hsecond⟩
  · cases h

theorem queued_of_relayCheck (h : s.relayCheck frame = .ok source) :
    Queued s frame (s.relayed frame envelope source).pending
      (s.relayed frame envelope source).pendingBytes := by
  simp only [relayCheck] at h
  split at h
  · next hleg =>
    obtain ⟨hlimit, h⟩ := error_or_eq_ok_iff.mp h
    cases h
    push Not at hlimit
    exact .enters hleg hlimit.1 hlimit.2 (by simp [relayed]) (by simp [relayed])
  · next hleg =>
    obtain ⟨hhead, h⟩ := error_or_eq_ok_iff.mp h
    cases h
    obtain ⟨rest, hrest⟩ := List.head?_eq_some_iff.mp (not_not.mp hhead)
    exact .leaves rest hleg hrest (by simp [relayed, hrest]) (by simp [relayed, hrest])

/-! ## The inversion -/

/-- What a frame in sequence does to the session. -/
structure Advance (s : WireSession ι) (frame : WireFrame) (now : ℤ) (t : WireSession ι) : Prop where
  phase : s.phase frame = .ok ()
  closed : t.closed = s.closed
  started : t.started = s.started
  lastNow : t.lastNow = now
  next : t.next = Function.update s.next frame.leg (s.next frame.leg + 1)
  seen : t.seen = if isFiled frame then s.seen.set frame.key frame else s.seen
  retries : t.retries = s.retries
  detach : t.detach = if isDetach frame then s.detach.set frame.leg frame else s.detach
  failed : t.failed = (s.failed || s.fails frame)
  /-- an encrypted record, in a session that has not failed -/
  record : frame.frameType.isOpaque = true → s.failed = false ∧ ∃ envelope, Numbered s frame envelope ∧
    Queued s frame t.pending t.pendingBytes ∧
    t.crypto = Function.update s.crypto frame.leg (s.crypto frame.leg + 1) ∧
    t.cursor = if frame.frameType = .output then
      Function.update s.cursor frame.leg envelope.streamCursor else s.cursor
  /-- any other frame -/
  control : frame.frameType.isOpaque = false → t.crypto = s.crypto ∧ t.cursor = s.cursor ∧
    (t.failed = false → t.pending = s.pending ∧ t.pendingBytes = s.pendingBytes)

/-- A failed session lets only closing frames pass. -/
theorem failed_of_phase (h : s.phase frame = .ok u) (hkind : isClosing frame.frameType = false) :
    s.failed = false := by
  simp only [phase, error_or_eq_ok_iff] at h
  simpa [hkind] using h.2.1

theorem isClosing_of_isOpaque (h : kind.isOpaque = true) : isClosing kind = false := by
  cases kind <;> first | rfl | cases h

theorem fails_of_isOpaque (h : frame.frameType.isOpaque = true) : s.fails frame = false := by
  unfold fails isFatal
  cases hk : frame.frameType <;> rw [hk] at h <;> first | rfl | cases h

theorem advance_of_observeNext (h : s.observeNext frame now = .ok (f, t)) :
    f = frame ∧ Advance s frame now t := by
  obtain ⟨_, hphase, h⟩ := bind_eq_ok_iff.mp h
  split at h
  · next hsealed =>
    obtain ⟨⟨envelope, source⟩, hrecord, h⟩ := bind_eq_ok_iff.mp h
    cases h
    obtain ⟨hrelay, hnumbered⟩ := checkRecord_ok hrecord
    have hfailed := failed_of_phase hphase (isClosing_of_isOpaque hsealed)
    have hopen : ((s.relayed frame envelope source).failed ||
        (s.relayed frame envelope source).fails frame) = false := by
      rw [fails_of_isOpaque hsealed, Bool.or_false]; exact hfailed
    obtain ⟨_, _, _, _, heq⟩ := advanced_eq (s.relayed frame envelope source) frame now
    rw [heq]
    refine ⟨rfl, hphase, rfl, rfl, rfl, rfl, rfl, rfl, rfl, rfl, fun _ => ?_, fun h => ?_⟩
    · refine ⟨hfailed, envelope, hnumbered, ?_, rfl, rfl⟩
      simp only [hopen]
      exact queued_of_relayCheck hrelay
    · rw [hsealed] at h; cases h
  · next hsealed =>
    cases h
    obtain ⟨_, _, _, _, heq⟩ := advanced_eq s frame now
    rw [heq]
    refine ⟨rfl, hphase, rfl, rfl, rfl, rfl, rfl, rfl, rfl, rfl, fun h => absurd h hsealed,
      fun _ => ⟨rfl, rfl, fun hopen => ?_⟩⟩
    simp only at hopen
    simp [hopen]

/-- The frame an accepted call stands for, and the state it leads to. -/
inductive Accepted (s : WireSession ι) (now : ℤ) : WireFrame → WireSession ι → Prop
  | replay {frame : WireFrame} (hdecoded : Decoded frame.leg frame)
      (hsequence : frame.hopSequence ≠ s.next frame.leg) (hkey : frame.key ∈ replayable)
      (hfirst : frame.key ∉ s.retries) {o : WireFrame} (horiginal : s.remembered frame = some o)
      (hwire : o.wire = frame.wire) :
      Accepted s now { frame with replay := true }
        { s with retries := insert frame.key s.retries, lastNow := now }
  | next {frame : WireFrame} {t : WireSession ι} (hdecoded : Decoded frame.leg frame)
      (hsequence : frame.hopSequence = s.next frame.leg) (hadvance : Advance s frame now t) :
      Accepted s now frame t

variable [DecidableEq ι] {c : Call ι}

/-- An accepted call was timely and carried a frame, which is a replay or the next of its leg. -/
theorem observe_eq_ok (h : s.observe c = .ok (f, t)) : ∃ now frame, s.closed = false ∧
      (s.has .apiToBrowser .admitted = true ∨ now - s.started < admissionTimeoutNs) ∧
      Decoded frame.leg frame ∧ ((frame.hopSequence ≠ s.next frame.leg ∧ ∃ r, s.retry frame now = .ok r ∧
          f = { frame with replay := true } ∧ t = { r with lastNow := now }) ∨
        (frame.hopSequence = s.next frame.leg ∧ s.observeNext frame now = .ok (f, t))) := by
  simp only [observe, bind_eq_ok_iff, ensure_eq_ok_iff, Bool.and_eq_true, Bool.not_eq_true',
    Bool.or_eq_true, decide_eq_true_eq] at h
  obtain ⟨_, hopen, now, -, _, -, leg, -, _, htimely, frame, hframe, h⟩ := h
  have hdecoded := decodeWireFrame_ok hframe
  obtain rfl := hdecoded.leg_eq
  refine ⟨now, frame, hopen.1, htimely, hdecoded, ?_⟩
  split at h
  · next hsequence =>
    obtain ⟨r, hretry, h⟩ := bind_eq_ok_iff.mp h
    cases h
    exact .inl ⟨hsequence, r, hretry, rfl, rfl⟩
  · next hsequence => exact .inr ⟨not_not.mp hsequence, h⟩

theorem accepted_of_observe (h : s.observe c = .ok (f, t)) : ∃ now, s.closed = false ∧
      (s.has .apiToBrowser .admitted = true ∨ now - s.started < admissionTimeoutNs) ∧
      Accepted s now f t ∧ t.lastNow = now := by
  obtain ⟨now, frame, hopen, htimely, hdecoded, ⟨hsequence, r, hretry, rfl, rfl⟩ | ⟨hsequence, h⟩⟩ :=
    observe_eq_ok h
  · obtain ⟨hkey, -, hfirst, ⟨o, ho, hwire⟩, rfl⟩ := retry_ok hretry
    exact ⟨now, hopen, htimely, .replay hdecoded hsequence hkey hfirst ho hwire, rfl⟩
  · obtain ⟨rfl, hadvance⟩ := advance_of_observeNext h
    exact ⟨now, hopen, htimely, .next hdecoded hsequence hadvance, hadvance.lastNow⟩

end AgentBox.Wire.WireSession

namespace AgentBox.Wire.Transcript

variable {ι : Type} [DecidableEq ι]

variable (t : Transcript ι) (c : WireSession.Call ι)

theorem accept_eq :
    ((∃ e, t.session.observe c = .error e) ∧ t.accept c = ⟨t.session.close, t.frames⟩) ∨
      ∃ f s, t.session.observe c = .ok (f, s) ∧ t.accept c = ⟨s, t.frames ++ [⟨f, s.lastNow⟩]⟩ := by
  unfold accept WireSession.accept
  cases h : t.session.observe c with
  | error e => exact .inl ⟨⟨e, rfl⟩, rfl⟩
  | ok p => exact .inr ⟨p.1, p.2, rfl, rfl⟩

/-- One call either closes the session or appends the frame it accepted. -/
theorem accept_cases :
    (∃ e, t.session.accept c = (.error e, t.session.close) ∧ t.accept c = ⟨t.session.close, t.frames⟩) ∨
      ∃ f s now, t.session.accept c = (.ok f, s) ∧ t.accept c = ⟨s, t.frames ++ [⟨f, now⟩]⟩ ∧
        t.session.closed = false ∧ (t.session.has .apiToBrowser .admitted = true ∨
          now - t.session.started < admissionTimeoutNs) ∧ t.session.Accepted now f s := by
  rcases t.accept_eq c with ⟨⟨e, he⟩, heq⟩ | ⟨f, s, h, heq⟩
  · exact .inl ⟨e, by rw [WireSession.accept, he], heq⟩
  · obtain ⟨now, hopen, htimely, haccepted, rfl⟩ := WireSession.accepted_of_observe h
    exact .inr ⟨f, s, s.lastNow, by rw [WireSession.accept, h], heq, hopen, htimely, haccepted⟩

end AgentBox.Wire.Transcript
