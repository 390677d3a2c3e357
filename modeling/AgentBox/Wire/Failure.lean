import AgentBox.Wire.Accept

/-!
# Failed sessions

A session fails with an accepted `CLOSE`, `EXIT`, fatal `ERROR` or `STATE`, or a rejected commit. From
then on it relays nothing and replays nothing: only closing frames pass, on each leg at most up to its
`CLOSE`. `Ending` says what one accepted frame does to the fields that decide this.
-/

namespace AgentBox.Wire.WireSession

variable {ι : Type} {s t : WireSession ι} {frame f : WireFrame} {now : ℤ} {u : Unit}

/-! ## One frame -/

theorem subset_mustClose_detached (s : WireSession ι) (frame : WireFrame) (now : ℤ) :
    s.mustClose ⊆ (s.detached frame now).mustClose ∧ (s.detached frame now).terminal = s.terminal := by
  unfold detached
  split
  · exact ⟨Finset.Subset.refl _, rfl⟩
  · split
    · exact ⟨Finset.subset_insert _ _, rfl⟩
    · exact ⟨Finset.Subset.refl _, rfl⟩

theorem subset_settled (s : WireSession ι) (frame : WireFrame) :
    s.mustClose ⊆ (s.settled frame).mustClose ∧ s.terminal ⊆ (s.settled frame).terminal ∧
      (frame.frameType = .close → frame.leg ∈ (s.settled frame).terminal) := by
  unfold settled
  split
  · simp
  · next h => simp [h]
  · next h => split <;> simp [h]
  · next hclose _ _ =>
    replace hclose : frame.frameType ≠ .close := hclose
    split
    · split <;> simp [hclose]
    · simp [hclose]

theorem mustClose_advanced (s : WireSession ι) (frame : WireFrame) (now : ℤ) :
    (s.advanced frame now).mustClose = ((s.detached frame now).settled frame).mustClose := by
  unfold advanced counted recorded drained
  split <;> split <;> rfl

theorem terminal_advanced (s : WireSession ι) (frame : WireFrame) (now : ℤ) :
    ((s.detached frame now).settled frame).terminal ⊆ (s.advanced frame now).terminal := by
  have hsame : (((s.detached frame now).settled frame).drained.recorded frame).terminal =
      ((s.detached frame now).settled frame).terminal := by
    unfold recorded drained
    split <;> split <;> rfl
  unfold advanced counted
  simp only [hsame]
  split
  · exact Finset.subset_insert _ _
  · exact Finset.Subset.refl _

/-- What an accepted frame does to the end of an attachment. -/
structure Ending (s : WireSession ι) (f : WireFrame) (t : WireSession ι) : Prop where
  failed : t.failed = (s.failed || (!f.replay && s.fails f))
  /-- a replay belongs to a session that has not failed -/
  replay : f.replay = true → s.failed = false
  phase : f.replay = false → s.phase f = .ok ()
  drained : t.failed = true → ∀ kind, t.pending kind = []
  mustClose : s.mustClose ⊆ t.mustClose
  terminal : s.terminal ⊆ t.terminal
  closed : f.frameType = .close → f.leg ∈ t.terminal

theorem ending_advanced (hreplay : frame.replay = false) (hphase : s.phase frame = .ok ()) :
    Ending s frame (s.advanced frame now) := by
  obtain ⟨hmust, hterminal⟩ := s.subset_mustClose_detached frame now
  obtain ⟨hmust', hterminal', hclosed⟩ := (s.detached frame now).subset_settled frame
  have hreach := s.terminal_advanced frame now
  obtain ⟨_, _, _, _, heq⟩ := s.advanced_eq frame now
  refine ⟨by rw [heq, hreplay]; simp, fun h => ?_, fun _ => hphase, fun hfailed kind => ?_, ?_, ?_,
    fun hclose => hreach (hclosed hclose)⟩
  · rw [hreplay] at h; cases h
  · rw [heq] at hfailed ⊢
    simp only at hfailed
    simp [hfailed]
  · rw [mustClose_advanced]
    exact hmust.trans hmust'
  · exact (hterminal ▸ hterminal').trans hreach

theorem ending_of_observeNext (hreplay : frame.replay = false)
    (h : s.observeNext frame now = .ok (f, t)) : Ending s f t := by
  obtain ⟨_, hphase, h⟩ := bind_eq_ok_iff.mp h
  split at h
  · obtain ⟨⟨envelope, source⟩, -, h⟩ := bind_eq_ok_iff.mp h
    cases h
    -- the queues of a record do not bear on the end of the attachment
    have hphase' : (s.relayed frame envelope source).phase frame = .ok () := hphase
    obtain ⟨hfailed, hfresh, -, hdrained, hmust, hterminal, hclosed⟩ :
        Ending _ _ ((s.relayed frame envelope source).advanced frame now) :=
      ending_advanced hreplay hphase'
    exact ⟨hfailed, hfresh, fun _ => hphase, hdrained, hmust, hterminal, hclosed⟩
  · cases h
    exact ending_advanced hreplay hphase

theorem not_closing_of_replayable (h : frame.key ∈ replayable) : isClosing frame.frameType = false := by
  have hkind := frameType_of_replayable h
  revert hkind
  cases frame.frameType <;> decide

theorem ending_of_retry (h : s.retry frame now = .ok t) :
    Ending s { frame with replay := true } { t with lastNow := now } := by
  obtain ⟨hkey, hopen, -, -, rfl⟩ := retry_ok h
  refine ⟨by simp, fun _ => hopen, nofun, fun hfailed => ?_, Finset.Subset.refl _, Finset.Subset.refl _,
    fun hclose => ?_⟩
  · cases hopen.symm.trans hfailed
  · have hkind := not_closing_of_replayable hkey
    rw [hclose] at hkind
    cases hkind

/-- Every accepted frame ends an attachment only as described. -/
theorem ending_of_observe [DecidableEq ι] {c : Call ι} (h : s.observe c = .ok (f, t)) : Ending s f t := by
  obtain ⟨now, frame, -, -, hdecoded, ⟨-, r, hretry, rfl, rfl⟩ | ⟨-, h⟩⟩ := observe_eq_ok h
  · exact ending_of_retry hretry
  · exact ending_of_observeNext hdecoded.replay_eq h

/-! ## What passes in a failed session -/

/-- The kinds that carry data or control of a live attachment. -/
def isLive (kind : FrameType) : Bool :=
  kind.isOpaque || kind == .ack || isHandshakeKind kind || kind == .detach

/-- A frame that reports a running process. -/
def reportsRunning (f : WireFrame) : Bool :=
  f.frameType == .state && f.field "state" == some (.text "RUNNING")

theorem not_isLive_of_isClosing {kind : FrameType} (h : isClosing kind = true) : isLive kind = false := by
  revert h
  cases kind <;> decide

/-- Of a leg that has to close only its `CLOSE` passes, of a terminal one nothing. -/
theorem legs_of_phase (h : s.phase f = .ok u) :
    f.leg ∉ s.terminal ∧ (f.leg ∈ s.mustClose → f.frameType = .close) := by
  simp only [phase, error_or_eq_ok_iff, not_or] at h
  exact ⟨h.1.1, fun hmust => by_contra fun hne => h.1.2 ⟨hmust, hne⟩⟩

theorem not_reportsRunning_of_phase (h : s.phase f = .ok u) (hfailed : s.failed = true) :
    reportsRunning f = false := by
  simp only [phase, error_or_eq_ok_iff] at h
  rw [Bool.eq_false_iff]
  intro hruns
  simp only [reportsRunning, Bool.and_eq_true, beq_iff_eq] at hruns
  exact h.2.2.1 ⟨hruns.1, hruns.2, .inl hfailed⟩

/-- A frame accepted by a failed session. -/
structure Residual (s : WireSession ι) (f : WireFrame) : Prop where
  original : f.replay = false
  dead : isLive f.frameType = false
  stopped : reportsRunning f = false
  open_leg : f.leg ∉ s.terminal
  closing : f.leg ∈ s.mustClose → f.frameType = .close

theorem Ending.residual (h : Ending s f t) (hfailed : s.failed = true) : Residual s f := by
  have horiginal : f.replay = false := by
    rw [Bool.eq_false_iff]
    intro hreplay
    cases (h.replay hreplay).symm.trans hfailed
  have hphase := h.phase horiginal
  have hclosing : isClosing f.frameType = true := by
    by_contra hne
    cases (failed_of_phase hphase (eq_false_of_ne_true hne)).symm.trans hfailed
  obtain ⟨hterminal, hmust⟩ := legs_of_phase hphase
  exact ⟨horiginal, not_isLive_of_isClosing hclosing, not_reportsRunning_of_phase hphase hfailed,
    hterminal, hmust⟩

/-! ## Exits -/

theorem exits_advanced (s : WireSession ι) (f : WireFrame) (now : ℤ) : (s.advanced f now).exits =
    if f.frameType = .exit then s.exits.set f.leg f else s.exits := by
  have hsettled : ∀ s : WireSession ι, (s.settled f).exits =
      if f.frameType = .exit then s.exits.set f.leg f else s.exits := by
    intro s
    unfold settled
    split
    · next h => simp [h]
    · next h => simp [h]
    · next h => split <;> simp [h]
    · next _ hexit _ =>
      rw [if_neg hexit]
      split
      · split <;> rfl
      · rfl
  have hdetached : (s.detached f now).exits = s.exits := by
    unfold detached
    split
    · rfl
    · split <;> rfl
  rw [← hdetached, ← hsettled]
  unfold advanced counted recorded drained
  split <;> split <;> rfl

variable [DecidableEq ι] {c : Call ι}

theorem replay_of_observe (h : s.observe c = .ok (f, t)) (hkind : isClosing f.frameType = true) :
    f.replay = false := by
  obtain ⟨now, frame, -, -, hdecoded, ⟨-, r, hretry, rfl, rfl⟩ | ⟨-, h⟩⟩ := observe_eq_ok h
  · cases (not_closing_of_replayable (retry_ok hretry).1).symm.trans hkind
  · obtain ⟨rfl, -⟩ := advance_of_observeNext h
    exact hdecoded.replay_eq

/-- An exit is remembered on its leg. -/
theorem exits_of_observe (h : s.observe c = .ok (f, t)) :
    t.exits = if f.frameType = .exit then s.exits.set f.leg f else s.exits := by
  obtain ⟨now, frame, -, -, -, ⟨-, r, hretry, rfl, rfl⟩ | ⟨-, h⟩⟩ := observe_eq_ok h
  · obtain ⟨hkey, -, -, -, rfl⟩ := retry_ok hretry
    have hkind := not_closing_of_replayable hkey
    refine (if_neg fun hexit => ?_).symm
    rw [show frame.frameType = .exit from hexit] at hkind
    cases hkind
  · obtain ⟨_, -, h⟩ := bind_eq_ok_iff.mp h
    split at h
    · obtain ⟨⟨envelope, source⟩, -, h⟩ := bind_eq_ok_iff.mp h
      cases h
      exact exits_advanced (s.relayed f envelope source) f now
    · cases h
      exact exits_advanced s f now

/-- In a failed session an exit passes only if it repeats the one of the Runtime. -/
theorem exits_of_phase (h : s.phase f = .ok u) (hkind : f.frameType = .exit) (hfailed : s.failed = true) :
    (s.exits.get? .runtimeToApi).any f.sameJson = true := by
  simp only [phase, error_or_eq_ok_iff] at h
  obtain ⟨-, -, -, h⟩ := h
  split at h
  · simp [handshakePhase, hkind, hfailed] at h
  · simp only [openPhase, hkind, hfailed, and_self, if_true, ensure_eq_ok_iff, Bool.and_eq_true] at h
    exact h.2

end AgentBox.Wire.WireSession

namespace AgentBox.Wire.Transcript

open WireSession

variable {ι : Type} [DecidableEq ι] {s : WireSession ι} {calls : List (Call ι)} {i j k : ℕ}
  {f : WireFrame} {leg : Leg}

/-! ## Runs -/

/-- Call `j` of a run accepts the frame `f`. -/
def Accepts (s : WireSession ι) (calls : List (Call ι)) (j : ℕ) (f : WireFrame) : Prop :=
  ∃ c, calls[j]? = some c ∧ ((reached s calls j).session.accept c).1 = .ok f

theorem reached_succ {c : Call ι} (hc : calls[j]? = some c) :
    reached s calls (j + 1) = (reached s calls j).accept c := stateAt_succ hc

theorem ending_of_accepts (h : Accepts s calls j f) :
    Ending (reached s calls j).session f (reached s calls (j + 1)).session := by
  obtain ⟨c, hc, hok⟩ := h
  rw [reached_succ hc, accept]
  unfold WireSession.accept at hok ⊢
  split at hok
  · next hobserve =>
    cases hok
    exact ending_of_observe hobserve
  · cases hok

/-- A call accepts a frame, or leaves the fields that end an attachment alone, or empties the queues. -/
theorem step_cases (s : WireSession ι) (calls : List (Call ι)) (j : ℕ) :
    (∃ f, Accepts s calls j f) ∨ (reached s calls (j + 1)).session = (reached s calls j).session ∨
      (reached s calls (j + 1)).session = (reached s calls j).session.close := by
  unfold Accepts
  cases hc : calls[j]? with
  | none => exact .inr (.inl (congrArg session (stateAt_of_none hc)))
  | some c =>
    cases hobserve : (reached s calls j).session.observe c with
    | ok p => exact .inl ⟨p.1, c, rfl, by simp [WireSession.accept, hobserve]⟩
    | error e =>
      refine .inr (.inr ?_)
      rw [reached_succ hc]
      simp [accept, WireSession.accept, hobserve]

/-- What the steps keep about the end of an attachment. -/
structure Ended (a b : WireSession ι) : Prop where
  failed : a.failed = true → b.failed = true
  mustClose : a.mustClose ⊆ b.mustClose
  terminal : a.terminal ⊆ b.terminal

theorem ended_step (s : WireSession ι) (calls : List (Call ι)) (j : ℕ) :
    Ended (reached s calls j).session (reached s calls (j + 1)).session := by
  rcases step_cases s calls j with ⟨f, hf⟩ | hsame | hclose
  · obtain ⟨hfailed, -, -, -, hmust, hterminal, -⟩ := ending_of_accepts hf
    exact ⟨fun h => by rw [hfailed, h]; rfl, hmust, hterminal⟩
  · rw [hsame]
    exact ⟨id, Finset.Subset.refl _, Finset.Subset.refl _⟩
  · rw [hclose]
    exact ⟨id, Finset.Subset.refl _, Finset.Subset.refl _⟩

theorem ended_of_le (s : WireSession ι) (calls : List (Call ι)) (h : j ≤ k) :
    Ended (reached s calls j).session (reached s calls k).session := by
  induction k, h using Nat.le_induction with
  | base => exact ⟨id, Finset.Subset.refl _, Finset.Subset.refl _⟩
  | succ k _ ih =>
    have hstep := ended_step s calls k
    exact ⟨fun h => hstep.failed (ih.failed h), ih.mustClose.trans hstep.mustClose,
      ih.terminal.trans hstep.terminal⟩

/-- A failed session has nothing to relay. -/
theorem drained_step (h : (reached s calls j).session.failed = true →
      ∀ kind, (reached s calls j).session.pending kind = [])
    (hfailed : (reached s calls (j + 1)).session.failed = true) (kind : FrameType) :
    (reached s calls (j + 1)).session.pending kind = [] := by
  rcases step_cases s calls j with ⟨f, hf⟩ | hsame | hclose
  · exact (ending_of_accepts hf).drained hfailed kind
  · rw [hsame] at hfailed ⊢
    exact h hfailed kind
  · rw [hclose]
    rfl

theorem drained_reached (hfresh : s.failed = false) (i : ℕ)
    (hfailed : (reached s calls i).session.failed = true) (kind : FrameType) :
    (reached s calls i).session.pending kind = [] := by
  induction i generalizing kind with
  | zero => cases hfresh.symm.trans hfailed
  | succ i ih => exact drained_step ih hfailed kind

/-- A session fails by a frame that it accepts. -/
theorem exists_fails_of_failed (hfresh : s.failed = false)
    (hfailed : (reached s calls i).session.failed = true) :
    ∃ m < i, ∃ f, Accepts s calls m f ∧ f.replay = false ∧ (reached s calls m).session.fails f = true := by
  induction i with
  | zero => cases hfresh.symm.trans hfailed
  | succ i ih =>
    by_cases hbefore : (reached s calls i).session.failed = true
    · obtain ⟨m, hm, hrest⟩ := ih hbefore
      exact ⟨m, Nat.lt_succ_of_lt hm, hrest⟩
    · rcases step_cases s calls i with ⟨f, hf⟩ | hsame | hclose
      · have hending := (ending_of_accepts hf).failed
        rw [hfailed, eq_false_of_ne_true hbefore, Bool.false_or] at hending
        simp only [Bool.true_eq, Bool.and_eq_true, Bool.not_eq_true'] at hending
        exact ⟨i, Nat.lt_succ_self i, f, hf, hending.1, hending.2⟩
      · rw [hsame] at hfailed
        exact absurd hfailed hbefore
      · rw [hclose] at hfailed
        exact absurd hfailed hbefore

/-- The rest of a run after call `i` of a session that has failed. -/
structure FailedForGood (s : WireSession ι) (calls : List (Call ι)) (i : ℕ) : Prop where
  failed : ∀ j ≥ i, (reached s calls j).session.failed = true
  /-- nothing of a live attachment is accepted, on any leg, be it a replay or not -/
  dead : ∀ j ≥ i, ∀ f, Accepts s calls j f →
    isLive f.frameType = false ∧ reportsRunning f = false ∧ f.replay = false
  drained : ∀ j ≥ i, (reached s calls j).session.pending .input = [] ∧
    (reached s calls j).session.pending .output = []
  /-- a leg that has to close accepts one `CLOSE` and nothing else -/
  mustClose : ∀ j ≥ i, ∀ leg ∈ (reached s calls j).session.mustClose, ∀ f, Accepts s calls j f →
    f.leg = leg → f.frameType = .close ∧ ∀ k > j, ∀ g, Accepts s calls k g → g.leg ≠ leg
  terminal : ∀ j ≥ i, ∀ leg ∈ (reached s calls j).session.terminal, ∀ k ≥ j, ∀ f,
    Accepts s calls k f → f.leg ≠ leg

theorem failedForGood (hfresh : s.failed = false)
    (hfailed : (reached s calls i).session.failed = true) : FailedForGood s calls i := by
  have hall : ∀ j ≥ i, (reached s calls j).session.failed = true :=
    fun j hj => (ended_of_le s calls hj).failed hfailed
  have hresidual : ∀ j ≥ i, ∀ f, Accepts s calls j f → Residual (reached s calls j).session f :=
    fun j hj f hf => (ending_of_accepts hf).residual (hall j hj)
  have hterminal : ∀ j ≥ i, ∀ leg ∈ (reached s calls j).session.terminal, ∀ k ≥ j, ∀ f,
      Accepts s calls k f → f.leg ≠ leg := by
    rintro j hj leg hleg k hk f hf rfl
    exact (hresidual k (Nat.le_trans hj hk) f hf).open_leg ((ended_of_le s calls hk).terminal hleg)
  refine ⟨hall, fun j hj f hf => ?_, fun j hj => ?_, ?_, hterminal⟩
  · exact ⟨(hresidual j hj f hf).dead, (hresidual j hj f hf).stopped, (hresidual j hj f hf).original⟩
  · exact ⟨drained_reached hfresh j (hall j hj) _, drained_reached hfresh j (hall j hj) _⟩
  · rintro j hj leg hleg f hf rfl
    have hclose := (hresidual j hj f hf).closing hleg
    refine ⟨hclose, fun k hk g hg => ?_⟩
    exact hterminal (j + 1) (Nat.le_succ_of_le hj) f.leg ((ending_of_accepts hf).closed hclose) k hk g hg

variable (admission : Record) (runtimeEpoch : Scalar) (streamId : ι)

/-- In every run, a session fails by a frame that says so, and then it has failed for good. -/
theorem failed_for_good (startedAt : ℤ) (calls : List (Call ι)) (i : ℕ)
    (hfailed : (reached (fresh admission runtimeEpoch streamId startedAt) calls i).session.failed = true) :
    (∃ m < i, ∃ f, Accepts (fresh admission runtimeEpoch streamId startedAt) calls m f ∧ f.replay = false ∧
      (reached (fresh admission runtimeEpoch streamId startedAt) calls m).session.fails f = true) ∧
    FailedForGood (fresh admission runtimeEpoch streamId startedAt) calls i :=
  ⟨exists_fails_of_failed rfl hfailed, failedForGood rfl hfailed⟩

open Sample

/-- The API refuses the browser before the handshake. -/
def refused : List (Call Unit) :=
  [control 1 .apiToBrowser .error 1 (List.flatten [member "code" (text
    "PROTOCOL_INVALID"), text "\"retryable\":false,\"request_id\":null,"])]

set_option maxRecDepth 100000 in
/-- The refusal fails the session for good. -/
theorem failed_for_good_refused :
    (∃ m < 1, ∃ f, Accepts (fresh bound (.str ['7']) () 0) refused m f ∧ f.replay = false ∧
      (reached (fresh bound (.str ['7']) () 0) refused m).session.fails f = true) ∧
    FailedForGood (fresh bound (.str ['7']) () 0) refused 1 :=
  failed_for_good _ _ _ _ _ 1 (by decide +kernel)

/-! ## Exits -/

/-- An exit that the browser is told of repeats one that the Runtime has reported. -/
def Mirrored (earlier : List Observed) (o : Observed) : Prop :=
  o.frame.key = (.apiToBrowser, .exit) →
    ∃ e ∈ earlier, e.frame.key = (.runtimeToApi, .exit) ∧ o.frame.sameJson e.frame = true

/-- A session has failed once it has accepted an exit, and the exit of the Runtime that it remembers is
one that it has accepted. -/
structure Reports (t : Transcript ι) : Prop where
  failed : ∀ o ∈ t.frames, o.frame.frameType = .exit → t.session.failed = true
  exits : ∀ f, t.session.exits.get? .runtimeToApi = some f →
    ∃ o ∈ t.frames, o.frame = f ∧ f.key = (.runtimeToApi, .exit)

theorem reports_accept (t : Transcript ι) (c : Call ι) (h : Reports t) : Reports (t.accept c) := by
  rcases t.accept_eq c with ⟨-, heq⟩ | ⟨f, s, hobserve, heq⟩ <;> rw [heq]
  · exact ⟨h.failed, h.exits⟩
  refine ⟨fun o ho hexit => ?_, fun g hg => ?_⟩
  · rw [(ending_of_observe hobserve).failed]
    rcases List.mem_append.mp ho with ho | ho
    · rw [h.failed o ho hexit, Bool.true_or]
    · rw [List.mem_singleton.mp ho] at hexit
      replace hexit : f.frameType = .exit := hexit
      simp [fails, hexit, replay_of_observe hobserve (by rw [hexit]; rfl)]
  · have hold : ∀ {g}, t.session.exits.get? .runtimeToApi = some g →
        ∃ o ∈ t.frames ++ [⟨f, s.lastNow⟩], o.frame = g ∧ g.key = (.runtimeToApi, .exit) := by
      intro g hg
      obtain ⟨o, ho, hrest⟩ := h.exits g hg
      exact ⟨o, List.mem_append_left _ ho, hrest⟩
    rw [exits_of_observe hobserve] at hg
    split at hg
    · next hkind =>
      rw [Dict.get?_set] at hg
      split at hg
      · next hleg =>
        cases hg
        exact ⟨⟨f, s.lastNow⟩, by simp, rfl, by rw [WireFrame.key, ← hleg, hkind]⟩
      · exact hold hg
    · exact hold hg

/-- The check that compares the two exits is made in a failed session only. -/
theorem mirrored_iff {t : Transcript ι} {c : Call ι} {o : Observed} (h : Reports t)
    (hobserve : t.session.observe c = .ok (o.frame, s)) (hkey : o.frame.key = (.apiToBrowser, .exit)) :
    Mirrored t.frames o ↔ t.session.failed = true := by
  have hkind : o.frame.frameType = .exit := congrArg Prod.snd hkey
  refine ⟨fun hm => ?_, fun hfailed _ => ?_⟩
  · obtain ⟨e, he, hexit, -⟩ := hm hkey
    exact h.failed e he (congrArg Prod.snd hexit)
  · have hphase := (ending_of_observe hobserve).phase (replay_of_observe hobserve (by rw [hkind]; rfl))
    obtain ⟨g, hg, hsame⟩ := (Option.any_eq_true _ _).mp (exits_of_phase hphase hkind hfailed)
    obtain ⟨e, he, rfl, hexit⟩ := h.exits g hg
    exact ⟨e, he, hexit, hsame⟩

theorem failed_of_mirrored (hreports : Reports (reached s calls i)) (hf : Accepts s calls i f)
    (hkey : f.key = (.apiToBrowser, .exit)) (h : EachAfter Mirrored (reached s calls (i + 1)).frames) :
    (reached s calls i).session.failed = true := by
  obtain ⟨c, hc, hok⟩ := hf
  rcases (reached s calls i).accept_eq c with ⟨⟨e, he⟩, -⟩ | ⟨g, t, hobserve, heq⟩
  · rw [WireSession.accept, he] at hok
    cases hok
  · rw [WireSession.accept, hobserve] at hok
    cases hok
    rw [reached_succ hc, heq] at h
    have hlast := h (reached s calls i).frames.length ⟨f, t.lastNow⟩ (by simp)
    rw [List.take_left] at hlast
    exact (mirrored_iff hreports hobserve hkey).mp hlast

theorem reports_reached (startedAt : ℤ) (calls : List (Call ι)) (i : ℕ) :
    Reports (reached (fresh admission runtimeEpoch streamId startedAt) calls i) :=
  invariant_stateAt ⟨by simp, fun f hf => by cases hf⟩ reports_accept i

/-- In every run, the exits that the browser is told of have been reported by the Runtime exactly when
each of them reaches a session that has failed: until then nothing compares them. -/
theorem exits_mirrored_iff (startedAt : ℤ) (calls : List (Call ι)) : (∀ i, EachAfter Mirrored
        (reached (fresh admission runtimeEpoch streamId startedAt) calls i).frames) ↔
      ∀ i f, Accepts (fresh admission runtimeEpoch streamId startedAt) calls i f →
        f.key = (.apiToBrowser, .exit) →
        (reached (fresh admission runtimeEpoch streamId startedAt) calls i).session.failed = true := by
  have hreports := reports_reached admission runtimeEpoch streamId startedAt calls
  refine ⟨fun hall i f hf hkey => failed_of_mirrored (hreports i) hf hkey (hall (i + 1)), fun hall i => ?_⟩
  refine invariant_run (I := fun t : Transcript ι => EachAfter Mirrored t.frames) eachAfter_nil
    fun k _ c hc ih => ?_
  rcases accept_eq (stateAt accept _ calls k) c with ⟨-, heq⟩ | ⟨f, s, hobserve, heq⟩ <;> rw [heq]
  · exact ih
  · refine eachAfter_concat ih fun hkey => ?_
    have haccepts : Accepts _ calls k f := ⟨c, hc, by rw [WireSession.accept, reached, hobserve]⟩
    have hmirrored := mirrored_iff (o := ⟨f, s.lastNow⟩) (hreports k) hobserve hkey
    exact hmirrored.mpr (hall k f haccepts hkey) hkey

/-- An admitted browser is told of an exit that the Runtime has not reported. -/
theorem exit_unreported : ¬EachAfter Mirrored (reached (fresh bound (.str ['7']) () 0)
    (Sample.calls ++ [announcement]) 20).frames := by
  obtain ⟨-, hfailed, hlast, -⟩ := transcript_accepted
  have hsame : reached (fresh bound (.str ['7']) () 0) (Sample.calls ++ [announcement]) 19 = transcript 19 :=
    congrArg (List.foldl accept _) (rfl : (Sample.calls ++ [_]).take 19 = Sample.calls.take 19)
  intro h
  obtain ⟨f, hf, hkey⟩ := Option.map_eq_some_iff.mp hlast
  have haccepts : Accepts (fresh bound (.str ['7']) () 0) (Sample.calls ++ [announcement]) 19
      f := by
    refine ⟨announcement, rfl, ?_⟩
    rw [hsame]
    exact toOption_eq_some_iff.mp hf
  have hbefore := failed_of_mirrored (reports_reached _ _ _ _ _ _) haccepts hkey h
  rw [hsame, hfailed] at hbefore
  cases hbefore

end AgentBox.Wire.Transcript
