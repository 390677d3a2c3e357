import AgentBox.Stream.Attachment

/-!
# What the methods of an attachment emit

Rules for reading off a method which frames it numbers and which of them it returns. `Grows` is what any
part of a method can do to the frames of a session, and `Sends` adds that the frames are all in what the
part returns. One lemma for each method follows; those that flush the queue are in
`AgentBox.Stream.Transmission`.
-/

namespace AgentBox.Stream.Attachment

open List Method

variable {more : List Frame} {ρ : Type}

def Event.frame? : Event → Option Frame
  | .frame f _ => some f
  | _ => none

/-- The frames in the order they were numbered. -/
def Session.frames (s : Session ρ) : List Frame := s.log.filterMap Event.frame?

variable (frames : List Frame)

/-- `CLOSE` is nowhere among the frames. -/
def Unclosed : Prop := ∀ f ∈ frames, f.message.isClose = false

/-- The frames are numbered 1, 2, 3, ... -/
def Numbered : Prop := frames.map Frame.hop = List.range' 1 frames.length

/-- At most one of the frames is `CLOSE`, and it is the last. -/
def ClosesOnce : Prop := Unclosed frames.dropLast

theorem Unclosed.concat {frames : List Frame} {f : Frame} (h : Unclosed frames)
    (hf : f.message.isClose = false) : Unclosed (frames ++ [f]) := by
  intro g hg
  rcases mem_append.mp hg with hg | hg
  · exact h g hg
  · rw [mem_singleton.mp hg]
    exact hf

theorem Unclosed.closesOnce_concat {frames : List Frame} (h : Unclosed frames) (f : Frame) :
    ClosesOnce (frames ++ [f]) := by
  unfold ClosesOnce
  rwa [dropLast_concat]

theorem Numbered.concat {frames : List Frame} (h : Numbered frames) (message : Message) :
    Numbered (frames ++ [⟨frames.length + 1, message⟩]) := by
  unfold Numbered at h ⊢
  rw [map_append, h, length_append, length_singleton, List.range'_concat]
  simp [Nat.add_comm]

theorem Numbered.of_prefix {frames : List Frame} (h : Numbered more) (hp : frames <+: more) :
    Numbered frames := by
  obtain ⟨rest, rfl⟩ := hp
  unfold Numbered at h ⊢
  rw [map_append, length_append, ← List.range'_append_1] at h
  exact (append_inj h (by rw [length_map, length_range'])).1

theorem ClosesOnce.of_prefix {frames : List Frame} (h : ClosesOnce more) (hp : frames <+: more) :
    ClosesOnce frames := by
  intro f hf
  refine h f ?_
  obtain ⟨rest, rfl⟩ := hp
  cases rest with
  | nil => rwa [append_nil]
  | cons g rest =>
    rw [dropLast_append_of_ne_nil (cons_ne_nil g rest)]
    exact mem_append_left _ (mem_of_mem_dropLast hf)

/-! ## What a step can do -/

/-- The numbering of a session. -/
structure Sound (s : Session ρ) : Prop where
  next : s.tx = s.frames.length + 1
  numbered : Numbered s.frames
  once : ClosesOnce s.frames
  unclosed : s.closed = false → Unclosed s.frames

/-- An answer that may be sent again is among the frames. -/
def Answers (isKind : Message → Bool) (answer : Option (ρ × Frame)) : Prop :=
  ∀ p, answer = some p → p.2 ∈ frames ∧ isKind p.2.message = true

def Message.isCommitAck : Message → Bool
  | .admissionCommitAck => true
  | _ => false

def Message.isDetachAck : Message → Bool
  | .detachAck _ _ => true
  | _ => false

/-- What a session does to its frames: a closed one emits nothing more. -/
structure Grows (s t : Session ρ) : Prop where
  sound : Sound s → Sound t
  closed : s.closed = true → t.closed = true ∧ t.frames = s.frames
  isPrefix : s.frames <+: t.frames
  count : t.tx + s.frames.length = s.tx + t.frames.length
  commit : Answers s.frames Message.isCommitAck s.commit → Answers t.frames Message.isCommitAck t.commit
  detach : Answers s.frames Message.isDetachAck s.detach → Answers t.frames Message.isDetachAck t.detach
  commitRetried : s.commitRetried = true → t.commitRetried = true
  detachRetried : s.detachRetried = true → t.detachRetried = true

theorem Grows.refl (s : Session ρ) : Grows s s where
  sound := id
  closed := fun h => ⟨h, rfl⟩
  isPrefix := prefix_rfl
  count := rfl
  commit := id
  detach := id
  commitRetried := id
  detachRetried := id

variable {s t u : Session ρ}

theorem Grows.trans (h : Grows s t) (h' : Grows t u) : Grows s u where
  sound := h'.sound ∘ h.sound
  closed := fun hs => ⟨(h'.closed (h.closed hs).1).1,
    (h'.closed (h.closed hs).1).2.trans (h.closed hs).2⟩
  isPrefix := h.isPrefix.trans h'.isPrefix
  count := by have := h.count; have := h'.count; omega
  commit := h'.commit ∘ h.commit
  detach := h'.detach ∘ h.detach
  commitRetried := h'.commitRetried ∘ h.commitRetried
  detachRetried := h'.detachRetried ∘ h.detachRetried

/-- Nothing that concerns the frames changes. -/
structure Still (s t : Session ρ) : Prop where
  frames : t.frames = s.frames
  tx : t.tx = s.tx
  closed : t.closed = s.closed
  commit : t.commit = s.commit
  detach : t.detach = s.detach
  commitRetried : t.commitRetried = s.commitRetried
  detachRetried : t.detachRetried = s.detachRetried

abbrev seen (s : Session ρ) :=
  (s.frames, s.tx, s.closed, s.commit, s.detach, s.commitRetried, s.detachRetried)

/-- A step that writes none of these fields. -/
theorem Still.unmoved (h : seen t = seen s) : Still s t := by
  simp only [seen, Prod.mk.injEq] at h
  obtain ⟨h₁, h₂, h₃, h₄, h₅, h₆, h₇⟩ := h
  exact ⟨h₁, h₂, h₃, h₄, h₅, h₆, h₇⟩

theorem Still.trans (h : Still s t) (h' : Still t u) : Still s u where
  frames := h'.frames.trans h.frames
  tx := h'.tx.trans h.tx
  closed := h'.closed.trans h.closed
  commit := h'.commit.trans h.commit
  detach := h'.detach.trans h.detach
  commitRetried := h'.commitRetried.trans h.commitRetried
  detachRetried := h'.detachRetried.trans h.detachRetried

theorem Still.grows (h : Still s t) : Grows s t where
  sound := fun hs => by
    refine ⟨?_, ?_, ?_, ?_⟩
    · rw [h.tx, h.frames]
      exact hs.next
    · rw [h.frames]
      exact hs.numbered
    · rw [h.frames]
      exact hs.once
    · rw [h.frames, h.closed]
      exact hs.unclosed
  closed := fun hs => ⟨h.closed.trans hs, h.frames⟩
  isPrefix := h.frames ▸ prefix_rfl
  count := by rw [h.tx, h.frames]
  commit := fun hs => by rwa [h.frames, h.commit]
  detach := fun hs => by rwa [h.frames, h.detach]
  commitRetried := h.commitRetried.trans
  detachRetried := h.detachRetried.trans

/-- Nor does anything that concerns the queue. -/
structure Idle (s t : Session ρ) : Prop extends Still s t where
  input : t.input = s.input

instance : Std.Refl (@Idle ρ) := ⟨fun _ => ⟨.unmoved rfl, rfl⟩⟩
instance : IsTrans (Session ρ) (@Idle ρ) :=
  ⟨fun _ _ _ h h' => ⟨h.toStill.trans h'.toStill, h'.input.trans h.input⟩⟩

instance : Std.Refl (@Still ρ) := ⟨fun _ => .unmoved rfl⟩
instance : IsTrans (Session ρ) (@Still ρ) := ⟨fun _ _ _ => Still.trans⟩

theorem frames_concat (s : Session ρ) (f : Frame) (copy : Bool) :
    (s.log ++ [Event.frame f copy]).filterMap Event.frame? = s.frames ++ [f] := by
  rw [filterMap_append]
  rfl

/-! ## The rules -/

/-- Of what a method returns, `out` is what it was given, `before`, and the frames it has emitted. -/
def Sends {α : Type} (E : Fault → Session ρ → Prop) (before : List Frame) (out : α → List Frame)
    (m : Op ρ α) : Prop :=
  ∀ s, m.wp s
    (fun a t => Grows s t ∧ ∃ more, out a = before ++ more ∧ t.frames = s.frames ++ more)
    (fun e t => Grows s t ∧ E e t)

/-- No frame can be emitted. -/
def Stuck (s : Session ρ) : Prop := s.closed = true ∨ Wire.maxU64 < s.tx

/-- An expected exception comes from a session that is stuck. -/
def Jammed (e : Fault) (s : Session ρ) : Prop := e.isExpected = true → Stuck s

def Anyhow (_ : Fault) (_ : Session ρ) : Prop := True

def Closed (_ : Fault) (s : Session ρ) : Prop := s.closed = true

section
variable {α β : Type} {E : Fault → Session ρ → Prop} {before : List Frame} {out : α → List Frame}
  {m : Op ρ α} {out' : β → List Frame} {k : α → Op ρ β} {f : Session ρ → Session ρ}

theorem Sends.anyhow (h : Sends E before out m) : Sends Anyhow before out m :=
  fun s => wp_mono (h s) (fun _ _ h => h) fun _ _ h => ⟨h.1, trivial⟩

theorem sends_pure {a : α} (h : out a = before) : Sends E before out (pure a) := by
  intro s
  exact ⟨.refl s, [], by rw [h, append_nil], (append_nil _).symm⟩

theorem sends_throw {e : Fault} (h : ∀ s, E e s) : Sends E before out (throw e) :=
  fun s => ⟨.refl s, h s⟩

theorem sends_bind (hm : Sends E [] out m) (hk : ∀ a, Sends E (before ++ out a) out' (k a)) :
    Sends E before out' (m >>= k) := by
  intro s
  refine wp_seq (hm s) fun a t hst => ?_
  obtain ⟨hst, more, hout, hmore⟩ := hst
  refine wp_mono (hk a t) (fun b u htu => ?_) fun e u htu => ⟨hst.trans htu.1, htu.2⟩
  obtain ⟨htu, rest, hrest, hframes⟩ := htu
  refine ⟨hst.trans htu, more ++ rest, ?_, ?_⟩
  · rw [hrest, hout, nil_append, append_assoc]
  · rw [hframes, hmore, append_assoc]

/-- A part that concerns no frame. -/
theorem sends_after (hm : ∀ s, m.wp s (fun _ t => Still s t) (fun e t => Still s t ∧ E e t))
    (hk : ∀ a, Sends E before out' (k a)) : Sends E before out' (m >>= k) := by
  intro s
  refine wp_seq_mono (hm s) (fun a t hst => ?_) fun _ _ h => ⟨h.1.grows, h.2⟩
  refine wp_mono (hk a t) (fun b u htu => ?_) fun e u htu => ⟨hst.grows.trans htu.1, htu.2⟩
  obtain ⟨htu, rest, hrest, hframes⟩ := htu
  exact ⟨hst.grows.trans htu, rest, hrest, by rw [hframes, hst.frames]⟩

theorem sends_ite {c : Prop} [Decidable c] {n : Op ρ α} (hm : c → Sends E before out m)
    (hn : ¬ c → Sends E before out n) : Sends E before out (if c then m else n) := by
  split
  · next hc => exact hm hc
  · next hc => exact hn hc

/-- A part that concerns no frame and raises nothing. -/
def Calm (m : Op ρ α) : Prop := ∀ s, m.wp s (fun _ t => Still s t) (fun _ _ => False)

theorem Calm.wp (h : Calm m) (s : Session ρ) : m.wp s (fun _ t => Still s t) (fun e t => Still s t ∧ E e t) :=
  wp_mono (h s) (fun _ _ h => h) fun _ _ h => h.elim

theorem anyhow_of_always (h : m.Always Still) (s : Session ρ) :
    m.wp s (fun _ t => Still s t) (fun e t => Still s t ∧ Anyhow e t) :=
  wp_mono (h s) (fun _ _ h => h) fun _ _ h => ⟨h, trivial⟩

theorem calm_modify (h : ∀ s, Still s (f s)) : Calm (modify f : Op ρ PUnit) :=
  h

theorem calm_get : Calm (get : Op ρ (Session ρ)) := fun s => Std.Refl.refl s

theorem sends_get {k : Session ρ → Op ρ α} (hk : ∀ s, Sends E before out (k s)) : Sends E before out (get >>= k) :=
  sends_after calm_get.wp hk

/-- A field that concerns no frame is written. -/
theorem sends_modify {k : PUnit → Op ρ α} (hf : ∀ s, seen (f s) = seen s)
    (hk : ∀ u, Sends E before out (k u)) : Sends E before out (modify f >>= k) :=
  sends_after (calm_modify fun s => .unmoved (hf s)).wp hk

end

section
variable {cfg : Config ρ} {r : ℕ → Reply}
  {s t : Session ρ} {message : Message} {copy : Bool} {α : Type} {out : α → List Frame}
    {before : List Frame} {m : Op ρ α} {k : Unit → Op ρ α}

/-- Only a reply has been asked for. -/
def Asks (s t : Session ρ) : Prop := ∃ n, t = { s with asked := n }

instance : Std.Refl (@Asks ρ) := ⟨fun s => ⟨s.asked, rfl⟩⟩
instance : IsTrans (Session ρ) (@Asks ρ) where
  trans s t u hst htu := by
    obtain ⟨_, rfl⟩ := hst
    obtain ⟨n, rfl⟩ := htu
    exact ⟨n, rfl⟩

theorem Asks.idle (h : Asks s t) : Idle s t := by
  obtain ⟨n, rfl⟩ := h
  exact ⟨.unmoved rfl, rfl⟩

theorem asks_ask : (ask r : Op ρ Reply).Always Asks := fun s => ⟨s.asked + 1, rfl⟩

variable (active checkHealth : Bool)

theorem asks_check : (check cfg r active checkHealth).Always Asks := by
  refine always_bind asks_ask fun a => always_bind (always_liftExcept _) fun now => ?_
  refine always_read fun s => always_unless fun _ => ?_
  refine always_unless fun _ => always_unless fun _ => ?_
  exact always_unless fun _ => always_unless fun _ => always_pure _

theorem asks_discard_check : (discard (check cfg r active checkHealth)).Always Asks := by
  intro s
  rw [wp_discard]
  exact asks_check active checkHealth s

theorem asks_request : (request r : Op ρ Unit).Always Asks :=
  always_bind asks_ask fun _ => always_liftExcept _

/-- A check is passed by an open session only. -/
theorem open_of_check (s : Session ρ) :
    (discard (check cfg r active checkHealth)).wp s (fun _ t => s.closed = false ∧ Asks s t)
      (fun _ t => Asks s t) := by
  rw [wp_discard, check]
  refine wp_seq (asks_ask s) fun a t hst => ?_
  have hclosed : t.closed = s.closed := hst.idle.closed
  refine wp_lift (fun now _ => ?_) fun _ _ => hst
  rw [wp_bind, wp_get]
  refine wp_unless (fun _ => hst) fun hopen => ?_
  have hopen : s.closed = false := by
    rw [← hclosed]
    exact Bool.eq_false_iff.mpr fun h => hopen (.inl h)
  refine wp_unless (fun _ => hst) fun _ => ?_
  refine wp_unless (fun _ => hst) fun _ => ?_
  refine wp_unless (fun _ => hst) fun _ => ?_
  exact wp_unless (fun _ => hst) fun _ => ⟨hopen, hst⟩

theorem Asks.still (h : Asks s t) : Still s t := h.idle.toStill

theorem calm_ask : Calm (ask r : Op ρ Reply) := fun _ => .unmoved rfl

theorem always_ask : (ask r : Op ρ Reply).Always Still := asks_ask.mono fun _ _ h => h.still

theorem still_check : (check cfg r active checkHealth).Always Still :=
  (asks_check active checkHealth).mono fun _ _ h => h.still

theorem still_discard_check : (discard (check cfg r active checkHealth)).Always Still :=
  (asks_discard_check active checkHealth).mono fun _ _ h => h.still

theorem still_request : (request r : Op ρ Unit).Always Still := asks_request.mono fun _ _ h => h.still

theorem calm_rememberAck (hop cryptoSequence : ℕ) (result : InputResult) (reason : Option InputReason) :
    Calm (rememberAck r hop cryptoSequence result reason : Op ρ Unit) := by
  intro s
  rw [rememberAck]
  refine wp_seq (calm_ask s) fun a t hst => ?_
  rw [wp_bind, wp_modify, wp_bind, wp_get, wp_onlyIf]
  have hpruned : Still s (t.pruneAcks a.clock) := hst.trans (.unmoved rfl)
  exact ⟨fun _ => hpruned.trans (.unmoved rfl), fun _ => hpruned⟩

/-! ## Emission -/

theorem frames_emit (hlog : t.log = s.log ++ [.frame ⟨s.tx, message⟩ copy]) :
    t.frames = s.frames ++ [⟨s.tx, message⟩] := by
  unfold Session.frames
  rw [hlog]
  exact frames_concat s _ _

/-- The next frame of an open session. -/
theorem grows_emit (hopen : s.closed = false) (htx : t.tx = s.tx + 1)
    (hlog : t.log = s.log ++ [.frame ⟨s.tx, message⟩ copy])
    (hclosed : t.closed = false → message.isClose = false) (hcommit : t.commit = s.commit)
    (hdetach : t.detach = s.detach) (hcommitRetried : t.commitRetried = s.commitRetried)
    (hdetachRetried : t.detachRetried = s.detachRetried) : Grows s t := by
  have hframes := frames_emit hlog
  have hsub : ∀ f ∈ s.frames, f ∈ t.frames := fun f hf => hframes ▸ mem_append_left _ hf
  refine ⟨fun hs => ?_, fun h => ?_, ?_, ?_, fun h p hp => ?_, fun h p hp => ?_, hcommitRetried.trans,
    hdetachRetried.trans⟩
  · have hunclosed := hs.unclosed hopen
    refine ⟨?_, ?_, ?_, fun hc => ?_⟩
    · rw [htx, hframes, length_append, hs.next]
      rfl
    · rw [hframes, hs.next]
      exact hs.numbered.concat message
    · rw [hframes]
      exact hunclosed.closesOnce_concat _
    · rw [hframes]
      exact hunclosed.concat (hclosed hc)
  · rw [hopen] at h
    cases h
  · rw [hframes]
    exact prefix_append _ _
  · rw [htx, hframes, length_append, length_singleton]
    omega
  · rw [hcommit] at hp
    exact ⟨hsub _ (h p hp).1, (h p hp).2⟩
  · rw [hdetach] at hp
    exact ⟨hsub _ (h p hp).1, (h p hp).2⟩

/-- The session after a frame. -/
def Session.emitted (s : Session ρ) (message : Message) (copy : Bool) : Session ρ :=
  { s with
    asked := s.asked + 1
    tx := s.tx + 1
    log := s.log ++ [.frame ⟨s.tx, message⟩ copy] }

theorem frames_emitted (s : Session ρ) (message : Message) (copy : Bool) :
    (s.emitted message copy).frames = s.frames ++ [⟨s.tx, message⟩] :=
  frames_emit rfl

theorem grows_emitted (copy : Bool) (hopen : s.closed = false) (h : message.isClose = false) :
    Grows s (s.emitted message copy) :=
  grows_emit hopen rfl rfl (fun _ => h) rfl rfl rfl rfl

/-- What `emit` does in a session that is not closed, or raises. -/
theorem emit_wp (message : Message) (copy : Bool) (s : Session ρ) : (emit r message false copy).wp s
      (fun f t => s.closed = false ∧ f = ⟨s.tx, message⟩ ∧ t = s.emitted message copy)
      (fun e t => Still s t ∧ Jammed e t) := by
  rw [emit, wp_bind, wp_get]
  refine wp_unless (fun hclosed => ⟨Std.Refl.refl s, fun _ => .inl hclosed.1⟩) fun hopen => ?_
  refine wp_unless (fun hmax => ⟨Std.Refl.refl s, fun _ => .inr hmax⟩) fun _ => ?_
  have hclosed : s.closed = false := by simpa using hopen
  rw [wp_bind, ask, wp_bind, wp_get, wp_bind, wp_modify, wp_pure]
  refine wp_unless (fun _ => ⟨.unmoved rfl, nofun⟩) fun _ => ?_
  rw [wp_bind, wp_modify, wp_pure]
  exact ⟨hclosed, rfl, rfl⟩

theorem sends_emit (h : message.isClose = false) :
    Sends Jammed [] (fun f => [f]) (emit r message false copy : Op ρ Frame) := by
  intro s
  refine wp_mono (emit_wp message copy s) (fun f t hst => ?_) fun _ _ h => ⟨h.1.grows, h.2⟩
  obtain ⟨hopen, rfl, rfl⟩ := hst
  exact ⟨grows_emitted copy hopen h, [⟨s.tx, message⟩], rfl, frames_emitted s message copy⟩

/-- The state after `close`. -/
theorem close_wp (s : Session ρ) : (close r : Op ρ Bool).wp s
      (fun _ t => t.log = s.log ∧ t.tx = s.tx ∧ t.closed = true ∧ t.commit = s.commit ∧
        t.detach = s.detach ∧ t.commitRetried = s.commitRetried ∧ t.detachRetried = s.detachRetried)
      (fun _ _ => False) := by
  rw [close, wp_bind, ask, wp_bind, wp_get, wp_bind, wp_modify, wp_pure, wp_bind, wp_modify, wp_pure]
  exact ⟨rfl, rfl, rfl, rfl, rfl, rfl, rfl⟩

/-- Closing keeps the frames. -/
theorem close_grows (s : Session ρ) :
    (close r : Op ρ Bool).wp s (fun _ t => Grows s t ∧ t.frames = s.frames ∧ t.closed = true)
      (fun _ _ => False) := by
  refine wp_imp (close_wp s) fun _ t h => ?_
  obtain ⟨hlog, htx, hclosed, hcommit, hdetach, hcr, hdr⟩ := h
  have hframes : t.frames = s.frames := by
    unfold Session.frames
    rw [hlog]
  refine ⟨⟨fun hs => ⟨?_, hframes ▸ hs.numbered, hframes ▸ hs.once, fun h => ?_⟩, fun _ => ⟨hclosed, hframes⟩,
    hframes ▸ prefix_rfl, by rw [htx, hframes], fun h => ?_, fun h => ?_, hcr.trans, hdr.trans⟩, hframes, hclosed⟩
  · rw [htx, hframes]
    exact hs.next
  · rw [hclosed] at h
    cases h
  · rwa [hframes, hcommit]
  · rwa [hframes, hdetach]

theorem sends_close {E : Fault → Session ρ → Prop} :
    Sends E [] (fun _ => []) (discard (close r) : Op ρ Unit) := by
  intro s
  rw [wp_discard]
  refine wp_mono (close_grows s) (fun _ t h => ⟨h.1, [], rfl, ?_⟩) fun _ _ h => h.elim
  rw [h.2.1, append_nil]

/-- `CLOSE` is emitted by an open session, which is closed right away. -/
theorem sends_emitClose (code : CloseCode) (workspaceState : String) :
    Sends Jammed [] (fun f => [f]) (emitClose r code workspaceState : Op ρ Frame) := by
  intro s
  rw [emitClose]
  refine wp_seq_mono (emit_wp _ _ s) (fun f t hst => ?_) fun _ _ h => ⟨h.1.grows, h.2⟩
  obtain ⟨hopen, rfl, rfl⟩ := hst
  rw [wp_bind, wp_discard]
  refine wp_mono (close_wp _) (fun _ u h => ?_) fun _ _ h => h.elim
  obtain ⟨hlog, htx, hclosed, hcommit, hdetach, hcr, hdr⟩ := h
  refine ⟨grows_emit hopen htx hlog (fun h => ?_) hcommit hdetach hcr hdr, [_], rfl, frames_emit hlog⟩
  rw [hclosed] at h
  cases h

/-! ## Acknowledgements and the state of the process -/

theorem sends_ack (hop cryptoSequence : ℕ) (result : InputResult) (reason : Option InputReason) :
    Sends Jammed [] (fun f => [f]) (ack r hop cryptoSequence result reason : Op ρ Frame) := by
  refine sends_after (fun s => ?_) fun _ => sends_emit rfl
  rw [wp_onlyIf]
  exact ⟨fun _ => (calm_rememberAck hop cryptoSequence result reason).wp s, fun _ => Std.Refl.refl s⟩

theorem sends_ackUncertain (p : PendingInput) :
    Sends Jammed [] (fun f => [f]) (ackUncertain r p : Op ρ Frame) :=
  sends_ack _ _ _ _

/-- By induction on the queue: one frame for each input. -/
theorem sends_drainFrom (queue : List PendingInput) :
    Sends Jammed [] id (drainFrom r queue : Op ρ (List Frame)) := by
  induction queue with
  | nil => exact sends_pure rfl
  | cons p rest ih =>
    refine sends_modify (fun _ => rfl) fun _ => ?_
    refine sends_bind (sends_ackUncertain p) fun reply => sends_bind ih fun more => ?_
    exact sends_pure rfl

theorem sends_drain : Sends Jammed [] id (drain r : Op ρ (List Frame)) := by
  refine sends_get fun s => sends_bind (sends_drainFrom s.input) fun replies => ?_
  exact sends_modify (fun _ => rfl) fun _ => sends_pure rfl

section
variable (state : RuntimeProbeState)

theorem sends_terminal (exitCode : Option ℤ) :
    Sends Jammed [] id (terminal r state exitCode : Op ρ (List Frame)) := by
  refine sends_bind sends_drain fun replies => sends_bind (sends_emit rfl) fun exit => ?_
  refine sends_bind (sends_emitClose _ _) fun closing => sends_pure ?_
  simp

theorem sends_publishState : Sends Jammed [] id (publishState r state : Op ρ (List Frame)) := by
  refine sends_get fun s => sends_ite (fun _ => sends_pure rfl) fun _ => ?_
  refine sends_modify (fun _ => rfl) fun _ => ?_
  exact sends_bind (sends_emit rfl) fun _ => sends_pure rfl

theorem sends_keepInput : Sends Jammed [] id (keepInput r state : Op ρ (List Frame)) :=
  sends_ite (fun _ => sends_drain) fun _ => sends_pure rfl

theorem sends_closeUnlessOpen : Sends Jammed [] id (closeUnlessOpen r state : Op ρ (List Frame)) :=
  sends_ite (fun _ => sends_pure rfl) fun _ =>
    sends_bind (sends_emitClose _ _) fun _ => sends_pure rfl

theorem sends_processState (exitCode : Option ℤ) :
    Sends Jammed [] id (processState r state exitCode : Op ρ (List Frame)) := by
  refine sends_ite (fun _ => sends_terminal state exitCode) fun _ => ?_
  refine sends_bind (sends_keepInput state) fun replies => ?_
  refine sends_bind (sends_publishState state) fun states => ?_
  exact sends_bind (sends_closeUnlessOpen state) fun closing => sends_pure rfl

end

/-! ## Guards and handlers -/

theorem sends_guarded {body : RuntimeProbeEvidence → Op ρ α}
    (h : ∀ e, Sends Anyhow [] out (body e)) : Sends Anyhow [] out (guarded r body) := by
  refine sends_after (anyhow_of_always always_ask) fun a => ?_
  refine sends_after (anyhow_of_always (always_liftExcept _)) fun e => sends_bind (h e) fun result => ?_
  exact sends_after (anyhow_of_always (always_liftExcept _)) fun _ => sends_pure rfl

/-- A method that closes the session when anything raises. -/
theorem sends_closing {handler : Fault → Op ρ α} (hm : Sends Anyhow [] out m)
    (hh : ∀ e s, (handler e).wp s (fun _ _ => False) (fun _ t => Grows s t ∧ t.closed = true)) :
    Sends Closed [] out (tryCatch m handler) := by
  intro s
  rw [wp_tryCatch]
  refine wp_mono (hm s) (fun _ _ h => h) fun e t hst => ?_
  exact wp_mono (hh e t) (fun _ _ h => h.elim) fun _ _ htu => ⟨hst.1.trans htu.1, htu.2⟩

theorem closeAndReraise_wp (e : Fault) (s : Session ρ) :
    (closeAndReraise r e : Op ρ α).wp s (fun _ _ => False) (fun _ t => Grows s t ∧ t.closed = true) := by
  rw [closeAndReraise, wp_bind, wp_discard]
  exact wp_mono (close_grows s) (fun _ _ h => ⟨h.1, h.2.2⟩) fun _ _ h => h.elim

theorem closeAndRaise_wp (e : Fault) (s : Session ρ) :
    (closeAndRaise r e : Op ρ α).wp s (fun _ _ => False) (fun _ t => Grows s t ∧ t.closed = true) :=
  closeAndReraise_wp _ s

/-! ## Output, health and the other calls -/

theorem sends_check {active checkHealth : Bool} {k : PUnit → Op ρ α}
    (hk : ∀ u, Sends Anyhow before out (k u)) :
    Sends Anyhow before out (discard (check cfg r active checkHealth) >>= k) :=
  sends_after (anyhow_of_always (still_discard_check active checkHealth)) hk

theorem sends_request (hk : ∀ u, Sends Anyhow before out (k u)) : Sends Anyhow before out (request r >>= k) :=
  sends_after (anyhow_of_always still_request) hk

theorem sends_ask {k : Reply → Op ρ α} (hk : ∀ a, Sends Anyhow before out (k a)) :
    Sends Anyhow before out (ask r >>= k) :=
  sends_after (anyhow_of_always always_ask) hk

theorem sends_raiseIf {c : Prop} [Decidable c] {e : Fault}
    (hk : ∀ u, Sends Anyhow before out (k u)) : Sends Anyhow before out (raiseIf c e >>= k) :=
  sends_after (anyhow_of_always (always_raiseIf _ _)) hk

/-- One more frame. -/
theorem sends_frame {k : Frame → Op ρ α} (h : message.isClose = false)
    (hk : ∀ f, Sends Anyhow (before ++ [f]) out (k f)) :
    Sends Anyhow before out (emit r message false copy >>= k) :=
  sends_bind (sends_emit h).anyhow hk

theorem sends_sendRecords (records : List OutputFrame) :
    Sends Anyhow [] id (sendRecords cfg r records : Op ρ (List Frame)) := by
  induction records with
  | nil => exact sends_pure rfl
  | cons record rest ih =>
    refine sends_check fun _ => sends_request fun _ => sends_frame rfl fun reply => ?_
    exact sends_bind ih fun more => sends_pure rfl

theorem sends_sendGap (gap : Option Gap) : Sends Anyhow [] id (sendGap r gap : Op ρ (List Frame)) := by
  cases gap with
  | none => exact sends_pure rfl
  | some g => exact sends_frame rfl fun _ => sends_pure rfl

theorem sends_sendSelection : Sends Anyhow [] id (sendSelection cfg r : Op ρ (List Frame)) := by
  refine sends_ask fun a => sends_after (anyhow_of_always (always_liftExcept _)) fun selection => ?_
  refine sends_bind (sends_sendGap _) fun gaps => sends_bind (sends_sendRecords _) fun outputs => ?_
  exact sends_check fun _ => sends_pure rfl

theorem sends_publishOutput (e : RuntimeProbeEvidence) :
    Sends Anyhow [] id (publishOutput cfg r e : Op ρ (List Frame)) := by
  refine sends_check fun _ => ?_
  refine sends_bind (sends_processState e.state e.exitCode).anyhow fun states => ?_
  refine sends_ite (fun _ => sends_pure rfl) fun hrunning => ?_
  -- a state frame ends the call, so the frames before the output are none
  obtain rfl : states = [] := not_not.mp fun h => hrunning (.inl h)
  exact sends_sendSelection

theorem sends_output : Sends Closed [] id (output cfg r : Op ρ (List Frame)) := by
  refine sends_closing ?_ closeAndRaise_wp
  refine sends_check fun _ => sends_ask fun a => sends_ite (fun _ => ?_) fun _ => sends_pure rfl
  exact sends_request fun _ => sends_guarded fun e => sends_publishOutput e

theorem sends_sendHeartbeat (now : ℚ) : Sends Anyhow [] id (sendHeartbeat r now : Op ρ (List Frame)) := by
  refine sends_get fun s => sends_ite (fun _ => ?_) fun _ => sends_pure rfl
  refine sends_modify (fun _ => rfl) fun _ => ?_
  exact sends_frame rfl fun _ => sends_pure rfl

theorem sends_tickCommitted (now : ℚ) : Sends Anyhow [] id (tickCommitted r now : Op ρ (List Frame)) := by
  refine sends_get fun s => sends_ite (fun _ => ?_) fun _ => ?_
  · refine sends_ask fun a => ?_
    exact sends_bind (sends_emitClose _ _).anyhow fun _ => sends_pure rfl
  · refine sends_bind (sends_guarded fun e => (sends_processState e.state e.exitCode).anyhow) fun states => ?_
    refine sends_ite (fun _ => sends_pure rfl) fun hnone => ?_
    -- as in `output`, a state frame ends the call
    obtain rfl := not_not.mp hnone
    exact sends_sendHeartbeat now

theorem sends_tick : Sends Closed [] id (tick cfg r : Op ρ (List Frame)) := by
  refine sends_closing ?_ closeAndReraise_wp
  refine sends_after (anyhow_of_always (still_check false false)) fun now => sends_get fun s => ?_
  refine sends_ite (fun _ => sends_tickCommitted now) fun _ => ?_
  exact sends_request fun _ => sends_request fun _ => sends_pure rfl

/-- A method whose last act is to emit a frame: when it raises, no frame has been emitted. -/
def EndsWith {α : Type} (out : α → List Frame) (m : Op ρ α) : Prop :=
  ∀ s, m.wp s (fun a t => Grows s t ∧ t.frames = s.frames ++ out a) (fun _ t => Still s t)

theorem endsWith_after {β : Type} {out : β → List Frame} {k : α → Op ρ β} (hm : m.Always Still)
    (hk : ∀ a, EndsWith out (k a)) : EndsWith out (m >>= k) := by
  intro s
  refine wp_seq (hm s) fun a t hst => ?_
  refine wp_mono (hk a t) (fun fs u htu => ⟨hst.grows.trans htu.1, ?_⟩) fun _ _ htu => hst.trans htu
  rw [htu.2, hst.frames]

theorem endsWith_modify {f : Session ρ → Session ρ} {k : PUnit → Op ρ α}
    (hf : ∀ s, seen (f s) = seen s) (hk : ∀ u, EndsWith out (k u)) : EndsWith out (modify f >>= k) :=
  endsWith_after (always_modify fun s => .unmoved (hf s)) hk

theorem endsWith_emit (h : message.isClose = false) :
    EndsWith (fun f => [f]) (emit r message false copy : Op ρ Frame) := by
  intro s
  refine wp_mono (emit_wp message copy s) (fun f t hst => ?_) fun _ _ h => h.1
  obtain ⟨hopen, rfl, rfl⟩ := hst
  exact ⟨grows_emitted copy hopen h, frames_emitted s message copy⟩

theorem endsWith_list {m : Op ρ Frame} (h : EndsWith (fun f => [f]) m) : EndsWith id (do
      let reply ← m return [reply]) := by
  intro s
  exact wp_seq (h s) fun _ _ h => h

theorem endsWith_ping : EndsWith id (ping cfg r : Op ρ (List Frame)) := by
  refine endsWith_after (still_check true true) fun now => ?_
  refine endsWith_modify (fun _ => rfl) fun _ => ?_
  refine endsWith_after always_get fun s => endsWith_after (always_raiseIf _ _) fun _ => ?_
  refine endsWith_after always_ask fun a => endsWith_after (always_raiseIf _ _) fun _ => ?_
  refine endsWith_modify (fun _ => rfl) fun _ => ?_
  exact endsWith_list (endsWith_emit rfl)

theorem endsWith_replayInputResult (hop cryptoSequence : ℕ) :
    EndsWith (fun f => [f]) (replayInputResult cfg r hop cryptoSequence : Op ρ Frame) := by
  refine endsWith_after (still_check true true) fun now => ?_
  refine endsWith_modify (fun _ => rfl) fun _ => ?_
  refine endsWith_after always_get fun s => ?_
  split
  · exact fun s => Std.Refl.refl s
  · refine endsWith_after (always_raiseIf _ _) fun _ => ?_
    refine endsWith_modify (fun _ => rfl) fun _ => ?_
    exact endsWith_emit rfl

/-- `hello_ack`, where the guard does not fail after its body. -/
theorem endsWith_helloAck (hleave : ∀ i, (r i).leave = .ok ()) :
    EndsWith id (helloAck cfg r : Op ρ (List Frame)) := by
  intro s
  rw [helloAck, guarded, wp_bind, ask, wp_bind, wp_get, wp_bind, wp_modify, wp_pure, hleave]
  have hasked : Still s { s with asked := s.asked + 1 } := .unmoved rfl
  refine wp_lift (fun e _ => ?_) fun _ _ => hasked
  have hbody : EndsWith id (do
      discard (check cfg r false true)
      let s ← get
      raiseIf (s.tx ≠ 1) (.stream .protocolInvalid)
      let reply ← emit r .helloAck false false
      return [reply] : Op ρ (List Frame)) := by
    refine endsWith_after (still_discard_check false true) fun _ => endsWith_after always_get fun _ => ?_
    exact endsWith_after (always_raiseIf _ _) fun _ => endsWith_list (endsWith_emit rfl)
  refine wp_seq_mono (hbody _) (fun fs t h => ⟨hasked.grows.trans h.1, ?_⟩) fun _ _ h => hasked.trans h
  rw [h.2, hasked.frames]

/-! ## Receiving -/

theorem sends_rejectInput (hop cryptoSequence : ℕ) (e : RuntimeProbeEvidence) (reason : InputReason) :
    Sends Anyhow [] id (rejectInput r hop cryptoSequence e reason : Op ρ (List Frame)) := by
  refine sends_bind (sends_ack _ _ _ _).anyhow fun reply => ?_
  refine sends_ite (fun _ => sends_pure rfl) fun _ => ?_
  exact sends_bind (sends_processState _ _).anyhow fun states => sends_pure rfl

variable (p : PendingInput) (e : RuntimeProbeEvidence)

theorem sends_queueInput :
    Sends Anyhow [] id (queueInput r p e : Op ρ (List Frame)) := by
  refine sends_bind (sends_processState _ _).anyhow fun states => ?_
  refine sends_modify (fun _ => rfl) fun _ => ?_
  exact sends_bind (sends_ack _ _ _ _).anyhow fun reply => sends_pure rfl

theorem sends_admitInput :
    Sends Anyhow [] Prod.fst (admitInput cfg r p e : Op ρ (List Frame × Bool)) := by
  refine sends_check fun _ => sends_ask fun a => sends_get fun s => ?_
  split
  · exact sends_bind (sends_rejectInput _ _ _ _) fun replies => sends_pure rfl
  · refine sends_ite (fun _ => ?_) fun _ => ?_
    · exact sends_bind (sends_rejectInput _ _ _ _) fun replies => sends_pure rfl
    · exact sends_bind (sends_queueInput _ _) fun replies => sends_pure rfl

/-- If no number has been given out, no frame has been emitted. -/
theorem Grows.frames_eq (h : Grows s t) (htx : t.tx = s.tx) : t.frames = s.frames := by
  refine (h.isPrefix.eq_of_length ?_).symm
  have := h.count
  omega

/-- An event that is no frame. -/
theorem still_event (t : Session ρ) {event : Event} (h : event.frame? = none) :
    Still t { t with log := t.log ++ [event] } := by
  refine ⟨?_, rfl, rfl, rfl, rfl, rfl, rfl⟩
  unfold Session.frames
  rw [filterMap_append, filterMap_cons_none h]
  exact append_nil _

theorem sends_receiveInput (hop : ℕ) (now : ℚ) :
    Sends Anyhow [] id (receiveInput cfg r hop now : Op ρ (List Frame)) := by
  refine sends_ask fun a => ?_
  split
  · exact sends_throw fun _ => trivial
  · next plaintext cryptoSequence _ =>
    intro s
    rw [wp_bind, wp_get, wp_bind, wp_tryCatch]
    have hend : ∀ (out : List Frame × Bool) (p : PendingInput) (t : Session ρ), Grows s t →
        t.frames = s.frames ++ out.1 →
        (do
          onlyIf out.2 (modify fun s => { s with log := s.log ++ [.accepted p] })
          return out.1 : Op ρ (List Frame)).wp t
        (fun a u => Grows s u ∧ ∃ more, id a = [] ++ more ∧ u.frames = s.frames ++ more)
        (fun e u => Grows s u ∧ Anyhow e u) := by
      intro out p t hst hframes
      rw [wp_bind, wp_onlyIf, wp_modify, wp_pure, wp_pure]
      refine ⟨fun _ => ⟨hst.trans (still_event t rfl).grows, out.1, rfl, ?_⟩, fun _ => ⟨hst, out.1, rfl, hframes⟩⟩
      rw [(still_event t rfl).frames, hframes]
    refine wp_mono (sends_guarded (sends_admitInput _) s) (fun out t hst => ?_) fun e t hst => ?_
    · obtain ⟨hst, more, hout, hframes⟩ := hst
      refine hend out _ t hst ?_
      rw [hout]
      exact hframes
    · -- the answer that was still owed
      rw [refuseInput, wp_bind, wp_get, wp_ite]
      refine ⟨fun howed => ?_, fun _ => ⟨hst.1, trivial⟩⟩
      have hsame := hst.1.frames_eq howed.2.1
      refine wp_seq_mono (sends_ack _ _ _ _ t) (fun reply u htu => ?_) fun _ _ h => ⟨hst.1.trans h.1, trivial⟩
      obtain ⟨htu, more, hmore, hframes⟩ := htu
      rw [wp_bind, wp_discard]
      refine wp_mono (close_grows u) (fun _ v huv => ?_) fun _ _ h => h.elim
      refine hend ([reply], false) ⟨hop, cryptoSequence, plaintext, now⟩ v ((hst.1.trans htu).trans huv.1) ?_
      rw [huv.2.1, hframes, hsame]
      exact congrArg _ hmore.symm

theorem sends_keyReply (h : message.isClose = false) (phase : Phase) :
    Sends Anyhow [] id (keyReply r message phase : Op ρ (List Frame)) := by
  refine sends_request fun _ => sends_frame h fun reply => ?_
  exact sends_modify (fun _ => rfl) fun _ => sends_pure rfl

theorem sends_streamReady : Sends Anyhow [] id (streamReady cfg r : Op ρ (List Frame)) := by
  refine sends_guarded fun _ => sends_check fun _ => sends_request fun _ => sends_ask fun a => ?_
  refine sends_modify (fun _ => rfl) fun _ => ?_
  refine sends_frame rfl fun reply => sends_check fun _ => ?_
  exact sends_modify (fun _ => rfl) fun _ => sends_pure rfl

theorem grows_commit {f : Frame} (raw : ρ) (hf : f ∈ s.frames)
    (hkind : f.message.isCommitAck = true) : Grows s { s with commit := some (raw, f) } where
  sound := fun h => ⟨h.next, h.numbered, h.once, h.unclosed⟩
  closed := fun h => ⟨h, rfl⟩
  isPrefix := prefix_rfl
  count := rfl
  commit := fun _ p hp => by
    obtain rfl := Option.some.inj hp
    exact ⟨hf, hkind⟩
  detach := id
  commitRetried := id
  detachRetried := id

theorem sends_admissionCommit (raw : ρ) (fence : String) (now : ℚ) :
    Sends Anyhow [] id (admissionCommit cfg r raw fence now : Op ρ (List Frame)) := by
  refine sends_get fun s => sends_raiseIf fun _ => sends_guarded fun _ => sends_check fun _ => ?_
  refine sends_request fun _ => sends_request fun _ => ?_
  intro s
  refine wp_seq_mono (emit_wp _ _ s) (fun f t hst => ?_) fun _ _ h => ⟨h.1.grows, trivial⟩
  obtain ⟨hopen, rfl, rfl⟩ := hst
  rw [wp_bind, wp_modify]
  have hmem : (⟨s.tx, .admissionCommitAck⟩ : Frame) ∈ (s.emitted .admissionCommitAck false).frames := by
    rw [frames_emitted]
    exact mem_append_right _ (mem_singleton_self _)
  have hgrows := (grows_emitted false hopen rfl).trans (grows_commit raw hmem rfl)
  have hrest : Sends Anyhow [⟨s.tx, .admissionCommitAck⟩] id (do
      discard (check cfg r false true)
      modify fun s => { s with phase := .committed, lastHealth := now, lastSentHealth := now }
      return [⟨s.tx, .admissionCommitAck⟩] : Op ρ (List Frame)) := by
    refine sends_check fun _ => ?_
    exact sends_modify (fun _ => rfl) fun _ => sends_pure rfl
  refine wp_mono (hrest _) (fun fs u htu => ?_) fun _ _ h => ⟨hgrows.trans h.1, trivial⟩
  obtain ⟨htu, more, hout, hframes⟩ := htu
  refine ⟨hgrows.trans htu, [⟨s.tx, .admissionCommitAck⟩] ++ more, hout, ?_⟩
  rw [hframes, ← append_assoc]
  exact congrArg (· ++ more) (frames_emitted s .admissionCommitAck false)

theorem sends_spendControl {now : ℚ} {body : Op ρ (List Frame)} (h : Sends Anyhow [] id body) :
    Sends Anyhow [] id (spendControl r now body) := by
  refine sends_modify (fun _ => rfl) fun _ => sends_get fun s => ?_
  refine sends_ite (fun _ => ?_) fun _ => ?_
  · refine sends_ask fun a => ?_
    exact sends_bind (sends_emitClose _ _).anyhow fun _ => sends_pure rfl
  · exact sends_modify (fun _ => rfl) fun _ => h

theorem sends_receivePong (nonce : String) (tick : ℤ) (now : ℚ) :
    Sends Anyhow [] id (receivePong nonce tick now : Op ρ (List Frame)) := by
  refine sends_get fun s => sends_modify (fun _ => rfl) fun _ => ?_
  exact sends_raiseIf fun _ => sends_pure rfl

theorem sends_receiveHeartbeat (tick : ℤ) (now : ℚ) :
    Sends Anyhow [] id (receiveHeartbeat tick now : Op ρ (List Frame)) := by
  refine sends_get fun s => sends_raiseIf fun _ => ?_
  exact sends_modify (fun _ => rfl) fun _ => sends_pure rfl

theorem sends_receiveResize (hop columns rows : ℕ) :
    Sends Anyhow [] id (receiveResize r hop columns rows : Op ρ (List Frame)) :=
  sends_guarded fun _ => sends_request fun _ => sends_frame rfl fun _ => sends_pure rfl

end

end AgentBox.Stream.Attachment
