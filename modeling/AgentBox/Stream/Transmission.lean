import AgentBox.Stream.Emission

/-!
# The frames of an attachment are numbered without holes

A frame gets its number when it is emitted. It is lost if the method that emitted it raises; such a method
closes the session, and a closed session emits nothing more. So what a session returns is an initial part
of what it emitted, and all of it as long as the session is open.

Two calls break that. `hello_ack` does not close the session when the guard fails after the frame was
numbered, and the answer to a `DETACH` is emitted from a closed session, also where flushing the queued
input has just sent `CLOSE`.
-/

namespace AgentBox.Stream.Attachment

open List Method

variable {ρ : Type} {cfg : Config ρ} {s u : Session ρ} {c : Call ρ} {t : Run ρ}

section
variable {cfg : Config ρ} {r : ℕ → Reply}
  {s t : Session ρ} {base : List Frame} {α : Type} {out : α → List Frame} {m : Op ρ α}
    {raw : ρ}

/-! ## Flushing -/

/-- What the state of the process leaves alone; in the states in which a session goes on, it stays
open. -/
structure Aside (state : RuntimeProbeState) (s t : Session ρ) : Prop where
  replies : t.replies = s.replies
  written : t.written = s.written
  closed : isOpenState state = true → t.closed = s.closed

instance (state : RuntimeProbeState) : Std.Refl (@Aside ρ state) := ⟨fun _ => ⟨rfl, rfl, fun _ => rfl⟩⟩
instance (state : RuntimeProbeState) : IsTrans (Session ρ) (@Aside ρ state) :=
  ⟨fun _ _ _ h h' => ⟨h'.replies.trans h.replies, h'.written.trans h.written,
    fun ho => (h'.closed ho).trans (h.closed ho)⟩⟩

section
variable {state : RuntimeProbeState}

theorem aside_ask : (ask r : Op ρ Reply).Always (Aside state) := fun _ => ⟨rfl, rfl, fun _ => rfl⟩

theorem aside_emit (message : Message) (cleanupReply copy : Bool) :
    (emit r message cleanupReply copy : Op ρ Frame).Always (Aside state) := by
  refine always_read fun s => always_unless fun _ => ?_
  refine always_unless fun _ => always_bind aside_ask fun a => ?_
  refine always_unless fun _ => ?_
  exact always_return (always_modify fun _ => ⟨rfl, rfl, fun _ => rfl⟩)

theorem aside_ack (hop cryptoSequence : ℕ) (result : InputResult) (reason : Option InputReason) :
    (ack r hop cryptoSequence result reason : Op ρ Frame).Always (Aside state) := by
  refine always_bind (always_onlyIf fun _ => ?_) fun _ => aside_emit _ _ _
  refine always_bind aside_ask fun a => always_bind (always_modify fun _ => ⟨rfl, rfl, fun _ => rfl⟩) fun _ => ?_
  exact always_read fun s => always_onlyIf fun _ => always_modify fun _ => ⟨rfl, rfl, fun _ => rfl⟩

theorem aside_drainFrom (queue : List PendingInput) :
    (drainFrom r queue : Op ρ (List Frame)).Always (Aside state) := by
  induction queue with
  | nil => exact always_pure _
  | cons p rest ih =>
    refine always_bind (always_modify fun _ => ⟨rfl, rfl, fun _ => rfl⟩) fun _ => ?_
    exact always_bind (aside_ack _ _ _ _) fun _ => always_return ih

theorem aside_drain : (drain r : Op ρ (List Frame)).Always (Aside state) := by
  refine always_read fun s => always_bind (aside_drainFrom s.input) fun _ => ?_
  exact always_return (always_modify fun _ => ⟨rfl, rfl, fun _ => rfl⟩)

/-- `CLOSE` ends a session that does not go on. -/
theorem aside_emitClose (h : isOpenState state = false) (code : CloseCode) (workspaceState : String) :
    (emitClose r code workspaceState : Op ρ Frame).Always (Aside state) := by
  refine always_bind (aside_emit _ _ _) fun reply => always_return ?_
  intro s
  rw [wp_discard]
  refine always_bind aside_ask (fun a => ?_) s
  exact always_return (always_modify fun _ => ⟨rfl, rfl, fun ho => by rw [h] at ho; cases ho⟩)

theorem aside_processState (state : RuntimeProbeState) (exitCode : Option ℤ) :
    (processState r state exitCode : Op ρ (List Frame)).Always (Aside state) := by
  refine always_ite (fun hends => ?_) fun _ => ?_
  · have hclosed : isOpenState state = false := by
      rcases hends with rfl | rfl <;> rfl
    refine always_bind aside_drain fun _ => always_bind (aside_emit _ _ _) fun _ => ?_
    exact always_return (aside_emitClose hclosed _ _)
  · refine always_bind (always_ite (fun _ => aside_drain) fun _ => always_pure _) fun _ => ?_
    refine always_bind (always_read fun s => always_ite (fun _ => always_pure _) fun _ => ?_)
      fun _ => ?_
    · refine always_bind (always_modify fun _ => ⟨rfl, rfl, fun _ => rfl⟩) fun _ => ?_
      exact always_return (aside_emit _ _ _)
    · refine always_return (always_ite (fun _ => always_pure _) fun hopen => ?_)
      exact always_return (aside_emitClose (Bool.eq_false_iff.mpr hopen) _ _)

end

/-- Neither the frames nor the replies of a flush change. -/
structure Along (s t : Session ρ) : Prop extends Still s t where
  replies : t.replies = s.replies

instance : Std.Refl (@Along ρ) := ⟨fun _ => ⟨.unmoved rfl, rfl⟩⟩
instance : IsTrans (Session ρ) (@Along ρ) :=
  ⟨fun _ _ _ h h' => ⟨h.toStill.trans h'.toStill, h'.replies.trans h.replies⟩⟩

theorem Asks.along (h : Asks s t) : Along s t := by
  obtain ⟨n, rfl⟩ := h
  exact ⟨.unmoved rfl, rfl⟩

variable (p : PendingInput)

/-- The write of an input, up to the end of the guard's body. -/
theorem along_write :
    (do
      modify (Session.popInput p)
      discard (check cfg r true true)
      let a ← ask r
      raiseIf (p.admittedAt + 5 ≤ a.clock) (.stream .inputWriteUncertain)
      writeInput r p
      modify fun s => { s with written := true }
      return false : Op ρ Bool).Always Along := by
  refine always_bind (always_modify fun _ => ⟨.unmoved rfl, rfl⟩) fun _ => ?_
  refine always_bind ((asks_discard_check true true).mono fun _ _ h => h.along) fun _ => ?_
  refine always_bind (asks_ask.mono fun _ _ h => h.along) fun a => always_unless fun _ => ?_
  refine always_bind (always_bind (asks_ask.mono fun _ _ h => h.along) fun b => ?_) fun _ => ?_
  · exact always_bind (always_modify fun s => ⟨still_event s rfl, rfl⟩) fun _ => always_liftExcept _
  · refine always_bind (always_modify fun _ => ⟨.unmoved rfl, rfl⟩) fun _ => ?_
    exact always_pure _

/-- The replies collected so far are what the flush has emitted after `base`. -/
def Collected (base : List Frame) (s : Session ρ) : Prop := s.frames = base ++ s.replies

theorem Along.collected (h : Along s t) (hs : Collected base s) : Collected base t := by
  unfold Collected
  rw [h.frames, h.replies]
  exact hs

theorem flushGuarded_wp (e : RuntimeProbeEvidence) (hs : Collected base s) :
    (flushGuarded cfg r p e).wp s
      (fun _ t => Grows s t ∧ Collected base t ∧ (isOpenState e.state = true → t.closed = s.closed))
      (fun f t => Grows s t ∧ (f.isExpected = true → Collected base t ∨ Stuck t) ∧
        (isOpenState e.state = true → t.closed = s.closed)) := by
  rw [flushGuarded]
  refine wp_seq_mono (wp_and (sends_processState e.state _ s) (aside_processState e.state _ s))
    (fun states t h => ?_) fun f t h => ⟨h.1.1, fun hf => .inr (h.1.2 hf), h.2.closed⟩
  obtain ⟨⟨hst, more, hmore, hframes⟩, haside⟩ := h
  rw [wp_bind, addReplies, wp_modify, wp_ite]
  have hadd : Grows t { t with replies := t.replies ++ states } :=
    Still.grows (.unmoved rfl)
  have hcollected : Collected base { t with replies := t.replies ++ states } := by
    change t.frames = base ++ (t.replies ++ states)
    rw [hframes, haside.replies, hs, append_assoc]
    exact congrArg (fun l => base ++ (s.replies ++ l)) hmore.symm
  refine ⟨fun _ => ⟨hst.trans hadd, hcollected, haside.closed⟩, fun _ => ?_⟩
  refine wp_mono (along_write p _) (fun _ u h => ?_) fun f u h => ?_
  · exact ⟨(hst.trans hadd).trans h.grows, h.collected hcollected, fun ho => h.closed.trans (haside.closed ho)⟩
  · exact ⟨(hst.trans hadd).trans h.grows, fun _ => .inl (h.collected hcollected),
      fun ho => h.closed.trans (haside.closed ho)⟩

/-- The supervisor reports only states in which a session goes on. -/
def GoesOn (r : ℕ → Reply) : Prop := ∀ i e, (r i).enter = .ok e → isOpenState e.state = true

/-- A turn of the flush that lost frames leaves the session stuck. -/
def Turned (r : ℕ → Reply) (base : List Frame) (s : Session ρ) (returns : Bool) (t : Session ρ) : Prop :=
  Grows s t ∧ (Collected base t ∨ returns = false ∧ Stuck t) ∧ (GoesOn r → t.closed = s.closed)

/-- One guarded turn of the flush, with its handler. -/
theorem flushTurn_wp (hs : Collected base s) :
    (tryCatch (guarded r (flushGuarded cfg r p)) (flushHandler p)).wp s (Turned r base s)
      (fun _ t => Grows s t) := by
  have hhandler : ∀ (f : Fault) (t : Session ρ), Grows s t →
      (f.isExpected = true → Collected base t ∨ Stuck t) → (GoesOn r → t.closed = s.closed) →
      (flushHandler p f).wp t (Turned r base s) (fun _ t => Grows s t) := by
    intro f t hst hcollected hclosed
    rw [flushHandler, wp_ite]
    refine ⟨fun hf => ?_, fun _ => hst⟩
    rw [wp_bind, wp_get, wp_bind, wp_onlyIf, wp_modify, wp_pure, wp_pure]
    have hpop : Along t (t.popInput p) := ⟨.unmoved rfl, rfl⟩
    refine ⟨fun _ => ⟨hst.trans hpop.grows, ?_, hclosed⟩, fun _ => ⟨hst, ?_, hclosed⟩⟩
    · exact (hcollected hf).imp hpop.collected fun h => ⟨rfl, h⟩
    · exact (hcollected hf).imp_right fun h => ⟨rfl, h⟩
  rw [wp_tryCatch, guarded, wp_bind, ask, wp_bind, wp_get, wp_bind, wp_modify, wp_pure]
  have hasked : Along s { s with asked := s.asked + 1 } := ⟨.unmoved rfl, rfl⟩
  refine wp_lift (fun e he => ?_) fun f _ => hhandler f _ hasked.grows (fun _ => .inl (hasked.collected hs)) fun _ => rfl
  have hopen : GoesOn r → isOpenState e.state = true := fun h => h _ e he
  refine wp_seq_mono (flushGuarded_wp p e (hasked.collected hs)) (fun returns t h => ?_) fun f t h => ?_
  · obtain ⟨hst, hcollected, hclosed⟩ := h
    refine wp_lift (fun _ _ => ?_) fun f _ => ?_
    · exact ⟨hasked.grows.trans hst, .inl hcollected, fun h => hclosed (hopen h)⟩
    · exact hhandler f t (hasked.grows.trans hst) (fun _ => .inl hcollected) fun h => hclosed (hopen h)
  · exact hhandler f t (hasked.grows.trans h.1) h.2.1 fun hr => h.2.2 (hopen hr)

theorem close_replies (s : Session ρ) :
    (close r : Op ρ Bool).wp s (fun _ t => t.replies = s.replies) (fun _ _ => False) := rfl

/-- A stuck session emits nothing. -/
theorem emit_of_stuck (h : Stuck s) (message : Message) (copy : Bool) :
    (emit r message false copy).wp s (fun _ _ => False) (fun _ t => Still s t) := by
  rw [emit, wp_bind, wp_get]
  refine wp_unless (fun _ => Std.Refl.refl s) fun hopen => ?_
  refine wp_unless (fun _ => Std.Refl.refl s) fun hmax => ?_
  exact absurd (h.resolve_left fun hclosed => hopen ⟨hclosed, by decide⟩) hmax

theorem ack_of_stuck (h : Stuck s) (hop cryptoSequence : ℕ) (result : InputResult)
    (reason : Option InputReason) :
    (ack r hop cryptoSequence result reason).wp s (fun _ _ => False) (fun _ t => Grows s t) := by
  rw [ack, wp_bind, wp_onlyIf]
  have hemit : ∀ t : Session ρ, Still s t →
      (emit r (.ack hop cryptoSequence result reason) false false).wp t (fun _ _ => False)
        (fun _ t => Grows s t) := by
    intro t hst
    have ht : Stuck t := by
      unfold Stuck
      rw [hst.closed, hst.tx]
      exact h
    exact wp_mono (emit_of_stuck ht _ _) (fun _ _ h => h) fun _ _ htu => hst.grows.trans htu.grows
  refine ⟨fun _ => ?_, fun _ => hemit s (Std.Refl.refl s)⟩
  exact wp_mono (calm_rememberAck hop cryptoSequence result reason s) (fun _ t hst => hemit t hst)
    fun _ _ h => h.elim

/-- Frames of a part of the flush, added to its replies. -/
theorem collect_wp {α β : Type} {m : Op ρ α} (out : α → List Frame) {k : Unit → Op ρ β}
    {Q : β → Session ρ → Prop} {E : Fault → Session ρ → Prop}
    (hs : Collected base s) (hm : Sends Jammed [] out m) (haside : m.Always (Aside .running))
    (hE : ∀ e t, Grows s t → E e t)
    (hk : ∀ t, Grows s t → Collected base t → t.closed = s.closed → (k ()).wp t Q E) :
    (m >>= fun a => addReplies (out a) >>= k).wp s Q E := by
  refine wp_seq_mono (wp_and (hm s) (haside s)) (fun a t h => ?_) fun e t h => hE e t h.1.1
  obtain ⟨⟨hst, more, hmore, hframes⟩, haside⟩ := h
  rw [wp_bind, addReplies, wp_modify]
  refine hk _ (hst.trans (Still.grows (.unmoved rfl))) ?_ (haside.closed rfl)
  change t.frames = base ++ (t.replies ++ out a)
  rw [hframes, haside.replies, hs, append_assoc, hmore, nil_append]

theorem Sound.unclosed_of (h : Sound s) (hst : Grows s t) (hclosed : t.closed = false) :
    Unclosed t.frames :=
  (hst.sound h).unclosed hclosed

/-- After the guard: a session that is stuck raises, another one adds its answers. -/
theorem flushOutcome_wp (hs : Collected base s ∨ Stuck s) :
    (flushOutcome r p).wp s
      (fun goesOn t => Grows s t ∧ Collected base t ∧ (goesOn = true → t.closed = s.closed) ∧
        (Sound s → s.closed = false → Unclosed t.frames))
      (fun _ t => Grows s t) := by
  rw [flushOutcome, wp_bind, wp_get, wp_ite]
  rcases hs with hs | hstuck
  · refine ⟨fun _ => ?_, fun _ => ?_⟩
    · refine collect_wp (fun f => [f]) hs (sends_ack _ _ _ _) (aside_ack _ _ _ _) (fun _ _ h => h)
        fun t hst hcollected hclosed => ?_
      exact ⟨hst, hcollected, fun _ => hclosed, fun hsound hopen => hsound.unclosed_of hst (hclosed.trans hopen)⟩
    · refine collect_wp (fun f => [f]) hs (sends_ackUncertain p) (aside_ack _ _ _ _) (fun _ _ h => h)
        fun u hsu hcollected hclosed => ?_
      refine collect_wp id hcollected sends_drain aside_drain (fun _ _ h => hsu.trans h)
        fun w huw hcollected hclosed' => ?_
      rw [wp_bind, wp_discard]
      refine wp_mono (wp_and (close_grows w) (close_replies w)) (fun _ x h => ?_) fun _ _ h => h.1.elim
      obtain ⟨⟨hwx, hframes, _⟩, hreplies⟩ := h
      refine ⟨(hsu.trans huw).trans hwx, ?_, (absurd · Bool.false_ne_true), fun hsound hopen => ?_⟩
      · unfold Collected
        rw [hframes, hreplies]
        exact hcollected
      · rw [hframes]
        exact hsound.unclosed_of (hsu.trans huw) (hclosed'.trans (hclosed.trans hopen))
  · refine ⟨fun _ => ?_, fun _ => ?_⟩
    · exact wp_seq (ack_of_stuck hstuck _ _ _ _) fun _ _ h => h.elim
    · exact wp_seq (ack_of_stuck hstuck _ _ _ _) fun _ _ h => h.elim

/-- The whole loop, by induction on the queue. -/
theorem flushFrom_wp (queue : List PendingInput) (hs : Collected base s) :
    (flushFrom cfg r queue).wp s
      (fun _ t => Grows s t ∧ Collected base t ∧
        (queue = [] ∨ GoesOn r → Sound s → s.closed = false → Unclosed t.frames))
      (fun _ t => Grows s t) := by
  induction queue generalizing s with
  | nil => exact ⟨.refl s, hs, fun _ hsound hopen => hsound.unclosed hopen⟩
  | cons p rest ih =>
    rw [flushFrom, wp_bind, wp_modify, wp_bind]
    have hreset : Along s { s with written := false } := ⟨.unmoved rfl, rfl⟩
    refine wp_mono (flushTurn_wp p (hreset.collected hs)) (fun returns t h => ?_) fun _ _ h =>
      hreset.grows.trans h
    obtain ⟨hst, hcollected, hclosed⟩ := h
    have hst := hreset.grows.trans hst
    have hgoes : p :: rest = [] ∨ GoesOn r → GoesOn r := fun h => h.resolve_left (cons_ne_nil _ _)
    rw [wp_ite]
    refine ⟨fun hreturns => ⟨hst, ?_, fun h hsound hopen => ?_⟩, fun _ => ?_⟩
    · refine hcollected.resolve_right fun h => ?_
      rw [hreturns] at h
      cases h.1
    · exact hsound.unclosed_of hst ((hclosed (hgoes h)).trans hopen)
    · refine wp_seq_mono (flushOutcome_wp p (hcollected.imp_right And.right)) (fun goesOn u h => ?_)
        fun _ _ h => hst.trans h
      obtain ⟨htu, hcollected, hopen', hunclosed⟩ := h
      rw [wp_ite]
      refine ⟨fun hon => ?_, fun _ => ⟨hst.trans htu, hcollected, fun h hsound hopen => ?_⟩⟩
      · refine wp_mono (ih hcollected) (fun _ v h => ?_) fun _ _ h => (hst.trans htu).trans h
        obtain ⟨huv, hcollected, hunclosed⟩ := h
        refine ⟨(hst.trans htu).trans huv, hcollected, fun h hsound hopen => ?_⟩
        refine hunclosed (.inr (hgoes h)) ((hst.trans htu).sound hsound) ?_
        exact (hopen' hon).trans ((hclosed (hgoes h)).trans hopen)
      · exact hunclosed (hst.sound hsound) ((hclosed (hgoes h)).trans hopen)

theorem flushInput_wp (s : Session ρ) :
    (flushInput cfg r).wp s
      (fun fs t => s.closed = false ∧ Grows s t ∧ t.frames = s.frames ++ fs ∧
        (s.input = [] ∨ GoesOn r → Sound s → Unclosed t.frames))
      (fun _ t => Grows s t ∧ t.closed = true) := by
  rw [flushInput, wp_tryCatch, wp_bind, wp_modify, wp_bind]
  have hreset : Grows s { s with replies := [] } := Still.grows (.unmoved rfl)
  have hraise : ∀ {Q : List Frame → Session ρ → Prop} (e : Fault) (t : Session ρ), Grows s t →
      (closeAndReraise r e : Op ρ (List Frame)).wp t Q fun _ t => Grows s t ∧ t.closed = true :=
    fun e t hst => wp_mono (closeAndReraise_wp e t) (fun _ _ h => h.elim) fun _ _ h => ⟨hst.trans h.1, h.2⟩
  refine wp_mono (open_of_check true true _) (fun _ t h => ?_) fun e t h =>
    hraise e t (hreset.trans h.still.grows)
  obtain ⟨hopen, hst⟩ := h
  have hopen : s.closed = false := hopen
  have hgrows := hreset.trans hst.still.grows
  have hinput : t.input = s.input := hst.idle.input
  have hclosed : t.closed = s.closed := hst.still.closed
  have hcollected : Collected s.frames t := hst.along.collected (append_nil _).symm
  rw [wp_bind, wp_get, wp_bind, hinput]
  refine wp_mono (flushFrom_wp s.input hcollected) (fun _ u h => ?_) fun e u h => hraise e u (hgrows.trans h)
  obtain ⟨htu, hcollected, hunclosed⟩ := h
  rw [wp_bind, wp_get, wp_pure]
  refine ⟨hopen, hgrows.trans htu, hcollected, fun h hsound => ?_⟩
  exact hunclosed h (hgrows.sound hsound) (hclosed.trans hopen)

/-- The answer to a `DETACH` comes from a closed session. -/
theorem emit_cleanup_wp (message : Message) (s : Session ρ) :
    (emit r message true false).wp s
      (fun f t => f = ⟨s.tx, message⟩ ∧ t = s.emitted message false) (fun _ t => Still s t) := by
  rw [emit, wp_bind, wp_get]
  refine wp_unless (fun _ => Std.Refl.refl s) fun _ => ?_
  refine wp_unless (fun _ => Std.Refl.refl s) fun _ => ?_
  rw [wp_bind, ask, wp_bind, wp_get, wp_bind, wp_modify, wp_pure]
  refine wp_unless (fun _ => .unmoved rfl) fun _ => ?_
  rw [wp_bind, wp_modify, wp_pure]
  exact ⟨rfl, rfl⟩

/-- The last frame of a session that had none that closes it. -/
theorem grows_detach (hst : Grows s t) (hopen : s.closed = false) (hclosed : t.closed = true)
    (hunclosed : Sound s → Unclosed t.frames) (raw : ρ) (hop : ℕ) (confirmed : Bool) (now : ℚ) :
    Grows s { t.emitted (.detachAck hop confirmed) false with
      detach := some (raw, ⟨t.tx, .detachAck hop confirmed⟩), detachAt := now } := by
  have hframes := frames_emitted t (.detachAck hop confirmed) false
  refine ⟨fun hs => ⟨?_, ?_, ?_, fun h => ?_⟩, fun h => ?_, ?_, ?_, fun h p hp => ?_, fun _ p hp => ?_,
    hst.commitRetried, hst.detachRetried⟩
  · change t.tx + 1 = (t.emitted _ _).frames.length + 1
    rw [hframes, length_append, (hst.sound hs).next]
    rfl
  · change Numbered (t.emitted _ _).frames
    rw [hframes, (hst.sound hs).next]
    exact (hst.sound hs).numbered.concat _
  · change ClosesOnce (t.emitted _ _).frames
    rw [hframes]
    exact (hunclosed hs).closesOnce_concat _
  · change t.closed = false at h
    rw [hclosed] at h
    cases h
  · rw [hopen] at h
    cases h
  · change s.frames <+: (t.emitted _ _).frames
    rw [hframes]
    exact hst.isPrefix.trans (prefix_append _ _)
  · change t.tx + 1 + s.frames.length = s.tx + (t.emitted _ _).frames.length
    have := hst.count
    rw [hframes, length_append, length_singleton]
    omega
  · change p.2 ∈ (t.emitted _ _).frames ∧ _
    rw [hframes]
    exact ⟨mem_append_left _ (hst.commit h p hp).1, (hst.commit h p hp).2⟩
  · obtain rfl := Option.some.inj hp
    change _ ∈ (t.emitted _ _).frames ∧ _
    rw [hframes]
    exact ⟨mem_append_right _ (mem_singleton_self _), rfl⟩

/-- What `Sends` says of one state. -/
def SendsAt {α : Type} (out : α → List Frame) (s : Session ρ) (m : Op ρ α) : Prop :=
  m.wp s (fun a t => Grows s t ∧ t.frames = s.frames ++ out a) (fun _ t => Grows s t)

theorem Sends.at {E : Fault → Session ρ → Prop} (h : Sends E [] out m) (s : Session ρ) :
    SendsAt out s m := by
  refine wp_mono (h s) (fun a t h => ?_) fun _ _ h => h.1
  obtain ⟨hst, more, hout, hframes⟩ := h
  rw [hout]
  exact ⟨hst, hframes⟩

theorem sendsAt_after {β : Type} {out : β → List Frame} {k : α → Op ρ β} (hm : m.Always Idle)
    (hk : ∀ a t, Idle s t → SendsAt out t (k a)) : SendsAt out s (m >>= k) := by
  unfold SendsAt
  refine wp_seq_mono (hm s) (fun a t hst => ?_) fun _ _ h => h.toStill.grows
  refine wp_mono (hk a t hst) (fun b u htu => ⟨hst.grows.trans htu.1, ?_⟩) fun _ _ h => hst.grows.trans h
  rw [htu.2, hst.frames]

theorem sendsAt_receiveDetach (h : s.input = [] ∨ GoesOn r) (raw : ρ) (hop : ℕ) (now : ℚ) :
    SendsAt id s (receiveDetach cfg r raw hop now) := by
  unfold SendsAt
  rw [receiveDetach]
  refine wp_seq_mono (flushInput_wp s) (fun fs t hst => ?_) fun _ _ h => h.1
  obtain ⟨hopen, hst, hframes, hunclosed⟩ := hst
  refine wp_seq_mono (close_grows t) (fun confirmed u htu => ?_) fun _ _ h => h.elim
  obtain ⟨htu, hsame, hclosed⟩ := htu
  have hsu := hst.trans htu
  refine wp_seq_mono (emit_cleanup_wp _ u) (fun f v huv => ?_) fun _ _ h => hsu.trans h.grows
  obtain ⟨rfl, rfl⟩ := huv
  rw [wp_bind, wp_modify, wp_pure]
  refine ⟨grows_detach hsu hopen hclosed (fun hsound => ?_) raw hop confirmed now, ?_⟩
  · rw [hsame]
    exact hunclosed h hsound
  · change (u.emitted _ _).frames = s.frames ++ (fs ++ _)
    rw [frames_emitted, hsame, hframes, append_assoc]

/-- A `DETACH` finds an empty queue or a process with which the session goes on. -/
def DetachesIdle (r : ℕ → Reply) (s : Session ρ) (frame : Option Incoming) : Prop :=
  ∀ hop attachmentId leaseNumber, frame = some ⟨hop, .detach attachmentId leaseNumber⟩ →
    s.input = [] ∨ GoesOn r

theorem sendsAt_active {frame : Incoming} (now : ℚ) (h : DetachesIdle r s (some frame)) :
    SendsAt id s (active cfg r raw frame now) := by
  obtain ⟨hop, request⟩ := frame
  cases request with
  | input => exact (sends_receiveInput hop now).at s
  | heartbeat attachmentId leaseNumber tick =>
    exact Sends.at (sends_raiseIf fun _ => sends_receiveHeartbeat tick now) s
  | ping nonce tick =>
    exact (sends_spendControl (sends_frame rfl fun _ => sends_pure rfl)).at s
  | pong nonce tick => exact (sends_spendControl (sends_receivePong nonce tick now)).at s
  | resize attachmentId leaseNumber columns rows =>
    exact Sends.at (sends_raiseIf fun _ => sends_receiveResize hop columns rows) s
  | detach attachmentId leaseNumber =>
    refine sendsAt_after (always_raiseIf _ _) fun _ t hst => sendsAt_receiveDetach ?_ raw hop now
    rw [hst.input]
    exact h hop attachmentId leaseNumber rfl
  | keyInit | keyConfirm | streamReady | admissionCommit | close | other => exact .refl s

theorem sendsAt_receiveFrame (now : ℚ) (h : DetachesIdle r s (cfg.decode raw)) :
    SendsAt id s (receiveFrame cfg r raw now) := by
  unfold receiveFrame
  split
  · exact .refl s
  · next frame hframe =>
    rw [hframe] at h
    refine sendsAt_after always_get fun _ t hst => sendsAt_after (always_raiseIf _ _) fun _ u htu => ?_
    refine sendsAt_after (always_modify fun _ => ⟨.unmoved rfl, rfl⟩) fun _ v huv => ?_
    split
    · exact Sends.at (E := Anyhow) (sends_bind sends_close fun _ => sends_pure rfl) v
    · exact (sends_keyReply rfl _).at v
    · exact (sends_keyReply rfl _).at v
    · exact sends_streamReady.at v
    · exact (sends_admissionCommit raw _ now).at v
    · refine sendsAt_after ((asks_discard_check true true).mono fun _ _ h => h.idle) fun _ w hvw => ?_
      refine sendsAt_active now fun hop attachmentId leaseNumber hdetach => ?_
      rw [hvw.input, huv.input, htu.input, hst.input]
      exact h hop attachmentId leaseNumber hdetach

/-! ## Resends -/

/-- What a call returned: the new frames, all of them, or one of the two answers for the second time. -/
def Delivers (s t : Session ρ) : Returned → Prop
  | .sent frames => t.frames = s.frames ++ frames
  | .resent f => t.frames = s.frames ∧
      ((∃ raw, s.commit = some (raw, f)) ∧ s.commitRetried = false ∧ t.commitRetried = true ∨
        (∃ raw, s.detach = some (raw, f)) ∧ s.detachRetried = false ∧ t.detachRetried = true)

theorem retryCommit_wp {f : Frame} (hcommit : s.commit = some (raw, f)) (now : ℚ) :
    (retryCommit cfg r f now).wp s (fun out t => Grows s t ∧ Delivers s t out) (fun _ t => Grows s t) := by
  rw [retryCommit, wp_bind, wp_get]
  refine wp_unless (fun _ => .refl s) fun hfirst => ?_
  have hretried : s.commitRetried = false := Bool.eq_false_iff.mpr fun h => hfirst (.inl h)
  rw [guarded]
  refine wp_seq_mono (asks_ask s) (fun a t hst => ?_) fun _ _ h => h.still.grows
  refine wp_lift (fun e _ => ?_) fun _ _ => hst.still.grows
  have hgrows : Grows s { t with commitRetried := true } := hst.still.grows.trans
    ⟨fun h => ⟨h.next, h.numbered, h.once, h.unclosed⟩, fun h => ⟨h, rfl⟩, prefix_rfl, rfl, id, id,
      fun _ => rfl, id⟩
  rw [wp_bind, wp_bind, wp_modify, wp_pure]
  refine wp_lift (fun _ _ => ⟨hgrows, hst.still.frames, .inl ⟨⟨raw, hcommit⟩, hretried, rfl⟩⟩) fun _ _ => hgrows

theorem delivers_sent {m : Op ρ (List Frame)} (h : SendsAt id s m) :
    (do
      let frames ← m
      return Returned.sent frames).wp s (fun out t => Grows s t ∧ Delivers s t out)
      (fun _ t => Grows s t) := by
  exact wp_seq h fun _ _ h => h

/-- What holds after replies have been asked for holds from the start. -/
theorem Asks.delivers {u : Session ρ} {out : Returned} (hst : Asks s t)
    (h : Grows t u ∧ Delivers t u out) : Grows s u ∧ Delivers s u out := by
  obtain ⟨n, rfl⟩ := hst
  have hasked : Grows s { s with asked := n } := (Asks.still ⟨n, rfl⟩).grows
  refine ⟨hasked.trans h.1, ?_⟩
  cases out with
  | sent | resent => exact h.2

variable [DecidableEq ρ]

theorem receiveOpen_wp (now : ℚ) (h : DetachesIdle r s (cfg.decode raw)) :
    (receiveOpen cfg r raw now).wp s (fun out t => Grows s t ∧ Delivers s t out)
      (fun _ t => Grows s t) := by
  rw [receiveOpen]
  refine wp_seq_mono (asks_discard_check false true s) (fun _ t hst => ?_) fun _ _ h => h.still.grows
  rw [wp_bind, wp_get]
  split
  · next q reply hq =>
    obtain ⟨hcommit, _⟩ := Option.filter_eq_some_iff.mp hq
    exact wp_mono (retryCommit_wp hcommit now) (fun _ _ h => hst.delivers h) fun _ _ h =>
      hst.still.grows.trans h
  · refine wp_mono (delivers_sent (sendsAt_receiveFrame now fun hop id lease hd => ?_))
      (fun _ _ h => hst.delivers h) fun _ _ h => hst.still.grows.trans h
    rw [hst.idle.input]
    exact h hop id lease hd

theorem receive_wp (h : DetachesIdle r s (cfg.decode raw)) :
    (receive cfg r raw).wp s (fun out t => Grows s t ∧ Delivers s t out)
      (fun _ t => Grows s t ∧ t.closed = true) := by
  rw [receive, wp_tryCatch]
  have hraise : ∀ {Q : Returned → Session ρ → Prop} (e : Fault) (t : Session ρ), Grows s t →
      (closeAndRaise r e : Op ρ Returned).wp t Q fun _ t => Grows s t ∧ t.closed = true :=
    fun e t hst => wp_mono (closeAndRaise_wp e t) (fun _ _ h => h.elim) fun _ _ h => ⟨hst.trans h.1, h.2⟩
  refine wp_seq_mono (asks_ask s) (fun a t hst => ?_) fun e t h => hraise e t h.still.grows
  refine wp_lift (fun now _ => ?_) fun e _ => hraise e t hst.still.grows
  rw [wp_bind, wp_get]
  split
  · next q reply hq =>
    obtain ⟨hdetach, hfirst⟩ := Option.filter_eq_some_iff.mp hq
    have hretried : t.detachRetried = false := (of_decide_eq_true hfirst).2.1
    rw [wp_bind, wp_modify, wp_pure]
    refine hst.delivers ⟨⟨fun h => ⟨h.next, h.numbered, h.once, h.unclosed⟩, fun h => ⟨h, rfl⟩,
      prefix_rfl, rfl, id, id, id, fun _ => rfl⟩, rfl, .inr ⟨⟨q, hdetach⟩, hretried, rfl⟩⟩
  · refine wp_mono (receiveOpen_wp now fun hop id lease hd => ?_) (fun _ _ h => hst.delivers h) fun e u h =>
      hraise e u (hst.still.grows.trans h)
    rw [hst.idle.input]
    exact h hop id lease hd

end

/-! ## Runs -/

/-- The condition on a call: the guard of `hello_ack` does not fail after its body, and a `DETACH` finds
no queued input or a process with which the session goes on. -/
def Tame (cfg : Config ρ) (s : Session ρ) (c : Call ρ) : Prop :=
  match c.action with
  | .helloAck => ∀ i, (c.replies i).leave = .ok ()
  | .receive raw => DetachesIdle c.replies s (cfg.decode raw)
  | _ => True

/-- A call returns all the frames it has numbered. When it raises, the session is closed, or no frame has
been numbered. -/
theorem perform_wp [DecidableEq ρ] (h : Tame cfg s c) :
    (perform cfg c).wp s (fun out t => Grows s t ∧ Delivers s t out)
      (fun _ t => Grows s t ∧ (t.closed = true ∨ t.frames = s.frames)) := by
  rw [perform, wp_bind, wp_modify]
  have hasked : Asks s { s with asked := 0 } := ⟨0, rfl⟩
  have hclosing : ∀ {m : Op ρ (List Frame)}, Sends Closed [] id m →
      (Returned.sent <$> m).wp { s with asked := 0 } (fun out t => Grows s t ∧ Delivers s t out)
        (fun _ t => Grows s t ∧ (t.closed = true ∨ t.frames = s.frames)) := by
    intro m hm
    rw [wp_map]
    refine wp_mono (wp_and (hm.at _) (hm _)) (fun fs t h => hasked.delivers h.1) fun _ t h =>
      ⟨hasked.still.grows.trans h.1, .inl h.2.2⟩
  have hending : ∀ {α : Type} {out : α → List Frame} {m : Op ρ α}, EndsWith out m →
      ((fun a => Returned.sent (out a)) <$> m).wp { s with asked := 0 }
        (fun out t => Grows s t ∧ Delivers s t out)
        (fun _ t => Grows s t ∧ (t.closed = true ∨ t.frames = s.frames)) := by
    intro α out m hm
    rw [wp_map]
    refine wp_mono (hm _) (fun a t h => hasked.delivers h) fun _ t h => ?_
    exact ⟨hasked.still.grows.trans h.grows, .inr h.frames⟩
  unfold Tame at h
  cases haction : c.action with
  | helloAck =>
    rw [haction] at h
    exact hending (endsWith_helloAck h)
  | receive raw =>
    rw [haction] at h
    exact wp_mono (receive_wp fun hop id lease hd => h hop id lease hd) (fun _ _ h => hasked.delivers h)
      fun _ _ h => ⟨hasked.still.grows.trans h.1, .inl h.2⟩
  | flushInput =>
    dsimp only
    rw [wp_map]
    refine wp_mono (flushInput_wp _) (fun fs t h => hasked.delivers ⟨h.2.1, h.2.2.1⟩) fun _ t h => ?_
    exact ⟨hasked.still.grows.trans h.1, .inl h.2⟩
  | output => exact hclosing sends_output
  | tick => exact hclosing sends_tick
  | ping => exact hending endsWith_ping
  | replayInputResult hop cryptoSequence => exact hending (endsWith_replayInputResult hop cryptoSequence)

/-- What is kept throughout a run. -/
structure Kept (t : Run ρ) : Prop where
  sound : Sound t.session
  complete : t.session.closed = false → t.sent = t.session.frames
  isPrefix : t.sent <+: t.session.frames
  commit : Answers t.session.frames Message.isCommitAck t.session.commit
  detach : Answers t.session.frames Message.isDetachAck t.session.detach
  resent : ∀ f ∈ t.resent, f ∈ t.session.frames ∧ (f.message.isCommitAck ∨ f.message.isDetachAck)
  commitOnce : t.resent.countP (·.message.isCommitAck) ≤ t.session.commitRetried.toNat
  detachOnce : t.resent.countP (·.message.isDetachAck) ≤ t.session.detachRetried.toNat

theorem toNat_le_toNat {a b : Bool} (h : a = true → b = true) : a.toNat ≤ b.toNat := by
  cases a with
  | false => exact Nat.zero_le _
  | true => rw [h rfl]

variable {m : Message}

theorem Message.not_both_acks (h : m.isCommitAck = true) (h' : m.isDetachAck = true) : False := by
  cases m <;> cases h <;> cases h'

/-- An answer is sent again once, and then remembered. -/
theorem countP_resend {resent : List Frame} {f : Frame} {isKind : Frame → Bool} {before after : Bool}
    (h : resent.countP isKind ≤ before.toNat) (hmono : before = true → after = true)
    (hkind : isKind f = true → before = false ∧ after = true) :
    (resent ++ [f]).countP isKind ≤ after.toNat := by
  rw [countP_append, countP_singleton]
  split
  · next hf =>
    obtain ⟨rfl, rfl⟩ := hkind hf
    rw [Nat.le_zero.mp h]
    decide
  · exact h.trans (toNat_le_toNat hmono)

/-- What a call leaves as it is, whatever it returns. -/
theorem Kept.of_grows (h : Kept t) (hgrows : Grows t.session u) {sent : List Frame}
    (hcomplete : u.closed = false → sent = u.frames) (hsent : sent <+: u.frames) :
    Kept { t with session := u, sent := sent } where
  sound := hgrows.sound h.sound
  complete := hcomplete
  isPrefix := hsent
  commit := hgrows.commit h.commit
  detach := hgrows.detach h.detach
  resent := fun f hf => ⟨hgrows.isPrefix.subset (h.resent f hf).1, (h.resent f hf).2⟩
  commitOnce := h.commitOnce.trans (toNat_le_toNat hgrows.commitRetried)
  detachOnce := h.detachOnce.trans (toNat_le_toNat hgrows.detachRetried)

/-- A session that is open has been open before. -/
theorem Grows.open_before {t : Session ρ} (h : Grows s t) (hopen : t.closed = false) :
    s.closed = false := by
  refine Bool.eq_false_iff.mpr fun hclosed => ?_
  rw [(h.closed hclosed).1] at hopen
  cases hopen

theorem Kept.sent (h : Kept t) {frames : List Frame} (hgrows : Grows t.session u)
    (hframes : u.frames = t.session.frames ++ frames) :
    Kept { t with session := u, sent := t.sent ++ frames } := by
  refine h.of_grows hgrows (fun hopen => ?_) ?_
  · rw [hframes, h.complete (hgrows.open_before hopen)]
  · cases hclosed : t.session.closed with
    | false =>
      rw [hframes, h.complete hclosed]
    | true =>
      have hnone : frames = [] := by
        rw [(hgrows.closed hclosed).2] at hframes
        exact self_eq_append_right.mp hframes
      rw [hnone, append_nil]
      exact h.isPrefix.trans hgrows.isPrefix

theorem Kept.resend (h : Kept t) {f : Frame} (hgrows : Grows t.session u)
    (hdelivers : Delivers t.session u (.resent f)) :
    Kept { t with session := u, resent := t.resent ++ [f] } := by
  obtain ⟨hframes, hkind⟩ := hdelivers
  have hkept : Kept { t with session := u } := by
    refine h.of_grows hgrows (fun hopen => ?_) (h.isPrefix.trans hgrows.isPrefix)
    rw [hframes, h.complete (hgrows.open_before hopen)]
  have hmem : f ∈ u.frames ∧ (f.message.isCommitAck ∨ f.message.isDetachAck) := by
    rw [hframes]
    rcases hkind with ⟨⟨raw, hcommit⟩, _⟩ | ⟨⟨raw, hdetach⟩, _⟩
    · exact ⟨(h.commit _ hcommit).1, .inl (h.commit _ hcommit).2⟩
    · exact ⟨(h.detach _ hdetach).1, .inr (h.detach _ hdetach).2⟩
  refine ⟨hkept.sound, hkept.complete, hkept.isPrefix, hkept.commit, hkept.detach, fun g hg => ?_, ?_, ?_⟩
  · rcases mem_append.mp hg with hg | hg
    · exact hkept.resent g hg
    · rw [mem_singleton.mp hg]
      exact hmem
  · refine countP_resend h.commitOnce hgrows.commitRetried fun hack => ?_
    rcases hkind with ⟨_, hfirst, hretried⟩ | ⟨⟨raw, hdetach⟩, _⟩
    · exact ⟨hfirst, hretried⟩
    · exact (Message.not_both_acks hack (h.detach _ hdetach).2).elim
  · refine countP_resend h.detachOnce hgrows.detachRetried fun hack => ?_
    rcases hkind with ⟨⟨raw, hcommit⟩, _⟩ | ⟨_, hfirst, hretried⟩
    · exact (Message.not_both_acks (h.commit _ hcommit).2 hack).elim
    · exact ⟨hfirst, hretried⟩

/-- The step lemma. -/
theorem kept_step [DecidableEq ρ] (h : Kept t) (htame : Tame cfg t.session c) :
    Kept (t.step cfg c) := by
  have hcall := perform_wp htame
  unfold wp at hcall
  unfold Run.step
  rcases hperform : (perform cfg c).call t.session with ⟨e | out, u⟩ <;> rw [hperform] at hcall
  · obtain ⟨hgrows, hend⟩ := hcall
    refine h.of_grows hgrows (fun hopen => ?_) (h.isPrefix.trans hgrows.isPrefix)
    rw [h.complete (hgrows.open_before hopen)]
    refine (hend.resolve_left fun hclosed => ?_).symm
    rw [hclosed] at hopen
    cases hopen
  · cases out with
    | sent frames => exact h.sent hcall.1 hcall.2
    | resent f => exact h.resend hcall.1 hcall.2

theorem kept_initial (now : ℚ) : Kept (⟨.initial ρ now, [], []⟩ : Run ρ) where
  sound := ⟨rfl, rfl, fun _ h => absurd h not_mem_nil, fun _ _ h => absurd h not_mem_nil⟩
  complete := fun _ => rfl
  isPrefix := prefix_rfl
  commit := nofun
  detach := nofun
  resent := fun _ h => absurd h not_mem_nil
  commitOnce := Nat.le_refl 0
  detachOnce := Nat.le_refl 0

/-- The frames a session has returned: numbered 1, 2, 3, ..., with `CLOSE` at most once and as the last. The
two answers that may be sent again are so at most once, and unchanged. -/
structure Transmits (t : Run ρ) : Prop where
  numbered : Numbered t.sent
  once : ClosesOnce t.sent
  identical : ∀ f ∈ t.resent, f ∈ t.session.frames ∧ (f.message.isCommitAck ∨ f.message.isDetachAck)
  commitOnce : t.resent.countP (·.message.isCommitAck) ≤ 1
  detachOnce : t.resent.countP (·.message.isDetachAck) ≤ 1

theorem Kept.transmits (h : Kept t) : Transmits t where
  numbered := h.sound.numbered.of_prefix h.isPrefix
  once := h.sound.once.of_prefix h.isPrefix
  identical := h.resent
  commitOnce := h.commitOnce.trans (Bool.toNat_le _)
  detachOnce := h.detachOnce.trans (Bool.toNat_le _)

/-- In every run of tame calls, whatever the supervisor does, the frames are transmitted in order. -/
theorem transmits_of_tame [DecidableEq ρ] (cfg : Config ρ) (now : ℚ) (calls : List (Call ρ)) (i : ℕ)
    (h : ∀ k < i, ∀ c, calls[k]? = some c → Tame cfg (Run.reached cfg now calls k).session c) :
    Transmits (Run.reached cfg now calls i) := by
  have hkept : Kept (Run.reached cfg now calls i) :=
    invariant_run (kept_initial now) fun k hk c hc hkept => kept_step hkept (h k hk c hc)
  exact hkept.transmits

namespace Sample

/-- The API's frames as they are. -/
def config : Config Incoming := ⟨"wsa", "1", 0, 1000, some⟩

/-- A reply with which everything goes well. -/
def fine : Reply where
  now := some 1
  clock := 1
  peer := true
  current := true
  enter := .ok ⟨.running, none⟩
  leave := .ok ()
  done := .ok ()
  supervisorState := .running
  encodes := true
  plaintext := some ([104, 105], 1)
  room := true
  selection := .ok (none, [])
  token := "fence"
  cleaned := true

def call (action : Action Incoming) (reply : Reply) : Call Incoming := ⟨action, fun _ => reply⟩

def receive (hop : ℕ) (request : Request) (reply : Reply) : Call Incoming :=
  call (.receive ⟨hop, request⟩) reply

/-- The handshake and one input. -/
def opening : List (Call Incoming) :=
  [call .helloAck fine, receive 2 .keyInit fine, receive 3 .keyConfirm fine, receive 4 .streamReady fine,
   receive 5 (.admissionCommit "fence") fine, receive 6 .input fine]

/-- The process has ended. -/
def exited : Reply := { fine with enter := .ok ⟨.exited, some 0⟩ }

/-- The lease ends while the guard's body runs. -/
def lapsed : Reply := { fine with leave := .error (.operation true) }

def detach : Request := .detach "wsa" "1"

end Sample

theorem Sample.fine_of_mem {more : List (Call Incoming)} {c : Call Incoming} (hc : c ∈ opening ++ more)
    (hmore : ∀ c ∈ more, ∃ action, c = call action fine) : ∃ action, c = call action fine := by
  refine (mem_append.mp hc).elim (fun hc => ?_) (hmore c)
  simp only [opening, mem_cons, not_mem_nil, or_false] at hc
  rcases hc with rfl | rfl | rfl | rfl | rfl | rfl <;> exact ⟨_, rfl⟩

/-- Calls with which everything goes well are tame. -/
theorem Sample.tame_fine (s : Session Incoming) (action : Action Incoming) :
    Tame config s (call action fine) := by
  cases action with
  | helloAck => exact fun _ => rfl
  | receive raw =>
    refine fun _ _ _ _ => .inr fun _ e he => ?_
    obtain rfl := Except.ok.inj he
    rfl
  | _ => trivial

open Sample

/-- A `DETACH` with an input in the queue of a running process. -/
theorem transmits_of_tame_detach :
    Transmits (Run.reached config 0
      (opening ++ [Sample.receive 7 detach fine]) 7) := by
  refine transmits_of_tame _ _ _ _ fun k _ c hc => ?_
  obtain ⟨action, rfl⟩ := fine_of_mem (mem_of_getElem? hc) fun c hc =>
    ⟨_, mem_singleton.mp hc⟩
  exact tame_fine _ action

/-- With an input in the queue of a process that has ended, the answer to `DETACH` follows `CLOSE`. And a
`hello_ack` whose guard fails at its end leaves the next frame with number 2. -/
theorem detach_answered_after_close :
    ¬ Transmits (Run.reached config 0
        (opening ++ [Sample.receive 7 detach exited]) 7) ∧
      ¬ Transmits (Run.reached config 0
        [call .helloAck lapsed, Sample.receive 2 .keyInit fine] 2) := by
  refine ⟨fun h => ?_, fun h => ?_⟩
  · -- the frames are ACK, EXIT, CLOSE and DETACH_ACK after those of the handshake and the accepted input
    refine absurd h.once ?_
    unfold ClosesOnce Unclosed
    decide +kernel
  · refine absurd h.numbered ?_
    unfold Numbered
    decide +kernel

end AgentBox.Stream.Attachment
