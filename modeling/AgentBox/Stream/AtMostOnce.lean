import AgentBox.Stream.Delivery

/-!
# Input is delivered at most once

Every method keeps the queue of an attachment in order, and so does every run, with one exception. In a turn
of `flush_input`, if the process needs interaction, the queue is drained and each input acknowledged; if the
guard then fails at its end, the handler goes on with the input it began with and acknowledges it again.
-/

namespace AgentBox.Stream.Attachment

open List Method

variable {ρ : Type}

section
variable {cfg : Config ρ} {r : ℕ → Reply} {α : Type} {m : Op ρ α} {s t : Session ρ} {hop : ℕ}
  {body : RuntimeProbeEvidence → Op ρ α} {p : PendingInput} {raw : ρ}

/-! ## Methods -/

/-- A method keeps what holds between two calls; when it raises, the log is still in order. -/
def Keeping {α : Type} (m : Op ρ α) : Prop :=
  ∀ s, Settled s → m.wp s (fun _ t => Settled t) (fun _ t => Delivered t.log)

theorem keeping_of_aloof (h : m.Always Aloof) : Keeping m := fun s hs =>
  wp_mono (h s) (fun _ _ hst => hst.settled hs) fun _ _ hst => hst.delivered hs.delivered

theorem keeping_bind {β : Type} {k : α → Op ρ β} (hm : Keeping m) (hk : ∀ a, Keeping (k a)) :
    Keeping (m >>= k) := by
  intro s hs
  exact wp_seq (hm s hs) fun a t ht => hk a t ht

theorem keeping_ite {c : Prop} [Decidable c] {n : Op ρ α} (hm : c → Keeping m)
    (hn : ¬ c → Keeping n) : Keeping (if c then m else n) := by
  split
  · next hc => exact hm hc
  · next hc => exact hn hc

theorem keeping_guarded (h : ∀ e, Keeping (body e)) : Keeping (guarded r body) :=
  keeping_bind (keeping_of_aloof aloof_ask) fun _ => keeping_bind (keeping_of_aloof (always_liftExcept _))
    fun e => keeping_bind (h e) fun _ => keeping_bind (keeping_of_aloof (always_liftExcept _))
      fun _ => keeping_of_aloof (always_pure _)

/-- Closing settles a session whose log is in order. -/
theorem close_settles (h : Delivered s.log) : (close r).wp s (fun _ t => Settled t) (fun _ _ => False) := by
  exact wp_mono (wp_and (aloof_close s) (close_grows s))
    (fun _ t hst => .of_closed (hst.1.delivered h) hst.2.2.2) fun _ _ h => h.2

/-- A method leaves a settled session, also when it raises. -/
def Settling {α : Type} (m : Op ρ α) : Prop :=
  ∀ s, Settled s → m.wp s (fun _ t => Settled t) (fun _ t => Settled t)

theorem settling_closeAndRaise (h : Keeping m) : Settling (tryCatch m (closeAndRaise r)) := by
  intro s hs
  rw [wp_tryCatch]
  refine wp_mono (h s hs) (fun _ _ h => h) fun e t ht => ?_
  rw [closeAndRaise, wp_bind, wp_discard]
  exact wp_mono (close_settles ht) (fun _ _ h => h) fun _ _ h => h.elim

theorem settling_closeAndReraise (h : Keeping m) : Settling (tryCatch m (closeAndReraise r)) := by
  intro s hs
  rw [wp_tryCatch]
  refine wp_mono (h s hs) (fun _ _ h => h) fun e t ht => ?_
  rw [closeAndReraise, wp_bind, wp_discard]
  exact wp_mono (close_settles ht) (fun _ _ h => h) fun _ _ h => h.elim

theorem settling_of_aloof (h : m.Always Aloof) : Settling m := fun s hs =>
  wp_mono (h s) (fun _ _ hst => hst.settled hs) fun _ _ hst => hst.settled hs

theorem Settling.keeping (h : Settling m) : Keeping m := fun s hs =>
  wp_mono (h s hs) (fun _ _ h => h) fun _ _ h => h.delivered

/-- After a check the session is open. -/
theorem checked_wp {β : Type} {n : Op ρ β} {k : β → Op ρ α} {Q : α → Session ρ → Prop}
    (hn : n.wp s (fun _ t => s.closed = false ∧ Asks s t) fun _ t => Asks s t) (hs : Settled s)
    (hk : ∀ b t, Settled t → t.closed = false → (k b).wp t Q fun _ u => Delivered u.log) :
    (n >>= k).wp s Q fun _ t => Delivered t.log :=
  wp_seq_mono hn (fun b t h => hk b t (h.2.aloof.settled hs) (h.2.still.closed.trans h.1))
    fun _ _ h => h.aloof.delivered hs.delivered

theorem settling_flushInput (hpatient : Patient r) : Settling (flushInput cfg r : Op ρ (List Frame)) := by
  refine settling_closeAndReraise ?_
  refine keeping_bind (keeping_of_aloof (aloof_modify fun _ => ⟨rfl, rfl⟩)) fun _ => ?_
  intro s hs
  refine checked_wp (open_of_check true true s) hs fun _ t ht hopen => ?_
  rw [wp_bind, wp_get]
  refine wp_seq (flushFrom_delivers hpatient t.input ⟨hopen, ht.delivered, ht.queue hopen,
    ht.noFailure hopen, rfl⟩) fun _ u h => ?_
  exact h

/-- The state of the process, in an open session. -/
theorem processState_settles (state : RuntimeProbeState) (exitCode : Option ℤ) (hs : Settled s)
    (hopen : s.closed = false) :
    (processState r state exitCode).wp s (fun _ t => Settled t) (fun _ t => Delivered t.log) :=
  wp_imp (processState_wp state exitCode hs.delivered (hs.queue hopen))
    fun _ _ h => h.settled (hs.noFailure hopen)

theorem aloof_sendRecords (records : List OutputFrame) :
    (sendRecords cfg r records : Op ρ (List Frame)).Always Aloof := by
  induction records with
  | nil => exact always_pure _
  | cons record rest ih =>
    refine always_bind (aloof_discard_check true true) fun _ => always_bind aloof_request fun _ => ?_
    exact always_bind (aloof_emit _ rfl) fun _ => always_return ih

theorem aloof_sendSelection : (sendSelection cfg r : Op ρ (List Frame)).Always Aloof := by
  refine always_bind aloof_ask fun a => always_bind (always_liftExcept _) fun selection => ?_
  refine always_bind ?_ fun _ => always_bind (aloof_sendRecords _) fun _ => ?_
  · unfold sendGap
    split
    · exact always_pure _
    · exact always_return (aloof_emit _ rfl)
  · exact always_return (aloof_discard_check true true)

theorem keeping_publishOutput (e : RuntimeProbeEvidence) :
    Keeping (publishOutput cfg r e : Op ρ (List Frame)) := by
  intro s hs
  rw [publishOutput]
  refine checked_wp (open_of_check true true s) hs fun _ t ht hopen => ?_
  refine wp_seq (processState_settles e.state e.exitCode ht hopen) fun states u hu => ?_
  exact keeping_ite (fun _ => keeping_of_aloof (always_pure _)) (fun _ => keeping_of_aloof aloof_sendSelection) u hu

theorem settling_output : Settling (output cfg r : Op ρ (List Frame)) := by
  refine settling_closeAndRaise (keeping_bind (keeping_of_aloof (aloof_discard_check true true)) fun _ => ?_)
  refine keeping_bind (keeping_of_aloof aloof_ask) fun a => keeping_ite (fun _ => ?_) fun _ => ?_
  · exact keeping_bind (keeping_of_aloof aloof_request) fun _ => keeping_guarded keeping_publishOutput
  · exact keeping_of_aloof (always_pure _)

variable (now : ℚ)

theorem aloof_sendHeartbeat : (sendHeartbeat r now : Op ρ (List Frame)).Always Aloof := by
  refine always_read fun s => always_ite (fun _ => ?_) fun _ => always_pure _
  refine always_bind (aloof_modify fun _ => ⟨rfl, rfl⟩) fun _ => ?_
  exact always_return (aloof_emit _ rfl)

theorem tickCommitted_settles (hs : Settled s) (hopen : s.closed = false) :
    (tickCommitted r now).wp s (fun _ t => Settled t) (fun _ t => Delivered t.log) := by
  rw [tickCommitted, wp_bind, wp_get, wp_ite]
  refine ⟨fun _ => ?_, fun _ => ?_⟩
  · refine keeping_of_aloof ?_ s hs
    exact always_bind aloof_ask fun a => always_return (aloof_emitClose _ _)
  · rw [wp_bind, guarded]
    refine wp_seq_mono (asks_ask s) (fun a t hst => ?_) fun _ _ h => h.aloof.delivered hs.delivered
    have ht := hst.aloof.settled hs
    refine wp_lift (fun e _ => ?_) fun _ _ => ht.delivered
    refine wp_seq (processState_settles e.state e.exitCode ht (hst.still.closed.trans hopen))
      fun states u hu => ?_
    refine wp_lift (fun _ _ => ?_) fun _ _ => hu.delivered
    exact keeping_ite (fun _ => keeping_of_aloof (always_pure _))
      (fun _ => keeping_of_aloof (aloof_sendHeartbeat now)) u hu

theorem settling_tick : Settling (tick cfg r : Op ρ (List Frame)) := by
  refine settling_closeAndReraise fun s hs => ?_
  have hcheck := @open_of_check ρ cfg r false false s
  rw [wp_discard] at hcheck
  refine checked_wp hcheck hs fun now t ht hopen => ?_
  rw [wp_bind, wp_get, wp_ite]
  refine ⟨fun _ => tickCommitted_settles now ht hopen, fun _ => ?_⟩
  refine keeping_of_aloof ?_ t ht
  exact always_bind aloof_request fun _ => always_return aloof_request

theorem aloof_ping : (ping cfg r : Op ρ (List Frame)).Always Aloof := by
  refine always_bind (aloof_check true true) fun now => ?_
  refine always_bind (aloof_modify fun _ => ⟨rfl, rfl⟩) fun _ => ?_
  refine always_read fun s => always_unless fun _ => ?_
  refine always_bind aloof_ask fun a => always_unless fun _ => ?_
  refine always_bind (aloof_modify fun _ => ⟨rfl, rfl⟩) fun _ => ?_
  exact always_return (aloof_emit _ rfl)

theorem aloof_guarded (h : ∀ e, (body e).Always Aloof) : (guarded r body).Always Aloof := by
  refine always_bind aloof_ask fun a => always_bind (always_liftExcept _) fun e => ?_
  exact always_bind (h e) fun _ => always_return (always_liftExcept _)

theorem aloof_helloAck : (helloAck cfg r : Op ρ (List Frame)).Always Aloof := by
  refine aloof_guarded fun _ => always_bind (aloof_discard_check false true) fun _ => ?_
  refine always_read fun s => always_unless fun _ => ?_
  exact always_return (aloof_emit _ rfl)

/-! ## Copies -/

/-- What is terminal is not `accepted`. -/
theorem ne_accepted_of_mem {log : List Event} {cryptoSequence : ℕ} {result : InputResult}
    (h : (hop, cryptoSequence, result) ∈ terminals log) : result ≠ .accepted := by
  obtain ⟨e, _, he⟩ := mem_filterMap.mp h
  rintro rfl
  cases e with
  | frame f copy =>
    unfold Event.terminal? Message.terminal? at he
    dsimp only at he
    split at he
    · cases he
    · split at he
      · split at he
        · cases he
        · next hne =>
          obtain ⟨_, _, rfl⟩ := Prod.mk.inj (Option.some.inj he) |>.imp_right Prod.mk.inj
          exact hne rfl
      · cases he
  | accepted | wrote => cases he

/-- An entry of the table after one was set: the new one, or an old one with another key. -/
theorem mem_setAck_of_any {entry e : TerminalAck}
    (hany : s.terminalAcks.any (·.hasKey entry.hop entry.cryptoSequence) = true)
    (h : e ∈ (s.setAck entry).terminalAcks) :
    e = entry ∨ e ∈ s.terminalAcks ∧ e.hasKey entry.hop entry.cryptoSequence = false := by
  unfold Session.setAck at h
  dsimp only at h
  rw [if_pos hany] at h
  obtain ⟨f, hf, rfl⟩ := mem_map.mp h
  cases hkey : f.hasKey entry.hop entry.cryptoSequence with
  | true => exact .inl (if_pos rfl)
  | false => exact .inr ⟨hf, hkey⟩

/-- A copy is emitted, and its entry marked. -/
theorem Queue.copy {f : Frame} {x : ℕ × ℕ × InputResult} (h : Queue [] s)
    (hx : f.message.terminal? = some x) (hlog : t.log = s.log ++ [.frame f true])
    (hrx : t.rx = s.rx) (hinput : t.input = s.input) (htable : ∀ e ∈ t.terminalAcks,
      (e.hop, e.cryptoSequence, e.result) ∈ terminals s.log ∧ e.replayed = true ∨
        e ∈ s.terminalAcks ∧ (e.hop, e.cryptoSequence) ≠ ackKey x) : Queue [] t := by
  have hcopies : copies t.log = copies s.log ++ [x] := by
    rw [hlog, copies_concat]
    exact congrArg (copies s.log ++ ·.toList) hx
  refine h.transfer (.of_eq ?_) hrx ?_ ?_ fun e he => ?_
  · simp [Session.hops, hlog, Event.terminal?, hinput]
  · simpa [hlog, Event.accepted?] using h.acceptedBelow
  · simpa [hlog, Event.accepted?, Event.write?, hinput] using h.queue
  · rw [hcopies, hlog, terminals_concat, show (Event.frame f true).terminal? = none from rfl,
      Option.toList_none, append_nil]
    rcases htable e he with ⟨hmem, hreplayed⟩ | ⟨hold, hother⟩
    · exact ⟨hmem, fun hr => absurd (hreplayed.symm.trans hr) (by decide)⟩
    · refine ⟨(h.table e hold).1, fun hr hmap => ?_⟩
      rw [map_append] at hmap
      rcases mem_append.mp hmap with hmap | hmap
      · exact (h.table e hold).2 hr hmap
      · exact hother (mem_singleton.mp hmap)

theorem settling_replayInputResult (hop cryptoSequence : ℕ) :
    Settling (replayInputResult cfg r hop cryptoSequence : Op ρ Frame) := by
  intro s hs
  have hcheck := @open_of_check ρ cfg r true true s
  rw [wp_discard] at hcheck
  rw [replayInputResult]
  refine wp_seq_mono hcheck (fun now t h => ?_) fun _ _ h => h.aloof.settled hs
  obtain ⟨hopen, hst⟩ := h
  have hopen : t.closed = false := hst.still.closed.trans hopen
  have ht := hst.aloof.settled hs
  have hqueue := ht.queue hopen
  -- the table may only lose entries here
  have hpruned : Settled (t.pruneAcks now) :=
    ⟨ht.delivered, fun _ => hqueue.transfer (.refl _) rfl hqueue.acceptedBelow hqueue.queue
      fun e he => hqueue.table e (mem_of_mem_filter he), ht.noFailure⟩
  rw [wp_bind, wp_modify, wp_bind, wp_get]
  split
  · exact hpruned
  · next entry hfind =>
    have hhas := List.find?_some hfind
    obtain ⟨rfl, rfl⟩ : entry.hop = hop ∧ entry.cryptoSequence = cryptoSequence := of_decide_eq_true hhas
    have hmem := mem_of_find?_eq_some hfind
    have hany : (t.pruneAcks now).terminalAcks.any (·.hasKey entry.hop entry.cryptoSequence) = true :=
      any_eq_true.mpr ⟨entry, hmem, decide_eq_true ⟨rfl, rfl⟩⟩
    obtain ⟨hterminal, hfresh⟩ := (hpruned.queue hopen).table entry hmem
    refine wp_unless (fun _ => hpruned) fun hfirst => ?_
    have hnew := hfresh (Bool.eq_false_iff.mpr hfirst)
    have hset : Settled ((t.pruneAcks now).setAck { entry with replayed := true }) := by
      refine ⟨ht.delivered, fun _ => ⟨hqueue.fresh, hqueue.below, hqueue.acceptedBelow, hqueue.queue,
        fun e he => ?_⟩, ht.noFailure⟩
      rcases mem_setAck he with rfl | he
      · exact ⟨hterminal, fun h => absurd h.symm Bool.false_ne_true⟩
      · exact (hpruned.queue hopen).table e he
    rw [wp_bind, wp_modify]
    refine wp_mono (wp_and (emit_wp _ _ _) (emit_raises _ _ _)) (fun f u h => ?_) fun _ u h =>
      h.2.aloof.settled hset
    obtain ⟨⟨_, _, rfl⟩, _⟩ := h
    have hmessage : (Message.ack entry.hop entry.cryptoSequence entry.result entry.reason).terminal? =
        some (entry.hop, entry.cryptoSequence, entry.result) := if_neg (ne_accepted_of_mem hterminal)
    refine ⟨ht.delivered.copy hmessage hterminal hnew, fun _ => hqueue.copy hmessage rfl rfl rfl fun e he => ?_,
      fun _ q hq => ?_⟩
    · have hcases : e = { entry with replayed := true } ∨ _ := mem_setAck_of_any hany he
      rcases hcases with rfl | ⟨hold, hother⟩
      · exact .inl ⟨hterminal, rfl⟩
      · refine .inr ⟨mem_of_mem_filter hold, fun hkey => ?_⟩
        exact of_decide_eq_false hother (Prod.mk.inj hkey)
    · rcases mem_append.mp hq with hq | hq
      · exact ht.noFailure hopen q hq
      · cases mem_singleton.mp hq

/-! ## Receiving -/

/-- An input arrives under a number that is new. -/
structure Arriving (hop : ℕ) (s : Session ρ) : Prop where
  isOpen : s.closed = false
  delivered : Delivered s.log
  inQueue : Queue [hop] s
  noFailure : NoFailure s
  new : ∀ p ∈ accepted s.log, p.hop ≠ hop

theorem Arriving.aloof (h : Arriving hop s) (hst : Aloof s t) (hopen : t.closed = false) :
    Arriving hop t := by
  obtain ⟨events, hlog, hplain⟩ := hst.log
  refine ⟨hopen, hst.delivered h.delivered, hst.queue hopen h.inQueue,
    fun p hp => h.noFailure p (hst.wrote hp), ?_⟩
  rw [hlog, (plain_append s.log hplain).2.1]
  exact h.new

/-- The number of the frame that is received is new. -/
theorem Settled.arriving (h : Settled s) (hopen : s.closed = false) :
    Arriving s.rx { s with rx := s.rx + 1 } := by
  have hqueue := h.queue hopen
  have hperm : (({ s with rx := s.rx + 1 } : Session ρ).hops [s.rx]).Perm (s.rx :: s.hops []) := by
    unfold Session.hops
    exact perm_middle
  refine ⟨hopen, h.delivered, ⟨?_, fun n hn => ?_, fun p hp => ?_, hqueue.queue, hqueue.table⟩,
    h.noFailure hopen, fun p hp => Nat.ne_of_lt (hqueue.acceptedBelow p hp)⟩
  · rw [hperm.nodup_iff, nodup_cons]
    exact ⟨fun hmem => Nat.lt_irrefl _ (hqueue.below _ hmem), hqueue.fresh⟩
  · rcases mem_cons.mp (hperm.mem_iff.mp hn) with rfl | hn
    · exact Nat.lt_succ_self _
    · exact Nat.lt_succ_of_lt (hqueue.below n hn)
  · exact Nat.lt_succ_of_lt (hqueue.acceptedBelow p hp)

/-- A frame with a higher number leaves the session settled. -/
theorem Settled.next (h : Settled s) : Settled { s with rx := s.rx + 1 } where
  delivered := h.delivered
  queue := fun hopen => ⟨(h.queue hopen).fresh, fun n hn => Nat.lt_succ_of_lt ((h.queue hopen).below n hn),
    fun p hp => Nat.lt_succ_of_lt ((h.queue hopen).acceptedBelow p hp), (h.queue hopen).queue,
    (h.queue hopen).table⟩
  noFailure := h.noFailure

/-- A queued input that is answered with `accepted`. -/
theorem Queue.push (h : Queue [p.hop] s) (hlog : t.log = s.log ++ [.accepted p])
    (hrx : t.rx = s.rx) (hinput : t.input = s.input ++ [p])
    (htable : t.terminalAcks = s.terminalAcks) : Queue [] t := by
  have hperm : (t.hops []).Perm (s.hops [p.hop]) := by
    simp only [Session.hops, hlog, terminals_concat, Event.terminal?, hinput, map_append]
    refine List.Perm.append (.of_eq (append_nil _)) ?_
    rw [nil_append]
    exact perm_append_comm
  refine h.transfer hperm hrx (fun q hq => ?_) ?_ ?_
  · rw [hlog, accepted_concat] at hq
    rcases mem_append.mp hq with hq | hq
    · exact h.acceptedBelow q hq
    · rw [mem_singleton.mp hq]
      refine h.below p.hop ?_
      unfold Session.hops
      exact mem_append_right _ (mem_append_left _ (mem_singleton_self _))
  · obtain ⟨done, hdone, hwrites⟩ := h.queue
    refine ⟨done, ?_, by simpa [hlog, Event.write?] using hwrites⟩
    rw [hlog, accepted_concat, hinput, hdone]
    exact append_assoc _ _ _
  · simpa [hlog, Event.terminal?, Event.copy?, htable] using h.table

/-- What is owed is owed no longer, or the input is to be queued. -/
def Answered (p : PendingInput) (queued : Bool) (t : Session ρ) : Prop :=
  Delivered t.log ∧ if queued then Settled { t with log := t.log ++ [.accepted p] } else Settled t

theorem Grows.tx_le (h : Grows s t) : s.tx ≤ t.tx := by
  have hcount := h.count
  have hlength := h.isPrefix.length_le
  omega

/-- An acknowledgement takes a number. -/
theorem ack_tx (hop cryptoSequence : ℕ) (result : InputResult) (reason : Option InputReason) (s : Session ρ) :
    (ack r hop cryptoSequence result reason).wp s (fun _ t => s.tx < t.tx) (fun e t => Jammed e t) := by
  refine wp_mono (sends_ack hop cryptoSequence result reason s) (fun f t h => ?_) fun _ _ h => h.2
  obtain ⟨hst, more, hmore, hframes⟩ := h
  have hcount := hst.count
  rw [hframes, ← nil_append more, ← hmore, length_append, length_singleton] at hcount
  omega

/-- How an arriving input can fail: it is still owed an answer, or a number has been given out. -/
def StillOwed (hop : ℕ) (before : ℕ) (e : Fault) (t : Session ρ) : Prop :=
  Delivered t.log ∧ (e.isExpected = true → t.tx = before → Stuck t ∨ Arriving hop t)

theorem rejectInput_wp (cryptoSequence : ℕ) (e : RuntimeProbeEvidence) (reason : InputReason)
    (h : Arriving hop s) :
    (rejectInput r hop cryptoSequence e reason).wp s (fun _ t => s.tx < t.tx ∧ Settled t)
      (fun f t => StillOwed hop s.tx f t) := by
  rw [rejectInput]
  refine wp_seq_mono (wp_and (ack_wp cryptoSequence (some reason) (by decide) h.delivered h.inQueue
    nofun) (ack_tx _ _ _ _ s)) (fun reply t ht => ?_) fun f t ht => ?_
  · obtain ⟨⟨hd, hq, _, hclosed, hwrote⟩, htx⟩ := ht
    have hsettled : Settled t := ⟨hd, fun _ => hq, fun _ p hp => h.noFailure p (hwrote _ _ hp)⟩
    rw [wp_ite]
    refine ⟨fun _ => ⟨htx, hsettled⟩, fun _ => ?_⟩
    refine wp_seq_mono (wp_and (processState_settles _ _ hsettled (hclosed.trans h.isOpen))
      (sends_processState _ _ t)) (fun _ u hu => ⟨htx.trans_le hu.2.1.tx_le, hu.1⟩) fun f u hu => ?_
    exact ⟨hu.1, fun _ hsame => absurd hsame (Nat.ne_of_gt (htx.trans_le hu.2.1.tx_le))⟩
  · refine ⟨?_, fun hf _ => .inl (ht.2 hf)⟩
    rw [ht.1]
    exact h.delivered

theorem queueInput_wp {e : RuntimeProbeEvidence} (hstate : e.state = .running) (h : Arriving p.hop s) :
    (queueInput r p e).wp s (fun _ t => s.tx < t.tx ∧ Answered p true t)
      (fun f t => StillOwed p.hop s.tx f t) := by
  rw [queueInput, wp_bind, hstate]
  refine wp_mono (wp_and (wp_and (aloof_processState_running none s) (aside_processState .running none s))
    (sends_processState .running none s)) (fun states t ht => ?_) fun f t ht =>
      ⟨ht.1.1.delivered h.delivered, fun hf _ => .inl (ht.2.2 hf)⟩
  obtain ⟨⟨hst, haside⟩, hgrows, _⟩ := ht
  have hopen : t.closed = false := (haside.closed rfl).trans h.isOpen
  have harriving := h.aloof hst hopen
  rw [wp_bind, wp_modify, wp_bind]
  have hplain : (ack r p.hop p.cryptoSequence .accepted none : Op ρ Frame).Always Aloof := by
    refine always_bind (always_onlyIf fun hne => absurd rfl hne) fun _ => aloof_emit _ rfl
  refine wp_mono (wp_and (hplain _) (ack_tx _ _ _ _ _)) (fun reply u hu => ?_) fun f u hu => ?_
  · obtain ⟨htu, htx⟩ := hu
    refine ⟨hgrows.tx_le.trans_lt htx, ?_⟩
    obtain ⟨events, hlog, hevents⟩ := htu.log
    have hlog : u.log = t.log ++ events := hlog
    have haloof : Aloof t { t with log := u.log } := ⟨⟨events, hlog, hevents⟩, .inr ⟨rfl, rfl, rfl, rfl⟩⟩
    have hlogged := harriving.aloof haloof hopen
    refine ⟨hlogged.delivered, hlogged.delivered.accept hlogged.new, fun hopen => ?_, fun _ q hq => ?_⟩
    · rcases htu.same with hclosed | ⟨hrx, hinput, htable, _⟩
      · exact absurd (hclosed.symm.trans hopen) (by decide)
      · exact hlogged.inQueue.push rfl hrx hinput htable
    · rcases mem_append.mp hq with hq | hq
      · exact hlogged.noFailure q hq
      · cases mem_singleton.mp hq
  · exact ⟨hu.1.delivered harriving.delivered, fun hf _ => .inl (hu.2 hf)⟩

/-- Only the input of a running process is not rejected. -/
theorem running_of_inputRejection {state : RuntimeProbeState} {supervisor : SupervisorState}
    (h : inputRejection state supervisor = none) : state = .running := by
  unfold inputRejection at h
  split at h
  · cases h
  · split at h
    · cases h
    · split at h
      · cases h
      · split at h
        · next hrunning => exact hrunning
        · cases h

theorem Asks.arriving (h : Asks s t) (hs : Arriving hop s) : Arriving hop t :=
  hs.aloof h.aloof (h.still.closed.trans hs.isOpen)

theorem Asks.stillOwed (h : Asks s t) (hs : Arriving hop s) (e : Fault) : StillOwed hop s.tx e t :=
  ⟨(h.arriving hs).delivered, fun _ _ => .inr (h.arriving hs)⟩

theorem admitInput_wp (p : PendingInput) (e : RuntimeProbeEvidence) (h : Arriving p.hop s) :
    (admitInput cfg r p e).wp s (fun out t => s.tx < t.tx ∧ Answered p out.2 t)
      (fun f t => StillOwed p.hop s.tx f t) := by
  rw [admitInput]
  refine wp_seq_mono (asks_discard_check true true s) (fun _ t hst => ?_) fun f t hst => hst.stillOwed h f
  refine wp_seq_mono (asks_ask t) (fun a u htu => ?_) fun f u htu =>
    (IsTrans.trans _ _ _ hst htu : Asks s u).stillOwed h f
  have hsu : Asks s u := IsTrans.trans _ _ _ hst htu
  have hu := hsu.arriving h
  have htx : u.tx = s.tx := hsu.still.tx
  rw [wp_bind, wp_get]
  have hreject : ∀ reason : InputReason, (do
      let replies ← rejectInput r p.hop p.cryptoSequence e reason
      return (replies, false) : Op ρ (List Frame × Bool)).wp u
      (fun out t => s.tx < t.tx ∧ Answered p out.2 t) (fun f t => StillOwed p.hop s.tx f t) := by
    intro reason
    rw [wp_bind, ← htx]
    exact wp_imp (rejectInput_wp p.cryptoSequence e reason hu) fun _ _ h => ⟨h.1, h.2.delivered, h.2⟩
  split
  · exact hreject _
  · next hnone =>
    rw [wp_ite]
    refine ⟨fun _ => hreject _, fun _ => ?_⟩
    rw [wp_bind, ← htx]
    exact wp_imp (queueInput_wp (running_of_inputRejection hnone) hu) fun _ _ h => h

/-- The handler: a number that was given out closes the session; otherwise the answer is owed. -/
theorem refuseInput_wp (p : PendingInput) {before : ℕ} {e : Fault} (h : StillOwed p.hop before e s) :
    (refuseInput r p before e).wp s (fun out t => Answered p out.2 t) (fun _ t => Delivered t.log) := by
  rw [refuseInput, wp_bind, wp_get, wp_ite]
  refine ⟨fun hcond => ?_, fun _ => h.1⟩
  rw [wp_bind]
  rcases h.2 hcond.1 hcond.2.1 with hstuck | harriving
  · refine wp_mono (wp_and (ack_of_stuck hstuck _ _ _ _) (ack_raises _ _ _ _ s)) (fun _ _ h => h.1.elim)
      fun _ t ht => ?_
    rw [ht.2]
    exact h.1
  · refine wp_mono (ack_wp p.cryptoSequence _ (by decide) h.1 harriving.inQueue (fun hw => by cases hw))
      (fun reply t ht => ?_) fun _ t ht => ?_
    · rw [wp_bind, wp_discard]
      exact wp_mono (close_settles ht.1) (fun _ _ h => ⟨h.delivered, h⟩) fun _ _ h => h.elim
    · rw [ht]
      exact h.1

theorem receiveInput_wp (h : Arriving hop s) :
    (receiveInput cfg r hop now).wp s (fun _ t => Settled t) (fun _ t => Delivered t.log) := by
  rw [receiveInput]
  refine wp_seq_mono (asks_ask s) (fun a t hst => ?_) fun _ _ hst => (hst.arriving h).delivered
  have ht := hst.arriving h
  split
  · exact ht.delivered
  · next plaintext cryptoSequence _ =>
    have hend : ∀ (out : List Frame × Bool) (u : Session ρ),
        Answered ⟨hop, cryptoSequence, plaintext, now⟩ out.2 u →
        (do
          onlyIf out.2 (modify fun s => { s with log := s.log ++ [.accepted ⟨hop, cryptoSequence, plaintext, now⟩] })
          return out.1 : Op ρ (List Frame)).wp u (fun _ t => Settled t) (fun _ t => Delivered t.log) := by
      intro out u hu
      unfold Answered at hu
      rw [wp_bind, wp_onlyIf, wp_modify, wp_pure, wp_pure]
      refine ⟨fun hq => ?_, fun hq => ?_⟩
      · rw [if_pos hq] at hu
        exact hu.2
      · rw [if_neg hq] at hu
        exact hu.2
    rw [wp_bind, wp_get, wp_bind, wp_tryCatch, guarded]
    refine wp_seq_mono (asks_ask t) (fun b u htu => ?_) fun e u htu =>
      wp_imp (refuseInput_wp _ (htu.stillOwed ht e)) hend
    have hu := htu.arriving ht
    have htx : u.tx = t.tx := htu.still.tx
    refine wp_lift (fun e _ => ?_) fun f _ =>
      wp_imp (refuseInput_wp _ (htu.stillOwed ht f)) hend
    refine wp_seq_mono (admitInput_wp ⟨hop, cryptoSequence, plaintext, now⟩ e hu) (fun out v hv => ?_)
      fun f v hv => ?_
    · refine wp_lift (fun _ _ => hend out v hv.2) fun f _ => ?_
      have howed : StillOwed hop t.tx f v := ⟨hv.2.1, fun _ hsame => absurd hsame (Nat.ne_of_gt (htx ▸ hv.1))⟩
      exact wp_imp (refuseInput_wp _ howed) hend
    · rw [htx] at hv
      exact wp_imp (refuseInput_wp _ hv) hend

theorem aloof_spendControl {now : ℚ} {body : Op ρ (List Frame)} (h : body.Always Aloof) :
    (spendControl r now body).Always Aloof := by
  refine always_bind (aloof_modify fun _ => ⟨rfl, rfl⟩) fun _ => ?_
  refine always_read fun s => always_ite (fun _ => ?_) fun _ => ?_
  · exact always_bind aloof_ask fun a => always_return (aloof_emitClose _ _)
  · exact always_bind (aloof_modify fun _ => ⟨rfl, rfl⟩) fun _ => h

theorem keeping_receiveDetach (hpatient : Patient r) (raw : ρ) (hop : ℕ) (now : ℚ) :
    Keeping (receiveDetach cfg r raw hop now : Op ρ (List Frame)) := by
  refine keeping_bind (settling_flushInput hpatient).keeping fun _ => keeping_of_aloof ?_
  refine always_bind aloof_close fun _ => always_bind (aloof_emit _ rfl) fun _ => ?_
  exact always_return (aloof_modify fun _ => ⟨rfl, rfl⟩)

/-- The condition on a frame: a `DETACH` finds the supervisor patient. -/
def DetachesPatiently (r : ℕ → Reply) (frame : Option Incoming) : Prop :=
  ∀ hop attachmentId leaseNumber, frame = some ⟨hop, .detach attachmentId leaseNumber⟩ → Patient r

theorem active_wp {frame : Incoming} (now : ℚ) (hpatient : DetachesPatiently r (some frame))
    (hs : Settled s) (harriving : Arriving frame.hop s) :
    (active cfg r raw frame now).wp s (fun _ t => Settled t) (fun _ t => Delivered t.log) := by
  obtain ⟨hop, request⟩ := frame
  cases request with
  | input => exact receiveInput_wp now harriving
  | heartbeat attachmentId leaseNumber tick =>
    refine keeping_of_aloof ?_ s hs
    refine always_unless fun _ => always_read fun _ => always_unless fun _ => ?_
    exact always_return (aloof_modify fun _ => ⟨rfl, rfl⟩)
  | ping nonce tick =>
    refine keeping_of_aloof (aloof_spendControl ?_) s hs
    exact always_return (aloof_emit _ rfl)
  | pong nonce tick =>
    refine keeping_of_aloof (aloof_spendControl (always_read fun _ => ?_)) s hs
    refine always_bind (aloof_modify fun _ => ⟨rfl, rfl⟩) fun _ => ?_
    exact always_unless fun _ => always_pure _
  | resize attachmentId leaseNumber columns rows =>
    refine keeping_of_aloof (always_unless fun _ => aloof_guarded fun _ => ?_) s hs
    exact always_bind aloof_request fun _ => always_return (aloof_emit _ rfl)
  | detach attachmentId leaseNumber =>
    refine keeping_bind (keeping_of_aloof (always_raiseIf _ _)) (fun _ => ?_) s hs
    exact keeping_receiveDetach (hpatient hop attachmentId leaseNumber rfl) raw hop now
  | keyInit | keyConfirm | streamReady | admissionCommit | close | other => exact hs.delivered

theorem aloof_keyReply {message : Message} (h : message.terminal? = none) (phase : Phase) :
    (keyReply r message phase : Op ρ (List Frame)).Always Aloof := by
  refine always_bind aloof_request fun _ => always_bind (aloof_emit _ h) fun _ => ?_
  exact always_return (aloof_modify fun _ => ⟨rfl, rfl⟩)

theorem aloof_streamReady : (streamReady cfg r : Op ρ (List Frame)).Always Aloof := by
  refine aloof_guarded fun _ => always_bind (aloof_discard_check false true) fun _ => ?_
  refine always_bind aloof_request fun _ => always_bind aloof_ask fun a => ?_
  refine always_bind (aloof_modify fun _ => ⟨rfl, rfl⟩) fun _ => ?_
  refine always_bind (aloof_emit _ rfl) fun _ => always_bind (aloof_discard_check false true) fun _ => ?_
  exact always_return (aloof_modify fun _ => ⟨rfl, rfl⟩)

theorem aloof_admissionCommit (raw : ρ) (fence : String) (now : ℚ) :
    (admissionCommit cfg r raw fence now : Op ρ (List Frame)).Always Aloof := by
  refine always_read fun s => always_unless fun _ => aloof_guarded fun _ => ?_
  refine always_bind (aloof_discard_check false true) fun _ => always_bind aloof_request fun _ => ?_
  refine always_bind aloof_request fun _ => always_bind (aloof_emit _ rfl) fun _ => ?_
  refine always_bind (aloof_modify fun _ => ⟨rfl, rfl⟩) fun _ => ?_
  refine always_bind (aloof_discard_check false true) fun _ => ?_
  exact always_return (aloof_modify fun _ => ⟨rfl, rfl⟩)

/-- A frame in its turn. It comes after a check, so the session is open. -/
theorem receiveFrame_wp (hpatient : DetachesPatiently r (cfg.decode raw))
    (hs : Settled s) (hopen : s.closed = false) :
    (receiveFrame cfg r raw now).wp s (fun _ t => Settled t) (fun _ t => Delivered t.log) := by
  unfold receiveFrame
  split
  · exact hs.delivered
  · next frame hframe =>
    rw [hframe] at hpatient
    rw [wp_bind, wp_get]
    refine wp_unless (fun _ => hs.delivered) fun hhop => ?_
    have hhop : frame.hop = s.rx := not_not.mp hhop
    have harriving := hs.arriving hopen
    rw [wp_bind, wp_modify]
    split
    · exact keeping_of_aloof (always_return aloof_discard_close) _ hs.next
    · exact keeping_of_aloof (aloof_keyReply rfl _) _ hs.next
    · exact keeping_of_aloof (aloof_keyReply rfl _) _ hs.next
    · exact keeping_of_aloof aloof_streamReady _ hs.next
    · exact keeping_of_aloof (aloof_admissionCommit raw _ now) _ hs.next
    · refine wp_seq_mono (asks_discard_check true true _) (fun _ t hst => ?_) fun _ _ hst =>
        hst.aloof.delivered hs.delivered
      refine active_wp now hpatient (hst.aloof.settled hs.next) ?_
      rw [hhop]
      exact hst.arriving harriving

variable [DecidableEq ρ]

theorem settling_receive (hpatient : DetachesPatiently r (cfg.decode raw)) :
    Settling (receive cfg r raw) := by
  refine settling_closeAndRaise (keeping_bind (keeping_of_aloof aloof_ask) fun a => ?_)
  refine keeping_bind (keeping_of_aloof (always_liftExcept _)) fun now => ?_
  refine keeping_bind (keeping_of_aloof always_get) fun _ => ?_
  split
  · refine keeping_of_aloof (always_return ?_)
    exact aloof_modify fun _ => ⟨rfl, rfl⟩
  · intro s hs
    rw [receiveOpen]
    refine checked_wp (open_of_check false true s) hs fun _ t ht hopen => ?_
    rw [wp_bind, wp_get]
    split
    · refine keeping_of_aloof (always_read fun _ => always_unless fun _ => ?_) t ht
      refine aloof_guarded fun _ => always_return ?_
      exact aloof_modify fun _ => ⟨rfl, rfl⟩
    · exact wp_seq (receiveFrame_wp now hpatient ht hopen) fun _ _ h => h

end

/-! ## Runs -/

/-- The condition on a call: where the queue is flushed, a guard that saw the process in need of interaction
does not fail at its end. -/
def FlushesPatiently (cfg : Config ρ) (c : Call ρ) : Prop :=
  match c.action with
  | .flushInput => Patient c.replies
  | .receive raw => DetachesPatiently c.replies (cfg.decode raw)
  | _ => True

/-- The step lemma. -/
theorem settled_step [DecidableEq ρ] {cfg : Config ρ} {t : Run ρ} {c : Call ρ} (h : Settled t.session)
    (hpatient : FlushesPatiently cfg c) : Settled (t.step cfg c).session := by
  have hasked : Settled { t.session with asked := 0 } := (Asks.aloof ⟨0, rfl⟩).settled h
  have hmap : ∀ {α : Type} {m : Op ρ α} (g : α → Returned), Settling m →
      (g <$> m).wp { t.session with asked := 0 } (fun _ u => Settled u) (fun _ u => Settled u) := by
    intro α m g hm
    rw [wp_map]
    exact hm _ hasked
  have hperform : (perform cfg c).wp t.session (fun _ u => Settled u) (fun _ u => Settled u) := by
    rw [perform, wp_bind, wp_modify]
    unfold FlushesPatiently at hpatient
    cases haction : c.action with
    | helloAck => exact hmap _ (settling_of_aloof aloof_helloAck)
    | receive raw =>
      rw [haction] at hpatient
      exact settling_receive hpatient _ hasked
    | flushInput =>
      rw [haction] at hpatient
      exact hmap _ (settling_flushInput hpatient)
    | output => exact hmap _ settling_output
    | tick => exact hmap _ settling_tick
    | ping => exact hmap _ (settling_of_aloof aloof_ping)
    | replayInputResult hop cryptoSequence => exact hmap _ (settling_replayInputResult hop cryptoSequence)
  have hstate := state_of_wp hperform
  unfold Run.step
  rcases hcall : (perform cfg c).call t.session with ⟨e | out, u⟩ <;> rw [hcall] at hstate
  · exact hstate
  · cases out with
    | sent | resent => exact hstate

theorem settled_initial (now : ℚ) : Settled (Session.initial ρ now) where
  delivered := ⟨List.Sublist.refl _, nodup_nil, nodup_nil, nodup_nil,
    fun _ h => absurd h not_mem_nil, eachAfter_nil, eachAfter_nil⟩
  queue := fun _ => ⟨nodup_nil, fun _ h => absurd h not_mem_nil,
    fun _ h => absurd h not_mem_nil, ⟨[], rfl, List.Sublist.refl _⟩,
    fun _ h => absurd h not_mem_nil⟩
  noFailure := fun _ _ h => absurd h not_mem_nil

/-- In every run whose flushes are patient, whatever the supervisor does, input is delivered at most once. -/
theorem delivered_of_patient [DecidableEq ρ] (cfg : Config ρ) (now : ℚ) (calls : List (Call ρ)) (i : ℕ)
    (h : ∀ k < i, ∀ c, calls[k]? = some c → FlushesPatiently cfg c) :
    Delivered (Run.reached cfg now calls i).session.log := by
  have hsettled : Settled (Run.reached cfg now calls i).session :=
    invariant_run (I := fun t : Run ρ => Settled t.session) (settled_initial now)
      fun k hk c hc ht => settled_step ht (h k hk c hc)
  exact hsettled.delivered

namespace Sample

/-- The process needs interaction, and the lease ends while the guard's body runs. -/
def interrupted : Reply :=
  { fine with enter := .ok ⟨.needsInteraction, none⟩, leave := .error (.operation true) }

end Sample

open Sample

theorem patient_fine (action : Action Incoming) : FlushesPatiently config (call action fine) := by
  cases action with
  | flushInput => exact fun _ _ _ _ => rfl
  | receive raw => exact fun _ _ _ _ _ _ _ _ => rfl
  | _ => trivial

/-- An input that is written, acknowledged, and acknowledged once more on request. -/
theorem delivered_of_patient_write : Delivered (Run.reached config 0 (opening ++
      [call .flushInput fine, call (.replayInputResult 6 1) fine]) 8).session.log := by
  refine delivered_of_patient _ _ _ _ fun k _ c hc => ?_
  obtain ⟨action, rfl⟩ := fine_of_mem (mem_of_getElem? hc) fun c hc => by
    rcases mem_pair.mp hc with rfl | rfl <;> exact ⟨_, rfl⟩
  exact patient_fine action

/-- The first input of the queue is acknowledged twice. -/
theorem input_acknowledged_twice : ¬ Delivered (Run.reached config 0
      (opening ++ [call .flushInput interrupted]) 7).session.log := by
  intro h
  refine absurd h.once ?_
  decide +kernel

end AgentBox.Stream.Attachment
