import AgentBox.Stream.Transmission

/-!
# The input queue of an attachment

An input is queued when it is accepted, taken off the queue to be written or given up, and then
acknowledged for good. The numbers of the inputs that are acknowledged, of the one being acknowledged and
of those in the queue are distinct: that is the invariant (`Queue`), and every way to drain the queue keeps
it. The methods and their runs are in `AgentBox.Stream.AtMostOnce`.
-/

namespace AgentBox.Stream.Attachment

open List Method

variable {p : PendingInput} {b : Bool} {ρ : Type}

/-! ## What the log says about input -/

def Event.write? : Event → Option PendingInput
  | .wrote p _ => some p
  | _ => none

def Event.accepted? : Event → Option PendingInput
  | .accepted p => some p
  | _ => none

/-- Number, crypto sequence and result of an acknowledgement other than `accepted`. -/
def Message.terminal? : Message → Option (ℕ × ℕ × InputResult)
  | .ack hop cryptoSequence result _ =>
    if result = .accepted then none else some (hop, cryptoSequence, result)
  | _ => none

def Event.terminal? : Event → Option (ℕ × ℕ × InputResult)
  | .frame f copy => if copy then none else f.message.terminal?
  | _ => none

def Event.copy? : Event → Option (ℕ × ℕ × InputResult)
  | .frame f copy => if copy then f.message.terminal? else none
  | _ => none

variable (log : List Event)

/-- The inputs passed to `write_input`. -/
def writes : List PendingInput := log.filterMap Event.write?

/-- The inputs answered with `accepted`. -/
def accepted : List PendingInput := log.filterMap Event.accepted?

/-- The terminal acknowledgements. -/
def terminals : List (ℕ × ℕ × InputResult) := log.filterMap Event.terminal?

/-- The copies of terminal acknowledgements. -/
def copies : List (ℕ × ℕ × InputResult) := log.filterMap Event.copy?

/-- Number and crypto sequence. -/
def ackKey (x : ℕ × ℕ × InputResult) : ℕ × ℕ := (x.1, x.2.1)

/-- `written_to_pty` comes after a write that returned. -/
def AfterWrite (before : List Event) (e : Event) : Prop :=
  ∀ hop cryptoSequence, e.terminal? = some (hop, cryptoSequence, .writtenToPty) →
    ∃ p, .wrote p true ∈ before ∧ p.hop = hop ∧ p.cryptoSequence = cryptoSequence

/-- No write comes after one that raised. -/
def BeforeFailure (before : List Event) (e : Event) : Prop :=
  ∀ p, e.write? = some p → ∀ q, .wrote q false ∉ before

/-- Delivery at most once. -/
structure Delivered (log : List Event) : Prop where
  inOrder : (writes log).Sublist (accepted log)
  distinct : ((accepted log).map PendingInput.hop).Nodup
  once : ((terminals log).map ackKey).Nodup
  copyOnce : ((copies log).map ackKey).Nodup
  copied : ∀ x ∈ copies log, x ∈ terminals log
  written : EachAfter AfterWrite log
  failed : EachAfter BeforeFailure log

/-- An event that says nothing about input. -/
structure Event.Plain (e : Event) : Prop where
  write : e.write? = none
  accepted : e.accepted? = none
  terminal : e.terminal? = none
  copy : e.copy? = none

section
variable {log : List Event} {e : Event} {p : PendingInput} {f : Frame} {x : ℕ × ℕ × InputResult}

theorem filterMap_concat {α β : Type} (f : α → Option β) (l : List α) (a : α) :
    (l ++ [a]).filterMap f = l.filterMap f ++ (f a).toList := by
  rw [filterMap_append]
  cases h : f a with
  | none => rw [filterMap_cons_none h]; rfl
  | some b => rw [filterMap_cons_some h]; rfl

@[simp] theorem writes_concat (log : List Event) (e : Event) :
    writes (log ++ [e]) = writes log ++ e.write?.toList := filterMap_concat ..

@[simp] theorem accepted_concat (log : List Event) (e : Event) :
    accepted (log ++ [e]) = accepted log ++ e.accepted?.toList := filterMap_concat ..

@[simp] theorem terminals_concat (log : List Event) (e : Event) :
    terminals (log ++ [e]) = terminals log ++ e.terminal?.toList := filterMap_concat ..

@[simp] theorem copies_concat (log : List Event) (e : Event) :
    copies (log ++ [e]) = copies log ++ e.copy?.toList := filterMap_concat ..

theorem Delivered.plain (h : Delivered log) (he : e.Plain) : Delivered (log ++ [e]) where
  inOrder := by simpa [he.write, he.accepted] using h.inOrder
  distinct := by simpa [he.accepted] using h.distinct
  once := by simpa [he.terminal] using h.once
  copyOnce := by simpa [he.copy] using h.copyOnce
  copied := by simpa [he.terminal, he.copy] using h.copied
  written := eachAfter_concat h.written fun _ _ ht => by rw [he.terminal] at ht; cases ht
  failed := eachAfter_concat h.failed fun _ hw => by rw [he.write] at hw; cases hw

/-- A write of the next accepted input. -/
theorem Delivered.write (h : Delivered log) (returned : Bool)
    (hnext : (writes log ++ [p]).Sublist (accepted log)) (hfailed : ∀ q, .wrote q false ∉ log) :
    Delivered (log ++ [.wrote p returned]) where
  inOrder := by simpa [Event.write?, Event.accepted?] using hnext
  distinct := by simpa [Event.accepted?] using h.distinct
  once := by simpa [Event.terminal?] using h.once
  copyOnce := by simpa [Event.copy?] using h.copyOnce
  copied := by simpa [Event.terminal?, Event.copy?] using h.copied
  written := eachAfter_concat h.written nofun
  failed := eachAfter_concat h.failed fun _ _ q => hfailed q

/-- An input with a new number is accepted. -/
theorem Delivered.accept (h : Delivered log) (hnew : ∀ q ∈ accepted log, q.hop ≠ p.hop) :
    Delivered (log ++ [.accepted p]) where
  inOrder := by
    rw [writes_concat, accepted_concat]
    exact (append_nil (writes log)).symm ▸ h.inOrder.trans (sublist_append_left _ _)
  distinct := by
    rw [accepted_concat, map_append, nodup_append]
    refine ⟨h.distinct, nodup_singleton _, fun a ha b hb => ?_⟩
    obtain ⟨q, hq, rfl⟩ := mem_map.mp ha
    rw [mem_singleton.mp hb]
    exact hnew q hq
  once := by simpa [Event.terminal?] using h.once
  copyOnce := by simpa [Event.copy?] using h.copyOnce
  copied := by simpa [Event.terminal?, Event.copy?] using h.copied
  written := eachAfter_concat h.written nofun
  failed := eachAfter_concat h.failed nofun

/-- A terminal acknowledgement under a new number. -/
theorem Delivered.terminal (h : Delivered log) (hx : f.message.terminal? = some x)
    (hnew : x.1 ∉ (terminals log).map Prod.fst)
    (hwrote : x.2.2 = .writtenToPty → ∃ p, .wrote p true ∈ log ∧ p.hop = x.1 ∧ p.cryptoSequence = x.2.1) :
    Delivered (log ++ [.frame f false]) where
  inOrder := by simpa [Event.write?, Event.accepted?] using h.inOrder
  distinct := by simpa [Event.accepted?] using h.distinct
  once := by
    rw [terminals_concat, show (Event.frame f false).terminal? = some x from hx, map_append,
      nodup_append]
    refine ⟨h.once, nodup_singleton _, fun a ha b hb hab => hnew ?_⟩
    obtain ⟨y, hy, rfl⟩ := mem_map.mp ha
    rw [mem_singleton.mp hb] at hab
    exact mem_map.mpr ⟨y, hy, congrArg (fun k : ℕ × ℕ => k.1) hab⟩
  copyOnce := by simpa [Event.copy?] using h.copyOnce
  copied y hy := by
    rw [terminals_concat]
    exact mem_append_left _ (h.copied y (by simpa [Event.copy?] using hy))
  written := eachAfter_concat h.written fun hop cryptoSequence ht => by
    cases hx.symm.trans ht
    exact hwrote rfl
  failed := eachAfter_concat h.failed nofun

/-- A copy of a terminal acknowledgement that has none yet. -/
theorem Delivered.copy (h : Delivered log) (hx : f.message.terminal? = some x)
    (hmem : x ∈ terminals log) (hnew : ackKey x ∉ (copies log).map ackKey) :
    Delivered (log ++ [.frame f true]) where
  inOrder := by simpa [Event.write?, Event.accepted?] using h.inOrder
  distinct := by simpa [Event.accepted?] using h.distinct
  once := by simpa [Event.terminal?] using h.once
  copyOnce := by
    rw [copies_concat, show (Event.frame f true).copy? = some x from hx, map_append,
      nodup_append]
    refine ⟨h.copyOnce, nodup_singleton _, fun a ha b hb hab => hnew ?_⟩
    rw [mem_singleton.mp hb] at hab
    exact hab ▸ ha
  copied y hy := by
    rw [copies_concat, show (Event.frame f true).copy? = some x from hx] at hy
    rw [terminals_concat]
    refine mem_append_left _ ?_
    rcases mem_append.mp hy with hy | hy
    · exact h.copied y hy
    · rw [mem_singleton.mp hy]
      exact hmem
  written := eachAfter_concat h.written nofun
  failed := eachAfter_concat h.failed nofun

end

/-! ## The queue -/

/-- The numbers in use: those acknowledged, those owed an acknowledgement, and those in the queue. -/
def Session.hops (s : Session ρ) (owed : List ℕ) : List ℕ :=
  (terminals s.log).map Prod.fst ++ (owed ++ s.input.map PendingInput.hop)

/-- The queue of an open session, while the inputs with the numbers `owed` are being acknowledged. -/
structure Queue (owed : List ℕ) (s : Session ρ) : Prop where
  fresh : (s.hops owed).Nodup
  below : ∀ h ∈ s.hops owed, h < s.rx
  acceptedBelow : ∀ p ∈ accepted s.log, p.hop < s.rx
  queue : ∃ done, accepted s.log = done ++ s.input ∧ (writes s.log).Sublist done
  table : ∀ e ∈ s.terminalAcks, (e.hop, e.cryptoSequence, e.result) ∈ terminals s.log ∧
    (e.replayed = false → (e.hop, e.cryptoSequence) ∉ (copies s.log).map ackKey)

def NoFailure (s : Session ρ) : Prop := ∀ p, .wrote p false ∉ s.log

/-- What holds between two calls. -/
structure Settled (s : Session ρ) : Prop where
  delivered : Delivered s.log
  queue : s.closed = false → Queue [] s
  noFailure : s.closed = false → NoFailure s

variable {s t : Session ρ}

/-- The same numbers are in use. -/
theorem Queue.transfer {owed owed' : List ℕ} (h : Queue owed s)
    (hhops : (t.hops owed').Perm (s.hops owed)) (hrx : t.rx = s.rx)
    (hbelow : ∀ p ∈ accepted t.log, p.hop < s.rx)
    (hqueue : ∃ done, accepted t.log = done ++ t.input ∧ (writes t.log).Sublist done)
    (htable : ∀ e ∈ t.terminalAcks, (e.hop, e.cryptoSequence, e.result) ∈ terminals t.log ∧
      (e.replayed = false → (e.hop, e.cryptoSequence) ∉ (copies t.log).map ackKey)) : Queue owed' t :=
  ⟨hhops.nodup_iff.mpr h.fresh, fun n hn => hrx ▸ h.below n (hhops.mem_iff.mp hn),
    fun p hp => hrx ▸ hbelow p hp, hqueue, htable⟩

theorem Settled.of_closed (h : Delivered s.log) (hclosed : s.closed = true) : Settled s :=
  ⟨h, fun hopen => absurd (hopen.symm.trans hclosed) Bool.false_ne_true,
    fun hopen => absurd (hopen.symm.trans hclosed) Bool.false_ne_true⟩

/-! ## Parts that say nothing about input -/

/-- Nothing that concerns input happens, unless the session is closed. -/
structure Aloof (s t : Session ρ) : Prop where
  log : ∃ events, t.log = s.log ++ events ∧ ∀ e ∈ events, Event.Plain e
  same : t.closed = true ∨
    t.rx = s.rx ∧ t.input = s.input ∧ t.terminalAcks = s.terminalAcks ∧ t.closed = s.closed

/-- Nothing is logged. -/
theorem Aloof.silent (hlog : t.log = s.log) (hsame : t.closed = true ∨ t.rx = s.rx ∧ t.input = s.input ∧
    t.terminalAcks = s.terminalAcks ∧ t.closed = s.closed) : Aloof s t :=
  ⟨⟨[], by rw [hlog, append_nil], fun _ h => absurd h not_mem_nil⟩, hsame⟩

instance : Std.Refl (@Aloof ρ) := ⟨fun _ => .silent rfl (.inr ⟨rfl, rfl, rfl, rfl⟩)⟩

instance : IsTrans (Session ρ) (@Aloof ρ) where
  trans s t u hst htu := by
    obtain ⟨⟨es, hes, hplain⟩, hsame⟩ := hst
    obtain ⟨⟨fs, hfs, hplain'⟩, hsame'⟩ := htu
    refine ⟨⟨es ++ fs, by rw [hfs, hes, append_assoc], fun e he => ?_⟩, ?_⟩
    · rcases mem_append.mp he with he | he
      · exact hplain e he
      · exact hplain' e he
    · rcases hsame' with hclosed | ⟨hrx, hinput, htable, hclosed⟩
      · exact .inl hclosed
      · rw [hrx, hinput, htable, hclosed]
        exact hsame

theorem Asks.aloof (h : Asks s t) : Aloof s t := by
  obtain ⟨n, rfl⟩ := h
  exact .silent rfl (.inr ⟨rfl, rfl, rfl, rfl⟩)

/-- A log that has grown by plain events only. -/
theorem plain_append (log : List Event) {events : List Event} (h : ∀ e ∈ events, Event.Plain e) :
    writes (log ++ events) = writes log ∧ accepted (log ++ events) = accepted log ∧
      terminals (log ++ events) = terminals log ∧ copies (log ++ events) = copies log ∧
      (Delivered log → Delivered (log ++ events)) := by
  induction events generalizing log with
  | nil =>
    rw [append_nil]
    exact ⟨rfl, rfl, rfl, rfl, id⟩
  | cons e events ih =>
    have he := h e mem_cons_self
    obtain ⟨hw, ha, ht, hc, hd⟩ := ih (log ++ [e]) fun f hf => h f (mem_cons_of_mem _ hf)
    rw [← append_cons] at hw ha ht hc hd
    refine ⟨hw.trans ?_, ha.trans ?_, ht.trans ?_, hc.trans ?_, fun hlog => hd (hlog.plain he)⟩
    · simp [he.write]
    · simp [he.accepted]
    · simp [he.terminal]
    · simp [he.copy]

theorem Event.Plain.not_wrote (h : (Event.wrote p b).Plain) : False := by
  have := h.write
  cases this

theorem Aloof.delivered (h : Aloof s t) (hs : Delivered s.log) : Delivered t.log := by
  obtain ⟨events, hlog, hplain⟩ := h.log
  rw [hlog]
  exact (plain_append s.log hplain).2.2.2.2 hs

theorem Aloof.wrote (h : Aloof s t) (hp : .wrote p b ∈ t.log) : .wrote p b ∈ s.log := by
  obtain ⟨events, hlog, hplain⟩ := h.log
  rw [hlog] at hp
  exact (mem_append.mp hp).resolve_right fun h => (hplain _ h).not_wrote

theorem Aloof.queue (h : Aloof s t) (hopen : t.closed = false) {owed : List ℕ} (hs : Queue owed s) :
    Queue owed t := by
  obtain ⟨events, hlog, hplain⟩ := h.log
  obtain ⟨hw, ha, ht, hc, _⟩ := plain_append s.log hplain
  rcases h.same with hclosed | ⟨hrx, hinput, htable, _⟩
  · rw [hclosed] at hopen
    cases hopen
  · have hhops : t.hops owed = s.hops owed := by
      unfold Session.hops
      rw [hlog, ht, hinput]
    refine hs.transfer (.of_eq hhops) hrx ?_ ?_ ?_
    · rw [hlog, ha]
      exact hs.acceptedBelow
    · rw [hlog, ha, hw, hinput]
      exact hs.queue
    · rw [hlog, ht, hc, htable]
      exact hs.table

/-- An open session has been open before. -/
theorem Aloof.open_before (h : Aloof s t) (hopen : t.closed = false) : s.closed = false := by
  rcases h.same with hclosed | ⟨_, _, _, hclosed⟩
  · rw [hclosed] at hopen
    cases hopen
  · exact hclosed ▸ hopen

theorem Aloof.settled (h : Aloof s t) (hs : Settled s) : Settled t where
  delivered := h.delivered hs.delivered
  queue := fun hopen => h.queue hopen (hs.queue (h.open_before hopen))
  noFailure := fun hopen _ hp => hs.noFailure (h.open_before hopen) _ (h.wrote hp)

section
variable {cfg : Config ρ} {r : ℕ → Reply} {s t : Session ρ} {p : PendingInput} {rest : List PendingInput}

theorem aloof_ask : (ask r : Op ρ Reply).Always Aloof := asks_ask.mono fun _ _ h => h.aloof

theorem aloof_check (active checkHealth : Bool) : (check cfg r active checkHealth).Always Aloof :=
  (asks_check active checkHealth).mono fun _ _ h => h.aloof

theorem aloof_discard_check (active checkHealth : Bool) :
    (discard (check cfg r active checkHealth)).Always Aloof :=
  (asks_discard_check active checkHealth).mono fun _ _ h => h.aloof

theorem aloof_request : (request r : Op ρ Unit).Always Aloof := asks_request.mono fun _ _ h => h.aloof

/-- An update of fields that have nothing to do with input. -/
theorem aloof_modify {f : Session ρ → Session ρ}
    (h : ∀ s, (f s).log = s.log ∧ ((f s).rx, (f s).input, (f s).terminalAcks, (f s).closed) =
      (s.rx, s.input, s.terminalAcks, s.closed)) : (modify f : Op ρ PUnit).Always Aloof :=
  fun s => .silent (h s).1 (.inr (by simpa only [Prod.mk.injEq] using (h s).2))

theorem aloof_emit {message : Message} (cleanupReply : Bool) (h : message.terminal? = none) :
    (emit r message cleanupReply false : Op ρ Frame).Always Aloof := by
  refine always_read fun s => always_unless fun _ => ?_
  refine always_unless fun _ => always_bind aloof_ask fun a => ?_
  refine always_unless fun _ => always_return (fun t => ?_)
  refine ⟨⟨[_], rfl, fun e he => ?_⟩, .inr ⟨rfl, rfl, rfl, rfl⟩⟩
  rw [mem_singleton.mp he]
  exact ⟨rfl, rfl, h, rfl⟩

theorem aloof_close : (close r : Op ρ Bool).Always Aloof := by
  refine always_bind aloof_ask fun a => always_return (fun t => ?_)
  exact .silent rfl (.inl rfl)

theorem aloof_discard_close : (discard (close r) : Op ρ Unit).Always Aloof := by
  intro s
  rw [wp_discard]
  exact aloof_close s

theorem aloof_emitClose (code : CloseCode) (workspaceState : String) :
    (emitClose r code workspaceState : Op ρ Frame).Always Aloof :=
  always_bind (aloof_emit _ rfl) fun _ => always_return aloof_discard_close

/-! ## Acknowledgements -/

/-- A frame that is not emitted leaves no trace. -/
theorem emit_raises (message : Message) (copy : Bool) (s : Session ρ) :
    (emit r message false copy).wp s (fun _ _ => True) (fun _ t => Asks s t) := by
  rw [emit, wp_bind, wp_get]
  refine wp_unless (fun _ => Std.Refl.refl s) fun _ => ?_
  refine wp_unless (fun _ => Std.Refl.refl s) fun _ => ?_
  refine wp_seq (asks_ask s) fun a t hst => ?_
  exact wp_unless (fun _ => hst) fun _ => trivial

theorem mem_setAck {entry e : TerminalAck} (h : e ∈ (s.setAck entry).terminalAcks) :
    e = entry ∨ e ∈ s.terminalAcks := by
  unfold Session.setAck at h
  dsimp only at h
  split at h
  · obtain ⟨f, hf, rfl⟩ := mem_map.mp h
    split
    · exact .inl rfl
    · exact .inr hf
  · rcases mem_append.mp h with h | h
    · exact .inr h
    · exact .inl (mem_singleton.mp h)

/-- Remembering an acknowledgement changes the table only. -/
theorem rememberAck_wp (hop cryptoSequence : ℕ) (result : InputResult) (reason : Option InputReason)
    (s : Session ρ) :
    (rememberAck r hop cryptoSequence result reason).wp s
      (fun _ t => (∃ n table, t = { s with asked := n, terminalAcks := table }) ∧
        ∀ e ∈ t.terminalAcks, e ∈ s.terminalAcks ∨
          e.hop = hop ∧ e.cryptoSequence = cryptoSequence ∧ e.result = result)
      (fun _ _ => False) := by
  rw [rememberAck, wp_bind, ask, wp_bind, wp_get, wp_bind, wp_modify, wp_pure, wp_bind, wp_modify, wp_bind,
    wp_get, wp_onlyIf, wp_modify]
  refine ⟨fun _ => ⟨⟨_, _, rfl⟩, fun e he => ?_⟩, fun _ => ⟨⟨_, _, rfl⟩, fun e he => ?_⟩⟩
  · rcases mem_setAck he with rfl | he
    · exact .inr ⟨rfl, rfl, rfl⟩
    · exact .inl (mem_of_mem_filter he)
  · exact .inl (mem_of_mem_filter he)

/-- Of an acknowledgement that is owed: it is emitted and no longer owed, or nothing is. -/
theorem ack_wp {hop : ℕ} (cryptoSequence : ℕ) {result : InputResult} (reason : Option InputReason)
    (hresult : result ≠ .accepted) (hdelivered : Delivered s.log) (hqueue : Queue [hop] s)
    (hwrote : result = .writtenToPty → ∃ p, .wrote p true ∈ s.log ∧ p.hop = hop ∧
      p.cryptoSequence = cryptoSequence) :
    (ack r hop cryptoSequence result reason).wp s
      (fun _ t => Delivered t.log ∧ Queue [] t ∧ t.input = s.input ∧ t.closed = s.closed ∧
        ∀ p b, .wrote p b ∈ t.log → .wrote p b ∈ s.log)
      (fun _ t => t.log = s.log) := by
  have hmessage : (Message.ack hop cryptoSequence result reason).terminal? = some (hop, cryptoSequence, result) :=
    if_neg hresult
  have hnew : hop ∉ (terminals s.log).map Prod.fst := by
    have h := hqueue.fresh
    unfold Session.hops at h
    intro hmem
    exact (nodup_append.mp h).2.2 hop hmem hop (mem_append_left _ (mem_singleton_self _)) rfl
  rw [ack, wp_bind, wp_onlyIf]
  refine ⟨fun _ => ?_, fun h => absurd hresult h⟩
  refine wp_mono (rememberAck_wp hop cryptoSequence result reason s) (fun _ t h => ?_) fun _ _ h => h.elim
  obtain ⟨⟨n, table, rfl⟩, htable⟩ := h
  refine wp_mono (wp_and (emit_wp _ _ _) (emit_raises _ _ _)) (fun f u h => ?_) fun _ u h => ?_
  · obtain ⟨⟨_, _, rfl⟩, _⟩ := h
    have hterminals : terminals (s.log ++ [Event.frame ⟨s.tx, .ack hop cryptoSequence result reason⟩ false]) =
        terminals s.log ++ [(hop, cryptoSequence, result)] := by
      rw [terminals_concat]
      exact congrArg (terminals s.log ++ ·.toList) hmessage
    have hhops : ((s.emitted (.ack hop cryptoSequence result reason) false).hops []).Perm (s.hops [hop]) := by
      unfold Session.hops Session.emitted
      dsimp only
      rw [hterminals, map_append, append_assoc]
      rfl
    refine ⟨hdelivered.terminal hmessage hnew hwrote, hqueue.transfer hhops rfl ?_ ?_ fun e he => ?_, rfl, rfl,
      fun p b hp => ?_⟩
    · simpa [Session.emitted, Event.accepted?] using hqueue.acceptedBelow
    · simpa [Session.emitted, Event.accepted?, Event.write?] using hqueue.queue
    · change (e.hop, e.cryptoSequence, e.result) ∈ terminals (s.log ++ _) ∧ (_ → _ ∉ (copies (s.log ++ _)).map _)
      rw [hterminals, copies_concat, show ∀ f : Frame, (Event.frame f false).copy? = none from fun _ => rfl,
        Option.toList_none, append_nil]
      rcases htable e he with hold | ⟨rfl, rfl, rfl⟩
      · exact ⟨mem_append_left _ (hqueue.table e hold).1, (hqueue.table e hold).2⟩
      · refine ⟨mem_append_right _ (mem_singleton_self _), fun _ hmem => hnew ?_⟩
        obtain ⟨y, hy, hkey⟩ := mem_map.mp hmem
        exact mem_map.mpr ⟨y, hdelivered.copied y hy, congrArg (fun k : ℕ × ℕ => k.1) hkey⟩
    · refine (mem_append.mp hp).resolve_right fun h => ?_
      cases mem_singleton.mp h
  · obtain ⟨_, m, rfl⟩ := h
    rfl

/-- An acknowledgement that raises leaves the log as it is. -/
theorem ack_raises (hop cryptoSequence : ℕ) (result : InputResult) (reason : Option InputReason)
    (s : Session ρ) :
    (ack r hop cryptoSequence result reason).wp s (fun _ _ => True) (fun _ t => t.log = s.log) := by
  rw [ack, wp_bind, wp_onlyIf]
  refine ⟨fun _ => ?_, fun _ => ?_⟩
  · refine wp_mono (rememberAck_wp hop cryptoSequence result reason s) (fun _ t h => ?_) fun _ _ h => h.elim
    obtain ⟨⟨n, table, rfl⟩, _⟩ := h
    refine wp_mono (emit_raises _ _ _) (fun _ _ h => h) fun _ u h => ?_
    obtain ⟨m, rfl⟩ := h
    rfl
  · refine wp_mono (emit_raises _ _ _) (fun _ _ h => h) fun _ u h => ?_
    obtain ⟨m, rfl⟩ := h
    rfl

/-- The first input of the queue is taken off it and owed. -/
theorem Queue.pop (h : Queue [] s) (hinput : s.input = p :: rest) (hlog : t.log = s.log)
    (hrx : t.rx = s.rx) (hrest : t.input = rest) (htable : t.terminalAcks = s.terminalAcks) :
    Queue [p.hop] t := by
  have hhops : t.hops [p.hop] = s.hops [] := by
    unfold Session.hops
    rw [hlog, hrest, hinput]
    rfl
  obtain ⟨done, hdone, hwrites⟩ := h.queue
  refine h.transfer (.of_eq hhops) hrx ?_ ⟨done ++ [p], ?_, ?_⟩ ?_
  · rw [hlog]
    exact h.acceptedBelow
  · rw [hlog, hdone, hinput, hrest, append_assoc]
    rfl
  · rw [hlog]
    exact hwrites.trans (sublist_append_left _ _)
  · rw [hlog, htable]
    exact h.table

/-! ## Draining -/

/-- The queue is in order, and nothing has been written. -/
structure Drained (s t : Session ρ) : Prop where
  delivered : Delivered t.log
  queue : t.closed = false → Queue [] t
  wrote : ∀ p b, .wrote p b ∈ t.log → .wrote p b ∈ s.log

theorem Drained.aloof {u : Session ρ} (h : Drained s t) (htu : Aloof t u) : Drained s u where
  delivered := htu.delivered h.delivered
  queue := fun hopen => htu.queue hopen (h.queue (htu.open_before hopen))
  wrote := fun p b hp => h.wrote p b (htu.wrote hp)

theorem Drained.settled (h : Drained s t) (hs : NoFailure s) : Settled t where
  delivered := h.delivered
  queue := h.queue
  noFailure := fun _ p hp => hs p (h.wrote p false hp)

/-- By induction on the queue: every input is owed for a moment and then acknowledged. -/
theorem drainFrom_wp (queue : List PendingInput) (hinput : s.input = queue)
    (hdelivered : Delivered s.log) (hqueue : Queue [] s) :
    (drainFrom r queue).wp s (fun _ t => Drained s t ∧ Queue [] t) (fun _ t => Delivered t.log) := by
  induction queue generalizing s with
  | nil => exact ⟨⟨hdelivered, fun _ => hqueue, fun _ _ h => h⟩, hqueue⟩
  | cons p rest ih =>
    rw [drainFrom, wp_bind, wp_modify, wp_bind]
    have hpop : Queue [p.hop] { s with input := rest } := hqueue.pop hinput rfl rfl rfl rfl
    refine wp_mono (wp_and (ack_wp p.cryptoSequence (some .inputWriteUncertain) (by decide) hdelivered hpop
      nofun) (ack_raises _ _ _ _ _)) (fun _ t h => ?_) fun _ t h => ?_
    · obtain ⟨⟨hdelivered, hqueue, hrest, _, hwrote⟩, _⟩ := h
      refine wp_seq (ih hrest hdelivered hqueue) fun _ u h => ?_
      exact ⟨⟨h.1.delivered, h.1.queue, fun p b hp => hwrote p b (h.1.wrote p b hp)⟩, h.2⟩
    · rw [h.1]
      exact hdelivered

theorem drain_wp (hdelivered : Delivered s.log) (hqueue : Queue [] s) :
    (drain r).wp s (fun _ t => Drained s t) (fun _ t => Delivered t.log) := by
  rw [drain, wp_bind, wp_get]
  refine wp_seq (drainFrom_wp s.input rfl hdelivered hqueue) fun _ t h => ?_
  rw [wp_bind, wp_modify, wp_pure]
  exact ⟨h.1.delivered, fun _ => ⟨h.2.fresh, h.2.below, h.2.acceptedBelow, h.2.queue, h.2.table⟩, h.1.wrote⟩

/-- What follows a drain keeps it. -/
theorem drained_after {α : Type} {m : Op ρ α} (h : Drained s t) (hm : m.Always Aloof) :
    m.wp t (fun _ u => Drained s u) (fun _ u => Delivered u.log) :=
  wp_mono (hm t) (fun _ _ htu => h.aloof htu) fun _ _ htu => htu.delivered h.delivered

variable (state : RuntimeProbeState)

theorem aloof_publishState :
    (publishState r state : Op ρ (List Frame)).Always Aloof := by
  refine always_read fun s => always_ite (fun _ => always_pure _) fun _ => ?_
  refine always_bind (aloof_modify fun _ => ⟨rfl, rfl⟩) fun _ => ?_
  exact always_return (aloof_emit _ rfl)

theorem aloof_closeUnlessOpen :
    (closeUnlessOpen r state : Op ρ (List Frame)).Always Aloof :=
  always_ite (fun _ => always_pure _) fun _ =>
    always_return (aloof_emitClose _ _)

variable (exitCode : Option ℤ)

/-- A running process keeps its input. -/
theorem aloof_processState_running :
    (processState r .running exitCode : Op ρ (List Frame)).Always Aloof := by
  refine always_ite (fun h => ?_) fun _ => ?_
  · rcases h with h | h <;> cases h
  · refine always_bind (always_ite (fun h => absurd rfl h) fun _ => always_pure _) fun _ => ?_
    refine always_bind (aloof_publishState _) fun _ => ?_
    exact always_return (aloof_closeUnlessOpen _)

theorem processState_wp
    (hdelivered : Delivered s.log) (hqueue : Queue [] s) :
    (processState r state exitCode).wp s (fun _ t => Drained s t) (fun _ t => Delivered t.log) := by
  have hnone : Drained s s := ⟨hdelivered, fun _ => hqueue, fun _ _ h => h⟩
  rw [processState, wp_ite]
  refine ⟨fun _ => ?_, fun _ => ?_⟩
  · rw [terminal]
    refine wp_seq (drain_wp hdelivered hqueue) fun _ t h => drained_after h ?_
    refine always_bind (aloof_emit _ rfl) fun _ => ?_
    exact always_return (aloof_emitClose _ _)
  · rw [wp_bind, keepInput, wp_ite]
    have hrest : ∀ replies : List Frame, (do
        let states ← publishState r state
        let closing ← closeUnlessOpen r state
        return replies ++ states ++ closing : Op ρ (List Frame)).Always Aloof := fun replies =>
      always_bind (aloof_publishState _) fun _ =>
        always_return (aloof_closeUnlessOpen _)
    refine ⟨fun _ => ?_, fun _ => drained_after hnone (hrest [])⟩
    exact wp_imp (drain_wp hdelivered hqueue) fun _ t h => drained_after h (hrest _)

/-- A state in which a session does not go on closes it. -/
theorem processState_closes {state : RuntimeProbeState} (exitCode : Option ℤ)
    (h : isOpenState state = false) (s : Session ρ) :
    (processState r state exitCode).wp s (fun _ t => t.closed = true) (fun _ _ => True) := by
  have hany : ∀ {α : Type} {m : Op ρ α} (t : Session ρ), m.wp t (fun _ _ => True) (fun _ _ => True) :=
    fun t => wp_of_forall (fun _ _ => trivial) fun _ _ => trivial
  have hclose : ∀ (code : CloseCode) (text : String) (t : Session ρ),
      (emitClose r code text).wp t (fun _ u => u.closed = true) (fun _ _ => True) := by
    intro code text t
    rw [emitClose]
    refine wp_seq_mono (hany t) (fun _ u _ => ?_) fun _ _ _ => trivial
    rw [wp_bind, wp_discard]
    exact wp_mono (close_grows u) (fun _ _ h => h.2.2) fun _ _ h => h.elim
  rw [processState, wp_ite]
  refine ⟨fun _ => ?_, fun _ => ?_⟩
  · rw [terminal]
    refine wp_seq_mono (hany s) (fun _ t _ => ?_) fun _ _ _ => trivial
    refine wp_seq_mono (hany t) (fun _ u _ => ?_) fun _ _ _ => trivial
    rw [wp_bind]
    exact hclose _ _ u
  · refine wp_seq_mono (hany s) (fun _ t _ => ?_) fun _ _ _ => trivial
    refine wp_seq_mono (hany t) (fun _ u _ => ?_) fun _ _ _ => trivial
    rw [wp_bind, closeUnlessOpen, if_neg (Bool.eq_false_iff.mp h), wp_bind]
    exact hclose _ _ u

theorem processState_closes_of (s : Session ρ) :
    (processState r state exitCode).wp s
      (fun _ t => isOpenState state = false → t.closed = true) (fun _ _ => True) := by
  cases h : isOpenState state with
  | true => exact wp_of_forall (fun _ _ h => absurd h.symm Bool.false_ne_true) fun _ _ => trivial
  | false => exact wp_imp (processState_closes exitCode h s) fun _ _ h _ => h

/-! ## Flushing -/

/-- An open session whose queue is `queue`. -/
structure Ready (queue : List PendingInput) (s : Session ρ) : Prop where
  isOpen : s.closed = false
  delivered : Delivered s.log
  inQueue : Queue [] s
  noFailure : NoFailure s
  input : s.input = queue

theorem Ready.settled {queue : List PendingInput} (h : Ready queue s) : Settled s :=
  ⟨h.delivered, fun _ => h.inQueue, fun _ => h.noFailure⟩

/-- An input has been taken off the queue and is not yet acknowledged. If it counts as written, it is. -/
structure Owes (p : PendingInput) (rest : List PendingInput) (s : Session ρ) : Prop where
  isOpen : s.closed = false
  delivered : Delivered s.log
  inQueue : Queue [p.hop] s
  input : s.input = rest
  written : s.written = true → .wrote p true ∈ s.log ∧ NoFailure s

theorem Ready.aloof {queue : List PendingInput} (h : Ready queue s) (hst : Aloof s t)
    (hopen : t.closed = false) : Ready queue t := by
  refine ⟨hopen, hst.delivered h.delivered, hst.queue hopen h.inQueue,
    fun p hp => h.noFailure p (hst.wrote hp), ?_⟩
  rcases hst.same with hclosed | ⟨_, hinput, _, _⟩
  · rw [hclosed] at hopen
    cases hopen
  · rw [hinput]
    exact h.input

/-- The owed input is not in the queue any more. -/
theorem Owes.head (h : Owes p rest s) :
    ¬ (s.input.head?.any fun q => decide (q.hop = p.hop)) = true := by
  intro hhead
  have hfresh := h.inQueue.fresh
  unfold Session.hops at hfresh
  have hnot := (nodup_cons.mp (nodup_append.mp hfresh).2.1).1
  cases hqueue : s.input with
  | nil =>
    rw [hqueue] at hhead
    cases hhead
  | cons q queue =>
    rw [hqueue] at hhead hnot
    refine hnot ?_
    rw [← of_decide_eq_true hhead]
    exact mem_cons_self

/-- The part of a turn that writes. -/
theorem write_wp (h : Ready (p :: rest) s) (hwritten : s.written = false) :
    (do
      modify (Session.popInput p)
      discard (check cfg r true true)
      let a ← ask r
      raiseIf (p.admittedAt + 5 ≤ a.clock) (.stream .inputWriteUncertain)
      writeInput r p
      modify fun s => { s with written := true }
      return false : Op ρ Bool).wp s
      (fun returns t => returns = false ∧ Owes p rest t) (fun _ t => Owes p rest t) := by
  obtain ⟨done, hdone, hwrites⟩ := h.inQueue.queue
  have hpop : Owes p rest (s.popInput p) :=
    ⟨h.isOpen, h.delivered, h.inQueue.pop h.input rfl rfl (by rw [Session.popInput, h.input]; rfl) rfl,
      by rw [Session.popInput, h.input]; rfl,
      fun hw => by rw [Session.popInput, hwritten] at hw; cases hw⟩
  have hasks : ∀ {t u : Session ρ}, Asks t u → Owes p rest t → Owes p rest u := by
    intro t u htu ht
    obtain ⟨n, rfl⟩ := htu
    exact ⟨ht.isOpen, ht.delivered, (Asks.aloof ⟨n, rfl⟩).queue ht.isOpen ht.inQueue, ht.input, ht.written⟩
  rw [wp_bind, wp_modify]
  refine wp_seq_mono (asks_discard_check true true _) (fun _ t hst => ?_) fun _ _ hst => hasks hst hpop
  refine wp_seq_mono (asks_ask t) (fun a u htu => ?_) fun _ _ htu => hasks htu (hasks hst hpop)
  have hsu : Asks (s.popInput p) u := IsTrans.trans _ _ _ hst htu
  have hu := hasks hsu hpop
  refine wp_unless (fun _ => hu) fun _ => ?_
  obtain ⟨n, rfl⟩ := hsu
  rw [wp_bind, writeInput, wp_bind, ask, wp_bind, wp_get, wp_bind, wp_modify, wp_pure, wp_bind, wp_modify,
    wp_liftExcept]
  -- whatever the write does, it is the next of the accepted inputs
  have hnext : (writes s.log ++ [p]).Sublist (accepted s.log) := by
    rw [hdone, h.input]
    exact hwrites.append (singleton_sublist.mpr mem_cons_self)
  have hlog : ∀ b, Delivered (s.log ++ [.wrote p b]) := fun b => h.delivered.write b hnext h.noFailure
  have hqueue : ∀ (b w : Bool) (m : ℕ), Queue [p.hop]
      { s.popInput p with asked := m, written := w, log := s.log ++ [.wrote p b] } := by
    intro b w m
    refine hpop.inQueue.transfer (.of_eq ?_) rfl ?_ ⟨done ++ [p], ?_, ?_⟩ ?_
    · simp [Session.hops, Event.terminal?, Session.popInput]
    · simpa [Event.accepted?, Session.popInput] using h.inQueue.acceptedBelow
    · simp [Event.accepted?, hdone, Session.popInput, h.input]
    · simpa [Event.write?] using hwrites
    · simpa [Event.terminal?, Event.copy?, Session.popInput] using h.inQueue.table
  refine ⟨fun _ hok => ?_, fun e he => ?_⟩
  · rw [wp_bind, wp_modify, wp_pure, hok]
    refine ⟨rfl, h.isOpen, hlog _, hqueue _ _ _, hpop.input, fun _ => ⟨?_, fun q hq => ?_⟩⟩
    · exact mem_append_right _ (mem_singleton_self _)
    · rcases mem_append.mp hq with hq | hq
      · exact h.noFailure q hq
      · cases mem_singleton.mp hq
  · refine ⟨h.isOpen, hlog _, hqueue _ s.written _, hpop.input, fun hw => ?_⟩
    exact absurd (hwritten.symm.trans hw) Bool.false_ne_true

/-- A guard that saw the process in need of interaction does not fail at its end. -/
def Patient (r : ℕ → Reply) : Prop :=
  ∀ i e, (r i).enter = .ok e → e.state = .needsInteraction → (r i).leave = .ok ()

/-- The state in which the handler of a turn finds the session. -/
def Interrupted (p : PendingInput) (rest : List PendingInput) (s : Session ρ) : Prop :=
  Stuck s ∨ Owes p rest s ∨ Ready (p :: rest) s ∧ s.written = false

theorem flushGuarded_delivers (e : RuntimeProbeEvidence) (h : Ready (p :: rest) s)
    (hwritten : s.written = false) :
    (flushGuarded cfg r p e).wp s
      (fun returns t => returns = true ∧ Settled t ∧ e.state ≠ .running ∧
          (isOpenState e.state = false → t.closed = true) ∨
        returns = false ∧ Owes p rest t)
      (fun f t => Delivered t.log ∧ (f.isExpected = true → Interrupted p rest t)) := by
  rw [flushGuarded, wp_bind]
  by_cases hrunning : e.state = .running
  · rw [hrunning, if_pos rfl]
    have hkeeps := aloof_processState_running (r := r) none s
    have hflag := aside_processState (r := r) .running none s
    refine wp_mono (wp_and (wp_and hkeeps hflag) (sends_processState (r := r) .running none s))
      (fun states t hst => ?_) fun f t hst => ?_
    · obtain ⟨⟨hst, hflag⟩, hgrows, _⟩ := hst
      rw [wp_bind, addReplies, wp_modify, wp_ite]
      refine ⟨fun hne => absurd rfl hne, fun _ => ?_⟩
      have hopen : t.closed = false := by
        rcases hst.same with hclosed | ⟨_, _, _, hclosed⟩
        · exact (hflag.closed rfl).trans h.isOpen
        · exact hclosed.trans h.isOpen
      have hready : Ready (p :: rest) { t with replies := t.replies ++ states } :=
        (h.aloof hst hopen).aloof (.silent rfl (.inr ⟨rfl, rfl, rfl, rfl⟩)) hopen
      refine wp_mono (write_wp hready (hflag.written.trans hwritten)) (fun _ _ h => .inr h) fun _ u h =>
        ⟨h.delivered, fun _ => .inr (.inl h)⟩
    · obtain ⟨⟨hst, hflag⟩, _, hjammed⟩ := hst
      exact ⟨hst.delivered h.delivered, fun hf => .inl (hjammed hf)⟩
  · rw [if_neg hrunning]
    refine wp_mono (wp_and (processState_wp e.state e.exitCode h.delivered h.inQueue)
      (wp_and (sends_processState (r := r) e.state e.exitCode s) (processState_closes_of e.state e.exitCode s)))
      (fun states t hst => ?_) fun f t hst => ⟨hst.1, fun hf => .inl (hst.2.1.2 hf)⟩
    obtain ⟨hdrained, _, hcloses⟩ := hst
    rw [wp_bind, addReplies, wp_modify, wp_ite]
    refine ⟨fun _ => .inl ⟨rfl, ?_, hrunning, hcloses⟩, fun hne => absurd hrunning hne⟩
    have hadd : Aloof t { t with replies := t.replies ++ states } := .silent rfl (.inr ⟨rfl, rfl, rfl, rfl⟩)
    exact hadd.settled (hdrained.settled h.noFailure)

/-- The handler takes an input that is still in the queue off it. -/
theorem flushHandler_wp (f : Fault) (hdelivered : Delivered s.log)
    (h : f.isExpected = true → Interrupted p rest s) :
    (flushHandler p f).wp s
      (fun returns t => returns = false ∧ Delivered t.log ∧ (Stuck t ∨ Owes p rest t))
      (fun _ t => Delivered t.log) := by
  rw [flushHandler, wp_ite]
  refine ⟨fun hf => ?_, fun _ => hdelivered⟩
  rw [wp_bind, wp_get, wp_bind, wp_onlyIf, wp_modify, wp_pure, wp_pure]
  rcases h hf with hstuck | howes | ⟨hready, hwritten⟩
  · exact ⟨fun _ => ⟨rfl, hdelivered, .inl hstuck⟩, fun _ => ⟨rfl, hdelivered, .inl hstuck⟩⟩
  · exact ⟨fun hhead => absurd hhead howes.head, fun _ => ⟨rfl, hdelivered, .inr howes⟩⟩
  · refine ⟨fun _ => ⟨rfl, hdelivered, .inr ?_⟩, fun hhead => ?_⟩
    · refine ⟨hready.isOpen, hdelivered, hready.inQueue.pop hready.input rfl rfl ?_ rfl, ?_, fun hw => ?_⟩
      · rw [Session.popInput, hready.input]
        rfl
      · rw [Session.popInput, hready.input]
        rfl
      · exact absurd (hwritten.symm.trans hw) Bool.false_ne_true
    · refine absurd ?_ hhead
      rw [hready.input]
      exact decide_eq_true rfl

theorem flushTurn_delivers (hpatient : Patient r) (h : Ready (p :: rest) s)
    (hwritten : s.written = false) :
    (tryCatch (guarded r (flushGuarded cfg r p)) (flushHandler p)).wp s
      (fun returns t => returns = true ∧ Settled t ∨
        returns = false ∧ Delivered t.log ∧ (Stuck t ∨ Owes p rest t))
      (fun _ t => Delivered t.log) := by
  have hhandler : ∀ (f : Fault) (t : Session ρ), Delivered t.log →
      (f.isExpected = true → Interrupted p rest t) →
      (flushHandler p f).wp t
        (fun returns t => returns = true ∧ Settled t ∨
          returns = false ∧ Delivered t.log ∧ (Stuck t ∨ Owes p rest t))
        (fun _ t => Delivered t.log) := fun f t hd hi =>
    wp_imp (flushHandler_wp f hd hi) fun _ _ h => .inr h
  rw [wp_tryCatch, guarded, wp_bind, ask, wp_bind, wp_get, wp_bind, wp_modify, wp_pure]
  have hasked : Aloof s { s with asked := s.asked + 1 } := Asks.aloof ⟨_, rfl⟩
  have hready := h.aloof hasked h.isOpen
  refine wp_lift (fun e he => ?_) fun f _ => hhandler f _ hready.delivered fun _ => .inr (.inr ⟨hready, hwritten⟩)
  refine wp_seq_mono (flushGuarded_delivers e hready hwritten) (fun returns t h => ?_) fun f t h =>
    hhandler f t h.1 h.2
  rw [wp_bind, wp_liftExcept]
  rcases h with ⟨rfl, hsettled, hrunning, hcloses⟩ | ⟨rfl, howes⟩
  · refine ⟨fun _ _ => .inl ⟨rfl, hsettled⟩, fun f hf => hhandler f t hsettled.delivered fun _ => ?_⟩
    -- the session is closed: it would go on only with a process in need of interaction
    refine .inl (.inl (hcloses (Bool.eq_false_iff.mpr fun hon => ?_)))
    rcases of_decide_eq_true hon with hstate | hstate
    · exact hrunning hstate
    · rw [hpatient _ e he hstate] at hf
      cases hf
  · exact ⟨fun _ _ => .inr ⟨rfl, howes.delivered, .inr howes⟩,
      fun f _ => hhandler f t howes.delivered fun _ => .inr (.inl howes)⟩

theorem aloof_addReplies (frames : List Frame) : (addReplies frames : Op ρ Unit).Always Aloof :=
  aloof_modify fun _ => ⟨rfl, rfl⟩

theorem flushOutcome_delivers (hdelivered : Delivered s.log) (h : Stuck s ∨ Owes p rest s) :
    (flushOutcome r p).wp s
      (fun goesOn t => goesOn = true ∧ Ready rest t ∨ goesOn = false ∧ Settled t)
      (fun _ t => Delivered t.log) := by
  rw [flushOutcome, wp_bind, wp_get, wp_ite]
  rcases h with hstuck | howes
  · have hraises : ∀ (result : InputResult) (reason : Option InputReason),
        (ack r p.hop p.cryptoSequence result reason).wp s (fun _ _ => False) (fun _ t => Delivered t.log) := by
      intro result reason
      refine wp_mono (wp_and (ack_of_stuck hstuck _ _ _ _) (ack_raises _ _ _ _ s)) (fun _ _ h => h.1) fun _ t h => ?_
      rw [h.2]
      exact hdelivered
    refine ⟨fun _ => ?_, fun _ => ?_⟩
    · exact wp_seq (hraises _ _) fun _ _ h => h.elim
    · exact wp_seq (hraises _ _) fun _ _ h => h.elim
  · have hraise : ∀ t : Session ρ, t.log = s.log → Delivered t.log := fun t hlog => hlog ▸ hdelivered
    refine ⟨fun hwritten => ?_, fun _ => ?_⟩
    · obtain ⟨hwrote, hnone⟩ := howes.written hwritten
      refine wp_seq_mono (ack_wp p.cryptoSequence none (by decide) hdelivered howes.inQueue
        fun _ => ⟨p, hwrote, rfl, rfl⟩) (fun reply t h => ?_) fun _ t h => hraise t h
      obtain ⟨hd, hq, hinput, hclosed, hmono⟩ := h
      have hready : Ready rest t := ⟨hclosed.trans howes.isOpen, hd, hq, fun q hq => hnone q (hmono _ _ hq),
        hinput.trans howes.input⟩
      rw [wp_bind, addReplies, wp_modify, wp_pure]
      exact .inl ⟨rfl, hready.aloof (.silent rfl (.inr ⟨rfl, rfl, rfl, rfl⟩)) hready.isOpen⟩
    · refine wp_seq_mono (ack_wp p.cryptoSequence (some .inputWriteUncertain) (by decide) hdelivered
        howes.inQueue (fun h => by cases h)) (fun reply t h => ?_) fun _ t h => hraise t h
      obtain ⟨hd, hq, _, _, _⟩ := h
      have hadded : Queue [] { t with replies := t.replies ++ [reply] } :=
        hq.transfer (.refl _) rfl hq.acceptedBelow hq.queue hq.table
      rw [wp_bind, addReplies, wp_modify]
      refine wp_seq (drain_wp hd hadded) fun more v huv => ?_
      refine wp_seq_mono (aloof_addReplies more v) (fun _ w hvw => ?_) fun _ _ h => h.delivered huv.delivered
      rw [wp_bind, wp_discard]
      refine wp_mono (wp_and (aloof_close w) (close_grows w)) (fun _ x hwx => ?_) fun _ _ h => h.2.elim
      exact .inr ⟨rfl, .of_closed (hwx.1.delivered (hvw.delivered huv.delivered)) hwx.2.2.2⟩

/-- The whole loop, by induction on the queue. -/
theorem flushFrom_delivers (hpatient : Patient r) (queue : List PendingInput) (h : Ready queue s) :
    (flushFrom cfg r queue).wp s (fun _ t => Settled t) (fun _ t => Delivered t.log) := by
  induction queue generalizing s with
  | nil => exact h.settled
  | cons p rest ih =>
    have hready : Ready (p :: rest) { s with written := false } :=
      h.aloof (.silent rfl (.inr ⟨rfl, rfl, rfl, rfl⟩)) h.isOpen
    rw [flushFrom, wp_bind, wp_modify]
    refine wp_seq (flushTurn_delivers hpatient hready rfl) fun returns t h => ?_
    rcases h with ⟨rfl, hsettled⟩ | ⟨rfl, hdelivered, hrest⟩
    · rw [if_pos rfl]
      exact hsettled
    · rw [if_neg Bool.false_ne_true]
      refine wp_seq (flushOutcome_delivers hdelivered hrest) fun goesOn u h => ?_
      rcases h with ⟨rfl, hready⟩ | ⟨rfl, hsettled⟩
      · rw [if_pos rfl]
        exact ih hready
      · rw [if_neg Bool.false_ne_true]
        exact hsettled

end

end AgentBox.Stream.Attachment
