import AgentBox.Stream.Session
import AgentBox.Tickets.Calls

/-!
# Which output a session accounts for

Every cursor that a session moves past should be in an `OUTPUT` record it sent or in a `GAP` it
declared. A call of `output` plans a gap and a run of records that together reach from the session's
cursor to the end of the ring, sends them, and moves the cursor there.

The plan can miss bytes in one case. When the first replay finds output evicted, a second one follows,
and it runs the producer again. If that evicts more, the second replay is itself a gap; its frames are
empty, its range is not declared, and the cursor still moves to the end of the ring. `Retains` says that
this does not happen in a call; in a run of such calls everything is accounted for.
-/

namespace AgentBox.Stream

open Nat Method Wire

variable {answer : Site → Answer} {sent more : List Sent} {c : ℕ} {budget : ℤ}
    {records' : List OutputFrame} {gap' : Option Gap}
  {a b : ℕ} {gap : Option Gap} {records : List OutputFrame}

section
variable {κ α : Type} {s : Runtime κ} {Q : α → Runtime κ → Prop} {E : Failure → Runtime κ → Prop}

@[simp] theorem wp_getSession {Q : Session κ → Runtime κ → Prop} :
    (getSession : Op κ (Session κ)).wp s Q E ↔ Q s.session s := Iff.rfl

@[simp] theorem wp_update {Q : Unit → Runtime κ → Prop} (f : Session κ → Session κ) :
    (update f).wp s Q E ↔ Q () { s with session := f s.session } := Iff.rfl

@[simp] theorem wp_onSupervisor (m : Method Failure Supervisor α) :
    (onSupervisor m : Op κ α).wp s Q E ↔ m.wp s.supervisor
      (fun a t => Q a { s with supervisor := t }) (fun e t => E e { s with supervisor := t }) :=
  wp_zoom _ _ m

end

/-! ## Methods that leave the output alone -/

/-- The part of a session that says what has been published and what comes next. -/
structure OutputSide where
  lease : RuntimeAttachmentLease
  phase : Phase
  closed : Bool
  baseline : ℕ
  cursor : ℕ
  baselineRecords : List OutputFrame
  baselineGap : Option Gap
  baselineSent : Bool

variable {κ : Type} {s : Runtime κ} {E : Failure → Runtime κ → Prop}

def Session.outputSide (s : Session κ) : OutputSide :=
  ⟨s.lease, s.phase, s.closed, s.baseline, s.cursor, s.baselineRecords, s.baselineGap, s.baselineSent⟩

theorem Session.outputSide_enterWindow (s : Session κ) (now : ℚ) :
    (s.enterWindow now).outputSide = s.outputSide := by
  unfold enterWindow
  split <;> rfl

/-- Neither the supervisor nor the output side of the session has changed. -/
structure Quiet (s t : Runtime κ) : Prop where
  supervisor : t.supervisor = s.supervisor
  session : t.session.outputSide = s.session.outputSide

theorem Quiet.refl (s : Runtime κ) : Quiet s s := ⟨rfl, rfl⟩

theorem Quiet.trans {t r : Runtime κ} (h : Quiet s t) (h' : Quiet t r) : Quiet s r :=
  ⟨h'.supervisor.trans h.supervisor, h'.session.trans h.session⟩

theorem Quiet.phase {t : Runtime κ} (h : Quiet s t) : t.session.phase = s.session.phase :=
  congrArg OutputSide.phase h.session

theorem check_keeps (a : Answer) (active : Bool) : (check a active : Op κ ℚ).Keeps Eq := by
  intro s
  simp [check]

theorem emit_keeps (kind : FrameType) (payload : Payload) (a : Answer) :
    (emit kind payload a : Op κ Bytes).Keeps Quiet := by
  intro s
  simp only [emit, wp_bind, wp_getSession, wp_raiseIf, implies_true, true_and]
  intro _ _
  split
  · trivial
  · exact ⟨rfl, rfl⟩

theorem emitControl_keeps (kind : FrameType) (members : List (String × Scalar)) (a : Answer) :
    (emitControl kind members a : Op κ Sent).Keeps Quiet :=
  fun _ => (emit_keeps _ _ _).seq fun _ _ ht => ht

theorem ackUncertain_keeps (answer : Site → Answer) (n : ℕ) (pending : List PendingInput) :
    (ackUncertain answer n pending : Op κ (List Sent)).Keeps Quiet := by
  induction pending generalizing n with
  | nil => exact fun s => Quiet.refl s
  | cons p pending ih =>
    refine fun s => (emitControl_keeps _ _ _).seq fun wire t ht => ?_
    exact (ih (n + 1)).seq fun _ r hr => ht.trans hr

theorem dropInput_keeps (answer : Site → Answer) : (dropInput answer : Op κ (List Sent)).Keeps Quiet := by
  intro s
  rw [dropInput, wp_bind, wp_getSession]
  exact (ackUncertain_keeps answer 0 s.session.input).seq fun _ t ht => ⟨ht.supervisor, ht.session⟩

theorem keepInput_keeps (answer : Site → Answer) (state : RuntimeProbeState) :
    (keepInput answer state : Op κ (List Sent)).Keeps Quiet := by
  unfold keepInput
  split
  · exact dropInput_keeps answer
  · exact fun s => Quiet.refl s

theorem publishState_keeps (answer : Site → Answer) (state : RuntimeProbeState) :
    (publishState answer state : Op κ (List Sent)).Keeps Quiet := by
  intro s
  simp only [publishState, wp_bind, wp_getSession, wp_ite, wp_pure, wp_update]
  exact ⟨fun _ => .refl s, fun _ => (emitControl_keeps _ _ _).wp fun _ t ht => ⟨ht.supervisor, ht.session⟩⟩

/-- A closed session. -/
theorem wp_close {clear : Bool} {Q : Unit → Runtime κ → Prop}
    (hQ : ∀ t : Runtime κ, t.session.closed = true → Q () t) : (close clear : Op κ Unit).wp s Q E := by
  simp only [close, wp_bind, wp_update, wp_ite, wp_onSupervisor, wp_pure]
  exact ⟨fun _ => hQ _ rfl, fun _ => hQ _ rfl⟩

theorem terminal_keeps (answer : Site → Answer) (state : RuntimeProbeState) (exitCode : Option ℤ) :
    (terminal answer state exitCode : Op κ (List Sent)).Keeps fun _ t => t.session.closed = true := by
  refine fun s => (dropInput_keeps answer).seq fun _ t _ => ?_
  refine (emitControl_keeps _ _ _).seq fun _ t _ => (emitControl_keeps _ _ _).seq fun _ t _ => ?_
  rw [wp_bind]
  exact wp_close fun t ht => ht

/-- The observed state is published, or the session ends. -/
theorem processState_keeps (answer : Site → Answer) (e : RuntimeProbeEvidence) :
    (processState answer e : Op κ (List Sent)).Keeps fun s t => Quiet s t ∨ t.session.closed = true := by
  intro s
  rw [processState, wp_ite]
  refine ⟨fun _ => (terminal_keeps _ _ _).wp fun _ t ht => .inr ht, fun _ => ?_⟩
  refine (keepInput_keeps answer e.state).seq fun _ t ht => ?_
  refine (publishState_keeps answer e.state).seq fun _ r hr => ?_
  rw [wp_ite]
  refine ⟨fun _ => (emitControl_keeps _ _ _).seq fun _ t _ => ?_, fun _ => .inl (ht.trans hr)⟩
  rw [wp_bind]
  exact wp_close fun t ht => .inr ht

/-- A running process never ends the session. -/
theorem processState_keeps_of_running {e : RuntimeProbeEvidence} (h : e.state = .running) :
    (processState answer e : Op κ (List Sent)).Keeps Quiet := by
  intro s
  simp only [processState, keepInput, h, reduceCtorEq, or_self, ne_eq, not_true_eq_false, false_and,
    if_false, wp_bind, wp_pure]
  exact publishState_keeps answer .running s

/-! ## Plans -/

/-- The frames and gaps that account for a cursor. -/
def Content.covers (p : ℕ) : Content → Prop
  | .gap g => g.fromCursor ≤ p ∧ p < g.toCursor
  | .output r => r.endCursor + 1 - r.payload.length ≤ p ∧ p ≤ r.endCursor
  | .control _ => False

/-- Every cursor in `(a, b]` is accounted for. -/
def Accounted (sent : List Sent) (a b : ℕ) : Prop :=
  ∀ p, a < p → p ≤ b → ∃ x ∈ sent, x.content.covers p

theorem accounted_of_le (h : b ≤ a) : Accounted sent a b := by
  intro p ha hb
  omega

theorem Accounted.mono (h : Accounted sent a b) : Accounted (sent ++ more) a b := by
  intro p ha hb
  obtain ⟨x, hx, hp⟩ := h p ha hb
  exact ⟨x, List.mem_append_left more hx, hp⟩

theorem Accounted.append (h : Accounted sent a b) (h' : Accounted more b c) :
    Accounted (sent ++ more) a c := by
  intro p ha hc
  by_cases hb : p ≤ b
  · exact h.mono p ha hb
  · obtain ⟨x, hx, hp⟩ := h' p (by omega) hc
    exact ⟨x, List.mem_append_right sent hx, hp⟩

/-- A gap and records that reach from `a` to `b`. The gap of a redraw that was cut has no range. -/
def Plan (a : ℕ) (gap : Option Gap) (records : List OutputFrame) (b : ℕ) : Prop :=
  match gap with
  | none => Covers a records b
  | some g => (g.reason = .baselineRedraw ∧ Covers a records b) ∨
      (g.fromCursor ≤ a + 1 ∧ ∃ m, g.toCursor = m + 1 ∧ Covers m records b)

theorem Plan.append {more : List OutputFrame} (h : Plan a gap records b) (h' : Covers b more c) :
    Plan a gap (records ++ more) c := by
  cases gap with
  | none => exact Spans.append h h'
  | some g =>
    rcases h with ⟨hreason, h⟩ | ⟨hfrom, m, hto, h⟩
    · exact .inl ⟨hreason, h.append h'⟩
    · exact .inr ⟨hfrom, m, hto, h.append h'⟩

/-- A plan that is sent accounts for its range. -/
theorem Plan.accounted {gaps outputs : List Sent} (h : Plan a gap records b)
    (hgaps : gaps.map Sent.content = gap.toList.map .gap)
    (houtputs : outputs.map Sent.content = records.map .output) : Accounted (gaps ++ outputs) a b := by
  have hrecords : ∀ {m}, Covers m records b → Accounted outputs m b := by
    intro m hcovers p hm hb
    obtain ⟨r, hr, hstart, hend⟩ := hcovers.exists_mem hm hb
    obtain ⟨x, hx, hcontent⟩ := List.mem_map.mp (houtputs ▸ List.mem_map_of_mem hr)
    have hrange := r.range
    exact ⟨x, hx, by rw [hcontent]; exact ⟨by omega, hend⟩⟩
  cases gap with
  | none => exact Accounted.append (accounted_of_le (le_refl a)) (hrecords h)
  | some g =>
    rcases h with ⟨-, h⟩ | ⟨hfrom, m, hto, h⟩
    · exact Accounted.append (accounted_of_le (le_refl a)) (hrecords h)
    · refine Accounted.append (fun p ha hm => ?_) (hrecords h)
      have hmem : Content.gap g ∈ gaps.map Sent.content := by rw [hgaps]; simp
      obtain ⟨x, hx, hcontent⟩ := List.mem_map.mp hmem
      exact ⟨x, hx, by rw [hcontent]; exact ⟨by omega, by omega⟩⟩

/-- The end of records that follow others. -/
theorem endOf_append {more : List OutputFrame} (h : endOf records a = b) (h' : Covers b more c) :
    endOf (records ++ more) a = c := by
  unfold endOf at h ⊢
  have hend := Spans.end_eq h'
  rw [List.getLast?_append]
  cases hlast : more.getLast? with
  | none => rw [hlast] at hend; exact h.trans hend
  | some r => rw [hlast] at hend; exact hend

/-- The records of a plan end where it does. -/
theorem Plan.endOf_eq (h : Plan a gap records b) : endOf records b = b := by
  have hcovers : ∃ m, Covers m records b := by
    cases gap with
    | none => exact ⟨a, h⟩
    | some g =>
      rcases h with ⟨-, h⟩ | ⟨-, m, -, h⟩
      · exact ⟨a, h⟩
      · exact ⟨m, h⟩
  obtain ⟨m, hcovers⟩ := hcovers
  have hend := Spans.end_eq hcovers
  unfold endOf
  cases hlast : records.getLast? with
  | none => rfl
  | some r => rw [hlast] at hend; exact hend

theorem endOf_cons {r : OutputFrame} (h : records ≠ []) (b : ℕ) :
    endOf (r :: records) b = endOf records b := by
  cases records with
  | nil => exact absurd rfl h
  | cons x xs => simp [endOf, List.getLast?_cons_cons]

/-- Moving the first record into the gap keeps the plan and its end. -/
theorem selectFrom_ok (hplan : Plan a gap records b)
    (h : selectFrom answer budget records gap = .ok (records', gap')) :
    Plan a gap' records' b ∧ ∀ c, endOf records' c = endOf records c := by
  induction records generalizing gap with
  | nil =>
    obtain ⟨size, -, h⟩ := bind_eq_ok_iff.mp h
    split at h
    · cases h; exact ⟨hplan, fun _ => rfl⟩
    · cases h
  | cons omitted rest ih =>
    obtain ⟨size, -, h⟩ := bind_eq_ok_iff.mp h
    split at h
    · cases h; exact ⟨hplan, fun _ => rfl⟩
    split at h
    · cases h
    next hstop =>
    rw [not_or] at hstop
    have hmerged : Plan a (some ⟨gap.elim omitted.startCursor Gap.fromCursor,
        omitted.endCursor + 1, .slowClient⟩) rest b := by
      cases gap with
      | none => exact .inr ⟨hplan.1, omitted.endCursor, rfl, hplan.2.2⟩
      | some g =>
        rcases hplan with ⟨hreason, -⟩ | ⟨hfrom, m, -, h⟩
        · exact absurd (by simpa using hreason) hstop.2
        · exact .inr ⟨hfrom, omitted.endCursor, rfl, h.2.2⟩
    obtain ⟨hkept, hend⟩ := ih hmerged h
    exact ⟨hkept, fun c => (hend c).trans (endOf_cons hstop.1 c).symm⟩

theorem select_ok (hplan : Plan a gap records b)
    (h : select answer records gap budget = .ok (records', gap')) :
    Plan a gap' records' b ∧ ∀ c, endOf records' c = endOf records c := by
  unfold select at h
  split at h
  · cases h
  · exact selectFrom_ok hplan h

/-! ## One call of `output` -/

/-- If the first replay of a call finds output evicted, the producer evicts nothing more before the
second. -/
def Retains (s : Runtime κ) (c : OutputCall) : Prop :=
  let once := s.supervisor.afterProducer (c.produced false)
  s.session.baselineSent = true → s.session.cursor < once.ring.droppedUntil →
    (once.afterProducer (c.produced true)).ring.droppedUntil = once.ring.droppedUntil

section
variable {s : Runtime κ} {c : OutputCall} {E : Failure → Runtime κ → Prop}
  {Q : List Sent → Runtime κ → Prop} {d : AdmissionCall} {α : Type}

/-- The plan of a replay reaches from the cursor to the end of the ring. -/
theorem wp_replayLive {Q : OutputReplay × Option Gap → Runtime κ → Prop}
    (hcursor : s.session.cursor ≤ s.supervisor.ring.head) (hsent : s.session.baselineSent = true)
    (hretains : Retains s c)
    (hQ : ∀ v gap supervisor, Plan s.session.cursor gap v.frames supervisor.ring.head →
      Q (v, gap) { s with supervisor := supervisor }) :
    (replayLive c).wp s Q fun _ _ => True := by
  obtain ⟨ring, honce, hgrows⟩ := s.supervisor.afterProducer_eq (c.produced false)
  simp only [replayLive, replayAttached, wp_bind, wp_getSession, wp_onSupervisor]
  refine Supervisor.wp_replayOutput fun v hv => ?_
  have hhead : s.session.cursor ≤ (s.supervisor.afterProducer (c.produced false)).ring.head := by
    rw [honce]
    exact le_trans hcursor hgrows.head_le
  rcases OutputRing.replay_ok hv hhead with ⟨-, hkind, hcovers⟩ | ⟨hdropped, rfl⟩
  · obtain ⟨kind, frames, next, gapStart, gapEnd⟩ := v
    cases hkind
    exact hQ _ none _ hcovers
  · simp only [wp_bind, wp_getSession, wp_onSupervisor]
    refine Supervisor.wp_replayOutput fun again hagain => ?_
    have hkept := hretains hsent hdropped
    obtain ⟨ring', htwice, hgrows'⟩ :=
      (s.supervisor.afterProducer (c.produced false)).afterProducer_eq (c.produced true)
    have hreach : (s.supervisor.afterProducer (c.produced false)).ring.droppedUntil ≤
        ((s.supervisor.afterProducer (c.produced false)).afterProducer (c.produced true)).ring.head := by
      rw [← hkept]
      exact OutputRing.droppedUntil_le_head _
    rcases OutputRing.replay_ok hagain hreach with ⟨-, -, hcovers⟩ | ⟨hmore, -⟩
    · exact hQ _ (some _) _ (.inr ⟨le_refl _, _, rfl, hcovers⟩)
    · exact absurd hkept (ne_of_gt hmore)

theorem wp_takeLive {Q : Selection → Runtime κ → Prop}
    (hcursor : s.session.cursor ≤ s.supervisor.ring.head) (hsent : s.session.baselineSent = true)
    (hretains : Retains s c) (hQ : ∀ v supervisor, Plan s.session.cursor v.gap v.records v.nextCursor →
      v.nextCursor = supervisor.ring.head → Q v { s with supervisor := supervisor }) :
    (takeLive c).wp s Q fun _ _ => True := by
  rw [takeLive, wp_bind]
  refine wp_replayLive hcursor hsent hretains fun v gap supervisor hplan => ?_
  simp only [wp_bind, wp_liftExcept, wp_get, wp_pure, implies_true, and_true]
  rintro ⟨records, gap'⟩ hselect
  exact hQ _ supervisor (select_ok hplan hselect).1 rfl

/-- The baseline, from the beginning of the stream to the last record selected for it. -/
theorem wp_takeBaseline {Q : Selection → Runtime κ → Prop} {origin : ℕ}
    (hplan : Plan origin s.session.baselineGap s.session.baselineRecords
      (endOf s.session.baselineRecords s.session.baseline))
    (hQ : ∀ v, Plan origin v.gap v.records v.nextCursor →
      v.nextCursor = endOf s.session.baselineRecords s.session.baseline →
      Q v { s with session := { s.session with
        baselineSent := true, baselineRecords := [], baselineGap := none } }) :
    (takeBaseline c).wp s Q fun _ _ => True := by
  simp only [takeBaseline, wp_bind, wp_getSession, wp_liftExcept, wp_update, wp_pure, implies_true, and_true]
  rintro ⟨records, gap⟩ hselect
  obtain ⟨hkept, hend⟩ := select_ok hplan hselect
  refine hQ ⟨records, gap, endOf records s.session.baseline⟩ ?_ (hend _)
  rw [hend]
  exact hkept

/-- The frames sent for a gap. -/
theorem wp_sendGap {gap : Option Gap}
    (hQ : ∀ sent t, sent.map Sent.content = gap.toList.map .gap → Quiet s t → Q sent t) :
    (sendGap c gap).wp s Q fun _ _ => True := by
  cases gap with
  | none => exact hQ [] s rfl (.refl s)
  | some g => exact (emit_keeps _ _ _).seq fun _ t ht => hQ _ t rfl ht

/-- The frames sent for records. -/
theorem wp_sendRecords {profile : CryptoProfile κ} {n : ℕ} {records : List OutputFrame}
    (hQ : ∀ sent t, sent.map Sent.content = records.map .output → Quiet s t → Q sent t) :
    (sendRecords profile c n records).wp s Q fun _ _ => True := by
  induction records generalizing n s Q with
  | nil => exact hQ [] s rfl (.refl s)
  | cons r records ih =>
    refine (check_keeps _ _).discard.pass fun _ => ?_
    rw [wp_bind, wp_getSession]
    split
    · trivial
    · next envelope crypto _ =>
      rw [wp_bind, wp_update]
      refine (emit_keeps _ _ _).seq fun wire t ht => ?_
      rw [wp_bind]
      refine ih fun sent t' hsent ht' => ?_
      refine hQ _ t' (by simp [hsent]) (Quiet.trans ⟨ht.supervisor, ht.session⟩ ht')

/-- Before its first publication a session has a plan from the beginning of the stream. -/
structure Awaits (origin : ℕ) (s : Runtime κ) : Prop where
  cursor : s.session.cursor ≤ origin
  plan : Plan origin s.session.baselineGap s.session.baselineRecords
    (endOf s.session.baselineRecords s.session.baseline)
  reach : endOf s.session.baselineRecords s.session.baseline ≤ s.supervisor.ring.head
  /-- until the commit the plan ends at the baseline -/
  pending : s.session.phase ≠ .committed →
    endOf s.session.baselineRecords s.session.baseline = s.session.baseline

/-- Afterwards everything up to the cursor is accounted for. -/
structure Follows (origin : ℕ) (sent : List Sent) (s : Runtime κ) : Prop where
  accounted : Accounted sent origin s.session.cursor
  reach : s.session.cursor ≤ s.supervisor.ring.head

/-- What a session that is not closed keeps up. -/
structure Tracks (origin : ℕ) (sent : List Sent) (s : Runtime κ) : Prop where
  awaits : s.session.baselineSent = false → Awaits origin s
  follows : s.session.baselineSent = true → Follows origin sent s

variable {t : Runtime κ} {origin : ℕ} {sent more : List Sent}

/-- Only the output side and the end of the ring matter, and more may be sent. -/
theorem Tracks.mono (h : Tracks origin sent s) (hsession : t.session.outputSide = s.session.outputSide)
    (hhead : s.supervisor.ring.head ≤ t.supervisor.ring.head) : Tracks origin (sent ++ more) t := by
  injection hsession with _ hphase _ hbaseline hcursor hrecords hgap hsent
  refine ⟨fun hfalse => ?_, fun htrue => ?_⟩
  · obtain ⟨h1, h2, h3, h4⟩ := h.awaits (hsent ▸ hfalse)
    exact ⟨hcursor ▸ h1, by rw [hgap, hrecords, hbaseline]; exact h2,
      by rw [hrecords, hbaseline]; exact le_trans h3 hhead,
      by rw [hphase, hrecords, hbaseline]; exact h4⟩
  · obtain ⟨h1, h2⟩ := h.follows (hsent ▸ htrue)
    exact ⟨by rw [hcursor]; exact h1.mono, by rw [hcursor]; exact le_trans h2 hhead⟩

theorem Tracks.quiet (h : Tracks origin sent s) (hquiet : Quiet s t) : Tracks origin (sent ++ more) t :=
  h.mono hquiet.session (by rw [hquiet.supervisor])

theorem Tracks.still (h : Tracks origin sent s) (hquiet : Quiet s t) : Tracks origin sent t := by
  have htracks : Tracks origin (sent ++ []) t := h.quiet hquiet
  rwa [List.append_nil] at htracks

theorem Retains.quiet (h : Retains s c) (hquiet : Quiet s t) : Retains t c := by
  have hsession := hquiet.session
  injection hsession with _ _ _ _ hcursor _ _ hsent
  unfold Retains at h ⊢
  rw [hquiet.supervisor, hcursor, hsent]
  exact h

/-- What is selected reaches from what is accounted for to a new cursor. -/
theorem wp_takeOutput {Q : Selection → Runtime κ → Prop} (h : Tracks origin sent s) (hretains : Retains s c)
    (hQ : ∀ v t, (∃ a, Accounted sent origin a ∧ Plan a v.gap v.records v.nextCursor) →
      v.nextCursor ≤ t.supervisor.ring.head → t.session.baselineSent = true → Q v t) :
    (takeOutput c).wp s Q fun _ _ => True := by
  rw [takeOutput, wp_bind, wp_getSession, wp_ite]
  refine ⟨fun hsent => ?_, fun hsent => ?_⟩
  · obtain ⟨haccounted, hreach⟩ := h.follows hsent
    refine wp_takeLive hreach hsent hretains fun v supervisor hplan hnext => ?_
    exact hQ v _ ⟨_, haccounted, hplan⟩ (le_of_eq hnext) hsent
  · obtain ⟨hcursor, hplan, hreach, -⟩ := h.awaits (eq_false_of_ne_true hsent)
    refine wp_takeBaseline hplan fun v hplan hnext => ?_
    exact hQ v _ ⟨origin, accounted_of_le (le_refl _), hplan⟩ (hnext ▸ hreach) rfl

theorem wp_publishOutput {profile : CryptoProfile κ} {e : RuntimeProbeEvidence}
    (h : Tracks origin sent s) (hretains : Retains s c)
    (hQ : ∀ frames t, (t.session.closed = false → Tracks origin (sent ++ frames) t) → Q frames t) :
    (publishOutput profile c e).wp s Q fun _ _ => True := by
  refine (check_keeps _ _).discard.pass fun _ => ?_
  by_cases hrun : e.state = .running
  · refine (processState_keeps_of_running hrun).seq fun states t hquiet => ?_
    rw [wp_ite]
    refine ⟨fun _ => hQ _ t fun _ => h.quiet hquiet, fun _ => ?_⟩
    rw [wp_bind]
    refine wp_takeOutput (h.still hquiet) (hretains.quiet hquiet) fun v t hplan hreach hsent => ?_
    rw [wp_bind]
    refine wp_sendGap fun gaps t₁ hgaps hquiet₁ => ?_
    rw [wp_bind]
    refine wp_sendRecords fun outputs t₂ houtputs hquiet₂ => ?_
    refine (check_keeps _ _).discard.pass fun _ => ?_
    rw [wp_bind, wp_update, wp_pure]
    have hboth := hquiet₁.trans hquiet₂
    have hside := hboth.session
    injection hside with _ _ _ _ _ _ _ hsame
    obtain ⟨a, haccounted, hplan⟩ := hplan
    refine hQ _ _ fun _ => ⟨fun hfalse => ?_, fun _ => ⟨?_, ?_⟩⟩
    · cases (hsame.trans hsent).symm.trans hfalse
    · exact haccounted.append (hplan.accounted hgaps houtputs)
    · rw [hboth.supervisor]
      exact hreach
  · refine (processState_keeps _ _).seq fun states t hstate => ?_
    rw [wp_ite]
    refine ⟨fun _ => hQ _ t fun hopen => ?_, fun hnot => absurd (.inr hrun) hnot⟩
    rcases hstate with hquiet | hclosed
    · exact h.quiet hquiet
    · rw [hclosed] at hopen
      cases hopen

/-- An exception closes the session. -/
theorem wp_closing {m : Op κ α} {Q : α → Runtime κ → Prop} (h : m.wp s Q fun _ _ => True)
    (hE : ∀ e t, t.session.closed = true → E e t) : (tryCatch m closeAndRaise : Op κ α).wp s Q E := by
  rw [wp_tryCatch]
  refine wp_mono h (fun _ _ hQ => hQ) fun e t _ => ?_
  rw [closeAndRaise, wp_bind]
  exact wp_close fun t ht => hE _ t ht

/-- The guard's own steps change nothing. -/
theorem wp_guarded {requireWriter requireRunning : Bool} {enter leave : Answer}
    {evidence : Option RuntimeProbeEvidence} {body : RuntimeProbeEvidence → Op κ α}
    {Q : α → Runtime κ → Prop} (h : ∀ e, (body e).wp s Q fun _ _ => True) :
    (guarded requireWriter requireRunning enter leave evidence body).wp s Q fun _ _ => True := by
  rw [guarded, wp_bind, wp_getSession, wp_bind, wp_onSupervisor]
  refine Supervisor.enterGuard_keeps.wp fun e t ht => ?_
  subst ht
  refine wp_seq (h e) fun a t hQ => ?_
  rw [wp_bind, wp_onSupervisor]
  exact Supervisor.checkAttachment_keeps.wp fun _ t' ht => ht ▸ hQ

/-- A check is passed by an open session only. -/
theorem wp_check {a : Answer} {active : Bool} {Q : ℚ → Runtime κ → Prop}
    (hQ : ∀ now, s.session.closed = false → Q now s) : (check a active : Op κ ℚ).wp s Q fun _ _ => True := by
  simp only [check, wp_bind, wp_getSession, wp_liftExcept, wp_raiseIf, wp_pure, implies_true, true_and,
    and_true]
  intro now _ hopen _ _ _ _
  exact hQ now (by simpa using fun h => hopen (.inl h))

theorem wp_tryOutput {profile : CryptoProfile κ}
    (h : s.session.closed = false → Tracks origin sent s) (hretains : Retains s c)
    (hQ : ∀ frames t, (t.session.closed = false → Tracks origin (sent ++ frames) t) → Q frames t) :
    (tryOutput profile c).wp s Q fun _ _ => True := by
  rw [tryOutput, wp_bind]
  refine wp_check fun now hopen => ?_
  rw [wp_bind, wp_update, wp_bind, wp_getSession, wp_ite]
  have hquiet : Quiet s { s with session := s.session.enterWindow now } :=
    ⟨rfl, s.session.outputSide_enterWindow now⟩
  refine ⟨fun _ => hQ _ _ fun _ => (h hopen).quiet hquiet, fun _ => ?_⟩
  rw [wp_bind, wp_raiseIf]
  refine ⟨fun _ => trivial, fun _ => wp_guarded fun e => ?_⟩
  exact wp_publishOutput ((h hopen).still hquiet) (hretains.quiet hquiet) hQ

/-- A call that returns keeps track of the output, and one that raises closes the session. -/
theorem wp_output (profile : CryptoProfile κ) (h : s.session.closed = false → Tracks origin sent s)
    (hretains : Retains s c)
    (hQ : ∀ frames t, (t.session.closed = false → Tracks origin (sent ++ frames) t) → Q frames t)
    (hE : ∀ e t, t.session.closed = true → E e t) : (output profile c).wp s Q E :=
  wp_closing (wp_tryOutput h hretains hQ) hE

/-! ## Admission -/

/-- The live frames after the baseline reach to the end of the ring. -/
theorem wp_verifyPrecommitOutput {p : Production} {a : Answer} {Q : List OutputFrame → Runtime κ → Prop}
    (hQ : ∀ live ring, s.supervisor.ring.Grows ring →
      (s.session.baseline ≤ s.supervisor.ring.head → Covers s.session.baseline live ring.head) →
      Q live { s with supervisor := { s.supervisor with ring := ring } }) :
    (verifyPrecommitOutput p a).wp s Q fun _ _ => True := by
  obtain ⟨ring, hafter, hgrows⟩ := s.supervisor.afterProducer_eq p
  simp only [verifyPrecommitOutput, replayPending, wp_bind, wp_getSession, wp_onSupervisor]
  refine Supervisor.wp_replayOutput fun v hv => ?_
  rw [hafter] at hv ⊢
  simp only [wp_raiseIf, wp_liftExcept, wp_pure, implies_true, true_and, and_true]
  intro hkind _ _ _
  refine hQ v.frames ring hgrows fun hbaseline => ?_
  rcases OutputRing.replay_ok hv (le_trans hbaseline hgrows.head_le) with ⟨-, -, hcovers⟩ | ⟨-, rfl⟩
  · exact hcovers
  · exact absurd (by simp) hkind

section
variable (h : Tracks origin sent s)
include h

/-- A session before its commit may enter another phase. -/
theorem Tracks.enter (hphase : s.session.phase ≠ .committed) (p : Phase) :
    Tracks origin sent { s with session := { s.session with phase := p } } := by
  refine ⟨fun hfalse => ?_, fun htrue => ?_⟩
  · obtain ⟨hcursor, hplan, hreach, hpending⟩ := h.awaits hfalse
    exact ⟨hcursor, hplan, hreach, fun _ => hpending hphase⟩
  · obtain ⟨haccounted, hreach⟩ := h.follows htrue
    exact ⟨haccounted, hreach⟩

theorem Tracks.grow {ring : OutputRing} (hgrows : s.supervisor.ring.Grows ring) :
    Tracks origin sent { s with supervisor := { s.supervisor with ring := ring } } := by
  rw [← List.append_nil sent]
  exact h.mono rfl hgrows.head_le

/-- With the commit the live frames join the baseline. -/
theorem Tracks.join (hphase : s.session.phase ≠ .committed)
    {live : List OutputFrame} (hhead : s.supervisor.ring.head ≤ t.supervisor.ring.head)
    (hlive : s.session.baseline ≤ s.supervisor.ring.head →
      Covers s.session.baseline live t.supervisor.ring.head)
    (hsession : t.session.outputSide = { s.session.outputSide with
      baselineRecords := s.session.baselineRecords ++ live, phase := .committed }) :
    Tracks origin sent t := by
  injection hsession with _ hcommitted _ hbaseline hcursor hrecords hgap hsent
  refine ⟨fun hfalse => ?_, fun htrue => ?_⟩
  · obtain ⟨hbefore, hplan, hreach, hpending⟩ := h.awaits (hsent.symm.trans hfalse)
    have hend := hpending hphase
    rw [hend] at hplan hreach
    have hjoined := endOf_append hend (hlive hreach)
    refine ⟨hcursor ▸ hbefore, ?_, ?_, fun hne => absurd hcommitted hne⟩
    · rw [hgap, hrecords, hbaseline]
      exact hjoined.symm ▸ hplan.append (hlive hreach)
    · rw [hrecords, hbaseline]
      exact le_of_eq hjoined
  · obtain ⟨haccounted, hreach⟩ := h.follows (hsent.symm.trans htrue)
    exact ⟨by rw [hcursor]; exact haccounted, by rw [hcursor]; exact le_trans hreach hhead⟩

theorem wp_receiveKey {reply : FrameType} {phase : Phase} {Q : Bytes → Runtime κ → Prop}
    (hphase : s.session.phase ≠ .committed) (hQ : ∀ raw t, Tracks origin sent t → Q raw t) :
    (receiveKey reply phase d).wp s Q fun _ _ => True := by
  unfold receiveKey
  split
  · trivial
  · refine (emit_keeps _ _ _).seq fun raw t ht => ?_
    rw [wp_bind, wp_update, wp_pure]
    exact hQ raw _ ((h.still ht).enter (ht.phase ▸ hphase) phase)

theorem wp_streamReady {Q : Bytes → Runtime κ → Prop}
    (hphase : s.session.phase ≠ .committed) (hQ : ∀ raw t, Tracks origin sent t → Q raw t) :
    (streamReady d).wp s Q fun _ _ => True := by
  refine wp_guarded fun _ => (check_keeps _ _).discard.pass fun _ => ?_
  rw [wp_bind, wp_discard]
  refine wp_verifyPrecommitOutput fun live ring hgrows _ => ?_
  rw [wp_bind, wp_getSession]
  refine (emit_keeps _ _ _).seq fun raw t ht => (check_keeps _ _).discard.pass fun _ => ?_
  rw [wp_bind, wp_update, wp_pure]
  exact hQ raw _ (((h.grow hgrows).still ht).enter (ht.phase ▸ hphase) .waitCommit)

theorem wp_admissionCommit {Q : Bytes → Runtime κ → Prop}
    (hphase : s.session.phase ≠ .committed) (hQ : ∀ raw t, Tracks origin sent t → Q raw t) :
    (admissionCommit d).wp s Q fun _ _ => True := by
  refine wp_unless (fun _ => trivial) fun _ => wp_guarded fun _ => ?_
  refine (check_keeps _ _).discard.pass fun _ => ?_
  rw [wp_bind]
  refine wp_verifyPrecommitOutput fun live ring hgrows hlive => ?_
  rw [wp_bind, wp_getSession, wp_bind, wp_onSupervisor]
  refine Supervisor.commitRuntimeAttachment_keeps.wp fun _ supervisor hring => ?_
  rw [wp_bind, wp_update, wp_bind, wp_getSession]
  refine (emit_keeps _ _ _).seq fun raw t ht => (check_keeps _ _).discard.pass fun _ => ?_
  rw [wp_bind, wp_update, wp_pure]
  -- the commit of the supervisor leaves the ring as the replay found it
  have hring : t.supervisor.ring = ring := ht.supervisor ▸ hring
  refine hQ raw _ (h.join hphase (hring ▸ hgrows.head_le) (hring ▸ hlive) ?_)
  have hside := ht.session
  injection hside with hlease _ hopen hbaseline hcursor hrecords hgap hsent
  simp [Session.outputSide, hlease, hopen, hbaseline, hcursor, hrecords, hgap, hsent]

end

/-- A frame of the handshake is answered, or it closes the session. -/
theorem wp_receive {kind : FrameType} {Q : Bytes → Runtime κ → Prop}
    (h : s.session.closed = false → Tracks origin sent s)
    (hQ : ∀ raw t, Tracks origin sent t → Q raw t) (hE : ∀ e t, t.session.closed = true → E e t) :
    (receive kind d).wp s Q E := by
  refine wp_closing ?_ hE
  rw [wp_bind, wp_discard]
  refine wp_check fun _ hopen => ?_
  rw [wp_bind, wp_getSession]
  have htracks := h hopen
  split
  · next hphase => exact wp_receiveKey htracks (by simp [hphase]) hQ
  · next hphase => exact wp_receiveKey htracks (by simp [hphase]) hQ
  · next hphase => exact wp_streamReady htracks (by simp [hphase]) hQ
  · next hphase => exact wp_admissionCommit htracks (by simp [hphase]) hQ
  · exact (check_keeps _ _).discard.pass fun _ => trivial

end

/-! ## Opening -/

section
variable {s : Runtime κ} {o : OpenCall κ} {E : Failure → Runtime κ → Prop}
  {cursor : ℕ} {Q : List OutputFrame × Option Gap × ℕ → Runtime κ → Prop}

theorem afterProducer_of_unattached {s : Supervisor} (h : s.attachment = none) (p : Production) :
    s.afterProducer p = s := by
  simp [Supervisor.afterProducer, Supervisor.runsProducer, h]

/-- Nobody writes yet, so a replay leaves the ring as it is. -/
theorem wp_replayPending {p : Production} {Q : OutputReplay → Runtime κ → Prop}
    (hnone : s.supervisor.attachment = none) (hQ : ∀ v, s.supervisor.ring.replay cursor = .ok v → Q v s) :
    (replayPending cursor p).wp s Q fun _ _ => True := by
  rw [replayPending, wp_bind, wp_getSession, wp_onSupervisor]
  refine Supervisor.wp_replayOutput fun v hv => ?_
  rw [afterProducer_of_unattached hnone] at hv ⊢
  exact hQ v hv

/-- A resumed stream starts after the cursor of the client. -/
theorem wp_resumeOutput (hnone : s.supervisor.attachment = none)
    (hQ : ∀ records gap, Plan cursor gap records s.supervisor.ring.head →
      Q (records, gap, s.supervisor.ring.head) { s with session := { s.session with cursor := cursor } }) :
    (resumeOutput o cursor).wp s Q fun _ _ => True := by
  simp only [resumeOutput, wp_bind, wp_get, wp_raiseIf, implies_true, true_and]
  intro hcursor
  rw [wp_update]
  refine wp_replayPending hnone fun v hv => ?_
  rcases OutputRing.replay_ok hv (Nat.le_of_not_lt hcursor) with ⟨-, hkind, hcovers⟩ | ⟨-, rfl⟩
  · obtain ⟨kind, frames, next, gapStart, gapEnd⟩ := v
    cases hkind
    exact hQ frames none hcovers
  · rw [wp_bind]
    refine wp_replayPending hnone fun again hagain => ?_
    rcases OutputRing.replay_ok hagain (OutputRing.droppedUntil_le_head _) with
      ⟨-, -, hcovers⟩ | ⟨hmore, -⟩
    · exact hQ again.frames (some _) (.inr ⟨le_refl _, _, rfl, hcovers⟩)
    · exact absurd hmore (lt_irrefl _)

/-- A fresh stream starts with a redraw. -/
theorem wp_redrawOutput (hQ : ∀ records gap ring, Plan s.supervisor.ring.head gap records ring.head →
      Q (records, gap, ring.head) { s with supervisor := { s.supervisor with ring := ring } }) :
    (redrawOutput o).wp s Q fun _ _ => True := by
  rw [redrawOutput, wp_bind, wp_getSession, wp_bind, wp_tryCatch, wp_onSupervisor]
  refine Supervisor.wp_publishFreshRedraw fun v ring hframes _ hbaseline => ?_
  rw [wp_pure, hbaseline]
  refine hQ v.frames _ ring ?_
  have hcovers : Covers s.supervisor.ring.head v.frames ring.head := hframes.spans
  split
  · exact .inl ⟨rfl, hcovers⟩
  · exact hcovers

/-- The first output of a session is planned from the beginning of its stream. -/
theorem wp_prepareOutput {Q : Unit → Runtime κ → Prop} (hnone : s.supervisor.attachment = none)
    (hcursor : s.session.cursor = 0) (hsent : s.session.baselineSent = false)
    (hQ : ∀ t, Tracks (o.resumeCursor.getD s.supervisor.ring.head) [] t → Q () t) :
    (prepareOutput o).wp s Q fun _ _ => True := by
  have hrest : ∀ (t : Runtime κ) {origin : ℕ} {gap : Option Gap} {records : List OutputFrame},
      t.session.cursor ≤ origin → t.session.baselineSent = false →
      Plan origin gap records t.supervisor.ring.head →
      ∀ gap' records', select o.answer records gap 65536 = .ok (records', gap') →
      Tracks origin [] { t with session := { t.session with
        baseline := t.supervisor.ring.head, baselineRecords := records', baselineGap := gap' } } := by
    intro t origin gap records hcursor hsent hplan gap' records' hselect
    obtain ⟨hkept, hend⟩ := select_ok hplan hselect
    have hhead := (hend _).trans hplan.endOf_eq
    refine ⟨fun _ => ⟨hcursor, ?_, le_of_eq hhead, fun _ => hhead⟩, fun htrue => ?_⟩
    · change Plan origin gap' records' (endOf records' t.supervisor.ring.head)
      rw [hhead]
      exact hkept
    · cases hsent.symm.trans htrue
  rw [prepareOutput, wp_bind, initialOutput]
  cases hresume : o.resumeCursor with
  | some cursor =>
    rw [hresume] at hQ
    refine wp_resumeOutput hnone fun records gap hplan => ?_
    simp only [wp_bind, wp_update, wp_liftExcept, implies_true, and_true]
    rintro ⟨records', gap'⟩ hselect
    exact hQ _ (hrest { s with session := { s.session with cursor := cursor } } (le_refl _) hsent
      hplan gap' records' hselect)
  | none =>
    rw [hresume] at hQ
    refine wp_redrawOutput fun records gap ring hplan => ?_
    simp only [wp_bind, wp_update, wp_liftExcept, implies_true, and_true]
    rintro ⟨records', gap'⟩ hselect
    exact hQ _ (hrest { s with supervisor := { s.supervisor with ring := ring } }
      (hcursor ▸ zero_le _) hsent hplan gap' records' hselect)

theorem wp_construct {Q : Unit → Runtime κ → Prop} (hnone : s.supervisor.attachment = none)
    (hcursor : s.session.cursor = 0) (hsent : s.session.baselineSent = false)
    (hQ : ∀ t, Tracks (o.resumeCursor.getD s.supervisor.ring.head) [] t → Q () t) :
    (construct o).wp s Q fun _ _ => True := by
  refine wp_guarded fun _ => ?_
  rw [wp_bind]
  refine wp_prepareOutput hnone hcursor hsent fun t ht => ?_
  rw [wp_raiseIf]
  exact ⟨fun _ => trivial, fun _ => hQ t ht⟩

end

namespace Supervisor

/-- An attachment is reserved when nobody writes. -/
theorem reserveRuntimeAttachment_keeps {lease : RuntimeAttachmentLease} {a : Answer} {ports : Bool} :
    (reserveRuntimeAttachment lease a ports).Keeps fun _ t => t.attachment = none := by
  refine fun s => checkAttachment_keeps.pass fun _ => ?_
  simp only [wp_bind, wp_get, wp_raiseIf, wp_modify, implies_true, true_and]
  intro _ hbusy _
  rw [not_or] at hbusy
  simpa using hbusy.2

end Supervisor

/-! ## Runs -/

namespace Channel

variable {profile : CryptoProfile κ} {t : Channel κ}

/-- A channel whose session is open accounts for its output. -/
def Sound (t : Channel κ) : Prop :=
  t.runtime.session.closed = false → Tracks t.origin t.sent t.runtime

theorem sound_opened (s : Start κ) : (opened s).Sound := by
  intro hopen
  unfold opened at hopen ⊢
  simp only at hopen ⊢
  split
  · next reserved admission hreserved hadmission =>
    simp only [hreserved, hadmission] at hopen ⊢
    have hnone := ok_of_wp (Supervisor.reserveRuntimeAttachment_keeps s.supervisor) hreserved
    generalize ((Supervisor.reserveRuntimeAttachment s.call.lease s.reserve s.ports).call
      s.supervisor).2 = reserved at hnone hopen ⊢
    -- output that has come in since the reservation does not attach a writer
    obtain ⟨ring, hproduce, -⟩ := reserved.produce_eq s.between
    have hwp := wp_iff_call.mp (wp_construct (o := s.call)
      (s := ⟨reserved.produce s.between, s.call.session admission⟩) (by rw [hproduce]; exact hnone)
      rfl rfl (Q := fun _ t => Tracks _ [] t) fun t ht => ht)
    split
    · next r hcall => exact hwp.1 _ r hcall
    · next hcall => simp only [hcall] at hopen; cases hopen
  · next hnone =>
    split at hopen
    · next hreserved hadmission => exact absurd hadmission (hnone _ _ hreserved)
    · cases hopen

theorem sound_step (h : t.Sound) {e : Event κ}
    (he : ∀ c, e = .output c → Retains t.runtime c) : (step profile t e).Sound := by
  intro hopen
  cases e with
  | append chunks =>
    obtain ⟨ring, hproduce, hgrows⟩ := t.runtime.supervisor.produce_eq chunks
    simp only [step, hproduce] at hopen ⊢
    exact (h hopen).grow hgrows
  | receive kind d =>
    have hwp : (receive kind d).wp t.runtime (fun _ r => r.session.closed = false → Tracks t.origin t.sent r)
        (fun _ r => r.session.closed = false → Tracks t.origin t.sent r) :=
      wp_receive h (fun _ _ hr _ => hr) fun _ _ hclosed hr => by rw [hclosed] at hr; cases hr
    exact state_of_wp hwp hopen
  | output c =>
    have hwp := wp_iff_call.mp (wp_output profile h (he c rfl) (fun _ _ hr => hr) fun _ _ hr => hr)
    unfold step at hopen ⊢
    rcases hcall : (output profile c).call t.runtime with ⟨e | frames, r⟩
    · simp only [hcall, hwp.2 e r hcall] at hopen
      cases hopen
    · simp only [hcall] at hopen ⊢
      exact hwp.1 frames r hcall hopen
  | interlude i =>
    have hbefore := (Bool.or_eq_false_iff.mp hopen).1
    have hside : (step profile t (.interlude i)).runtime.session.outputSide =
        t.runtime.session.outputSide := by
      simp only [step, Interlude.apply, Session.outputSide] at hopen ⊢
      rw [hopen, hbefore]
    have hmoved : Tracks t.origin (t.sent ++ []) (step profile t (.interlude i)).runtime :=
      (h hbefore).mono hside (le_refl _)
    rwa [List.append_nil] at hmoved

/-- In a run whose calls of `output` retain what they replay, every cursor that an open session has
moved past was sent in a record or declared as a gap. -/
theorem output_accounted (profile : CryptoProfile κ) (s : Start κ) (events : List (Event κ)) (i : ℕ)
    (hretains : ∀ k < i, ∀ c, events[k]? = some (.output c) → Retains (reached profile s events k).runtime c)
    (hopen : (reached profile s events i).runtime.session.closed = false) :
    Accounted (reached profile s events i).sent (reached profile s events i).origin
      (reached profile s events i).runtime.session.cursor := by
  have hsound : (reached profile s events i).Sound := by
    refine invariant_run (sound_opened s) fun k hk e hevent h => sound_step h fun c hc => ?_
    exact hretains k hk c (hc ▸ hevent)
  have htracks := hsound hopen
  cases hsent : (reached profile s events i).runtime.session.baselineSent with
  | false => exact accounted_of_le (htracks.awaits hsent).cursor
  | true => exact (htracks.follows hsent).accounted

end Channel

/-! ## A sample session -/

namespace Sample

def lease : RuntimeAttachmentLease := ⟨1, Tickets.sampleClaims, "7", 1000⟩

/-- Clock and authorities agree. -/
def granted : Answer := ⟨some 1, true, true, 0⟩

def evidence : RuntimeProbeEvidence := ⟨.running, none⟩

/-- The ring of a new supervisor. -/
def ring : OutputRing := (OutputRing.init 262144).toOption.get rfl

/-- A process that runs detached, before any output. -/
def supervisor : Supervisor where
  ring := ring
  state := .detached
  binding := .ofClaims Tickets.sampleClaims
  runtimeEpoch := "7"
  attachment := none
  runtimePending := none
  lastAttachmentId := none
  outputSource := true
  producer := true

/-- An empty screen is captured. -/
def redraw : Supervisor.Redraw where
  enter := granted
  evidence := some evidence
  started := some 1
  capture := .ok (some ⟨[], false, by decide, by decide⟩)
  finished := some 1
  inside := granted
  sameSource := true
  post := some evidence
  leave := granted

def idle : Production := ⟨[], .int 0⟩

/-- A fresh session. -/
def start : Channel.Start Unit where
  supervisor := supervisor
  reserve := granted
  ports := true
  between := []
  call :=
    { lease := lease
      epoch := "7"
      resume := none
      started := 0
      crypto := ()
      now := 0
      answer := fun _ => granted
      evidence := some evidence
      redraw := redraw
      produced := fun _ => idle
      keyed := true }

def bound : Record := (Channel.opened start).runtime.session.bound []

variable (n : ℕ)

def repeated (c : Char) : Scalar := .text (String.ofList (List.replicate n c))

def noise : List (String × Scalar) :=
  [("noise_protocol", .text "Noise_NX_25519_AESGCM_SHA256"), ("crypto_envelope_version", .int 1)]

def keyAttest : Record :=
  recordOf (bound.items ++ noise ++ [("runtime_attestation_x25519_fingerprint", repeated 64 '1'),
    ("runtime_ephemeral_public_key", repeated 43 'A'), ("noise_message_2", repeated 171 'A')])

def keyConfirmAck : Record :=
  recordOf (bound.items.filter (·.1 ≠ "mode") ++ noise ++ [("protocol_id", .text "agentbox-waw/v1"),
    ("ciphertext", repeated 64 'A'), ("status", .text "verified"),
    ("transcript_context_hash", repeated 64 '2')])

/-- A frame of the handshake arrives, and everything is in order. -/
def handshake (kind : FrameType) (keyReply : Option Record) : Event Unit :=
  .receive kind
    { arrival := granted
      keyReply := keyReply
      fenced := true
      now := 1
      enter := granted
      evidence := some evidence
      first := granted
      verify := granted
      produced := idle
      commitEnter := granted
      commitEvidence := some evidence
      commitInside := granted
      opening := ⟨true, true, true⟩
      commitLeave := granted
      fence := String.ofList (List.replicate 64 '3')
      reply := granted
      last := granted
      leave := granted }

/-- A call of `output` in which every run of the producer appends `n` line feeds. -/
def feeds : OutputCall :=
  ⟨65536, fun _ => granted, some evidence, fun _ => ⟨[List.replicate n 10], .int n⟩⟩

/-- Every record becomes the envelope of one byte at cursor 1. -/
def profile : CryptoProfile Unit where
  encryptOutput := fun _ _ _ => some (
    [65, 87, 67, 69, 1, 2, 0, 0, 0, 0, 0, 0, 0, 0, 0, 1, 0, 0, 0, 0, 0, 0, 0, 1, 0, 0, 0, 17] ++
      List.replicate 16 0x22 ++ List.replicate 17 9, ())

/-- The handshake, and the publication of the empty baseline. -/
def opening : List (Event Unit) :=
  [handshake .keyInit (some keyAttest), handshake .keyConfirm (some keyConfirmAck),
   handshake .streamReady none, handshake .admissionCommit none,
   .output ⟨65536, fun _ => granted, some evidence, fun _ => idle⟩]

/-- The same, and `n` line feeds. -/
def events : List (Event Unit) := opening ++ [.output (feeds n)]

/-- The session that gets them. -/
def channel (n i : ℕ) : Channel Unit := .reached profile start (events n) i

/-- The session before them. -/
def ready (i : ℕ) : Channel Unit := .reached profile start opening i

theorem channel_eq {i : ℕ} (hi : i ≤ 5) : channel n i = ready i := by
  unfold channel ready Channel.reached stateAt events
  rw [List.take_append_of_le_length hi]

theorem channel_last : channel n 6 = (ready 5).step profile (.output (feeds n)) := by
  rw [← channel_eq n (le_refl 5)]
  exact stateAt_succ rfl

set_option maxRecDepth 100000 in
/-- One line feed is sent. Of a chunk of 2001 lines, which does not fit into the ring, the first replay
declares one as a gap, the second loses another, and the cursor moves past both. -/
theorem ready_step : ((ready 4).runtime.session.baselineSent = false ∧
      ((ready 5).runtime.supervisor.afterProducer ((feeds 1).produced false)).ring.droppedUntil = 0) ∧
    (((ready 5).step profile (.output (feeds 1))).runtime.session.closed = false ∧
      ((ready 5).step profile (.output (feeds 1))).runtime.session.cursor = 1) ∧
    ((ready 5).step profile (.output (feeds 2001))).runtime.session.closed = false ∧
    ((ready 5).step profile (.output (feeds 2001))).origin = 0 ∧
    ((ready 5).step profile (.output (feeds 2001))).runtime.session.cursor = 4002 ∧
    ((ready 5).step profile (.output (feeds 2001))).sent.map Sent.content =
      [.gap ⟨1, 2002, .ringOverflow⟩] := by
  decide +kernel

end Sample

open Sample

namespace Channel

/-- The session that sends one line feed. -/
theorem output_accounted_sample : (channel 1 6).runtime.session.cursor = 1 ∧
    Accounted (channel 1 6).sent (channel 1 6).origin (channel 1 6).runtime.session.cursor := by
  obtain ⟨⟨hbaseline, hdropped⟩, ⟨hopen, hcursor⟩, -⟩ := ready_step
  rw [← channel_last] at hopen hcursor
  have hretains : ∀ k < 6, ∀ c, (events 1)[k]? = some (.output c) →
      Retains (channel 1 k).runtime c := by
    intro k hk c hc
    match k, hk with
    | 4, _ =>
      rw [channel_eq 1 (by decide)]
      exact fun hsent => absurd (hbaseline.symm.trans hsent) (by decide)
    | 5, _ =>
      cases hc
      rw [channel_eq 1 (le_refl 5)]
      exact fun _ hlt => absurd (hdropped ▸ hlt) (not_lt_zero _)
  unfold channel at hretains hopen hcursor ⊢
  exact ⟨hcursor, output_accounted _ _ _ 6 hretains hopen⟩

/-- The session that loses 2001 line feeds. -/
theorem output_unaccounted_sample : (channel 2001 6).runtime.session.closed = false ∧
    ¬ Accounted (channel 2001 6).sent (channel 2001 6).origin (channel 2001 6).runtime.session.cursor := by
  obtain ⟨-, -, hopen, horigin, hcursor, hsent⟩ := ready_step
  rw [← channel_last] at hopen horigin hcursor hsent
  refine ⟨hopen, fun h => ?_⟩
  rw [horigin, hcursor] at h
  obtain ⟨x, hx, hcovers⟩ := h 3000 (by decide) (by decide)
  have hcontent := List.mem_map_of_mem (f := Sent.content) hx
  rw [hsent, List.mem_singleton] at hcontent
  rw [hcontent] at hcovers
  exact absurd hcovers.2 (by decide)

end Channel

end AgentBox.Stream
