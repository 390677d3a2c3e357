import Mathlib.Data.List.Chain
import Mathlib.Tactic.Common

/-!
# Heartbeats between the relay and the Runtime session

Each side sends a heartbeat when its last one is at least five seconds old. The receivers do not look at
when a heartbeat was sent: the session refuses one that arrives less than five seconds after the one
before it, and the relay refuses two in a row that arrive in the same window of five seconds. A refused
heartbeat ends the attachment.

`Hop` holds the fields both sides keep for this and the frames on their way; times are in nanoseconds.
`accepted_iff` says which runs get through.

Reference: `_active` and `tick` in `waw_encrypted_stream.py`, `_runtime_frame` and `_watch` in
`waw_relay.py`.
-/

namespace AgentBox.Stream

open Nat List

variable {previous : Option ℕ}

/-! ## The hop -/

/-- A heartbeat on its way. -/
structure Beat where
  sentAt : ℕ
  /-- `sent_at_monotonic_tick` -/
  tick : ℕ
deriving DecidableEq

/-- Five seconds. -/
def period : ℕ := 5000000000

/-- What a frame may take from one side to the other. -/
def maxDelay : ℕ := 4000000000

structure Hop where
  /-- the time of the last event -/
  clock : ℕ
  /-- relay: when it started -/
  started : ℕ
  /-- relay: `last_health_sent` -/
  relaySent : ℕ
  /-- relay: `_runtime_heartbeat_window`, where nothing is `-1` -/
  window : Option ℕ
  /-- session: `_last_health` -/
  lastHealth : ℕ
  /-- session: `_health_tick` -/
  healthTick : ℕ
  /-- session: `_last_sent_health` -/
  sessionSent : ℕ
  toSession : List Beat
  toRelay : List Beat

/-- The session has committed, and then the relay has started. -/
def Hop.initial (committed started : ℕ) : Hop where
  clock := started
  started := started
  relaySent := started
  window := none
  lastHealth := committed
  healthTick := 0
  sessionSent := committed
  toSession := []
  toRelay := []

inductive HopEvent
  /-- one round of the relay's `_watch` -/
  | watch
  /-- the session's `tick` -/
  | tick
  /-- a heartbeat of the relay reaches the session -/
  | reachSession
  /-- a heartbeat of the session reaches the relay -/
  | reachRelay
deriving DecidableEq

namespace Hop
variable (h : Hop) (now : ℕ)

def watch : Hop :=
  if period ≤ now - h.relaySent then
    { h with relaySent := now, toSession := h.toSession ++ [⟨now, max 1 now⟩] }
  else h

def tick : Hop :=
  if h.sessionSent + period ≤ now then
    { h with sessionSent := now, toRelay := h.toRelay ++ [⟨now, max 1 (now / 1000000)⟩] }
  else h

/-- The `HEARTBEAT` branch of `_active`; nothing is `CONTROL_RATE_LIMITED`. -/
def receiveAtSession (b : Beat) : Option Hop :=
  if b.tick ≤ h.healthTick ∨ now < h.lastHealth + period then none
  else some { h with healthTick := b.tick, lastHealth := now }

/-- The relay's window at a time. -/
def windowAt : ℕ := (now - h.started) / period

/-- The `HEARTBEAT` branch of `_runtime_frame`; nothing is `CONTROL_RATE_LIMITED`. -/
def receiveAtRelay : Option Hop :=
  if h.window = some (h.windowAt now) then none else some { h with window := some (h.windowAt now) }

/-- One event. A refused heartbeat ends the attachment. -/
def step (e : ℕ × HopEvent) : Option Hop :=
  let h := { h with clock := e.1 }
  match e.2 with
  | .watch => some (h.watch e.1)
  | .tick => some (h.tick e.1)
  | .reachSession =>
    match h.toSession with
    | b :: rest => { h with toSession := rest }.receiveAtSession e.1 b
    | [] => some h
  | .reachRelay =>
    match h.toRelay with
    | _ :: rest => { h with toRelay := rest }.receiveAtRelay e.1
    | [] => some h

/-- The events in turn. -/
def run : Hop → List (ℕ × HopEvent) → Option Hop
  | h, [] => some h
  | h, e :: events => (h.step e).bind fun h => h.run events

/-- Time does not run backwards, and what arrives was sent less than four seconds ago. -/
def admits (e : ℕ × HopEvent) : Prop :=
  h.clock ≤ e.1 ∧
    match e.2 with
    | .reachSession => ∃ b rest, h.toSession = b :: rest ∧ e.1 < b.sentAt + maxDelay
    | .reachRelay => ∃ b rest, h.toRelay = b :: rest ∧ e.1 < b.sentAt + maxDelay
    | _ => True

/-- Every event of the run is possible when its turn comes. -/
def Timely : Hop → List (ℕ × HopEvent) → Prop
  | _, [] => True
  | h, e :: events => h.admits e ∧ ∀ h', h.step e = some h' → Timely h' events

end Hop

/-- When the heartbeats of one direction arrive. -/
def arrivals (kind : HopEvent) (events : List (ℕ × HopEvent)) : List ℕ :=
  (events.filter fun e => e.2 = kind).map Prod.fst

/-! ## What is on its way -/

/-- The ticks towards the session increase, and nothing was sent before the first period was over. -/
structure Ordered (h : Hop) : Prop where
  sent_le : h.relaySent ≤ h.clock
  started_le : h.started ≤ h.relaySent
  ticks : List.IsChain (· < ·) (h.healthTick :: h.toSession.map Beat.tick)
  tick_le : ∀ b ∈ h.toSession, b.tick ≤ max 1 h.relaySent
  healthTick_le : h.healthTick ≤ max 1 h.relaySent
  late : ∀ b ∈ h.toSession, h.started + period ≤ b.sentAt ∧ b.sentAt ≤ h.clock

theorem ordered_initial (committed started : ℕ) : Ordered (.initial committed started) where
  sent_le := le_refl _
  started_le := le_refl _
  ticks := isChain_singleton _
  tick_le := fun _ hb => absurd hb not_mem_nil
  healthTick_le := zero_le _
  late := fun _ hb => absurd hb not_mem_nil

section
variable {h : Hop} {now : ℕ} {b : Beat} {rest : List Beat}

theorem Ordered.at (ho : Ordered h) (hnow : h.clock ≤ now) : Ordered { h with clock := now } where
  sent_le := le_trans ho.sent_le hnow
  started_le := ho.started_le
  ticks := ho.ticks
  tick_le := ho.tick_le
  healthTick_le := ho.healthTick_le
  late := fun b hb => ⟨(ho.late b hb).1, le_trans (ho.late b hb).2 hnow⟩

/-- A new heartbeat has a larger tick than all before it. -/
theorem Ordered.watch (ho : Ordered h) (hnow : h.clock = now) : Ordered (h.watch now) := by
  unfold Hop.watch
  split
  · next hdue =>
    have hperiod : period = 5000000000 := rfl
    have hsent := ho.sent_le
    have hstarted := ho.started_le
    have hgrows : max 1 h.relaySent < max 1 now := by omega
    constructor
    · exact le_of_eq hnow.symm
    · change h.started ≤ now
      omega
    · rw [map_append, ← cons_append]
      refine List.IsChain.append ho.ticks (isChain_singleton _) ?_
      intro a ha b hb
      obtain rfl : max 1 now = b := by simpa using hb
      refine lt_of_le_of_lt ?_ hgrows
      rcases mem_cons.mp (mem_of_mem_getLast? ha) with rfl | ha
      · exact ho.healthTick_le
      · obtain ⟨beat, hbeat, rfl⟩ := mem_map.mp ha
        exact ho.tick_le beat hbeat
    · intro b hb
      rcases mem_append.mp hb with hb | hb
      · exact le_trans (ho.tick_le b hb) (le_of_lt hgrows)
      · rw [mem_singleton.mp hb]
    · exact le_trans ho.healthTick_le (le_of_lt hgrows)
    · intro b hb
      rcases mem_append.mp hb with hb | hb
      · exact ho.late b hb
      · rw [mem_singleton.mp hb]
        exact ⟨by change h.started + period ≤ now; omega, le_of_eq hnow.symm⟩
  · exact ho

theorem Ordered.tick (ho : Ordered h) : Ordered (h.tick now) := by
  unfold Hop.tick
  split
  · exact ⟨ho.sent_le, ho.started_le, ho.ticks, ho.tick_le, ho.healthTick_le, ho.late⟩
  · exact ho

/-- The session never refuses a tick, so only the time of arrival counts. -/
theorem Ordered.receiveAtSession_eq (ho : Ordered h) (hqueue : h.toSession = b :: rest) :
    { h with toSession := rest }.receiveAtSession now b =
      if h.lastHealth + period ≤ now then
        some { h with toSession := rest, healthTick := b.tick, lastHealth := now }
      else none := by
  have hticks := ho.ticks
  rw [hqueue, map_cons, isChain_cons_cons] at hticks
  unfold Hop.receiveAtSession
  by_cases hdue : h.lastHealth + period ≤ now
  · rw [if_pos hdue, if_neg]
    exact fun hrefused => hrefused.elim (not_le.mpr hticks.1) (not_lt.mpr hdue)
  · rw [if_neg hdue, if_pos (.inr (not_le.mp hdue))]

theorem Ordered.receiveAtSession (ho : Ordered h) (hqueue : h.toSession = b :: rest) :
    Ordered { h with toSession := rest, healthTick := b.tick, lastHealth := now } := by
  have hticks := ho.ticks
  rw [hqueue, map_cons, isChain_cons_cons] at hticks
  have hmem : ∀ c ∈ rest, c ∈ h.toSession := fun c hc => hqueue ▸ mem_cons_of_mem _ hc
  exact ⟨ho.sent_le, ho.started_le, hticks.2, fun c hc => ho.tick_le c (hmem c hc),
    ho.tick_le b (hqueue ▸ mem_cons_self), fun c hc => ho.late c (hmem c hc)⟩

end

/-! ## Runs -/

/-- The time of the session's last heartbeat, once it has had one. -/
def Precedes (h : Hop) (previous : Option ℕ) : Prop :=
  previous = some h.lastHealth ∨ (previous = none ∧ h.lastHealth ≤ h.started)

/-- Two arrivals at the session that it accepts. -/
def Apart (a b : ℕ) : Prop := a + period ≤ b

/-- A step leaves alone what the receivers compare with. -/
structure Keeps (h h' : Hop) : Prop where
  started : h'.started = h.started
  window : h'.window = h.window
  lastHealth : h'.lastHealth = h.lastHealth

variable {h : Hop} {h' : Hop}

theorem Keeps.windowAt (hk : Keeps h h') : h'.windowAt = h.windowAt := by
  funext now
  rw [Hop.windowAt, Hop.windowAt, hk.started]

theorem watch_keeps (h : Hop) (now : ℕ) : Keeps h ({ h with clock := now }.watch now) := by
  unfold Hop.watch
  split <;> exact ⟨rfl, rfl, rfl⟩

theorem tick_keeps (h : Hop) (now : ℕ) : Keeps h ({ h with clock := now }.tick now) := by
  unfold Hop.tick
  split <;> exact ⟨rfl, rfl, rfl⟩

theorem Precedes.of_keeps (hp : Precedes h previous) (hk : Keeps h h') : Precedes h' previous := by
  rw [Precedes, hk.lastHealth, hk.started]
  exact hp

theorem arrivals_cons_self (now : ℕ) (kind : HopEvent) (events : List (ℕ × HopEvent)) :
    arrivals kind ((now, kind) :: events) = now :: arrivals kind events := by
  simp [arrivals]

theorem arrivals_cons_of_ne {kind kind' : HopEvent} (hne : kind' ≠ kind) (now : ℕ)
    (events : List (ℕ × HopEvent)) : arrivals kind ((now, kind') :: events) = arrivals kind events := by
  simp [arrivals, hne]

/-- What arrives at the session is due exactly when it is apart from what arrived before. -/
theorem Ordered.due_iff {now : ℕ} {b : Beat} {rest : List Beat} (ho : Ordered h)
    (hqueue : h.toSession = b :: rest) (hnow : h.clock ≤ now) (hprevious : Precedes h previous) :
    h.lastHealth + period ≤ now ↔ ∀ a ∈ previous, Apart a now := by
  rcases hprevious with rfl | ⟨rfl, hle⟩
  · simp [Apart]
  · have hlate := ho.late b (hqueue ▸ mem_cons_self)
    refine ⟨fun _ a ha => absurd ha (Option.not_mem_none _), fun _ => ?_⟩
    omega

theorem isChain_append_singleton {R : ℕ → ℕ → Prop} {a : ℕ} {l : List ℕ} :
    List.IsChain R (previous.toList ++ a :: l) ↔ (∀ b ∈ previous, R b a) ∧ List.IsChain R (a :: l) := by
  cases previous with
  | none => simp
  | some b => simp [isChain_cons_cons]

variable {events : List (ℕ × HopEvent)}

/-- The run gets through exactly when every heartbeat arrives apart from the one before it. -/
theorem Ordered.run_isSome_iff (ho : Ordered h) (hprevious : Precedes h previous)
    (htimely : h.Timely events) : (h.run events).isSome = true ↔
      List.IsChain Apart (previous.toList ++ arrivals .reachSession events) ∧
      List.IsChain (· ≠ ·) (h.window.toList ++ (arrivals .reachRelay events).map h.windowAt) := by
  induction events generalizing h previous with
  | nil =>
    rcases previous with _ | a <;> rcases h.window with _ | w <;> simp [Hop.run, arrivals]
  | cons e events ih =>
    obtain ⟨now, kind⟩ := e
    obtain ⟨⟨hnow, hin⟩, hrest⟩ := htimely
    have ho' := ho.at hnow
    cases kind with
    | watch =>
      have hkeeps := watch_keeps h now
      have htail := ih (ho'.watch rfl) (hprevious.of_keeps hkeeps) (hrest _ rfl)
      rwa [hkeeps.window, hkeeps.windowAt] at htail
    | tick =>
      have hkeeps := tick_keeps h now
      have htail := ih ho'.tick (hprevious.of_keeps hkeeps) (hrest _ rfl)
      rwa [hkeeps.window, hkeeps.windowAt] at htail
    | reachSession =>
      obtain ⟨b, rest, hqueue, -⟩ := hin
      have hstep : h.step (now, .reachSession) =
          if h.lastHealth + period ≤ now then
            some { h with clock := now, toSession := rest, healthTick := b.tick, lastHealth := now }
          else none := by
        simp only [Hop.step, hqueue]
        exact ho'.receiveAtSession_eq hqueue
      have hdue := ho.due_iff hqueue hnow hprevious
      rw [arrivals_cons_self, arrivals_cons_of_ne (by decide), isChain_append_singleton, ← hdue,
        Hop.run, hstep]
      by_cases h5 : h.lastHealth + period ≤ now
      · rw [if_pos h5] at hstep ⊢
        have htail := ih (ho'.receiveAtSession hqueue) (.inl rfl) (hrest _ hstep)
        refine htail.trans ⟨fun hall => ⟨⟨h5, hall.1⟩, hall.2⟩, fun hall => ⟨hall.1.2, hall.2⟩⟩
      · rw [if_neg h5]
        exact ⟨fun hsome => absurd hsome Bool.false_ne_true, fun hall => absurd hall.1.1 h5⟩
    | reachRelay =>
      obtain ⟨b, rest, hqueue, -⟩ := hin
      have hstep : h.step (now, .reachRelay) = if h.window = some (h.windowAt now) then none
          else some { h with clock := now, toRelay := rest, window := some (h.windowAt now) } := by
        simp only [Hop.step, hqueue]
        rfl
      rw [arrivals_cons_self, arrivals_cons_of_ne (by decide), map_cons,
        isChain_append_singleton, Hop.run, hstep]
      by_cases hsame : h.window = some (h.windowAt now)
      · rw [if_pos hsame]
        refine ⟨fun hsome => absurd hsome Bool.false_ne_true, fun hall => ?_⟩
        exact absurd rfl (hall.2.1 _ hsame)
      · rw [if_neg hsame] at hstep ⊢
        have hother : ∀ w ∈ h.window, w ≠ h.windowAt now := fun w hw heq => hsame (heq ▸ hw)
        have ho'' : Ordered { h with clock := now, toRelay := rest, window := some (h.windowAt now) } :=
          ⟨ho'.sent_le, ho'.started_le, ho'.ticks, ho'.tick_le, ho'.healthTick_le, ho'.late⟩
        have htail := ih ho'' hprevious (hrest _ hstep)
        exact htail.trans ⟨fun hall => ⟨hall.1, hother, hall.2⟩, fun hall => ⟨hall.1, hall.2.2⟩⟩

theorem Hop.Timely.cons {e : ℕ × HopEvent} (hadmits : h.admits e) (hstep : h.step e = some h')
    (hrest : h'.Timely events) : h.Timely (e :: events) := by
  refine ⟨hadmits, fun h'' hstep' => ?_⟩
  rw [hstep] at hstep'
  cases hstep'
  exact hrest

namespace Sample

/-- The relay sends after five and ten seconds; the first heartbeat takes three seconds. -/
def uneven (second : ℕ) : List (ℕ × HopEvent) :=
  [(5000000000, .watch), (8000000000, .reachSession), (10000000000, .watch), (second, .reachSession)]

theorem timely_uneven (second : ℕ) (hlow : 10000000000 ≤ second) (hhigh : second < 14000000000) :
    (Hop.initial 0 0).Timely (uneven second) := by
  refine .cons ⟨by decide, trivial⟩ rfl ?_
  refine .cons ⟨by decide, _, _, rfl, by decide⟩ rfl ?_
  refine .cons ⟨by decide, trivial⟩ rfl ?_
  exact ⟨⟨hlow, _, _, rfl, hhigh⟩, fun _ _ => trivial⟩

/-- The session sends after seven and twelve seconds; the first heartbeat takes three and a half. -/
def unevenBack : List (ℕ × HopEvent) :=
  [(7000000000, .tick), (10500000000, .reachRelay), (12000000000, .tick), (12000000000, .reachRelay)]

theorem timely_unevenBack : (Hop.initial 0 0).Timely unevenBack := by
  refine .cons ⟨by decide, trivial⟩ rfl ?_
  refine .cons ⟨by decide, _, _, rfl, by decide⟩ rfl ?_
  refine .cons ⟨by decide, trivial⟩ rfl ?_
  exact ⟨⟨by decide, _, _, rfl, by decide⟩, fun _ _ => trivial⟩

end Sample

open Sample

end AgentBox.Stream
