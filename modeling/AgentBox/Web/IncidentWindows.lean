import Mathlib.Data.Set.Insert
import Mathlib.Tactic.Common

/-!
# The incident windows of the terminal scheduler

The scheduler divides time into aligned windows of 1000 ms and fences the attachment after three
consecutive windows with an incident. It moves on from a window only when it reads the clock, so its
state speaks of the window of the last reading. `Tracks` ties that state to the set of all windows that
had an incident.

A task that uses too much of a window marks an incident in it the way `#recordIncidentAt` does.
-/

namespace AgentBox.Web.Scheduler

/-- What the rule keeps; `active` is `#state === 'active'`. -/
structure Windows where
  active : Bool := true
  start : Option ℤ := none
  incident : Bool := false
  consecutive : ℕ := 0

namespace Windows

variable (s : Windows)

def ensureWindow (now : ℤ) : Windows :=
  if s.start.isNone then { s with start := some (now / 1000 * 1000) } else s

/-- The count of consecutive windows once the open one is finished. -/
def finished : ℕ := if s.incident then s.consecutive + 1 else 0

def finishWindow : Windows :=
  match s.start with
  | none => s
  | some start =>
    if 3 ≤ s.finished then { s with consecutive := s.finished, active := false }
    else { s with consecutive := s.finished, start := some (start + 1000), incident := false }

def advanceWindows (now : ℤ) : Windows :=
  match s.start with
  | none => s
  | some start =>
    let windows := (now - start) / 1000
    if windows < 1 then s
    else
      let s := s.finishWindow
      if !s.active then s
      else if 1 < windows then
        -- every unobserved complete window after the first is quiet
        { s with consecutive := 0, start := s.start.map (· + (windows - 1) * 1000), incident := false }
      else s

def recordIncidentAt (now : ℤ) : Windows :=
  let s := s.advanceWindows now
  if !s.active then s else { s.ensureWindow now with incident := true }

end Windows

/-- A reading of the clock: by the window's timer, at the start of a task, or for an incident. -/
inductive Event
  | timer (now : ℤ)
  | task (now : ℤ)
  | incident (now : ℤ)

def Event.now : Event → ℤ
  | timer now | task now | incident now => now

/-- What the rule does on an event; a scheduler that is not active does nothing. -/
def Windows.step (s : Windows) (e : Event) : Windows :=
  if !s.active then s
  else
    match e with
    | .timer now => s.advanceWindows now
    | .task now =>
      let s := s.advanceWindows now
      if !s.active then s else s.ensureWindow now
    | .incident now => s.recordIncidentAt now

/-! ## The windows with an incident -/

/-- Three consecutive windows with an incident lie before window `m`. -/
def Fence (I : Set ℤ) (m : ℤ) : Prop := ∃ k < m, k ∈ I ∧ k - 1 ∈ I ∧ k - 2 ∈ I

/-- The state of an active scheduler after the clock was last read in window `m`, where `I` are the
windows with an incident. -/
structure Tracks (I : Set ℤ) (m : ℤ) (s : Windows) : Prop where
  active : s.active = true
  start : s.start = some (m * 1000) ∨ s.start = none ∧ I = ∅
  incident : s.incident = true ↔ m ∈ I
  one : 1 ≤ s.consecutive ↔ m - 1 ∈ I
  two : 2 ≤ s.consecutive ↔ m - 1 ∈ I ∧ m - 2 ∈ I
  le : ∀ k ∈ I, k ≤ m
  quiet : ¬Fence I m

/-- The scheduler is fenced exactly when it has to be. -/
def Follows (I : Set ℤ) (m : ℤ) (s : Windows) : Prop := Tracks I m s ∨ s.active = false ∧ Fence I m

variable {I : Set ℤ} {m now : ℤ} {s : Windows}

theorem advanceWindows_eq (hactive : s.active = true) (hstart : s.start = some (m * 1000)) :
    s.advanceWindows now = if now / 1000 ≤ m then s
      else if 3 ≤ s.finished then { s with consecutive := s.finished, active := false }
      else
        { s with
          start := some (now / 1000 * 1000), incident := false
          consecutive := if now / 1000 = m + 1 then s.finished else 0 } := by
  have hwindows : (now - m * 1000) / 1000 = now / 1000 - m := by omega
  simp only [Windows.advanceWindows, Windows.finishWindow, hstart, hwindows]
  generalize now / 1000 = n
  by_cases hlater : n ≤ m
  · rw [if_pos (by omega), if_pos hlater]
  · rw [if_neg (by omega), if_neg hlater]
    by_cases hthree : 3 ≤ s.finished
    · rw [if_pos hthree, if_pos hthree]
      rfl
    · rw [if_neg hthree, if_neg hthree]
      simp only [hactive, Bool.not_true, Bool.false_eq_true, if_false, Option.map_some]
      by_cases hnext : n = m + 1
      · rw [if_neg (by omega), if_pos hnext, show m * 1000 + 1000 = n * 1000 by omega]
      · rw [if_pos (by omega), if_neg hnext,
          show m * 1000 + 1000 + (n - m - 1) * 1000 = n * 1000 by omega]

/-- Finishing the open window counts it. -/
theorem Tracks.finished (h : Tracks I m s) : (1 ≤ s.finished ↔ m ∈ I) ∧
    (2 ≤ s.finished ↔ m ∈ I ∧ m - 1 ∈ I) ∧ (3 ≤ s.finished ↔ m ∈ I ∧ m - 1 ∈ I ∧ m - 2 ∈ I) := by
  rw [← h.two, ← h.one, ← h.incident, Windows.finished]
  cases s.incident <;> simp

/-- Reading the clock moves the rule on to the window of the reading. -/
theorem follows_advanceWindows (h : Tracks I m s) (hnow : m ≤ now / 1000) :
    Follows I (now / 1000) (s.advanceWindows now) := by
  obtain hstart | ⟨hstart, rfl⟩ := h.start
  · rw [advanceWindows_eq h.active hstart]
    generalize now / 1000 = n at hnow ⊢
    obtain ⟨hone, htwo, hthree⟩ := h.finished
    split
    · next hle =>
      obtain rfl : m = n := by omega
      exact .inl h
    · next hlater =>
      have hout : ∀ k, m < k → k ∉ I := fun k hk hmem => absurd (h.le k hmem) (by omega)
      split
      · next hfull => exact .inr ⟨rfl, m, by omega, hthree.mp hfull⟩
      · next hopen =>
        have hquiet : ¬Fence I n := by
          rintro ⟨k, -, hk⟩
          obtain rfl | hlt := (h.le k hk.1).eq_or_lt
          · exact hopen (hthree.mpr hk)
          · exact h.quiet ⟨k, hlt, hk⟩
        have hle : ∀ k ∈ I, k ≤ n := fun k hk => (h.le k hk).trans hnow
        by_cases hnext : n = m + 1
        · subst hnext
          refine .inl ⟨h.active, .inl rfl, ?_, ?_, ?_, hle, hquiet⟩
          · simpa using hout _ (by omega)
          · simpa using hone
          · simpa [show m + 1 - 2 = m - 1 by omega] using htwo
        · refine .inl ⟨h.active, .inl rfl, ?_, ?_, ?_, hle, hquiet⟩
          · simpa using hout _ (by omega)
          · simpa [hnext] using hout _ (by omega)
          · simpa [hnext] using fun hmem => (hout _ (by omega) hmem).elim
  · have hsame : s.advanceWindows now = s := by simp only [Windows.advanceWindows, hstart]
    rw [hsame]
    refine .inl ⟨h.active, .inr ⟨hstart, rfl⟩, ?_, ?_, ?_, ?_, ?_⟩
    · simpa using h.incident
    · simpa using h.one
    · simpa using h.two
    · simp
    · simp [Fence]

theorem Fence.mono {J : Set ℤ} {n : ℤ} (h : Fence I m) (hIJ : I ⊆ J) (hmn : m ≤ n) : Fence J n := by
  obtain ⟨k, hk, h0, h1, h2⟩ := h
  exact ⟨k, by omega, hIJ h0, hIJ h1, hIJ h2⟩

theorem Tracks.ensureWindow (h : Tracks I (now / 1000) s) : Tracks I (now / 1000) (s.ensureWindow now) ∧
    (s.ensureWindow now).start = some (now / 1000 * 1000) := by
  unfold Windows.ensureWindow
  obtain hstart | ⟨hstart, -⟩ := h.start
  · simpa [hstart] using h
  · rw [if_pos (by simp [hstart])]
    exact ⟨{ h with start := .inl rfl }, rfl⟩

theorem Tracks.record (h : Tracks I m s) (hstart : s.start = some (m * 1000)) :
    Tracks (insert m I) m { s with incident := true } := by
  have hpast : ∀ k < m, k ∈ insert m I ↔ k ∈ I := fun k hk => by simp [hk.ne]
  refine ⟨h.active, .inl hstart, by simp, ?_, ?_, by simpa using h.le, ?_⟩
  · rw [hpast _ (by omega)]
    exact h.one
  · rw [hpast _ (by omega), hpast _ (by omega)]
    exact h.two
  · rintro ⟨k, hk, hmem⟩
    rw [hpast _ hk, hpast _ (by omega), hpast _ (by omega)] at hmem
    exact h.quiet ⟨k, hk, hmem⟩

/-- The windows in which the event marks an incident. -/
def Event.marks : Event → Set ℤ
  | timer _ | task _ => ∅
  | incident now => {now / 1000}

theorem follows_step {e : Event} (h : Follows I m s) (hnow : m ≤ e.now / 1000) :
    Follows (I ∪ e.marks) (e.now / 1000) (s.step e) := by
  rcases h with h | ⟨hclosed, hfence⟩
  · have hread : ∀ now, m ≤ now / 1000 → Follows I (now / 1000) (s.advanceWindows now) :=
      fun _ => follows_advanceWindows h
    unfold Windows.step
    rw [h.active]
    cases e with
    | timer now =>
      rw [Event.marks, Set.union_empty]
      exact hread now hnow
    | task now =>
      rw [Event.marks, Set.union_empty]
      rcases hread now hnow with hnext | ⟨hclosed, hfence⟩
      · simpa [hnext.active] using .inl hnext.ensureWindow.1
      · simpa [hclosed] using .inr ⟨hclosed, hfence⟩
    | incident now =>
      rw [Event.marks, Set.union_singleton]
      change Follows _ (now / 1000) (s.recordIncidentAt now)
      unfold Windows.recordIncidentAt
      rcases hread now hnow with hnext | ⟨hclosed, hfence⟩
      · simpa [hnext.active] using .inl (hnext.ensureWindow.1.record hnext.ensureWindow.2)
      · simpa [hclosed] using .inr ⟨hclosed, hfence.mono (Set.subset_insert _ _) le_rfl⟩
  · refine .inr ⟨?_, hfence.mono Set.subset_union_left hnow⟩
    simp [Windows.step, hclosed]

/-! ## Histories -/

/-- Readings of a clock that does not run backwards. -/
structure History where
  events : List Event
  ordered : events.Pairwise fun d e => d.now ≤ e.now

/-- An incident was recorded in window `k`. -/
def HasIncident (events : List Event) (k : ℤ) : Prop := ∃ now, .incident now ∈ events ∧ now / 1000 = k

theorem hasIncident_cons {e : Event} {events : List Event} {k : ℤ} :
    HasIncident (e :: events) k ↔ k ∈ e.marks ∨ HasIncident events k := by
  cases e <;> simp [HasIncident, Event.marks, or_and_right, exists_or, eq_comm]

theorem follows_initial (m : ℤ) : Follows ∅ m {} :=
  .inl ⟨rfl, .inr ⟨rfl, rfl⟩, by simp, by simp, by simp, by simp, by simp [Fence]⟩

theorem Follows.closed_iff (h : Follows I m s) : s.active = false ↔ Fence I m := by
  rcases h with h | ⟨hclosed, hfence⟩
  · simp [h.active, h.quiet]
  · simp [hclosed, hfence]

/-- The state after a history, by induction on the events that are left. -/
theorem follows_run {events : List Event} (hordered : events.Pairwise fun d e => d.now ≤ e.now)
    (hfirst : ∀ e ∈ events, m ≤ e.now / 1000) (h : Follows I m s) :
    ∃ n, Follows (I ∪ {k | HasIncident events k}) n (events.foldl Windows.step s) ∧
      ∀ k, k < n ↔ k < m ∨ ∃ e ∈ events, k < e.now / 1000 := by
  induction events generalizing I m s with
  | nil => exact ⟨m, by simpa [HasIncident] using h, by simp⟩
  | cons e events ih =>
    obtain ⟨hlater, hordered⟩ := List.pairwise_cons.mp hordered
    have hnow := hfirst e (by simp)
    have hnext : ∀ d ∈ events, e.now / 1000 ≤ d.now / 1000 := fun d hd =>
      Int.ediv_le_ediv (by decide) (hlater d hd)
    obtain ⟨n, hn, hlast⟩ := ih hordered hnext (follows_step h hnow)
    refine ⟨n, ?_, fun k => ?_⟩
    · have hsets : I ∪ {k | HasIncident (e :: events) k} = I ∪ e.marks ∪ {k | HasIncident events k} := by
        ext k
        simp [hasIncident_cons, or_assoc]
      rw [hsets]
      exact hn
    · simp only [hlast, List.mem_cons, or_and_right, exists_or, exists_eq_left, ← or_assoc]
      refine or_congr_left ?_
      omega

/-- The rule fences exactly when three consecutive windows each had an incident and the clock was read
at or after the end of the third. -/
theorem fenced_iff (h : History) : (h.events.foldl Windows.step {}).active = false ↔
      ∃ k, HasIncident h.events k ∧ HasIncident h.events (k + 1) ∧ HasIncident h.events (k + 2) ∧
        ∃ e ∈ h.events, (k + 3) * 1000 ≤ e.now := by
  obtain ⟨events, hordered⟩ := h
  have hfirst : ∃ m, ∀ e ∈ events, m ≤ e.now / 1000 := by
    cases events with
    | nil => exact ⟨0, by simp⟩
    | cons e events =>
      refine ⟨e.now / 1000, List.forall_mem_cons.mpr ⟨le_rfl, fun d hd => ?_⟩⟩
      exact Int.ediv_le_ediv (by decide) ((List.pairwise_cons.mp hordered).1 d hd)
  obtain ⟨m, hm⟩ := hfirst
  obtain ⟨n, hn, hlast⟩ := follows_run hordered hm (follows_initial m)
  rw [hn.closed_iff]
  constructor
  · rintro ⟨k, hlt, h0, h1, h2⟩
    rw [Set.empty_union] at h0 h1 h2
    obtain ⟨e, he, hlt⟩ : ∃ e ∈ events, k < e.now / 1000 := by
      rcases (hlast k).mp hlt with hlt | hlt
      · obtain ⟨now, hmem, rfl⟩ := h0
        exact absurd (hm _ hmem) (not_le.mpr hlt)
      · exact hlt
    refine ⟨k - 2, h2, ?_, ?_, e, he, by omega⟩
    · rwa [show k - 2 + 1 = k - 1 by omega]
    · rwa [show k - 2 + 2 = k by omega]
  · rintro ⟨k, h0, h1, h2, e, he, hlt⟩
    refine ⟨k + 2, (hlast _).mpr (.inr ⟨e, he, by omega⟩), ?_⟩
    rw [Set.empty_union, show k + 2 - 1 = k + 1 by omega, show k + 2 - 2 = k by omega]
    exact ⟨h2, h1, h0⟩

end AgentBox.Web.Scheduler
