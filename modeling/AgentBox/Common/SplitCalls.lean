import AgentBox.Common.Run

/-!
# Calls that read first and write later

A service answers calls over a shared database. An atomic call reads and writes in one step. Any other
call reads in one step and makes the write it has decided on in a later one, on whatever database it
then finds; calls of others come in between. `step` is one step of such a system, `StepOf` says what
a step can be, and `invariant_world` is the induction over every interleaving: what holds of the
database has to survive each write, knowing of a late write only what was true when it was decided.
-/

namespace AgentBox

/-- A service over databases `δ` with calls `κ`, decided writes `ρ` and answers `α`. -/
structure Service (δ κ ρ α : Type*) where
  /-- Whether the call holds the database from its read to its write. -/
  atomic : κ → Bool
  /-- The read of a call: its answer, or the write it goes on to make. -/
  read : δ → κ → Except α ρ
  /-- The write, on the database as it then is. -/
  write : δ → ρ → α × δ

/-- A database with the calls that have read and not yet written, and the answers given so far. -/
structure World (δ κ ρ α : Type*) where
  db : δ
  waiting : List (κ × ρ)
  log : List (κ × α)

/-- What happens next: a call arrives, a waiting call writes, or somebody else changes the database. -/
inductive Event (κ ο : Type*) where
  | call (c : κ)
  | write (i : ℕ)
  | outside (o : ο)
  deriving DecidableEq

namespace Service

variable {δ κ ρ α ο : Type*} (S : Service δ κ ρ α) (outside : δ → ο → δ) {c : κ} {w : World δ κ ρ α}
  {d : δ} {r : ρ}

/-- A call made with nobody in between: its answer and the database it leaves. -/
def serve (d : δ) (c : κ) : α × δ :=
  match S.read d c with
  | .error a => (a, d)
  | .ok r => S.write d r

theorem serve_of_error {a : α} (h : S.read d c = .error a) : S.serve d c = (a, d) := by
  rw [serve, h]

theorem serve_of_ok (h : S.read d c = .ok r) : S.serve d c = S.write d r := by
  rw [serve, h]

/-- One step of the service and its surroundings. -/
def step (w : World δ κ ρ α) : Event κ ο → World δ κ ρ α
  | .call c =>
    match S.read w.db c with
    | .error a => { w with log := w.log ++ [(c, a)] }
    | .ok r =>
      if S.atomic c then
        { w with db := (S.write w.db r).2, log := w.log ++ [(c, (S.write w.db r).1)] }
      else { w with waiting := w.waiting ++ [(c, r)] }
  | .write i =>
    match w.waiting[i]? with
    | none => w
    | some (c, r) =>
      { db := (S.write w.db r).2
        waiting := w.waiting.eraseIdx i
        log := w.log ++ [(c, (S.write w.db r).1)] }
  | .outside o => { w with db := outside w.db o }

/-- The ways a step can go. -/
inductive StepOf (w : World δ κ ρ α) : Event κ ο → World δ κ ρ α → Prop
  | answered (c : κ) (a : α) : S.read w.db c = .error a →
      StepOf w (.call c) { w with log := w.log ++ [(c, a)] }
  | atomic (c : κ) (r : ρ) : S.read w.db c = .ok r → S.atomic c = true →
      StepOf w (.call c)
        { w with db := (S.write w.db r).2, log := w.log ++ [(c, (S.write w.db r).1)] }
  | decided (c : κ) (r : ρ) : S.read w.db c = .ok r → S.atomic c = false →
      StepOf w (.call c) { w with waiting := w.waiting ++ [(c, r)] }
  | idle (i : ℕ) : w.waiting[i]? = none → StepOf w (.write i) w
  | written (i : ℕ) (c : κ) (r : ρ) : w.waiting[i]? = some (c, r) →
      StepOf w (.write i)
        { db := (S.write w.db r).2
          waiting := w.waiting.eraseIdx i
          log := w.log ++ [(c, (S.write w.db r).1)] }
  | outside (o : ο) : StepOf w (.outside o) { w with db := outside w.db o }

theorem stepOf_step (w : World δ κ ρ α) (e : Event κ ο) : S.StepOf outside w e (S.step outside w e) := by
  cases e with
  | call c =>
    simp only [step]
    cases hr : S.read w.db c with
    | error a => exact .answered c a hr
    | ok r =>
      by_cases ha : S.atomic c = true
      · simp only [ha, if_true]
        exact .atomic c r hr ha
      · simp only [ha]
        exact .decided c r hr (by simpa using ha)
  | write i =>
    simp only [step]
    cases hw : w.waiting[i]? with
    | none => exact .idle i hw
    | some p => exact .written i p.1 p.2 hw
  | outside o => exact .outside o

variable {S outside}

/-- The database, if it satisfies `I` at the start, does so in every interleaving: an atomic write is
judged on the database its call has read, a late one by what `W` still says about it. -/
theorem invariant_world {I : δ → Prop} {W : κ → ρ → Prop}
    (hread : ∀ d c r, I d → S.atomic c = false → S.read d c = .ok r → W c r)
    (hatomic : ∀ d c r, I d → S.atomic c = true → S.read d c = .ok r → I (S.write d r).2)
    (hwrite : ∀ d c r, I d → W c r → I (S.write d r).2) (houtside : ∀ d o, I d → I (outside d o))
    (hw : I w.db ∧ ∀ p ∈ w.waiting, W p.1 p.2) (e : Event κ ο) :
    I (S.step outside w e).db ∧ ∀ p ∈ (S.step outside w e).waiting, W p.1 p.2 := by
  obtain ⟨hdb, hwait⟩ := hw
  have hstep := S.stepOf_step outside w e
  generalize S.step outside w e = w' at hstep ⊢
  cases hstep with
  | answered c a hr => exact ⟨hdb, hwait⟩
  | atomic c r hr ha => exact ⟨hatomic _ c r hdb ha hr, hwait⟩
  | decided c r hr ha =>
    refine ⟨hdb, ?_⟩
    intro p hp
    rcases List.mem_append.mp hp with hp | hp
    · exact hwait p hp
    · rw [List.mem_singleton.mp hp]
      exact hread _ c r hdb ha hr
  | idle i hi => exact ⟨hdb, hwait⟩
  | written i c r hi =>
    refine ⟨hwrite _ c r hdb (hwait (c, r) (List.mem_of_getElem? hi)), ?_⟩
    intro p hp
    exact hwait p (List.mem_of_mem_eraseIdx hp)
  | outside o => exact ⟨houtside _ o hdb, hwait⟩

/-- An atomic call leaves what it leaves with nobody in between. -/
theorem step_db_of_atomic (ha : S.atomic c = true) :
    (S.step outside w (.call c)).db = (S.serve w.db c).2 := by
  cases h : S.read w.db c with
  | error a => rw [S.serve_of_error h, step, h]
  | ok r => rw [S.serve_of_ok h, step, h]; simp only [ha, if_true]

/-- The call whose write a step makes, with that write. -/
def executing (S : Service δ κ ρ α) (w : World δ κ ρ α) : Event κ ο → Option (κ × ρ)
  | .call c => if S.atomic c then (S.read w.db c).toOption.map (Prod.mk c) else none
  | .write i => w.waiting[i]?
  | .outside _ => none

theorem step_db_of_executing {e : Event κ ο} (h : S.executing w e = some (c, r)) :
    (S.step outside w e).db = (S.write w.db r).2 := by
  cases e with
  | call c' =>
    simp only [executing] at h
    split at h
    · next ha =>
      rw [step_db_of_atomic ha]
      cases hr : S.read w.db c' with
      | error a => simp [hr, Except.toOption] at h
      | ok r' =>
        obtain ⟨rfl, rfl⟩ : c' = c ∧ r' = r := by simpa [hr, Except.toOption] using h
        rw [S.serve_of_ok hr]
    · cases h
  | write i =>
    simp only [executing] at h
    simp only [step, h]
  | outside o => cases h

/-- Where nobody else changes the database, a step that makes no write leaves it alone. -/
theorem step_db_of_idle {outside : δ → Empty → δ} {e : Event κ Empty} (h : S.executing w e = none) :
    (S.step outside w e).db = w.db := by
  cases e with
  | call c =>
    simp only [executing] at h
    simp only [step]
    cases hr : S.read w.db c with
    | error a => rfl
    | ok r =>
      split at h
      · simp [hr, Except.toOption] at h
      · next ha => simp only [ha]; rfl
  | write i =>
    simp only [executing] at h
    simp only [step, h]
  | outside o => exact o.elim

/-- Every late write of a run finds the database as `C` asks. -/
def WritesMeet (S : Service δ κ ρ α) (outside : δ → ο → δ) (C : δ → κ → ρ → Prop)
    (w : World δ κ ρ α) (events : List (Event κ ο)) : Prop :=
  ∀ n i c r, events[n]? = some (.write i) →
    (stateAt (S.step outside) w events n).waiting[i]? = some (c, r) →
      C (stateAt (S.step outside) w events n).db c r

end Service

end AgentBox
