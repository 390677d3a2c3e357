import AgentBox.Jobs.Queue

/-!
# What holds of the job queue in every interleaving

A late write may land on a row that has moved on, but it never makes a job running and never touches
its identity, its lock or its attempt: `Settles` says so, and `Consistent`, the queue's invariant, is
kept by everything that only settles jobs. Mutual exclusion, single claims and idempotent enqueues
follow for every run.

Absorption does not: a late `_finish` overwrites what `recover_expired` has recorded in between.
`terminal_stays` has it for the runs in which each finishing write still finds its job running.
-/

namespace AgentBox.Jobs

variable {π : Type} {j : Job π} {d : Tables π} {r : Write π} {settings : Settings π}

/-! ## What a late write can do -/

/-- From `j` to `j'` a job keeps its identity, and its status stays or becomes terminal. -/
structure Settles (j j' : Job π) : Prop where
  id : j'.id = j.id
  lock : j'.resourceLockKey = j.resourceLockKey
  digest : j'.idempotencyKeyDigest = j.idempotencyKeyDigest
  attempt : j'.attempt = j.attempt
  status : j'.status = j.status ∨ j'.status.isTerminal = true

theorem Settles.refl (j : Job π) : Settles j j := ⟨rfl, rfl, rfl, rfl, .inl rfl⟩

/-- The outcome of a job, as its row records it. -/
structure SameOutcome (j j' : Job π) : Prop where
  status : j'.status = j.status
  result : j'.resultSummary = j.resultSummary
  errorCode : j'.errorCode = j.errorCode
  finishedAt : j'.finishedAt = j.finishedAt

theorem SameOutcome.refl (j : Job π) : SameOutcome j j := ⟨rfl, rfl, rfl, rfl⟩

theorem SameOutcome.trans {j' j'' : Job π} (h : SameOutcome j j') (h' : SameOutcome j' j'') :
    SameOutcome j j'' :=
  ⟨h'.status.trans h.status, h'.result.trans h.result, h'.errorCode.trans h.errorCode,
    h'.finishedAt.trans h.finishedAt⟩

/-- A late update merges into the stored row a change of a job that was running when it was read. -/
def IsLate : Write π → Prop
  | .update _ read new _ _ =>
    read.status = .running ∧ new.attempt = read.attempt ∧
      (SameOutcome read new ∨ new.status.isTerminal = true)
  | _ => False

/-- A finishing write finds its job, where it still exists, running. -/
def FinishesRunning (d : Tables π) (_ : Call π) : Write π → Prop
  | .update jobId read new _ _ =>
    new.status ≠ read.status → ∀ stored, d.jobs.get? jobId = some stored → stored.status = .running
  | _ => True

theorem finished_status (settings : Settings π) (status : JobStatus) (code : Option String)
    (summary : String) (now : ℕ) (j : Job π) :
    (finished settings status code summary now j).status = status := by
  simp only [finished]
  split <;> rfl

theorem finished_attempt (settings : Settings π) (status : JobStatus) (code : Option String)
    (summary : String) (now : ℕ) (j : Job π) :
    (finished settings status code summary now j).attempt = j.attempt := by
  simp only [finished]
  split <;> rfl

/-- What a method that runs `_running` first goes on to write. -/
theorem isLate_of_running {jobId : String} {event : Bool} {change : Job π → Job π}
    (h : running d jobId event change = .ok r) (hattempt : ∀ j, (change j).attempt = j.attempt)
    (hchange : ∀ j, SameOutcome j (change j) ∨ (change j).status.isTerminal = true) : IsLate r := by
  unfold running at h
  split at h
  · contradiction
  · next j hj =>
    split at h
    · contradiction
    · next hs =>
      obtain rfl := Except.ok.inj h
      exact ⟨not_not.mp hs, hattempt j, hchange j⟩

theorem isLate_of_finish {jobId : String} {status : JobStatus} {code : Option String}
    {summary : String} {now : ℕ} (h : finish settings d jobId status code summary now = .ok r) :
    IsLate r := by
  unfold finish at h
  split at h
  · contradiction
  · next hterm =>
    apply isLate_of_running h (finished_attempt settings status code summary now)
    intro j
    right
    rw [finished_status]
    simpa using hterm

/-- The writes that can come late. -/
theorem isLate_of_read {c : Call π} (ha : c.isAtomic = false) (h : read settings d c = .ok r) : IsLate r := by
  cases c with
  | enqueue | recoverExpired | claimNext => contradiction
  | progress | heartbeat =>
    exact isLate_of_running h (fun _ => rfl) (fun _ => .inl ⟨rfl, rfl, rfl, rfl⟩)
  | succeed | fail | needsAttention =>
    rw [read] at h
    exact isLate_of_finish h

/-- Whatever is stored by then, a late update settles it. -/
theorem settles_merge {read new : Job π} (hattempt : new.attempt = read.attempt)
    (hnew : SameOutcome read new ∨ new.status.isTerminal = true) (stored : Job π) :
    Settles stored (read.merge new stored) := by
  refine ⟨rfl, rfl, rfl, column_of_eq hattempt _, ?_⟩
  show column read.status new.status stored.status = stored.status ∨
    (column read.status new.status stored.status).isTerminal = true
  by_cases hs : new.status = read.status
  · exact .inl (column_of_eq hs _)
  · rw [column_changed hs]
    exact .inr (hnew.resolve_left fun h => hs h.status)

/-- An update that changes no outcome leaves the stored outcome alone. -/
theorem sameOutcome_merge {read new : Job π} (h : SameOutcome read new) (stored : Job π) :
    SameOutcome stored (read.merge new stored) where
  status := column_of_eq h.status _
  result := column_of_eq h.result _
  errorCode := column_of_eq h.errorCode _
  finishedAt := column_of_eq h.finishedAt _

/-- On the row it has read, `claim_next` writes exactly what it made of it. -/
theorem merge_started (settings : Settings π) (workerId : String) (now : ℕ) (j : Job π) :
    j.merge (started settings workerId now j) j = started settings workerId now j := by
  simp [Job.merge, started]

/-! ## The queue's invariant -/

/-- The rows stand under their keys, no lock is held twice, no queued job has been claimed, no job has
been claimed twice and no digest is used twice. -/
structure Consistent (d : Tables π) : Prop where
  keyed : ∀ k j, d.jobs.get? k = some j → j.id = k
  exclusive : ∀ k₁ k₂ j₁ j₂, d.jobs.get? k₁ = some j₁ → d.jobs.get? k₂ = some j₂ →
    j₁.status = .running → j₂.status = .running → j₁.resourceLockKey = j₂.resourceLockKey → k₁ = k₂
  unclaimed : ∀ k j, d.jobs.get? k = some j → j.status = .queued → j.attempt = 0
  once : ∀ k j, d.jobs.get? k = some j → j.attempt ≤ 1
  digests : ∀ k₁ k₂ j₁ j₂, d.jobs.get? k₁ = some j₁ → d.jobs.get? k₂ = some j₂ →
    j₁.idempotencyKeyDigest = j₂.idempotencyKeyDigest → k₁ = k₂

/-- A settled job that is running or queued was so before. -/
theorem Settles.status_eq {j' : Job π} (h : Settles j j') (hs : j'.status.isTerminal = false) :
    j.status = j'.status := by
  rcases h.status with heq | hterm
  · exact heq.symm
  · rw [hs] at hterm
    contradiction

/-- Removing and settling rows keeps the invariant. -/
theorem Consistent.of_settles {d' : Tables π} (hd : Consistent d)
    (h : ∀ k j', d'.jobs.get? k = some j' → ∃ j, d.jobs.get? k = some j ∧ Settles j j') : Consistent d' := by
  constructor
  · intro k j' hj'
    obtain ⟨j, hj, hs⟩ := h k j' hj'
    rw [hs.id, hd.keyed k j hj]
  · intro k₁ k₂ j₁' j₂' h₁ h₂ hr₁ hr₂ hlock
    obtain ⟨j₁, hj₁, hs₁⟩ := h k₁ j₁' h₁
    obtain ⟨j₂, hj₂, hs₂⟩ := h k₂ j₂' h₂
    have hrun₁ : j₁.status = .running := (hs₁.status_eq (by rw [hr₁]; rfl)).trans hr₁
    have hrun₂ : j₂.status = .running := (hs₂.status_eq (by rw [hr₂]; rfl)).trans hr₂
    apply hd.exclusive k₁ k₂ j₁ j₂ hj₁ hj₂ hrun₁ hrun₂
    rw [← hs₁.lock, ← hs₂.lock, hlock]
  · intro k j' hj' hq
    obtain ⟨j, hj, hs⟩ := h k j' hj'
    rw [hs.attempt]
    exact hd.unclaimed k j hj ((hs.status_eq (by rw [hq]; rfl)).trans hq)
  · intro k j' hj'
    obtain ⟨j, hj, hs⟩ := h k j' hj'
    rw [hs.attempt]
    exact hd.once k j hj
  · intro k₁ k₂ j₁' j₂' h₁ h₂ hdig
    obtain ⟨j₁, hj₁, hs₁⟩ := h k₁ j₁' h₁
    obtain ⟨j₂, hj₂, hs₂⟩ := h k₂ j₂' h₂
    apply hd.digests k₁ k₂ j₁ j₂ hj₁ hj₂
    rw [← hs₁.digest, ← hs₂.digest, hdig]

/-- Writing one settled row keeps the invariant. -/
theorem Consistent.set (hd : Consistent d) {k : String} {j' : Job π} (hj : d.jobs.get? k = some j)
    (hs : Settles j j') : Consistent { d with jobs := d.jobs.set k j' } := by
  apply hd.of_settles
  intro m i hi
  rcases Dict.of_get?_set hi with ⟨rfl, rfl⟩ | ⟨-, hi⟩
  · exact ⟨j, hj, hs⟩
  · exact ⟨i, hi, .refl i⟩

theorem settles_recovered (now : ℕ) (j : Job π) : Settles j (recovered now j) :=
  ⟨rfl, rfl, rfl, rfl, .inr rfl⟩

/-- Recovery settles the jobs whose lease has run out. -/
theorem Consistent.recover (hd : Consistent d) (now : ℕ) :
    Consistent { d with jobs := d.jobs.updateWhere (isExpired now) (recovered now) } := by
  apply hd.of_settles
  intro k j' hj'
  rw [Dict.get?_updateWhere, Option.map_eq_some_iff] at hj'
  obtain ⟨j, hj, rfl⟩ := hj'
  refine ⟨j, hj, ?_⟩
  split
  · exact settles_recovered now j
  · exact .refl j

theorem Consistent.outside (hd : Consistent d) (o : Outside) : Consistent (outside d o) := by
  cases o with
  | createProject p => exact ⟨hd.keyed, hd.exclusive, hd.unclaimed, hd.once, hd.digests⟩
  | deleteProject p =>
    apply hd.of_settles
    intro k j hj
    exact ⟨j, (Dict.get?_deleteWhere_eq_some_iff.mp hj).1, .refl j⟩

/-- What the select of `claim_next` has found. -/
theorem of_mem_oldest (h : j ∈ oldest d) : (∃ k, d.jobs.get? k = some j) ∧ j.status = .queued ∧
      ∀ k i, d.jobs.get? k = some i → i.status = .running → i.resourceLockKey ≠ j.resourceLockKey := by
  have hclaim : j ∈ claimable d := (List.mem_filter.mp h).1
  obtain ⟨hmem, hwhere⟩ := List.mem_filter.mp hclaim
  obtain ⟨hq, hfree⟩ := of_decide_eq_true hwhere
  refine ⟨Dict.mem_values_iff.mp hmem, hq, ?_⟩
  intro k i hi hr hlock
  apply hfree
  rw [← hlock]
  apply List.mem_map_of_mem
  exact List.mem_filter.mpr ⟨Dict.mem_values_iff.mpr ⟨k, hi⟩, by simpa using hr⟩

/-- What `claim_next` goes on to write. -/
theorem claimNext_eq_ok {workerId : String} {now choice : ℕ}
    (h : claimNext settings d workerId now choice = .ok r) :
    ∃ j ∈ oldest d, r = .update j.id j (started settings workerId now j) true
      (.claimed (some (started settings workerId now j))) := by
  unfold claimNext at h
  split at h
  · contradiction
  · next j hj => exact ⟨j, List.mem_of_getElem? hj, (Except.ok.inj h).symm⟩

/-- A row may be written that shares neither its digest nor, while it runs, its lock. -/
theorem Consistent.put (hd : Consistent d) (hqueued : j.status = .queued → j.attempt = 0)
    (honce : j.attempt ≤ 1) (hdigest : ∀ k i, k ≠ j.id → d.jobs.get? k = some i →
      i.idempotencyKeyDigest ≠ j.idempotencyKeyDigest)
    (hlock : j.status = .running → ∀ k i, k ≠ j.id → d.jobs.get? k = some i →
      i.status = .running → i.resourceLockKey ≠ j.resourceLockKey) :
    Consistent { d with jobs := d.jobs.set j.id j } := by
  constructor
  · intro m i hi
    rcases Dict.of_get?_set hi with ⟨rfl, rfl⟩ | ⟨-, hi⟩
    · rfl
    · exact hd.keyed m i hi
  · intro m₁ m₂ i₁ i₂ h₁ h₂ hr₁ hr₂ heq
    rcases Dict.of_get?_set h₁ with ⟨rfl, rfl⟩ | ⟨hm₁, hi₁⟩ <;>
      rcases Dict.of_get?_set h₂ with ⟨rfl, rfl⟩ | ⟨hm₂, hi₂⟩
    · rfl
    · exact absurd heq.symm (hlock hr₁ m₂ i₂ hm₂ hi₂ hr₂)
    · exact absurd heq (hlock hr₂ m₁ i₁ hm₁ hi₁ hr₁)
    · exact hd.exclusive m₁ m₂ i₁ i₂ hi₁ hi₂ hr₁ hr₂ heq
  · intro m i hi
    rcases Dict.of_get?_set hi with ⟨-, rfl⟩ | ⟨-, hi⟩
    · exact hqueued
    · exact hd.unclaimed m i hi
  · intro m i hi
    rcases Dict.of_get?_set hi with ⟨-, rfl⟩ | ⟨-, hi⟩
    · exact honce
    · exact hd.once m i hi
  · intro m₁ m₂ i₁ i₂ h₁ h₂ heq
    rcases Dict.of_get?_set h₁ with ⟨rfl, rfl⟩ | ⟨hm₁, hi₁⟩ <;>
      rcases Dict.of_get?_set h₂ with ⟨rfl, rfl⟩ | ⟨hm₂, hi₂⟩
    · rfl
    · exact absurd heq.symm (hdigest m₂ i₂ hm₂ hi₂)
    · exact absurd heq (hdigest m₁ i₁ hm₁ hi₁)
    · exact hd.digests m₁ m₂ i₁ i₂ hi₁ hi₂ heq

/-- A claim takes a free lock for a job that was never claimed. -/
theorem Consistent.claim (hd : Consistent d) (hj : j ∈ oldest d) (settings : Settings π)
    (workerId : String) (now : ℕ) :
    Consistent { d with jobs := d.jobs.set j.id (started settings workerId now j) } := by
  obtain ⟨⟨k, hk⟩, hq, hfree⟩ := of_mem_oldest hj
  obtain rfl := hd.keyed k j hk
  have hfirst : j.attempt = 0 := hd.unclaimed j.id j hk hq
  have hput := hd.put (j := started settings workerId now j)
  apply hput
  · intro h
    simp [started] at h
  · show j.attempt + 1 ≤ 1
    omega
  · intro m i hm hi heq
    exact hm (hd.digests m j.id i j hi hk heq)
  · intro _ m i _ hi hr
    exact hfree m i hi hr

/-- `enqueue` goes on to insert its job only where nobody has the digest. -/
theorem enqueue_eq_ok {q : Request π} (h : enqueue settings d q = .ok r) :
    findDigest d (q.digest settings) = none ∧ r = .insert (q.job settings) := by
  unfold enqueue at h
  split_ifs at h
  split at h
  · contradiction
  · next hnone => exact ⟨hnone, (Except.ok.inj h).symm⟩

/-- `enqueue` returns at once only with the job it has found. -/
theorem enqueue_eq_returned {q : Request π} {reply : Reply π}
    (h : enqueue settings d q = .error (.ok reply)) :
    ∃ j, findDigest d (q.digest settings) = some j ∧ reply = .enqueued j false := by
  unfold enqueue at h
  split_ifs at h
  · cases Except.error.inj h
  · cases Except.error.inj h
  · split at h
    · next j hj => exact ⟨j, hj, (Except.ok.inj (Except.error.inj h)).symm⟩
    · contradiction
  · cases Except.error.inj h

/-- The keys an inserted row has to respect. -/
theorem of_admits (h : admits d j = true) : d.jobs.get? j.id = none ∧
      ∀ k i, d.jobs.get? k = some i → i.idempotencyKeyDigest ≠ j.idempotencyKeyDigest := by
  simp only [admits, Bool.and_eq_true, decide_eq_true_eq, Option.isNone_iff_eq_none] at h
  obtain ⟨⟨hid, hdig⟩, -⟩ := h
  refine ⟨Dict.not_mem_iff.mp hid, ?_⟩
  intro k i hi
  simpa using Dict.first_eq_none_iff.mp hdig k i hi

/-- An admitted job is queued, unclaimed and new. -/
theorem Consistent.insert (hd : Consistent d) (h : admits d j = true) (hq : j.status = .queued)
    (ha : j.attempt = 0) : Consistent { d with jobs := d.jobs.set j.id j } := by
  apply hd.put
  · intro _
    exact ha
  · omega
  · intro k i _ hi
    exact (of_admits h).2 k i hi
  · intro hr
    rw [hq] at hr
    contradiction

section
variable [DecidableEq π] {settings : Settings π}
variable {d : Tables π} {w : World (Tables π) (Call π) (Write π) (Answer π)}
    {e : Event (Call π) Outside} {k : String} {j j' : Job π}

/-- A late write keeps the invariant, whatever it finds. -/
theorem Consistent.late (hd : Consistent d) {r : Write π} (hr : IsLate r) : Consistent (write d r).2 := by
  cases r with
  | insert | recover => exact absurd hr id
  | update jobId read new event reply =>
    obtain ⟨-, hattempt, hnew⟩ := hr
    simp only [write]
    split
    · next stored hs => exact hd.set hs (settles_merge hattempt hnew stored)
    · repeat' split
      all_goals exact hd

/-- An atomic method keeps the invariant. -/
theorem Consistent.atomic (hd : Consistent d) {c : Call π} {r : Write π} (ha : c.isAtomic = true)
    (h : read settings d c = .ok r) : Consistent (write d r).2 := by
  cases c with
  | enqueue q =>
    obtain ⟨-, rfl⟩ := enqueue_eq_ok h
    simp only [write]
    split
    · next hadm => exact hd.insert hadm rfl rfl
    · exact hd
  | recoverExpired now =>
    obtain rfl := (Except.ok.inj h).symm
    exact hd.recover now
  | claimNext workerId now choice =>
    obtain ⟨j, hj, rfl⟩ := claimNext_eq_ok h
    obtain ⟨⟨k, hk⟩, -, -⟩ := of_mem_oldest hj
    obtain rfl := hd.keyed k j hk
    simp only [write, hk, merge_started]
    exact hd.claim hj settings workerId now
  | progress | heartbeat | succeed | fail | needsAttention => contradiction

/-! ## Runs -/

/-- An empty queue among some projects. -/
def start (projects : List String) : World (Tables π) (Call π) (Write π) (Answer π) :=
  ⟨⟨projects, .empty⟩, [], []⟩

/-- The queue after the first `i` events of a run. -/
def after (settings : Settings π) (projects : List String) (events : List (Event (Call π) Outside))
    (i : ℕ) : World (Tables π) (Call π) (Write π) (Answer π) :=
  stateAt ((service settings).step outside) (start projects) events i

/-- A consistent table, with only late updates waiting. -/
def Sound (w : World (Tables π) (Call π) (Write π) (Answer π)) : Prop :=
  Consistent w.db ∧ ∀ p ∈ w.waiting, IsLate p.2

omit [DecidableEq π] in
theorem sound_start (projects : List String) : Sound (start projects : World (Tables π) _ _ _) := by
  refine ⟨⟨?_, ?_, ?_, ?_, ?_⟩, by simp [start]⟩ <;> simp [start]

theorem Sound.step (hw : Sound w) (e : Event (Call π) Outside) :
    Sound ((service settings).step outside w e) := by
  apply Service.invariant_world (I := Consistent) (W := fun _ r => IsLate r) ?_ ?_ ?_ ?_ hw
  · intro d c r _ ha hr
    exact isLate_of_read ha hr
  · intro d c r hd ha hr
    exact hd.atomic ha hr
  · intro d c r hd hr
    exact hd.late hr
  · intro d o hd
    exact hd.outside o

/-- Every interleaving keeps the queue sound. -/
theorem sound_after (settings : Settings π) (projects : List String)
    (events : List (Event (Call π) Outside)) (i : ℕ) : Sound (after settings projects events i) :=
  invariant_stateAt (sound_start projects) (fun _ e hw => hw.step e) i

/-! ## What a step does to one row -/

/-- The ways the row stored under `k` can change while it is not deleted. -/
inductive RowStep (settings : Settings π) (w : World (Tables π) (Call π) (Write π) (Answer π))
    (e : Event (Call π) Outside) (k : String) (j : Job π) : Job π → Prop
  | same : RowStep settings w e k j j
  | recovered (now : ℕ) : isExpired now j = true → RowStep settings w e k j (recovered now j)
  | claimed (workerId : String) (now : ℕ) : j.status = .queued →
      RowStep settings w e k j (started settings workerId now j)
  | late (i : ℕ) (c : Call π) (read new : Job π) (event : Bool) (reply : Reply π) : e = .write i →
      w.waiting[i]? = some (c, .update k read new event reply) →
        RowStep settings w e k j (read.merge new j)

omit [DecidableEq π] in
theorem RowStep.of_get? (hj : d.jobs.get? k = some j) (h : d.jobs.get? k = some j') :
    RowStep settings w e k j j' := by
  rw [hj] at h
  rw [← Option.some.inj h]
  exact .same

/-- One write by primary key, seen from the row under `k`. -/
theorem rowStep_update {jobId : String} {read new : Job π} {event : Bool} {reply : Reply π}
    (hj : d.jobs.get? k = some j)
    (hj' : (write d (.update jobId read new event reply)).2.jobs.get? k = some j')
    (hself : jobId = k → RowStep settings w e k j (read.merge new j)) : RowStep settings w e k j j' := by
  simp only [write] at hj'
  split at hj'
  · next stored hs =>
    rcases Dict.of_get?_set hj' with ⟨rfl, rfl⟩ | ⟨-, h⟩
    · rw [hj] at hs
      rw [← Option.some.inj hs]
      exact hself rfl
    · exact .of_get? hj h
  · repeat' split at hj'
    all_goals exact .of_get? hj hj'

/-- The row an atomic method leaves. -/
theorem rowStep_atomic (hd : Consistent d) {c : Call π} {r : Write π} (ha : c.isAtomic = true)
    (hr : read settings d c = .ok r) (hj : d.jobs.get? k = some j)
    (hj' : (write d r).2.jobs.get? k = some j') : RowStep settings w e k j j' := by
  cases c with
  | enqueue q =>
    obtain ⟨-, rfl⟩ := enqueue_eq_ok hr
    simp only [write] at hj'
    split at hj'
    · next hadm =>
      rcases Dict.of_get?_set hj' with ⟨rfl, -⟩ | ⟨-, h⟩
      · rw [(of_admits hadm).1] at hj
        contradiction
      · exact .of_get? hj h
    · exact .of_get? hj hj'
  | recoverExpired now =>
    obtain rfl := (Except.ok.inj hr).symm
    simp only [write, Dict.get?_updateWhere, hj, Option.map_some] at hj'
    obtain rfl := Option.some.inj hj'
    split
    · next hexp => exact .recovered now hexp
    · exact .same
  | claimNext workerId now choice =>
    obtain ⟨i, hi, rfl⟩ := claimNext_eq_ok hr
    obtain ⟨⟨m, hm⟩, hq, -⟩ := of_mem_oldest hi
    obtain rfl := hd.keyed m i hm
    apply rowStep_update hj hj'
    rintro rfl
    rw [hm] at hj
    obtain rfl := Option.some.inj hj
    rw [merge_started]
    exact .claimed workerId now hq
  | progress | heartbeat | succeed | fail | needsAttention => contradiction

theorem rowStep_step (hw : Sound w) (e : Event (Call π) Outside) (hj : w.db.jobs.get? k = some j)
    (hj' : ((service settings).step outside w e).db.jobs.get? k = some j') : RowStep settings w e k j j' := by
  have hstep := (service settings).stepOf_step outside w e
  generalize (service settings).step outside w e = w' at hstep hj'
  cases hstep with
  | answered c a hr => exact .of_get? hj hj'
  | atomic c r hr ha => exact rowStep_atomic hw.1 ha hr hj hj'
  | decided | idle => exact .of_get? hj hj'
  | written i c r hi =>
    have hlate : IsLate r := hw.2 (c, r) (List.mem_of_getElem? hi)
    cases r with
    | insert | recover => exact absurd hlate id
    | update jobId read new event reply =>
      apply rowStep_update hj hj'
      rintro rfl
      exact .late i c read new event reply rfl hi
  | outside o =>
    cases o with
    | createProject p => exact .of_get? hj hj'
    | deleteProject p => exact .of_get? hj (Dict.get?_deleteWhere_eq_some_iff.mp hj').1

omit [DecidableEq π] in
theorem RowStep.digest (h : RowStep settings w e k j j') :
    j'.idempotencyKeyDigest = j.idempotencyKeyDigest := by
  cases h <;> rfl

/-! ## Mutual exclusion, single claims, idempotent enqueues -/

/-- What the steps of a run keep of a row holds of it as long as it is there. -/
theorem row_after {projects : List String} {events : List (Event (Call π) Outside)}
    {P : Job π → Prop} {m i : ℕ} (hmi : m ≤ i)
    (hm : (after settings projects events m).db.jobs.get? k = some j) (hP : P j)
    (hkept : ∀ n, m ≤ n → n ≤ i → k ∈ (after settings projects events n).db.jobs)
    (hstep : ∀ n e b b', events[n]? = some e → (after settings projects events n).db.jobs.get? k = some b →
      RowStep settings (after settings projects events n) e k b b' → P b → P b') :
    ∃ j', (after settings projects events i).db.jobs.get? k = some j' ∧ P j' := by
  induction i, hmi using Nat.le_induction with
  | base => exact ⟨j, hm, hP⟩
  | succ i hmi ih =>
    obtain ⟨b, hb, hPb⟩ := ih fun n hn hni => hkept n hn (by omega)
    obtain ⟨b', hb'⟩ := Dict.mem_iff_exists.mp (hkept (i + 1) (by omega) le_rfl)
    refine ⟨b', hb', ?_⟩
    unfold after at hb'
    cases he : events[i]? with
    | none =>
      rw [stateAt_of_none he] at hb'
      cases hb.symm.trans hb'
      exact hPb
    | some e =>
      rw [stateAt_succ he] at hb'
      have hrow := rowStep_step (sound_after settings projects events i) e hb hb'
      exact hstep i e b b' he hb hrow hPb

/-- An `enqueue` that returns has found the digest, or has inserted its job because nobody has it. -/
theorem serve_enqueue {q : Request π} {created : Bool}
    (h : ((service settings).serve d (.enqueue q)).1 = .ok (.enqueued j created)) :
    (created = false ∧ findDigest d (q.digest settings) = some j ∧
        ((service settings).serve d (.enqueue q)).2 = d) ∨
      (created = true ∧ findDigest d (q.digest settings) = none ∧ j = q.job settings ∧
        ((service settings).serve d (.enqueue q)).2 = { d with jobs := d.jobs.set j.id j }) := by
  cases hq : enqueue settings d q with
  | error a =>
    have hserve : (service settings).serve d (.enqueue q) = (a, d) := Service.serve_of_error _ hq
    rw [hserve] at h ⊢
    rw [show a = .ok (.enqueued j created) from h] at hq
    obtain ⟨i, hi, heq⟩ := enqueue_eq_returned hq
    obtain ⟨rfl, rfl⟩ := Reply.enqueued.inj heq
    exact .inl ⟨rfl, hi, rfl⟩
  | ok r =>
    have hserve : (service settings).serve d (.enqueue q) = write d r := Service.serve_of_ok _ hq
    obtain ⟨hnone, rfl⟩ := enqueue_eq_ok hq
    rw [hserve] at h ⊢
    simp only [write] at h ⊢
    split at h
    · next hadm =>
      obtain ⟨rfl, rfl⟩ := Reply.enqueued.inj (Except.ok.inj h)
      rw [if_pos hadm]
      exact .inr ⟨rfl, hnone, rfl, rfl⟩
    · contradiction

/-- What `enqueue` returns stands in the table afterwards, under the digest of the request. -/
theorem enqueued_stored (hd : Consistent d) {q : Request π} {created : Bool}
    (h : ((service settings).serve d (.enqueue q)).1 = .ok (.enqueued j created)) :
    ((service settings).serve d (.enqueue q)).2.jobs.get? j.id = some j ∧
      j.idempotencyKeyDigest = q.digest settings := by
  rcases serve_enqueue h with ⟨-, hfound, hsame⟩ | ⟨-, -, hj, hset⟩
  · obtain ⟨⟨k, hk⟩, hdigest⟩ := Dict.of_first hfound
    rw [hsame]
    refine ⟨?_, by simpa using hdigest⟩
    rw [hd.keyed k j hk]
    exact hk
  · rw [hset]
    refine ⟨Dict.get?_set_self _ _ _, ?_⟩
    rw [hj]
    rfl

/-- A digest that stands in the table is found, and nothing is created. -/
theorem enqueued_found (hd : Consistent d) {q : Request π} {created : Bool}
    (h : ((service settings).serve d (.enqueue q)).1 = .ok (.enqueued j created)) {i : Job π}
    (hk : d.jobs.get? k = some i) (hi : i.idempotencyKeyDigest = q.digest settings) :
    j.id = k ∧ created = false := by
  rcases serve_enqueue h with ⟨hc, hfound, -⟩ | ⟨-, hnone, -, -⟩
  · obtain ⟨⟨m, hm⟩, hdigest⟩ := Dict.of_first hfound
    have hmk : m = k := by
      apply hd.digests m k j i hm hk
      rw [hi]
      simpa using hdigest
    exact ⟨hmk ▸ hd.keyed m j hm, hc⟩
  · have hne := Dict.first_eq_none_iff.mp hnone k i hk
    simp only [decide_eq_false_iff_not] at hne
    exact absurd hi hne

/-- In every interleaving no two running jobs hold one lock, no job is claimed twice, and an `enqueue`
for a requester, type, scope and key that have their job finds that job while its row is there. -/
theorem queue_is_safe (settings : Settings π) (projects : List String)
    (events : List (Event (Call π) Outside)) (i : ℕ) :
    (∀ k₁ k₂ j₁ j₂, (after settings projects events i).db.jobs.get? k₁ = some j₁ →
      (after settings projects events i).db.jobs.get? k₂ = some j₂ → j₁.status = .running →
        j₂.status = .running → j₁.resourceLockKey = j₂.resourceLockKey → k₁ = k₂) ∧
    (∀ k j, (after settings projects events i).db.jobs.get? k = some j → j.attempt ≤ 1) ∧
    ∀ m < i, ∀ q₁ q₂ j₁ j₂ created₁ created₂,
      events[m]? = some (.call (.enqueue q₁)) → events[i]? = some (.call (.enqueue q₂)) →
      q₁.requestedBy = q₂.requestedBy → q₁.jobType = q₂.jobType → q₁.scope = q₂.scope →
      q₁.idempotencyKey = q₂.idempotencyKey →
      ((service settings).serve (after settings projects events m).db (.enqueue q₁)).1 =
        .ok (.enqueued j₁ created₁) →
      ((service settings).serve (after settings projects events i).db (.enqueue q₂)).1 =
        .ok (.enqueued j₂ created₂) →
      (∀ n, m < n → n ≤ i → j₁.id ∈ (after settings projects events n).db.jobs) →
      j₂.id = j₁.id ∧ created₂ = false := by
  have hi := (sound_after settings projects events i).1
  refine ⟨hi.exclusive, hi.once, ?_⟩
  intro m hmi q₁ q₂ j₁ j₂ created₁ created₂ hm _ hrequester htype hscope hkey h₁ h₂ hkept
  obtain ⟨hstored, hdigest⟩ := enqueued_stored (sound_after settings projects events m).1 h₁
  have hnext : (after settings projects events (m + 1)).db.jobs.get? j₁.id = some j₁ := by
    unfold after
    rw [stateAt_succ hm, Service.step_db_of_atomic rfl]
    exact hstored
  have hsame : ∃ b, (after settings projects events i).db.jobs.get? j₁.id = some b ∧
      b.idempotencyKeyDigest = j₁.idempotencyKeyDigest := by
    apply row_after (P := fun b => b.idempotencyKeyDigest = j₁.idempotencyKeyDigest) hmi hnext rfl
    · intro n hn hni
      exact hkept n hn hni
    · intro n e b b' _ _ hrow hb
      rw [hrow.digest, hb]
  obtain ⟨b, hb, hbdigest⟩ := hsame
  apply enqueued_found hi h₂ hb
  rw [hbdigest, hdigest, Request.digest, Request.digest, hrequester, htype, hscope, hkey]

omit [DecidableEq π] in
/-- No step revives a job, not even a late write. -/
theorem RowStep.ended (hw : Sound w) (h : RowStep settings w e k j j') (hj : j.status.isTerminal = true) :
    j'.status.isTerminal = true := by
  cases h with
  | same => exact hj
  | recovered => rfl
  | claimed _ _ hq => rw [hq] at hj; cases hj
  | late _ _ _ _ _ _ _ hi =>
    obtain ⟨-, hattempt, hnew⟩ := hw.2 _ (List.mem_of_getElem? hi)
    exact (settles_merge hattempt hnew j).status.elim (fun heq => heq ▸ hj) id

/-- An ended job stays ended while its row is there. -/
def NeverRevives (run : ℕ → Tables π) : Prop :=
  ∀ {m i k j}, m ≤ i → (run m).jobs.get? k = some j → j.status.isTerminal = true →
    (∀ n, m ≤ n → n ≤ i → k ∈ (run n).jobs) → ∃ j', (run i).jobs.get? k = some j' ∧ j'.status.isTerminal = true

/-- In whatever order calls and writes interleave, no job is revived. -/
theorem never_revives (settings : Settings π) (projects : List String)
    (events : List (Event (Call π) Outside)) : NeverRevives fun n => (after settings projects events n).db :=
  fun hmi hm hj hkept => row_after hmi hm hj hkept fun n _ _ _ _ _ hrow =>
    hrow.ended (sound_after settings projects events n)

namespace Sample

/-- A queue with leases of one second. -/
def config : Settings Unit := ⟨"secret", 1, fun _ => true, id⟩

/-- A request for a pull, drawing the identifier `newIdentifier` at `now`. -/
def pull (newIdentifier : String) (now : ℕ) : Request Unit where
  jobType := "git.pull"
  requestedBy := "usr_1"
  targetType := "project"
  targetId := some "prj_1"
  projectId := none
  payload := ()
  resourceLockKey := "project:prj_1"
  idempotencyKey := "pull-0001"
  requestId := none
  idempotencyScope := none
  newIdentifier := newIdentifier
  now := now

/-- A job, claimed, whose request is repeated. -/
def repeated : List (Event (Call Unit) Outside) :=
  [.call (.enqueue (pull "job_1" 0)), .call (.claimNext "worker" 1 0),
    .call (.enqueue (pull "job_2" 2))]

/-- A worker that has read its running job when the lease runs out, and writes after recovery. -/
def race : List (Event (Call Unit) Outside) :=
  [.call (.enqueue (pull "job_1" 0)), .call (.claimNext "worker" 1 0),
    .call (.succeed "job_1" "pulled" 1000000), .call (.recoverExpired 1000001), .write 0]

/-- The same worker, writing in time. -/
def inTime : List (Event (Call Unit) Outside) :=
  [.call (.enqueue (pull "job_1" 0)), .call (.claimNext "worker" 1 0),
    .call (.succeed "job_1" "pulled" 1000000), .write 0, .call (.recoverExpired 1000001)]

/-- The claimed job of these runs. -/
def running : Job Unit := started config "worker" 1 ((pull "job_1" 0).job config)

/-- What the worker makes of it. -/
def succeeded : Job Unit := finished config .succeeded none "pulled" 1000000 running

end Sample

open Sample

/-- The repeated request is answered with the first job, which is running by then. -/
theorem queue_is_safe_repeated : ∃ j₁ j₂ created₂, ((service config).serve (after config [] repeated 0).db
        (.enqueue (pull "job_1" 0))).1 = .ok (.enqueued j₁ true) ∧
      ((service config).serve (after config [] repeated 2).db
        (.enqueue (pull "job_2" 2))).1 = .ok (.enqueued j₂ created₂) ∧
      j₂.status = .running ∧ j₂.id = j₁.id ∧ created₂ = false := by
  have h₁ : ((service config).serve (after config [] repeated 0).db (.enqueue (pull "job_1" 0))).1 =
        .ok (.enqueued ((pull "job_1" 0).job config) true) := by
    decide +kernel
  have h₂ : ((service config).serve (after config [] repeated 2).db (.enqueue (pull "job_2" 2))).1 =
        .ok (.enqueued Sample.running false) := by
    decide +kernel
  have hkept : ∀ n, 0 < n → n ≤ 2 → "job_1" ∈ (after config [] repeated n).db.jobs := by
    intro n hn hn'
    obtain rfl | rfl : n = 1 ∨ n = 2 := by omega
    · decide +kernel
    · decide +kernel
  refine ⟨_, _, _, h₁, h₂, rfl, ?_⟩
  exact (queue_is_safe config [] repeated 2).2.2 0 (by decide) _ _ _ _ _ _
    rfl rfl rfl rfl rfl rfl h₁ h₂ hkept

/-! ## Terminal jobs -/

omit [DecidableEq π] in
/-- A terminal job keeps its outcome through every step but a finishing write that came late. -/
theorem RowStep.sameOutcome (hw : Sound w) (h : RowStep settings w e k j j')
    (hj : w.db.jobs.get? k = some j) (hterm : j.status.isTerminal = true)
    (hmeet : ∀ i c r, e = .write i → w.waiting[i]? = some (c, r) → FinishesRunning w.db c r) :
    SameOutcome j j' := by
  cases h with
  | same => exact .refl j
  | recovered now hexp =>
    simp only [isExpired, Bool.and_eq_true, beq_iff_eq] at hexp
    rw [hexp.1] at hterm
    contradiction
  | claimed workerId now hq =>
    rw [hq] at hterm
    contradiction
  | late i c read new event reply he hi =>
    obtain ⟨hrun, -, hnew⟩ := hw.2 _ (List.mem_of_getElem? hi)
    rcases hnew with hsame | hfin
    · exact sameOutcome_merge hsame j
    · have hne : new.status ≠ read.status := by
        rintro heq
        rw [heq, hrun] at hfin
        contradiction
      rw [hmeet i c _ he hi hne j hj] at hterm
      contradiction

/-- In every run whose finishing writes find their job still running, a terminal job keeps its status,
result, error code and finishing time as long as its row is there. -/
theorem terminal_stays (settings : Settings π) (projects : List String)
    (events : List (Event (Call π) Outside))
    (hmeet : (service settings).WritesMeet outside FinishesRunning (start projects) events)
    {m i : ℕ} (hmi : m ≤ i) {k : String} {j : Job π}
    (hm : (after settings projects events m).db.jobs.get? k = some j) (hterm : j.status.isTerminal = true)
    (hkept : ∀ n, m ≤ n → n ≤ i → k ∈ (after settings projects events n).db.jobs) :
    ∃ j', (after settings projects events i).db.jobs.get? k = some j' ∧ j'.status = j.status ∧
      j'.resultSummary = j.resultSummary ∧ j'.errorCode = j.errorCode ∧ j'.finishedAt = j.finishedAt := by
  have hrun : ∃ j', (after settings projects events i).db.jobs.get? k = some j' ∧
      SameOutcome j j' := by
    apply row_after hmi hm (.refl j) hkept
    intro n e b b' he hb hrow hout
    have hend : b.status.isTerminal = true := by
      rw [hout.status]
      exact hterm
    apply hout.trans
    apply hrow.sameOutcome (sound_after settings projects events n) hb hend
    intro i c r hi hr
    subst hi
    exact hmeet n i c r he hr
  obtain ⟨j', hj', hout⟩ := hrun
  exact ⟨j', hj', hout.status, hout.result, hout.errorCode, hout.finishedAt⟩

/-- The worker that writes in time keeps its success through the recovery that follows. -/
theorem terminal_stays_in_time : ∃ j j', (after config [] inTime 4).db.jobs.get? "job_1" = some j ∧
      j.status = .succeeded ∧ (after config [] inTime 5).db.jobs.get? "job_1" = some j' ∧
      j'.status = j.status ∧ j'.resultSummary = j.resultSummary ∧ j'.errorCode = j.errorCode ∧
      j'.finishedAt = j.finishedAt := by
  have hmeet : (service config).WritesMeet outside FinishesRunning (start [])
      inTime := by
    intro n i c r hn hr
    -- the run's only late write is its fourth event
    obtain rfl : n = 3 := by
      by_contra hne
      have hlt : n < 5 := (List.getElem?_eq_some_iff.mp hn).1
      obtain rfl | rfl | rfl | rfl : n = 0 ∨ n = 1 ∨ n = 2 ∨ n = 4 := by omega
      all_goals contradiction
    obtain rfl : 0 = i := Event.write.inj (Option.some.inj hn)
    have hwait : ((after config [] inTime 3).waiting[0]?).map Prod.snd =
        some (.update "job_1" (Sample.running) (Sample.succeeded) true .done) := by
      decide +kernel
    have hstored : ((after config [] inTime 3).db.jobs.get? "job_1").map Job.status =
        some .running := by
      decide
    unfold after at hwait hstored
    rw [hr] at hwait
    obtain rfl := Option.some.inj hwait
    intro _ stored hs
    rw [hs] at hstored
    exact Option.some.inj hstored
  have hj : (after config [] inTime 4).db.jobs.get? "job_1" =
      some succeeded := by
    decide +kernel
  have hkept : ∀ n, 4 ≤ n → n ≤ 5 → "job_1" ∈ (after config [] inTime n).db.jobs := by
    intro n hn hn'
    obtain rfl | rfl : n = 4 ∨ n = 5 := by omega
    · exact Dict.mem_of_get? hj
    · decide
  obtain ⟨j', hj'⟩ := terminal_stays config [] inTime hmeet (by decide) hj rfl hkept
  exact ⟨succeeded, j', hj, rfl, hj'⟩

/-- Recovery has recorded the job as needing attention; the worker's late write makes it succeeded. -/
theorem finish_overwrites_recovery : ((after config [] race 4).db.jobs.get? "job_1").map
        (fun j => (j.status, j.resultSummary, j.errorCode, j.finishedAt)) =
      some (.needsAttention, none, some "JOB_EXECUTION_INTERRUPTED", some 1000001) ∧
    ((after config [] race 5).db.jobs.get? "job_1").map
        (fun j => (j.status, j.resultSummary, j.errorCode, j.finishedAt)) =
      some (.succeeded, some "pulled", some "JOB_EXECUTION_INTERRUPTED", some 1000000) := by
  decide

end

end AgentBox.Jobs
