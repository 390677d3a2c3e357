import AgentBox.Lifecycle.Freshness
import AgentBox.Lifecycle.Identities

/-!
# Generations that may be live

`unsettled` reads off a log which generation of a workspace may be live: the last one whose start was
called, unless its stop returned an authoritative `STOPPED` or its control group was recorded as
`EMPTY_DURABLE`. `Contains` is the registry's invariant about it: such a generation is the floor of the
workspace, there is no empty evidence about it, and something bars the next generation. Every change of a
request keeps it (`Tick.contains`), and a start is admitted only when nothing of its workspace may be live
(`Admitted.ready`).
-/

namespace AgentBox.Lifecycle

open Option Method

variable {e : Effect} {a : Attestation} {o : Observation} {snapshot : Snapshot}
  {w : String} {g : ℕ} {s t : World} {r : CgroupRecord} {i : Identity} {cfg : Config}

/-! ## Generations that may be live -/

/-- The generation of the workspace that may be live after one more effect. -/
def unsettledAfter (w : String) (unsettled : Option ℕ) : Effect → Option ℕ
  | .startCalled i => if i.workspaceId = w then some i.generation else unsettled
  | .stopReturned i o =>
    if i.workspaceId = w ∧ unsettled = some i.generation ∧ o.isStopped = true then none else unsettled
  | .recorded r =>
    if r.workspaceId = w ∧ unsettled = some r.generation ∧ r.cleanup = .emptyDurable then none
    else unsettled
  | _ => unsettled

/-- The generation of the workspace that was started last, unless it is known to be gone. -/
def unsettled (w : String) (log : List Effect) : Option ℕ := log.foldl (unsettledAfter w) none

/-- A start happens only when no earlier generation of the workspace may be live. -/
def Exclusive (log : List Effect) : Prop :=
  EachAfter (fun before e => ∀ i, e = .startCalled i → unsettled i.workspaceId before = none) log

theorem unsettled_concat (w : String) (log : List Effect) (e : Effect) :
    unsettled w (log ++ [e]) = unsettledAfter w (unsettled w log) e := by
  simp [unsettled]

/-- Only a start makes a generation live. -/
theorem unsettledAfter_of_ne {u : Option ℕ} (hne : ∀ i, e ≠ .startCalled i)
    (h : unsettledAfter w u e = some g) : u = some g := by
  cases e with
  | startCalled i => exact absurd rfl (hne i)
  | stopCalled | observeCalled | attested => exact h
  | stopReturned i o =>
    simp only [unsettledAfter] at h
    split at h
    · cases h
    · exact h
  | recorded r =>
    simp only [unsettledAfter] at h
    split at h
    · cases h
    · exact h

/-! ## The invariant -/

/-- What keeps the next generation of a workspace from starting while `g` may be live. -/
structure Guarded (s : World) (w : String) (g : ℕ) : Prop where
  floor : ∃ a, s.attestations.get? w = some a ∧ a.minGeneration = g
  nonempty : ∀ r, s.records.get? w g = some r → r.cleanup ≠ .emptyDurable
  barred : w ∈ s.quarantine ∨ (∃ r, s.records.get? w g = some r) ∨
    (w ∉ s.workspaces ∧ s.recoveredFloor w < g)

/-- The invariant of the registry. -/
structure Contains (s : World) : Prop where
  exclusive : Exclusive s.log
  guarded : ∀ w g, unsettled w s.log = some g → Guarded s w g
  remembered : ∀ w i o, s.workspaces.get? w = some (i, o) → i.generation ≤ s.floor w
  recovered : ∀ w, s.recoveredFloor w = 0 ∨
    ∃ a, s.attestations.get? w = some a ∧ s.recoveredFloor w ≤ a.minGeneration

theorem exclusive_concat {log : List Effect} (h : Exclusive log) (hne : ∀ i, e ≠ .startCalled i) :
    Exclusive (log ++ [e]) :=
  eachAfter_concat h fun i hi => absurd hi (hne i)

theorem Guarded.quarantine (h : Guarded s w g) (hfiles : t.attestations = s.attestations)
    (hrecords : t.records = s.records) (hquarantine : s.quarantine ⊆ t.quarantine)
    (hworkspaces : t.workspaces = s.workspaces) (hrecovered : t.recoveredFloor = s.recoveredFloor) :
    Guarded t w g := by
  refine ⟨hfiles ▸ h.floor, hrecords ▸ h.nonempty, ?_⟩
  rw [hrecords, hworkspaces, hrecovered]
  exact h.barred.imp_left (hquarantine ·)

/-- Isolating workspaces and raising floors. -/
theorem Contains.raise (h : Contains s) (hlog : t.log = s.log)
    (hfiles : t.attestations = s.attestations) (hrecords : t.records = s.records)
    (hquarantine : s.quarantine ⊆ t.quarantine) (hworkspaces : t.workspaces = s.workspaces)
    (hrecovered : t.recoveredFloor = s.recoveredFloor) (hfloor : ∀ w, s.floor w ≤ t.floor w) :
    Contains t where
  exclusive := hlog ▸ h.exclusive
  guarded := fun w g hg =>
    (h.guarded w g (hlog ▸ hg)).quarantine hfiles hrecords hquarantine hworkspaces hrecovered
  remembered := fun w i o hi => (h.remembered w i o (hworkspaces ▸ hi)).trans (hfloor w)
  recovered := by
    rw [hrecovered, hfiles]
    exact h.recovered

/-- An effect that changes nothing else. -/
theorem Contains.note (h : Contains s) (hne : ∀ i, e ≠ .startCalled i) :
    Contains { s with log := s.log ++ [e] } where
  exclusive := exclusive_concat h.exclusive hne
  guarded := by
    intro w g hg
    rw [unsettled_concat] at hg
    have hguarded := h.guarded w g (unsettledAfter_of_ne hne hg)
    exact ⟨hguarded.floor, hguarded.nonempty, hguarded.barred⟩
  remembered := h.remembered
  recovered := h.recovered

theorem Contains.record (h : Contains s) (r : CgroupRecord) :
    Contains { s with records := s.records.put r, log := s.log ++ [.recorded r] } where
  exclusive := exclusive_concat h.exclusive nofun
  guarded := by
    intro w g hg
    rw [unsettled_concat] at hg
    have hold := unsettledAfter_of_ne (fun _ heq => by cases heq) hg
    have hguarded := h.guarded w g hold
    refine ⟨hguarded.floor, fun q hq => ?_, ?_⟩
    · change (s.records.put r).get? w g = some q at hq
      rw [Records.get?_put] at hq
      split at hq
      · next heq =>
        cases heq
        cases hq
        intro hempty
        simp only [unsettledAfter, hold, hempty, and_self, if_true] at hg
        cases hg
      · exact hguarded.nonempty q hq
    · refine hguarded.barred.imp_right (Or.imp_left fun ⟨q, hq⟩ => ?_)
      change ∃ q, (s.records.put r).get? w g = some q
      rw [Records.get?_put]
      split
      · exact ⟨r, rfl⟩
      · exact ⟨q, hq⟩
  remembered := h.remembered
  recovered := h.recovered

theorem Contains.epoch (h : Contains s) (ha : s.attestations.get? a.workspaceId = some a) (e : ℕ) : Contains
      { s with
        attestations := s.attestations.put { a with runtimeEpoch := e }
        log := s.log ++ [.attested { a with runtimeEpoch := e }] } := by
  -- the record keeps its generation
  have hkept : ∀ w (P : ℕ → Prop), (∃ b, s.attestations.get? w = some b ∧ P b.minGeneration) →
      ∃ b, (s.attestations.put { a with runtimeEpoch := e }).get? w = some b ∧ P b.minGeneration := by
    rintro w P ⟨b, hb, hP⟩
    rw [Attestations.get?_put]
    split
    · next hw =>
      obtain rfl : a = b := by
        rw [hw] at hb
        exact Option.some.inj (ha.symm.trans hb)
      exact ⟨_, rfl, hP⟩
    · exact ⟨b, hb, hP⟩
  refine ⟨exclusive_concat h.exclusive fun _ heq => (by cases heq), fun w g hg => ?_, h.remembered,
    fun w => (h.recovered w).imp_right (hkept w (s.recoveredFloor w ≤ ·))⟩
  rw [unsettled_concat] at hg
  have hguarded := h.guarded w g hg
  exact ⟨hkept w (· = g) hguarded.floor, hguarded.nonempty, hguarded.barred⟩

/-- A workspace whose floor has empty evidence has nothing live. -/
theorem Contains.unsettled_eq_none (h : Contains s)
    (hfloor : ∃ a, s.attestations.get? w = some a ∧ a.minGeneration = g)
    (hrecord : s.records.get? w g = some r) (hempty : r.cleanup = .emptyDurable) :
    unsettled w s.log = none := by
  by_contra hne
  obtain ⟨g', hg'⟩ := ne_none_iff_exists'.mp hne
  obtain ⟨⟨b, hb, rfl⟩, hnonempty, -⟩ := h.guarded w g' hg'
  obtain ⟨a, ha, rfl⟩ := hfloor
  rw [ha] at hb
  cases hb
  exact hnonempty r hrecord hempty

theorem Contains.clear (h : Contains s) (hfloor : ∃ a, s.attestations.get? w = some a ∧ a.minGeneration = g)
    (hrecord : s.records.get? w g = some r) (hempty : r.cleanup = .emptyDurable) : Contains { s with
        quarantine := s.quarantine.erase w
        recoveredFloor := Function.update s.recoveredFloor w g } where
  exclusive := h.exclusive
  guarded := by
    intro v g' hg'
    have hne : v ≠ w := by
      rintro rfl
      rw [h.unsettled_eq_none hfloor hrecord hempty] at hg'
      cases hg'
    obtain ⟨hfloor', hnonempty, hbarred⟩ := h.guarded v g' hg'
    refine ⟨hfloor', hnonempty, ?_⟩
    dsimp only
    rw [Finset.mem_erase, Function.update_of_ne hne]
    exact hbarred.imp_left fun hmem => ⟨hne, hmem⟩
  remembered := h.remembered
  recovered := by
    intro v
    dsimp only
    by_cases hv : v = w
    · subst hv
      obtain ⟨a, ha, rfl⟩ := hfloor
      exact .inr ⟨a, ha, by rw [Function.update_self]⟩
    · rw [Function.update_of_ne hv]
      exact h.recovered v

theorem Mark.contains (h : Mark s t) (hs : Contains s) : Contains t := by
  cases h with
  | isolate | register => exact hs.raise rfl rfl rfl (Finset.subset_insert _ _) rfl rfl fun _ => le_rfl
  | note he => exact hs.note fun i heq => by rw [heq] at he; cases he
  | record r => exact hs.record r

theorem Tick.contains (hcfg : cfg.hasAttestations = true) (h : Tick cfg s t) (hs : Contains s) :
    Contains t := by
  cases h with
  | mark hmark => exact hmark.contains hs
  | hydrate w =>
    unfold World.hydrate
    split
    · refine hs.raise rfl rfl rfl ?_ rfl rfl (le_update_max _ _ _)
      dsimp only
      split
      · exact Finset.subset_insert _ _
      · exact subset_rfl
    · exact hs
  | screen i hscreen =>
    obtain ⟨_, _, hfloor, hquarantine, rfl⟩ := screen_eq hscreen
    exact hs.raise rfl rfl rfl hquarantine rfl rfl hfloor
  | epoch ha e => exact hs.epoch ha e
  | clear hfloor hrecord hempty => exact hs.clear (hfloor hcfg) hrecord hempty

/-! ## A workspace that is not barred yet -/

/-- The invariant, but nothing may bar the next generation of one workspace. -/
structure Exposed (s : World) (w : String) : Prop where
  exclusive : Exclusive s.log
  others : ∀ v g, v ≠ w → unsettled v s.log = some g → Guarded s v g
  floor : ∀ g, unsettled w s.log = some g → ∃ a, s.attestations.get? w = some a ∧ a.minGeneration = g
  nonempty : ∀ g r, unsettled w s.log = some g → s.records.get? w g = some r →
    r.cleanup ≠ .emptyDurable
  remembered : ∀ v i o, s.workspaces.get? v = some (i, o) → i.generation ≤ s.floor v
  recovered : ∀ v, s.recoveredFloor v = 0 ∨
    ∃ a, s.attestations.get? v = some a ∧ s.recoveredFloor v ≤ a.minGeneration

theorem Contains.exposed (h : Contains s) (w : String) : Exposed s w where
  exclusive := h.exclusive
  others := fun v g _ hg => h.guarded v g hg
  floor := fun g hg => (h.guarded w g hg).floor
  nonempty := fun g r hg => (h.guarded w g hg).nonempty r
  remembered := h.remembered
  recovered := h.recovered

theorem Exposed.contains (h : Exposed s w) (hbarred : ∀ g, unsettled w s.log = some g → w ∈ s.quarantine ∨
      (∃ r, s.records.get? w g = some r) ∨ (w ∉ s.workspaces ∧ s.recoveredFloor w < g)) : Contains s where
  exclusive := h.exclusive
  guarded := by
    intro v g hg
    by_cases hv : v = w
    · subst hv
      exact ⟨h.floor g hg, fun r => h.nonempty g r hg, hbarred g hg⟩
    · exact h.others v g hv hg
  remembered := h.remembered
  recovered := h.recovered

/-- Remembering an identity whose generation the floor has reached. -/
theorem Exposed.install (h : Exposed s w) (hlog : t.log = s.log)
    (hfiles : t.attestations = s.attestations) (hrecords : t.records = s.records)
    (hquarantine : s.quarantine ⊆ t.quarantine) (hworkspaces : t.workspaces = s.workspaces.set w (i, o))
    (hrecovered : t.recoveredFloor = s.recoveredFloor) (hfloor : ∀ v, s.floor v ≤ t.floor v)
    (hi : i.generation ≤ t.floor w) : Exposed t w where
  exclusive := hlog ▸ h.exclusive
  others := by
    intro v g hv hg
    obtain ⟨hfloor, hnonempty, hbarred⟩ := h.others v g hv (hlog ▸ hg)
    refine ⟨hfiles ▸ hfloor, hrecords ▸ hnonempty, ?_⟩
    rw [hrecords, hworkspaces, hrecovered, Dict.mem_set]
    refine hbarred.imp (hquarantine ·) (Or.imp_right fun h => ⟨fun hmem => ?_, h.2⟩)
    exact hmem.elim hv h.1
  floor := hlog ▸ hfiles ▸ h.floor
  nonempty := hlog ▸ hrecords ▸ h.nonempty
  remembered := by
    intro v j p hj
    rw [hworkspaces, Dict.get?_set] at hj
    split at hj
    · next hv =>
      cases hj
      exact hv ▸ hi
    · exact (h.remembered v j p hj).trans (hfloor v)
  recovered := by
    rw [hrecovered, hfiles]
    exact h.recovered

/-- Remembering another observation of a remembered identity. -/
theorem Contains.remember (h : Contains s) (hmem : i.workspaceId ∈ s.workspaces)
    (hi : i.generation ≤ s.floor i.workspaceId) :
    Contains { s with workspaces := s.workspaces.set i.workspaceId (i, o) } := by
  have hinstalled := (h.exposed i.workspaceId).install (o := o)
    (t := { s with workspaces := s.workspaces.set i.workspaceId (i, o) }) rfl rfl rfl subset_rfl rfl rfl
    (fun _ => le_rfl) hi
  refine hinstalled.contains fun g hg => ?_
  rcases (h.guarded _ g hg).barred with hquarantine | hrecord | ⟨hnot, -⟩
  · exact .inl hquarantine
  · exact .inr (.inl hrecord)
  · exact absurd hmem hnot

/-! ## The state in which a start is carried out -/

/-- Nothing of the workspace may be live, and nothing is known about the new generation. -/
structure Ready (s : World) (i : Identity) : Prop where
  contains : Contains s
  settled : unsettled i.workspaceId s.log = none
  above : s.floor i.workspaceId < i.generation
  unknown : s.records.get? i.workspaceId i.generation = none

/-- Evidence about a generation is no later than the latest. -/
theorem le_latestGeneration {s : Records} (h : s.snapshot w = some snapshot)
    (hr : s.get? w g = some r) : g ≤ snapshot.latestGeneration.getD 0 := by
  obtain ⟨records, hrecords, rfl⟩ := map_eq_some_iff.mp h
  obtain ⟨rfl, rfl⟩ := Prod.mk.inj (s.keyed hr)
  have hmem : r ∈ records := (Records.mem_ofWorkspace hrecords).mpr ⟨rfl, hr⟩
  have hsorted : records.Pairwise fun a b => a.generation ≤ b.generation := by
    unfold Records.ofWorkspace at hrecords
    dsimp only at hrecords
    split at hrecords
    · cases hrecords
    · cases hrecords
      exact List.pairwise_insertionSort _ _
  have hne : records ≠ [] := List.ne_nil_of_mem hmem
  have hlast : records.getLast? = some (records.getLast hne) := List.getLast?_eq_getLast_of_ne_nil hne
  rw [hlast]
  change r.generation ≤ (records.getLast hne).generation
  rw [← List.dropLast_append_getLast hne] at hmem hsorted
  rcases List.mem_append.mp hmem with hbefore | hend
  · exact (List.pairwise_append.mp hsorted).2.2 r hbefore _ (List.mem_singleton_self _)
  · rw [List.mem_singleton.mp hend]

/-- Evidence that is not empty is unresolved. -/
theorem isSome_latestUnresolved {s : Records} (h : s.snapshot w = some snapshot)
    (hr : s.get? w g = some r) (hnonempty : r.cleanup ≠ .emptyDurable) :
    snapshot.latestUnresolved.isSome = true := by
  obtain ⟨records, hrecords, rfl⟩ := map_eq_some_iff.mp h
  obtain ⟨rfl, rfl⟩ := Prod.mk.inj (s.keyed hr)
  have hmem : r ∈ unresolved records :=
    List.mem_filter.mpr ⟨(Records.mem_ofWorkspace hrecords).mpr ⟨rfl, hr⟩, by simpa using hnonempty⟩
  change (unresolved records).getLast?.isSome = true
  rw [List.getLast?_isSome]
  exact List.ne_nil_of_mem hmem

/-- A workspace that the evidence leaves out of quarantine. -/
theorem screen_spec (hcfg : cfg.hasRecords = true) (h : s.screen cfg i = some t)
    (hquarantine : i.workspaceId ∉ t.quarantine) :
    ∃ snapshot, s.records.snapshot i.workspaceId = some snapshot ∧
      (snapshot.latestUnresolved.isSome = true → activeLive s i snapshot = true) := by
  unfold World.screen at h
  split at h
  · next hskip =>
    cases h
    simp only [hcfg, Bool.not_true, Bool.false_or, decide_eq_true_eq] at hskip
    exact absurd hskip hquarantine
  · obtain ⟨snapshot, hsnapshot, rfl⟩ := map_eq_some_iff.mp h
    refine ⟨snapshot, hsnapshot, fun hsome => ?_⟩
    by_contra hlive
    apply hquarantine
    dsimp only
    rw [if_pos (by simp [hsome, hlive])]
    exact Finset.mem_insert_self _ _

section
variable (h : s.screen cfg i = some t)
include h

theorem screen_log : t.log = s.log ∧ t.records = s.records ∧ t.recoveredFloor = s.recoveredFloor := by
  obtain ⟨_, _, -, -, rfl⟩ := screen_eq h
  exact ⟨rfl, rfl, rfl⟩

theorem subset_quarantine_screen : s.quarantine ⊆ t.quarantine := by
  obtain ⟨_, _, -, hquarantine, rfl⟩ := screen_eq h
  exact hquarantine

theorem screen_floor_le (w : String) : s.floor w ≤ t.floor w := by
  obtain ⟨_, _, hfloor, -, rfl⟩ := screen_eq h
  exact hfloor w

theorem screen_detached : t.detached = s.detached := by
  obtain ⟨_, _, -, -, rfl⟩ := screen_eq h
  rfl

end

theorem hydrate_detached (s : World) (w : String) : (s.hydrate cfg w).detached = s.detached := by
  unfold World.hydrate
  split <;> rfl

theorem hydrate_recoveredFloor (s : World) (w : String) :
    (s.hydrate cfg w).recoveredFloor = s.recoveredFloor := by
  unfold World.hydrate
  split <;> rfl

theorem subset_quarantine_hydrate (s : World) (w : String) : s.quarantine ⊆ (s.hydrate cfg w).quarantine := by
  unfold World.hydrate
  split
  · dsimp only
    split
    · exact Finset.subset_insert _ _
    · exact subset_rfl
  · exact subset_rfl

/-- A durable floor that was not recovered isolates a workspace that is not remembered. -/
theorem mem_quarantine_hydrate (hcfg : cfg.hasAttestations = true)
    (ha : s.attestations.get? w = some a) (hnot : w ∉ s.workspaces)
    (hfloor : s.recoveredFloor w < a.minGeneration) : w ∈ (s.hydrate cfg w).quarantine := by
  simp only [World.hydrate, hcfg, ha]
  rw [if_pos ⟨hnot, hfloor⟩]
  exact Finset.mem_insert_self _ _

/-- A workspace that leaves the quarantine has nothing live. -/
theorem Tick.settles (hcfg : cfg.hasAttestations = true) (h : Tick cfg s t) (hs : Contains s)
    (hw : w ∈ s.quarantine ∨ unsettled w s.log = none) : w ∈ t.quarantine ∨ unsettled w t.log = none := by
  have hnote : ∀ e : Effect, (∀ i, e ≠ .startCalled i) → unsettled w s.log = none →
      unsettled w (s.log ++ [e]) = none := by
    intro e hne hnone
    rw [unsettled_concat, hnone]
    by_contra hsome
    obtain ⟨g, hg⟩ := ne_none_iff_exists'.mp hsome
    cases unsettledAfter_of_ne hne hg
  cases h with
  | mark hmark =>
    cases hmark with
    | isolate | register => exact hw.imp_left (Finset.mem_insert_of_mem ·)
    | note he => exact hw.imp_right (hnote _ fun i heq => by rw [heq] at he; cases he)
    | record r => exact hw.imp_right (hnote _ nofun)
  | hydrate v => exact hw.imp (subset_quarantine_hydrate s v ·) fun h => (hydrate_log s v) ▸ h
  | screen i hscreen =>
    exact hw.imp (subset_quarantine_screen hscreen ·) fun h => (screen_log hscreen).1 ▸ h
  | epoch => exact hw.imp_right (hnote _ nofun)
  | @clear v g r hfloor hrecord hempty =>
    by_cases hv : w = v
    · subst hv
      exact .inr (hs.unsettled_eq_none (hfloor hcfg) hrecord hempty)
    · exact hw.imp_left fun hmem => Finset.mem_erase.mpr ⟨hv, hmem⟩

section
variable {request : Request} {s t u : World} (hatt : cfg.hasAttestations = true)
  (hrec : cfg.hasRecords = true) (hs : Contains s) (h : Admitted cfg request s t u)
include hatt h

theorem Admitted.not_mem_quarantine : request.identity.workspaceId ∉ u.quarantine := by
  intro hmem
  have hretry := h.unquarantined hmem
  simp only [isCleanupRetry, hatt, Bool.not_true, Bool.and_false, Bool.false_and, Bool.false_eq_true] at hretry

include hs

theorem Admitted.contains : Contains u := h.ticks.keeps (Tick.contains hatt) hs

include hrec

theorem Admitted.settled (hstart : request.action = .start) :
    unsettled request.identity.workspaceId u.log = none := by
  obtain ⟨habove, -⟩ := justified_verdict hstart h.verdict
  have hquarantine := h.not_mem_quarantine hatt
  have hscreen := h.examined.screened
  have hhydrate : Contains (s.hydrate cfg request.identity.workspaceId) := (Tick.hydrate s _).contains hatt hs
  rcases h.examined.recovered with rfl | ⟨-, hmem, -, hrecoveries, -⟩
  · by_contra hsome
    obtain ⟨g, hg⟩ := ne_none_iff_exists'.mp hsome
    obtain ⟨⟨a, ha, hmin⟩, hnonempty, hbarred⟩ := (h.contains hatt hs).guarded _ g hg
    rcases hbarred with hbarred | ⟨r, hr⟩ | ⟨hnot, hlow⟩
    · exact hquarantine hbarred
    · -- evidence that is not settled lets only the remembered generation pass
      obtain ⟨snapshot, hsnapshot, hlive⟩ := screen_spec hrec hscreen hquarantine
      have hr' : (s.hydrate cfg request.identity.workspaceId).records.get?
          request.identity.workspaceId g = some r := (screen_log hscreen).2.1 ▸ hr
      have hactive := hlive (isSome_latestUnresolved hsnapshot hr' (hnonempty r hr))
      unfold activeLive at hactive
      split at hactive
      · next current _ hcurrent _ =>
        simp only [Bool.and_eq_true, beq_iff_eq] at hactive
        rw [← screen_workspaces hscreen] at hcurrent
        have hremembered := (h.contains hatt hs).remembered _ current.1 current.2 hcurrent
        omega
      · cases hactive
    · -- the floor of a workspace that is not remembered isolates it
      apply hquarantine
      apply subset_quarantine_screen hscreen
      rw [screen_workspaces hscreen, hydrate_workspaces] at hnot
      rw [(screen_log hscreen).2.2, hydrate_recoveredFloor, ← hmin] at hlow
      rw [screen_attestations hscreen, hydrate_attestations] at ha
      exact mem_quarantine_hydrate hatt ha hnot hlow
  · have ht : Contains t := (Tick.screen _ hscreen).contains hatt hhydrate
    have hkept := hrecoveries.ticks.keeps
      (P := fun v => Contains v ∧ (request.identity.workspaceId ∈ v.quarantine ∨
        unsettled request.identity.workspaceId v.log = none))
      (fun htick hv => ⟨htick.contains hatt hv.1, htick.settles hatt hv.1 hv.2⟩) ⟨ht, .inl hmem⟩
    exact hkept.2.resolve_left hquarantine

omit hs in
theorem Admitted.unknown (hstart : request.action = .start) :
    u.records.get? request.identity.workspaceId request.identity.generation = none := by
  obtain ⟨habove, -⟩ := justified_verdict hstart h.verdict
  have hquarantine := h.not_mem_quarantine hatt
  have hscreen := h.examined.screened
  by_contra hsome
  obtain ⟨r, hr⟩ := ne_none_iff_exists'.mp hsome
  rcases h.examined.recovered with rfl | ⟨-, -, -, hrecoveries, hlatest⟩
  · obtain ⟨snapshot, hsnapshot, -⟩ := screen_spec hrec hscreen hquarantine
    have hle := le_latestGeneration hsnapshot ((screen_log hscreen).2.1 ▸ hr)
    have hfloor := screen_floor hscreen hquarantine
    simp only [latestEvidence, hrec, if_true, hsnapshot, bind_some] at hfloor
    omega
  · obtain ⟨a, snapshot, ha, hsnapshot, hgeneration⟩ := hlatest.resolve_left hquarantine
    obtain ⟨hfloors, hkeys⟩ := hrecoveries.keeps
    have hbefore : (t.records.get? request.identity.workspaceId
        request.identity.generation).isSome = true := by
      rw [← hkeys, hr]
      rfl
    obtain ⟨q, hq⟩ := isSome_iff_exists.mp hbefore
    have hle := le_latestGeneration hsnapshot hq
    rw [hgeneration] at hle
    have hmin : a.minGeneration ≤ t.floor request.identity.workspaceId := by
      rw [screen_attestations hscreen, hydrate_attestations] at ha
      have hhydrated := @hydrate_floor cfg s request.identity.workspaceId
      simp only [durableFloor, hatt, ha] at hhydrated
      have hraised := screen_floor_le hscreen request.identity.workspaceId
      omega
    rw [hfloors] at habove
    simp only [getD_some] at hle
    omega

theorem Admitted.ready (hstart : request.action = .start) : Ready u request.identity where
  contains := h.contains hatt hs
  settled := h.settled hatt hrec hs hstart
  above := (justified_verdict hstart h.verdict).1
  unknown := h.unknown hatt hrec hstart

end

end AgentBox.Lifecycle
