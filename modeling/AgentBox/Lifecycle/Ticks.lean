import AgentBox.Common.Run
import AgentBox.Lifecycle.Registry

/-!
# What a request does besides its own call

Apart from burning a generation, calling the executor and remembering the outcome, a request only ever
raises floors, extends the quarantine, writes evidence, and clears a workspace whose evidence is empty.
`Tick` lists these changes; every other method is a series of them, so an invariant of the registry has to
be checked against `Tick` and against `perform` only (`step_keeps`).
-/

namespace AgentBox.Lifecycle

open Method Relation

variable {s t u : World} {P : World → Prop} {m : Op Unit} {action : Action} {r : CgroupRecord}
    {request : Request} {i : Identity}

section
variable {s : World} {Q : Unit → World → Prop} {E : Fault → World → Prop}

theorem wp_note (e : Effect) : (note e).wp s Q E ↔ Q () { s with log := s.log ++ [e] } := Iff.rfl

theorem wp_isolate (w : String) :
    (isolate w).wp s Q E ↔ Q () { s with quarantine := insert w s.quarantine } := Iff.rfl

theorem wp_raiseFloor (w : String) (g : ℕ) : (raiseFloor w g).wp s Q E ↔
      Q () { s with floor := Function.update s.floor w (max (s.floor w) g) } := Iff.rfl

theorem wp_remember (i : Identity) (o : Observation) : (remember i o).wp s Q E ↔
      Q () { s with workspaces := s.workspaces.set i.workspaceId (i, o) } := Iff.rfl

end

/-- The effects that say nothing about generations. -/
def Effect.isPlain : Effect → Bool
  | .startCalled _ | .attested _ | .recorded _ => false
  | _ => true

/-- A change that only isolates workspaces and collects evidence. -/
inductive Mark : World → World → Prop
  | isolate (s : World) (w : String) : Mark s { s with quarantine := insert w s.quarantine }
  | register (s : World) (i : Identity) :
      Mark s { s with detached := s.detached ++ [i], quarantine := insert i.workspaceId s.quarantine }
  | note (s : World) {e : Effect} (he : e.isPlain = true) : Mark s { s with log := s.log ++ [e] }
  | record (s : World) (r : CgroupRecord) :
      Mark s { s with records := s.records.put r, log := s.log ++ [.recorded r] }

/-- One change of the registry or of its directories. -/
inductive Tick (cfg : Config) : World → World → Prop
  | mark {s t : World} (h : Mark s t) : Tick cfg s t
  | hydrate (s : World) (w : String) : Tick cfg s (s.hydrate cfg w)
  | screen {s t : World} (i : Identity) (h : s.screen cfg i = some t) : Tick cfg s t
  /-- the epoch of a workspace's record moves on -/
  | epoch {s : World} {a : Attestation} (h : s.attestations.get? a.workspaceId = some a) (e : ℕ) :
      Tick cfg s
        { s with
          attestations := s.attestations.put { a with runtimeEpoch := e }
          log := s.log ++ [.attested { a with runtimeEpoch := e }] }
  /-- the latest generation of a workspace is known to be empty -/
  | clear {s : World} {w : String} {g : ℕ} {r : CgroupRecord}
      (hfloor : cfg.hasAttestations = true →
        ∃ a, s.attestations.get? w = some a ∧ a.minGeneration = g)
      (hrecord : s.records.get? w g = some r) (hempty : r.cleanup = .emptyDurable) :
      Tick cfg s
        { s with
          quarantine := s.quarantine.erase w
          recoveredFloor := Function.update s.recoveredFloor w g }

def Marks : World → World → Prop := ReflTransGen Mark

/-- A series of changes. -/
def Ticks (cfg : Config) : World → World → Prop := ReflTransGen (Tick cfg)

variable {cfg : Config}

instance : Std.Refl Marks := ⟨fun _ => .refl⟩

instance : IsTrans World Marks := ⟨fun _ _ _ => ReflTransGen.trans⟩

instance : Std.Refl (Ticks cfg) := ⟨fun _ => .refl⟩

instance : IsTrans World (Ticks cfg) := ⟨fun _ _ _ => ReflTransGen.trans⟩

theorem Tick.ticks (h : Tick cfg s t) : Ticks cfg s t := .single h

/-- What every change keeps is kept by a series of them. -/
theorem Ticks.keeps (hstep : ∀ {s t}, Tick cfg s t → P s → P t) (h : Ticks cfg s t) (hs : P s) : P t := by
  induction h with
  | refl => exact hs
  | tail _ htick ih => exact hstep htick ih

theorem Mark.marks (h : Mark s t) : Marks s t := .single h

theorem Marks.ticks (h : Marks s t) : Ticks cfg s t :=
  ReflTransGen.mono (fun _ _ hmark => .mark hmark) _ _ h

theorem Marks.keeps (hstep : ∀ {s t}, Mark s t → P s → P t) (h : Marks s t) (hs : P s) : P t := by
  induction h with
  | refl => exact hs
  | tail _ hmark ih => exact hstep hmark ih

/-! ## Methods that only collect evidence -/

theorem always_note {e : Effect} (he : e.isPlain = true) : (note e).Always Marks :=
  always_modify fun s => (Mark.note s he).marks

theorem always_isolate (w : String) : (isolate w).Always Marks :=
  always_modify fun s => (Mark.isolate s w).marks

theorem always_registerDetached (i : Identity) : (registerDetached i).Always Marks :=
  always_modify fun s => (Mark.register s i).marks

theorem always_replaceRecord (r : CgroupRecord) : (replaceRecord r).Always Marks :=
  fun s => (Mark.record s r).marks

theorem always_writeRecord (r : CgroupRecord) : (writeRecord cfg r).Always Marks := by
  refine always_read fun s => ?_
  split
  · exact always_throw _
  · exact always_pure _
  · exact always_replaceRecord r

theorem always_fenceRecord (r : CgroupRecord) : (fenceRecord cfg r).Always Marks :=
  always_ite (fun _ => always_writeRecord _) fun _ => always_pure _

theorem always_fenceIdentity (i : Identity) : (fenceIdentity cfg i).Always Marks := by
  refine always_ite (fun _ => always_read fun s => ?_) fun _ => always_pure _
  split
  · exact always_pure _
  · exact always_fenceRecord _

theorem always_fenceBuilt (i : Identity) (script : Script) : (fenceBuilt cfg i script).Always Marks := by
  unfold fenceBuilt
  split
  · exact always_fenceRecord _
  · exact always_fenceIdentity i

theorem always_orReconcile (h : m.Always Marks) : (orReconcile m).Always Marks :=
  always_tryCatch h fun _ => always_throw _

theorem always_putAside (h : m.Always Marks) : (putAside m).Always Marks :=
  always_tryCatch h fun _ => always_ite (fun _ => always_throw _) fun _ => always_pure _

theorem always_cleanupFailedStart (i : Identity) (cleanup : Cleanup) :
    (cleanupFailedStart cfg i cleanup).Always Marks := by
  refine always_read fun s => always_unless fun _ =>
    always_bind (always_note rfl) fun _ => ?_
  split
  · exact always_bind (always_registerDetached i) fun _ => always_throw _
  · exact always_bind (always_registerDetached i) fun _ => always_throw _
  · exact always_throw _
  · exact always_bind (always_note rfl) fun _ => always_bind (always_liftExcept _) fun _ =>
      always_raiseIf _ _

theorem always_abandonStart (i : Identity) (script : Script) : (abandonStart cfg i script).Always Marks :=
  always_bind (always_putAside (always_cleanupFailedStart i _)) fun _ =>
    always_bind (always_putAside (always_fenceBuilt i script)) fun _ => always_throw _

theorem always_takeResult (action : Action) (i : Identity) (script : Script) :
    (takeResult cfg action i script).Always Marks := by
  refine always_bind (always_liftExcept _) fun o => ?_
  refine always_bind (always_onlyIf fun _ => always_note rfl) fun _ => ?_
  exact always_return (always_liftExcept _)

theorem always_callFailed (h : action ≠ .start) (i : Identity) (script : Script) (e : Fault) :
    (callFailed cfg action i script e).Always Marks := by
  unfold callFailed
  split
  · exact absurd rfl h
  · refine always_ite (fun _ => ?_) fun _ => always_throw _
    refine always_bind (always_isolate _) fun _ => ?_
    exact always_bind (always_orReconcile (always_fenceIdentity i)) fun _ => always_throw _
  · exact always_throw _

theorem always_callExecutor (h : action ≠ .start) (i : Identity) (script : Script) :
    (callExecutor cfg action i script).Always Marks := by
  refine always_bind (always_note ?_) fun _ =>
    always_tryCatch (always_takeResult action i script) (always_callFailed h i script)
  cases action with
  | start => exact absurd rfl h
  | stop | status | reconcile => rfl

theorem always_attest (action : Action) (i : Identity) (script : Script) :
    (attest cfg action i script).Always Marks :=
  always_bind (always_liftExcept _) fun _ => always_unless fun _ =>
    always_unless fun _ => always_writeRecord _

theorem always_collectEvidence (action : Action) (i : Identity) (script : Script) :
    (collectEvidence cfg action i script).Always Marks := by
  refine always_ite (fun _ => ?_) fun _ => always_pure _
  split
  · refine always_tryCatch (always_attest _ i script) fun e => ?_
    exact always_ite (fun _ => always_throw _) fun _ => always_abandonStart i script
  · refine always_tryCatch (always_attest _ i script) fun e => ?_
    refine always_ite (fun _ => always_throw _) fun _ => always_bind (always_isolate _) fun _ => ?_
    exact always_bind (always_orReconcile (always_fenceBuilt i script)) fun _ => always_throw _
  · exact always_pure _

theorem always_readBack (i : Identity) (script : Script) : (readBack cfg i script).Always Marks := by
  refine always_read fun s => always_ite (fun _ => ?_) fun _ => always_pure _
  exact always_bind (always_isolate _) fun _ => always_abandonStart i script

/-! ## Recovery -/

/-- One change of a recovery. It replaces records but adds none. -/
inductive Recovery (cfg : Config) : World → World → Prop
  | isolate (s : World) (w : String) : Recovery cfg s { s with quarantine := insert w s.quarantine }
  | settle {s : World} {r q : CgroupRecord} (h : s.records.get? r.workspaceId r.generation = some q) :
      Recovery cfg s { s with records := s.records.put r, log := s.log ++ [.recorded r] }
  | epoch {s : World} {a : Attestation} (h : s.attestations.get? a.workspaceId = some a) (e : ℕ) :
      Recovery cfg s
        { s with
          attestations := s.attestations.put { a with runtimeEpoch := e }
          log := s.log ++ [.attested { a with runtimeEpoch := e }] }
  | clear {s : World} {w : String} {g : ℕ} {r : CgroupRecord}
      (hfloor : cfg.hasAttestations = true →
        ∃ a, s.attestations.get? w = some a ∧ a.minGeneration = g)
      (hrecord : s.records.get? w g = some r) (hempty : r.cleanup = .emptyDurable) :
      Recovery cfg s
        { s with
          quarantine := s.quarantine.erase w
          recoveredFloor := Function.update s.recoveredFloor w g }

def Recoveries (cfg : Config) : World → World → Prop := ReflTransGen (Recovery cfg)

instance : Std.Refl (Recoveries cfg) := ⟨fun _ => .refl⟩

instance : IsTrans World (Recoveries cfg) := ⟨fun _ _ _ => ReflTransGen.trans⟩

theorem Recovery.recoveries (h : Recovery cfg s t) : Recoveries cfg s t := .single h

theorem Recovery.tick (h : Recovery cfg s t) : Tick cfg s t := by
  cases h with
  | isolate w => exact .mark (.isolate s w)
  | settle => exact .mark (.record s _)
  | epoch ha e => exact .epoch ha e
  | clear hfloor hrecord hempty => exact .clear hfloor hrecord hempty

theorem Recoveries.ticks (h : Recoveries cfg s t) : Ticks cfg s t :=
  ReflTransGen.mono (fun _ _ hrecovery => hrecovery.tick) _ _ h

/-- A recovery changes neither the floors nor which generations there is evidence about. -/
theorem Recoveries.keeps (h : Recoveries cfg s t) :
    t.floor = s.floor ∧ ∀ w g, (t.records.get? w g).isSome = (s.records.get? w g).isSome := by
  induction h with
  | refl => exact ⟨rfl, fun _ _ => rfl⟩
  | tail _ hstep ih =>
    cases hstep with
    | isolate | epoch | clear => exact ih
    | @settle r q hq =>
      refine ⟨ih.1, fun w g => ?_⟩
      rw [← ih.2 w g, Records.get?_put]
      split
      · next heq =>
        cases heq
        rw [hq]
        rfl
      · rfl

/-- A record that is settled lies in the directory and is empty. -/
theorem settleRecord_wp {s : World} {found r : CgroupRecord} (hempty : r.cleanup = .emptyDurable)
    (hfound : s.records.get? r.workspaceId r.generation = some found) : (settleRecord cfg found r).wp s
      (fun _ t => Recoveries cfg s t ∧ t.attestations = s.attestations ∧
        ∃ q, t.records.get? r.workspaceId r.generation = some q ∧ q.cleanup = .emptyDurable)
      (fun _ t => Recoveries cfg s t) := by
  have hput : Recoveries cfg s { s with records := s.records.put r, log := s.log ++ [.recorded r] } ∧
      ∃ q, (s.records.put r).get? r.workspaceId r.generation = some q ∧ q.cleanup = .emptyDurable :=
    ⟨(Recovery.settle hfound).recoveries, r, by rw [Records.get?_put, if_pos rfl], hempty⟩
  rw [settleRecord, wp_bind, wp_get]
  split
  · split
    · exact .refl
    · next hunchanged =>
      exact ⟨.refl, rfl, r, of_recoverEmpty_unchanged hunchanged, hempty⟩
    · exact ⟨hput.1, rfl, hput.2⟩
  · split
    · next heq =>
      split
      · exact .refl
      · exact ⟨.refl, rfl, r, by rw [hfound, heq], hempty⟩
    · split
      · exact .refl
      · exact ⟨hput.1, rfl, hput.2⟩

theorem enterAcknowledgement_wp (s : World) (r : CgroupRecord) : (enterAcknowledgement s r).wp s
      (fun _ t => Recoveries cfg s t ∧ t.records = s.records ∧ t.attestations = s.attestations)
      (fun _ t => Recoveries cfg s t) := by
  unfold enterAcknowledgement
  split
  · split
    · exact .refl
    · exact wp_unless (fun _ => .refl) fun _ => ⟨(Recovery.isolate s _).recoveries, rfl, rfl⟩
  · exact ⟨.refl, rfl, rfl⟩

theorem mem_of_latestUnresolved {s : Records} {w : String} {snapshot : Snapshot}
    (h : s.snapshot w = some snapshot) (hr : snapshot.latestUnresolved = some r) :
    s.get? w r.generation = some r ∧ r.workspaceId = w ∧ r.cleanup ≠ .emptyDurable := by
  obtain ⟨records, hrecords, rfl⟩ := Option.map_eq_some_iff.mp h
  have hmem := List.mem_of_mem_getLast? hr
  obtain ⟨hmem, hcleanup⟩ := List.mem_filter.mp hmem
  obtain ⟨hw, hget⟩ := (Records.mem_ofWorkspace hrecords).mp hmem
  exact ⟨hw ▸ hget, hw, by simpa using hcleanup⟩

theorem acknowledged_wp (s t : World) (r : CgroupRecord) : (acknowledged s r).wp t
      (fun found u => u = t ∧ s.records.get? r.workspaceId r.generation = some found) (fun _ u => u = t) := by
  unfold acknowledged
  split
  · rfl
  · next snapshot hsnapshot =>
    split
    · next found hfound =>
      rw [wp_ite]
      refine ⟨fun _ => rfl, fun hgeneration => ⟨rfl, ?_⟩⟩
      have hgeneration := not_not.mp hgeneration
      rcases Option.or_eq_some_iff.mp hfound with hlatest | ⟨-, hget⟩
      · rw [hgeneration]
        exact (mem_of_latestUnresolved hsnapshot hlatest).1
      · exact hget
    · rfl

/-- What is settled belongs to the workspace's floor. -/
theorem settleFloor_wp {found : CgroupRecord} {binding : String × String}
    (hrecords : t.records = s.records) (hfiles : t.attestations = s.attestations)
    (hempty : r.cleanup = .emptyDurable) (hfound : s.records.get? r.workspaceId r.generation = some found) :
    (settleFloor cfg s found r binding).wp t (fun _ u => Recoveries cfg t u ∧ (cfg.hasAttestations = true →
          ∃ a, u.attestations.get? r.workspaceId = some a ∧ a.minGeneration = r.generation) ∧
        ∃ q, u.records.get? r.workspaceId r.generation = some q ∧ q.cleanup = .emptyDurable)
      (fun _ u => Recoveries cfg t u) := by
  rw [← hrecords] at hfound
  have hsettle := @settleRecord_wp cfg t found r hempty hfound
  unfold settleFloor
  split
  · next hnone =>
    refine wp_imp hsettle fun _ u hu => ⟨hu.1, fun h => ?_, hu.2.2⟩
    rw [hnone] at h
    cases h
  · exact .refl
  · next a hsome ha =>
    refine wp_unless (fun _ => .refl) fun hfloor => ?_
    have hfloor := not_not.mp hfloor
    simp only [settlesFloor, Bool.and_eq_true, beq_iff_eq] at hfloor
    refine wp_seq hsettle fun fully u hu => ?_
    obtain ⟨hticks, hkept, hrecord⟩ := hu
    have hu : u.attestations.get? r.workspaceId = some a := by rw [hkept, hfiles, ha]
    have hkeyed : a.workspaceId = r.workspaceId := s.attestations.keyed ha
    have hown : u.attestations.get? a.workspaceId = some a := hkeyed ▸ hu
    rw [wp_bind, wp_onlyIf, recoverEpoch, wp_ite]
    refine ⟨fun _ => ⟨fun _ => ?_, fun _ => hticks⟩, fun _ => ?_⟩
    · refine ⟨hticks.tail (Recovery.epoch hown r.runtimeEpoch),
        fun _ => ⟨{ a with runtimeEpoch := r.runtimeEpoch }, ?_, hfloor.1.1.1.1⟩, hrecord⟩
      change (u.attestations.put _).get? r.workspaceId = _
      rw [Attestations.get?_put, if_pos hkeyed.symm]
    · exact ⟨hticks, fun _ => ⟨a, hu, hfloor.1.1.1.1⟩, hrecord⟩

theorem always_acknowledge (r : CgroupRecord) (binding : String × String) :
    (acknowledge cfg r binding).Always (Recoveries cfg) := by
  intro s
  rw [acknowledge, wp_bind, wp_get]
  refine wp_seq (enterAcknowledgement_wp s r) fun _ t ht => ?_
  obtain ⟨hst, hrecords, hfiles⟩ := ht
  simp only [wp_bind, wp_raiseIf]
  refine ⟨fun _ => hst, fun hempty => ⟨fun _ => hst, fun _ => ⟨fun _ => hst, fun _ => ?_⟩⟩⟩
  have hempty : r.cleanup = .emptyDurable := by
    by_contra hne
    exact hempty (.inl hne)
  refine wp_mono (acknowledged_wp s t r) (fun found u hu => ?_) fun _ u hu => hu ▸ hst
  obtain ⟨rfl, hfound⟩ := hu
  refine ⟨fun _ => hst, fun _ => ?_⟩
  refine wp_mono (settleFloor_wp hrecords hfiles hempty hfound) (fun fully v hv => ?_)
    fun _ v hv => hst.trans hv
  obtain ⟨huv, hfloor, q, hq, hqempty⟩ := hv
  rw [wp_onlyIf]
  refine ⟨fun _ => ?_, fun _ => hst.trans huv⟩
  exact (hst.trans huv).tail (Recovery.clear hfloor hq hqempty)

/-- The latest evidence about a workspace is about the generation of its durable record. -/
def FloorIsLatest (s : World) (w : String) : Prop :=
  ∃ a snapshot, s.attestations.get? w = some a ∧ s.records.snapshot w = some snapshot ∧
    snapshot.latestGeneration = some a.minGeneration

/-- A recovery lets a workspace out of quarantine only if its durable record is about the latest
generation. -/
def Recovered (cfg : Config) (w : String) (s t : World) : Prop :=
  Recoveries cfg s t ∧ (w ∈ s.quarantine → w ∈ t.quarantine ∨ FloorIsLatest s w)

theorem recover_wp (s : World) (i : Identity) (script : Script) :
    (recover cfg i script).wp s (fun _ => Recovered cfg i.workspaceId s) (fun _ t => Recoveries cfg s t) := by
  have hidle : Recovered cfg i.workspaceId s s := ⟨.refl, .inl⟩
  rw [recover, wp_bind, wp_get, wp_ite]
  refine ⟨fun _ => hidle, fun _ => ?_⟩
  rw [wp_tryCatch]
  have htry : (tryRecover cfg i script).wp s (fun _ => Recovered cfg i.workspaceId s)
      (fun _ t => Recoveries cfg s t) := by
    rw [tryRecover, wp_bind, wp_get]
    split
    · exact .refl
    · next snapshot hsnapshot =>
      split
      · exact hidle
      · next a ha =>
        rw [wp_ite]
        refine ⟨fun hrecovers => ?_, fun _ => hidle⟩
        have hlatest : FloorIsLatest s i.workspaceId := by
          simp only [recovers, Bool.and_eq_true, beq_iff_eq] at hrecovers
          exact ⟨a, snapshot, ha, hsnapshot, hrecovers.1.1.1.1.1⟩
        have hbody : (do
            onlyIf (finalizesPrevious cfg s i a) (Method.liftExcept script.finalizePrevious)
            let candidate ← Method.liftExcept script.observeRecovery
            acknowledge cfg candidate (i.bindingRevision, i.bindingDigest)
            onlyIf cfg.cleans (Method.liftExcept script.finalizeCandidate) :
            Op Unit).Always (Recoveries cfg) :=
          always_bind (always_onlyIf fun _ => always_liftExcept _) fun _ =>
            always_bind (always_liftExcept _) fun _ => always_bind (always_acknowledge _ _) fun _ =>
              always_onlyIf fun _ => always_liftExcept _
        exact wp_imp (hbody s) fun _ t ht => ⟨ht, fun _ => .inr hlatest⟩
  refine wp_mono htry (fun _ t ht => ht) fun e t ht => ?_
  rw [wp_ite]
  refine ⟨fun _ => ?_, fun _ => ht⟩
  exact ⟨ht.tail (Recovery.isolate t _), fun _ => .inl (Finset.mem_insert_self _ _)⟩

theorem admission_wp (s : World) (request : Request) : (admission cfg request).wp s
      (fun _ t => t = s.hydrate cfg request.identity.workspaceId ∧ s.authority ≠ none ∧
        cfg.supports request.identity.agentType = true ∧ checkIdentity cfg t request.identity = .ok ())
      (fun _ t => t = s ∨ t = s.hydrate cfg request.identity.workspaceId) := by
  rw [admission, wp_bind, wp_get]
  refine wp_unless (fun _ => .inl rfl) fun hauthority => ?_
  refine wp_unless (fun _ => .inl rfl) fun hagent => ?_
  rw [wp_bind, wp_modify, wp_bind, wp_get, wp_liftExcept]
  exact ⟨fun _ hok => ⟨rfl, hauthority, not_not.mp hagent, hok⟩, fun _ _ => .inr rfl⟩

/-- What a request whose identity was accepted has been through: the evidence was looked at, and perhaps
the workspace was recovered. -/
structure Examined (cfg : Config) (request : Request) (s t u : World) : Prop where
  screened : s.screen cfg request.identity = some t
  recovered : u = t ∨ request.action = .start ∧ request.identity.workspaceId ∈ t.quarantine ∧
    request.identity.workspaceId ∉ t.workspaces ∧ Recoveries cfg t u ∧
    (request.identity.workspaceId ∈ u.quarantine ∨ FloorIsLatest t request.identity.workspaceId)

theorem Examined.ticks (h : Examined cfg request s t u) : Ticks cfg s u := by
  have hst : Ticks cfg s t := (Tick.screen _ h.screened).ticks
  rcases h.recovered with rfl | ⟨-, -, -, htu, -⟩
  · exact hst
  · exact hst.trans htu.ticks

/-- A remembered workspace is not recovered. -/
theorem recover_wp_of_mem (h : i.workspaceId ∈ s.workspaces) (script : Script) :
    (recover cfg i script).wp s (fun _ t => t = s) (fun _ _ => False) := by
  rw [recover, wp_bind, wp_get, if_pos]
  · rfl
  · simp only [h, decide_true, Bool.true_or]

theorem examine_wp (s : World) (request : Request) (script : Script) :
    (examine cfg request script).wp s (fun _ u => ∃ t, Examined cfg request s t u)
      (fun _ u => Ticks cfg s u) := by
  rw [examine, wp_bind, wp_get]
  split
  · exact .refl
  · next t hscreen =>
    rw [wp_bind, wp_modify, wp_onlyIf]
    refine ⟨fun hstart => ?_, fun _ => ⟨t, hscreen, .inl rfl⟩⟩
    by_cases hmem : request.identity.workspaceId ∈ t.workspaces
    · refine wp_mono (recover_wp_of_mem hmem script) (fun _ u hu => ⟨t, hscreen, .inl hu⟩) ?_
      exact nofun
    · have hst : Ticks cfg s t := (Tick.screen _ hscreen).ticks
      refine wp_mono (recover_wp t _ script) (fun _ u hu => ?_) fun _ u hu => hst.trans hu.ticks
      exact ⟨t, hscreen, .inr ⟨hstart.1, hstart.2, hmem, hu.1, hu.2 hstart.2⟩⟩

/-! ## What changes leave alone -/

theorem hydrate_toOutside (s : World) (w : String) : (s.hydrate cfg w).toOutside = s.toOutside := by
  unfold World.hydrate
  split <;> rfl

theorem hydrate_workspaces (s : World) (w : String) : (s.hydrate cfg w).workspaces = s.workspaces := by
  unfold World.hydrate
  split <;> rfl

theorem le_update_max (f : String → ℕ) (w : String) (g : ℕ) (v : String) :
    f v ≤ Function.update f w (max (f w) g) v := by
  by_cases hv : v = w
  · rw [hv, Function.update_self]
    exact le_max_left _ _
  · rw [Function.update_of_ne hv]

/-- Evidence raises floors and extends the quarantine. -/
theorem screen_eq (h : s.screen cfg i = some t) :
    ∃ floor quarantine, (∀ w, s.floor w ≤ floor w) ∧ s.quarantine ⊆ quarantine ∧
      t = { s with floor := floor, quarantine := quarantine } := by
  unfold World.screen at h
  split at h
  · cases h
    exact ⟨_, _, fun _ => le_rfl, subset_rfl, rfl⟩
  · obtain ⟨_, -, rfl⟩ := Option.map_eq_some_iff.mp h
    refine ⟨_, _, le_update_max _ _ _, ?_, rfl⟩
    split
    · exact Finset.subset_insert _ _
    · exact subset_rfl

theorem screen_toOutside (h : s.screen cfg i = some t) : t.toOutside = s.toOutside := by
  obtain ⟨_, _, -, -, rfl⟩ := screen_eq h
  rfl

theorem screen_workspaces (h : s.screen cfg i = some t) : t.workspaces = s.workspaces := by
  obtain ⟨_, _, -, -, rfl⟩ := screen_eq h
  rfl

/-- Evidence does not concern what is remembered, the floors and what lies outside. -/
structure Frame (s t : World) : Prop where
  outside : t.toOutside = s.toOutside
  workspaces : t.workspaces = s.workspaces
  floor : t.floor = s.floor

theorem Frame.trans (h : Frame s t) (k : Frame t u) : Frame s u :=
  ⟨k.outside.trans h.outside, k.workspaces.trans h.workspaces, k.floor.trans h.floor⟩

theorem Marks.frame (h : Marks s t) : Frame s t := by
  refine h.keeps (P := Frame s) (fun hmark hs => hs.trans ?_) ⟨rfl, rfl, rfl⟩
  cases hmark <;> exact ⟨rfl, rfl, rfl⟩

theorem Tick.outside_workspaces (h : Tick cfg s t) :
    t.toOutside = s.toOutside ∧ t.workspaces = s.workspaces := by
  cases h with
  | mark hmark => exact ⟨hmark.marks.frame.outside, hmark.marks.frame.workspaces⟩
  | hydrate w => exact ⟨hydrate_toOutside s w, hydrate_workspaces s w⟩
  | screen i h => exact ⟨screen_toOutside h, screen_workspaces h⟩
  | epoch | clear => exact ⟨rfl, rfl⟩

theorem Ticks.outside_workspaces (h : Ticks cfg s t) :
    t.toOutside = s.toOutside ∧ t.workspaces = s.workspaces := by
  refine h.keeps (P := fun t => t.toOutside = s.toOutside ∧ t.workspaces = s.workspaces)
    (fun htick hs => ?_) ⟨rfl, rfl⟩
  exact ⟨htick.outside_workspaces.1.trans hs.1, htick.outside_workspaces.2.trans hs.2⟩

/-! ## A whole request -/

/-- A request from the state `s` is carried out in the state `u`. -/
structure Admitted (cfg : Config) (request : Request) (s t u : World) : Prop where
  identity : checkIdentity cfg (s.hydrate cfg request.identity.workspaceId) request.identity = .ok ()
  examined : Examined cfg request (s.hydrate cfg request.identity.workspaceId) t u
  unquarantined : request.identity.workspaceId ∈ u.quarantine → isCleanupRetry cfg u request = true
  verdict : AgentBox.Lifecycle.verdict cfg u request = .go

theorem Admitted.ticks (h : Admitted cfg request s t u) :
    Ticks cfg s u := (Tick.hydrate s _).ticks.trans h.examined.ticks

/-- An admitted request keeps what changes and its own execution keep. -/
theorem lifecycle_keeps (htick : ∀ {s t}, Tick cfg s t → P s → P t) {script : Script} (hs : P s)
    (hperform : ∀ t u, Admitted cfg request s t u →
      (perform cfg request (isCleanupRetry cfg u request) script).Ends u P) :
    (lifecycle cfg request script).Ends s P := by
  have hhydrate : P (s.hydrate cfg request.identity.workspaceId) := htick (Tick.hydrate s _) hs
  rw [lifecycle]
  refine wp_seq_mono (admission_wp s request) ?_ ?_
  · rintro - _ ⟨rfl, -, -, hidentity⟩
    refine wp_seq_mono (examine_wp _ request script) ?_ ?_
    · rintro - u ⟨t, hexamined⟩
      have hu : P u := hexamined.ticks.keeps htick hhydrate
      rw [respond, wp_bind, wp_get, wp_ite]
      refine ⟨fun _ => hu, fun _ => ?_⟩
      rw [wp_bind, wp_raiseIf, resolve, wp_bind, wp_get]
      refine ⟨fun _ => hu, fun hquarantine => ?_⟩
      split
      · exact hu
      · exact hu
      · refine wp_seq_mono (always_orReconcile (always_fenceIdentity _) u) ?_ ?_
        · exact fun _ v hv => hv.ticks.keeps htick hu
        · exact fun _ v hv => hv.ticks.keeps htick hu
      · next hgo =>
        refine hperform t u ⟨hidentity, hexamined, fun hmem => ?_, hgo⟩
        by_contra hretry
        exact hquarantine ⟨hmem, hretry⟩
    · exact fun _ u hu => hu.keeps htick hhydrate
  · rintro - t (rfl | rfl)
    · exact hs
    · exact hhydrate

/-- What the changes outside the lifecycle, the changes of a request and its execution keep is kept by
every event. -/
theorem step_keeps (htick : ∀ {s t}, Tick cfg s t → P s → P t)
    (houtside : ∀ s change, P s → P { s with toOutside := change })
    (hdetached : ∀ s n, P s → P { s with detached := s.detached.eraseIdx n }) (hs : P s)
    {event : Event}
    (hperform : ∀ request script t u, event = .dispatch request script → Admitted cfg request s t u →
      (perform cfg request (isCleanupRetry cfg u request) script).Ends u P) :
    P (s.step cfg event) := by
  cases event with
  | dispatch request script =>
    refine state_of_wp ?_
    rw [dispatch, wp_bind, wp_get]
    split
    · exact hs
    · exact wp_unless (fun _ => hs) fun _ => hs
    · refine wp_seq_mono (lifecycle_keeps htick hs fun t u => hperform request script t u rfl) ?_ ?_
      · intro response t ht
        exact houtside t _ ht
      · exact fun _ _ ht => ht
  | detachedDone n result =>
    change P (s.detachedDone n result)
    unfold World.detachedDone
    split
    · exact hs
    · next i hi =>
      have herase := hdetached s n hs
      cases result with
      | ok o => exact htick (.mark (Mark.note _ rfl)) herase
      | error e =>
        rw [List.append_nil]
        exact herase
  | outside change => exact houtside s change hs
  | hydrate w => exact htick (Tick.hydrate s w) hs

end AgentBox.Lifecycle
