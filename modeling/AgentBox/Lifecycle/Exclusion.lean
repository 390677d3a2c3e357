import AgentBox.Lifecycle.Containment

/-!
# One generation at a time

With both stores, a generation is started only when the one before it is known to be gone: its stop
returned an authoritative `STOPPED`, or its control group was recorded as `EMPTY_DURABLE`. This holds in
every run whose starts are `Contained` (`exclusive_of_contained`).

A start can fail after the executor has created the process, for lack of evidence. Then the cleanup stop
has to succeed or to go on detached. If the evidence is never built because the request is cancelled, or if
the cleanup raises, the registry forgets about the process: it neither isolates the workspace nor has a
record of the generation, and a remembered workspace is not isolated by its floor
(`cancelled_start_is_forgotten`).
-/

namespace AgentBox.Lifecycle

open Method

variable {s t : World} {i : Identity} {r : CgroupRecord} {request : Request} {cfg : Config}

/-! ## Starting -/

/-- The generation is reserved and nothing of the workspace may be live. -/
structure Reserved (cfg : Config) (s : World) (i : Identity) : Prop extends Ready s i where
  attested : s.attestations.get? i.workspaceId = some (i.attested cfg.runtimeEpoch)
  recovered : s.recoveredFloor i.workspaceId < i.generation

/-- What of the state before a start is the same when the executor is called. -/
structure Untouched (s t : World) : Prop where
  workspaces : t.workspaces = s.workspaces
  records : t.records = s.records
  detached : t.detached = s.detached

theorem burn_reserves (h : Ready s i) :
    (burn cfg i).wp s (fun _ t => Reserved cfg t i ∧ Untouched s t) (fun _ => Contains) := by
  rw [burn, wp_bind, wp_get]
  split
  · next a ha =>
    obtain ⟨rfl, hbelow⟩ := advance_eq_some ha
    have hget : (s.attestations.put (i.attested cfg.runtimeEpoch)).get? i.workspaceId =
        some (i.attested cfg.runtimeEpoch) := by
      rw [Attestations.get?_put]
      exact if_pos rfl
    have hother : ∀ v, v ≠ i.workspaceId →
        (s.attestations.put (i.attested cfg.runtimeEpoch)).get? v = s.attestations.get? v := by
      intro v hv
      rw [Attestations.get?_put]
      exact if_neg hv
    have hrecovered : s.recoveredFloor i.workspaceId < i.generation := by
      rcases h.contains.recovered i.workspaceId with hzero | ⟨b, hb, hle⟩
      · rw [hzero]
        exact Nat.zero_lt_of_lt h.above
      · exact hle.trans_lt (hbelow b hb)
    have hsettled : unsettled i.workspaceId (s.log ++ [.attested (i.attested cfg.runtimeEpoch)]) = none := by
      rw [unsettled_concat, h.settled]
      rfl
    refine ⟨⟨⟨⟨?_, fun v g hg => ?_, h.contains.remembered, fun v => ?_⟩, hsettled, h.above, h.unknown⟩,
      hget, hrecovered⟩, ⟨rfl, rfl, rfl⟩⟩
    · exact exclusive_concat h.contains.exclusive fun _ heq => by cases heq
    · have hv : v ≠ i.workspaceId := by
        rintro rfl
        cases hsettled.symm.trans hg
      change unsettled v (s.log ++ [.attested (i.attested cfg.runtimeEpoch)]) = some g at hg
      rw [unsettled_concat] at hg
      obtain ⟨hfloor, hnonempty, hbarred⟩ := h.contains.guarded v g hg
      exact ⟨(hother v hv).symm ▸ hfloor, hnonempty, hbarred⟩
    · by_cases hv : v = i.workspaceId
      · subst hv
        exact .inr ⟨_, hget, hrecovered.le⟩
      · rcases h.contains.recovered v with hzero | ⟨b, hb, hle⟩
        · exact .inl hzero
        · exact .inr ⟨b, (hother v hv).trans hb, hle⟩
  · exact h.contains.raise rfl rfl rfl (Finset.subset_insert _ _) rfl rfl fun _ => le_rfl

/-- The process may be live, and nothing may bar the next one yet. -/
structure Launched (cfg : Config) (s : World) (i : Identity) : Prop where
  exposed : Exposed s i.workspaceId
  live : ∀ g, unsettled i.workspaceId s.log = some g → g = i.generation
  unknown : s.records.get? i.workspaceId i.generation = none
  attested : s.attestations.get? i.workspaceId = some (i.attested cfg.runtimeEpoch)
  recovered : s.recoveredFloor i.workspaceId < i.generation

theorem Reserved.launched (h : Reserved cfg s i) :
    Launched cfg { s with log := s.log ++ [.startCalled i] } i := by
  have hlive : unsettled i.workspaceId (s.log ++ [.startCalled i]) = some i.generation := by
    rw [unsettled_concat]
    exact if_pos rfl
  have hother : ∀ v, v ≠ i.workspaceId → unsettled v (s.log ++ [.startCalled i]) = unsettled v s.log := by
    intro v hv
    rw [unsettled_concat]
    exact if_neg hv.symm
  refine ⟨⟨?_, fun v g hv hg => ?_, fun g hg => ?_, fun g r hg hr => ?_, h.contains.remembered,
    h.contains.recovered⟩, fun g hg => ?_, h.unknown, h.attested, h.recovered⟩
  · refine eachAfter_concat h.contains.exclusive fun j hj => ?_
    cases hj
    exact h.settled
  · obtain ⟨hfloor, hnonempty, hbarred⟩ := h.contains.guarded v g ((hother v hv) ▸ hg)
    exact ⟨hfloor, hnonempty, hbarred⟩
  · exact ⟨_, h.attested, Option.some.inj (hlive.symm.trans hg)⟩
  · cases hlive.symm.trans hg
    rw [h.unknown] at hr
    cases hr
  · exact (Option.some.inj (hlive.symm.trans hg)).symm

/-- A new workspace is barred by its floor. -/
theorem Launched.contains (h : Launched cfg s i) (hnot : i.workspaceId ∉ s.workspaces) : Contains s := by
  refine h.exposed.contains fun g hg => .inr (.inr ⟨hnot, ?_⟩)
  rw [h.live g hg]
  exact h.recovered

theorem Exposed.isolate {w : String} (h : Exposed s w) (hlog : t.log = s.log)
    (hfiles : t.attestations = s.attestations) (hrecords : t.records = s.records)
    (hquarantine : t.quarantine = insert w s.quarantine)
    (hworkspaces : t.workspaces = s.workspaces) (hrecovered : t.recoveredFloor = s.recoveredFloor)
    (hfloor : t.floor = s.floor) : Contains t := by
  have hexposed : Exposed t w := by
    refine ⟨hlog ▸ h.exclusive, fun v g hv hg => ?_, hlog ▸ hfiles ▸ h.floor, hlog ▸ hrecords ▸ h.nonempty,
      hworkspaces ▸ hfloor ▸ h.remembered, hrecovered ▸ hfiles ▸ h.recovered⟩
    exact (h.others v g hv (hlog ▸ hg)).quarantine hfiles hrecords
      (hquarantine ▸ Finset.subset_insert _ _) hworkspaces hrecovered
  exact hexposed.contains fun _ _ => .inl (hquarantine ▸ Finset.mem_insert_self _ _)

theorem contains_of_marks {α : Type} {m : Op α} (h : m.Always Marks) (hs : Contains s) : m.Ends s Contains :=
  h.ends fun _ ht => ht.keeps Mark.contains hs

theorem Exposed.note {s : World} {w : String} (h : Exposed s w) {e : Effect}
    (hne : ∀ i, e ≠ .startCalled i) : Exposed { s with log := s.log ++ [e] } w := by
  have hold : ∀ v g, unsettled v (s.log ++ [e]) = some g → unsettled v s.log = some g := by
    intro v g hg
    rw [unsettled_concat] at hg
    exact unsettledAfter_of_ne hne hg
  refine ⟨exclusive_concat h.exclusive hne, fun v g hv hg => ?_, fun g hg => h.floor g (hold w g hg),
    fun g r hg => h.nonempty g r (hold w g hg), h.remembered, h.recovered⟩
  obtain ⟨hfloor, hnonempty, hbarred⟩ := h.others v g hv (hold v g hg)
  exact ⟨hfloor, hnonempty, hbarred⟩

/-! ### Rollback -/

theorem rollback_contains (hatt : cfg.hasAttestations = true) (h : Exposed s i.workspaceId)
    (cleanup : Cleanup) : (rollback cfg i cleanup).Ends s Contains := by
  rw [Ends, rollback, wp_bind, wp_raiseFloor, wp_bind, wp_remember, wp_bind, wp_isolate]
  set t : World :=
    { s with
      floor := Function.update s.floor i.workspaceId (max (s.floor i.workspaceId) i.generation)
      workspaces := s.workspaces.set i.workspaceId (i, unknownObservation cfg)
      quarantine := insert i.workspaceId s.quarantine } with ht
  have hfloor : i.generation ≤ t.floor i.workspaceId := by
    rw [ht]
    dsimp only
    rw [Function.update_self]
    exact le_max_right _ _
  have hcontains : Contains t := by
    have hexposed : Exposed t i.workspaceId := h.install rfl rfl rfl (Finset.subset_insert _ _) rfl rfl
      (le_update_max _ _ _) hfloor
    exact hexposed.contains fun _ _ => .inl (Finset.mem_insert_self _ _)
  have hmem : i.workspaceId ∈ t.workspaces := Dict.mem_set.mpr (.inl rfl)
  have hcleanup : (tryCatch (cleanupFailedStart cfg i cleanup) fun e => do
      fenceIdentity cfg i
      throw (if e = .cancelled then .cancelled else .dispatch .reconciliationRequired) :
      Op Unit).Always Marks :=
    always_tryCatch (always_cleanupFailedStart i cleanup) fun _ =>
      always_bind (always_fenceIdentity i) fun _ => always_throw _
  refine wp_seq_mono (hcleanup t) (fun _ u htu => ?_) fun _ u htu => htu.keeps Mark.contains hcontains
  refine wp_seq_mono (always_fenceIdentity i u) (fun _ v huv => ?_) fun _ v huv =>
    huv.keeps Mark.contains (htu.keeps Mark.contains hcontains)
  have htv : Marks t v := htu.trans huv
  have hv : Contains v := htv.keeps Mark.contains hcontains
  rw [wp_bind, wp_remember, wp_onlyIf]
  refine ⟨fun hbare => ?_, fun _ => hv.remember ?_ ?_⟩
  · simp only [hatt, Bool.not_true, Bool.false_and, Bool.false_eq_true] at hbare
  · rw [htv.frame.workspaces]
    exact hmem
  · rw [htv.frame.floor]
    exact hfloor

theorem takeResult_start_wp (s : World) (i : Identity) (script : Script) :
    (takeResult cfg .start i script).wp s
      (fun o t => t = s ∧ script.call = .ok o ∧ validate cfg o = .ok ()) (fun _ t => t = s) := by
  rw [takeResult]
  refine wp_lift (fun o ho => ?_) fun _ _ => rfl
  rw [wp_bind, wp_onlyIf]
  refine ⟨fun h => (by cases h), fun _ => ?_⟩
  exact wp_lift (fun _ hok => ⟨rfl, ho, hok⟩) fun _ _ => rfl

/-! ### Evidence -/

/-- The evidence of a started generation is built, and the store takes it. -/
def Attests (cfg : Config) (records : Records) (i : Identity) (script : Script) : Prop :=
  ∃ r, script.factory = .ok r ∧ matchesContext cfg r i = true ∧ isExpected .start r = true ∧
    (write cfg.encodes records r).isSome = true

/-- The process is stopped, or a task goes on stopping it. -/
def Cleans (detached : List Identity) (cleanup : Cleanup) : Prop :=
  detached.length < 32 ∧
    match cleanup with
    | .done (.ok o) => o.isStopped = true
    | .done (.error _) => False
    | .pending | .cancelled => True

theorem attest_wp {script : Script} (hunknown : s.records.get? i.workspaceId i.generation = none) :
    (attest cfg .start i script).wp s
      (fun _ t => ∃ r, r.workspaceId = i.workspaceId ∧ r.generation = i.generation ∧ r.cleanup = .live ∧
        t = { s with records := s.records.put r, log := s.log ++ [.recorded r] })
      (fun e t => t = s ∧ (e = .cancelled → script.factory = .error .cancelled) ∧
        ¬Attests cfg s.records i script) := by
  have hnone : ∀ {r}, script.factory = .ok r → (matchesContext cfg r i = true →
      isExpected .start r = true → (write cfg.encodes s.records r).isSome = true → False) →
      ¬Attests cfg s.records i script := by
    rintro r hr hfail ⟨q, hq, hcontext, hexpected, hwrite⟩
    cases hr.symm.trans hq
    exact hfail hcontext hexpected hwrite
  rw [attest]
  refine wp_lift (fun r hr => ?_) fun e he => ⟨rfl, fun hcancelled => hcancelled ▸ he, ?_⟩
  · refine wp_unless (fun hcontext => ⟨rfl, fun h => (by cases h), hnone hr fun h => absurd h hcontext⟩)
      fun hcontext => ?_
    refine wp_unless (fun hexpected => ⟨rfl, fun h => (by cases h), hnone hr fun _ h => absurd h hexpected⟩)
      fun hexpected => ?_
    have hcontext := not_not.mp hcontext
    have hexpected := not_not.mp hexpected
    simp only [matchesContext, Bool.and_eq_true, beq_iff_eq] at hcontext
    simp only [isExpected, if_true, Bool.and_eq_true, beq_iff_eq] at hexpected
    have hkey : s.records.get? r.workspaceId r.generation = none := by
      rw [hcontext.1.1.1.1, hcontext.2]
      exact hunknown
    rw [writeRecord, wp_bind, wp_get]
    split
    · next hwrite =>
      refine ⟨rfl, fun h => (by cases h), hnone hr fun _ _ h => ?_⟩
      rw [hwrite] at h
      cases h
    · next hwrite =>
      simp only [write, hkey] at hwrite
      repeat' split at hwrite
      all_goals cases hwrite
    · exact ⟨r, hcontext.1.1.1.1, hcontext.2, hexpected.1, rfl⟩
  · rintro ⟨q, hq, -⟩
    cases he.symm.trans hq

/-- The record of a live generation bars the next one. -/
theorem Launched.record (h : Launched cfg s i) (hw : r.workspaceId = i.workspaceId)
    (hg : r.generation = i.generation) (hlive : r.cleanup = .live) :
    Contains { s with records := s.records.put r, log := s.log ++ [.recorded r] } ∧
      (s.records.put r).get? i.workspaceId i.generation = some r := by
  have hput : (s.records.put r).get? i.workspaceId i.generation = some r := by
    rw [Records.get?_put, if_pos (by rw [hw, hg])]
  have hother : ∀ v g, v ≠ i.workspaceId → (s.records.put r).get? v g = s.records.get? v g := by
    intro v g hv
    rw [Records.get?_put, if_neg]
    exact fun heq => hv ((Prod.mk.inj heq).1.trans hw)
  have hnoted := h.exposed.note (e := .recorded r) nofun
  have hold : ∀ g, unsettled i.workspaceId (s.log ++ [.recorded r]) = some g → g = i.generation := by
    intro g hg
    rw [unsettled_concat] at hg
    exact h.live g (unsettledAfter_of_ne (fun _ heq => by cases heq) hg)
  have hexposed : Exposed { s with records := s.records.put r, log := s.log ++ [.recorded r] }
      i.workspaceId := by
    refine ⟨hnoted.exclusive, fun v g hv hg' => ?_, hnoted.floor, fun g q hg' hq => ?_,
      hnoted.remembered, hnoted.recovered⟩
    · obtain ⟨hfloor, hnonempty, hbarred⟩ := hnoted.others v g hv hg'
      refine ⟨hfloor, fun q hq => hnonempty q ((hother v g hv) ▸ hq), ?_⟩
      change _ ∨ (∃ q, (s.records.put r).get? v g = some q) ∨ _
      rw [hother v g hv]
      exact hbarred
    · change (s.records.put r).get? i.workspaceId g = some q at hq
      rw [hold g hg', hput] at hq
      cases hq
      rw [hlive]
      exact nofun
  refine ⟨hexposed.contains fun g hg' => .inr (.inl ⟨r, ?_⟩), hput⟩
  rw [hold g hg']
  exact hput

theorem cleanup_contains (h : Launched cfg s i) {cleanup : Cleanup} (hcleans : Cleans s.detached cleanup) :
    (cleanupFailedStart cfg i cleanup).Ends s Contains := by
  have hnoted := h.exposed.note (e := .stopCalled i) nofun
  unfold Ends cleanupFailedStart
  rw [wp_bind, wp_get]
  refine wp_unless (fun hfull => absurd hcleans.1 (Nat.not_lt.mpr hfull)) fun _ => ?_
  rw [wp_bind, wp_note]
  have hdetached : Contains
      { s with
        log := s.log ++ [.stopCalled i]
        detached := s.detached ++ [i]
        quarantine := insert i.workspaceId s.quarantine } := hnoted.isolate rfl rfl rfl rfl rfl rfl rfl
  split
  · exact hdetached
  · exact hdetached
  · exact hcleans.2.elim
  · next o =>
    have hstopped : o.isStopped = true := hcleans.2
    have hreturned := hnoted.note (e := .stopReturned i o) nofun
    have hcontains := hreturned.contains fun g hg => by
      exfalso
      change unsettled i.workspaceId (s.log ++ [.stopCalled i] ++ [.stopReturned i o]) = some g at hg
      rw [unsettled_concat, unsettled_concat] at hg
      have hsame : unsettledAfter i.workspaceId (unsettled i.workspaceId s.log) (.stopCalled i) =
          unsettled i.workspaceId s.log := rfl
      rw [hsame] at hg
      have hsome := unsettledAfter_of_ne (fun _ heq => by cases heq) hg
      rw [h.live g hsome] at hsome
      simp only [unsettledAfter, hsome, hstopped, and_self, if_true] at hg
      cases hg
    rw [wp_bind, wp_note]
    refine wp_lift (fun _ _ => ?_) fun _ _ => hcontains
    rw [wp_raiseIf]
    exact ⟨fun _ => hcontains, fun _ => hcontains⟩

theorem abandonStart_contains {script : Script}
    (h : (cleanupFailedStart cfg i script.cleanup).Ends s Contains) :
    (abandonStart cfg i script).wp s (fun _ _ => False) (fun _ => Contains) := by
  have hputAside : (putAside (cleanupFailedStart cfg i script.cleanup)).Ends s
      Contains := by
    rw [Ends, putAside, wp_tryCatch]
    refine wp_mono h (fun _ _ ht => ht) fun e t ht => ?_
    rw [wp_ite]
    exact ⟨fun _ => ht, fun _ => ht⟩
  rw [abandonStart]
  refine wp_seq hputAside fun _ t ht => ?_
  exact wp_seq (contains_of_marks (always_putAside (always_fenceBuilt i script)) ht) fun _ _ hu => hu

/-- What keeps a start from being forgotten once the process may be live: the workspace is new, or the
evidence is built and taken, or the process is cleaned up. -/
def Recalls (cfg : Config) (s : World) (i : Identity) (script : Script) : Prop :=
  i.workspaceId ∈ s.workspaces → ∀ o, script.call = .ok o → validate cfg o = .ok () →
    script.factory ≠ .error .cancelled ∧
      (Attests cfg s.records i script ∨ Cleans s.detached script.cleanup)

theorem collectEvidence_contains (hrec : cfg.hasRecords = true) {script : Script} {o : Observation}
    (h : Launched cfg s i) (hrecalls : Recalls cfg s i script) (hcall : script.call = .ok o)
    (hvalid : validate cfg o = .ok ()) : (collectEvidence cfg .start i script).wp s
      (fun _ t => Contains t ∧ t.attestations = s.attestations ∧
        ∃ r, t.records.get? i.workspaceId i.generation = some r) (fun _ => Contains) := by
  rw [collectEvidence, if_pos hrec]
  change wp (tryCatch (attest cfg .start i script) _) s _ _
  rw [wp_tryCatch]
  refine wp_mono (attest_wp h.unknown) ?_ ?_
  · rintro - _ ⟨r, hw, hg, hlive, rfl⟩
    obtain ⟨hcontains, hput⟩ := h.record hw hg hlive
    exact ⟨hcontains, rfl, r, hput⟩
  · rintro e t ⟨ht, hcancelled, hattests⟩
    rw [ht, wp_ite]
    by_cases hmem : i.workspaceId ∈ s.workspaces
    · obtain ⟨hfactory, heither⟩ := hrecalls hmem o hcall hvalid
      refine ⟨fun he => absurd (hcancelled he) hfactory, fun _ => ?_⟩
      have hcleans := heither.resolve_left hattests
      exact wp_imp (abandonStart_contains (cleanup_contains h hcleans)) nofun
    · have hcontains := h.contains hmem
      refine ⟨fun _ => hcontains, fun _ => ?_⟩
      have hcleanup := contains_of_marks (@always_cleanupFailedStart cfg i script.cleanup) hcontains
      exact wp_imp (abandonStart_contains hcleanup) nofun

/-- The evidence about a started generation bars the next, so that the workspace can be remembered. -/
theorem Contains.install (h : Contains s) {epoch : ℕ}
    (hattested : s.attestations.get? i.workspaceId = some (i.attested epoch))
    (hrecord : s.records.get? i.workspaceId i.generation = some r) (o : Observation) : Contains { s with
        workspaces := s.workspaces.set i.workspaceId (i, o)
        floor := Function.update s.floor i.workspaceId (max (s.floor i.workspaceId) i.generation) } := by
  have hfloor : i.generation ≤ Function.update s.floor i.workspaceId
      (max (s.floor i.workspaceId) i.generation) i.workspaceId := by
    rw [Function.update_self]
    exact le_max_right _ _
  have hexposed : Exposed
      { s with
        workspaces := s.workspaces.set i.workspaceId (i, o)
        floor := Function.update s.floor i.workspaceId (max (s.floor i.workspaceId) i.generation) }
      i.workspaceId :=
    (h.exposed i.workspaceId).install rfl rfl rfl subset_rfl rfl rfl (le_update_max _ _ _) hfloor
  refine hexposed.contains fun g hg => .inr (.inl ⟨r, ?_⟩)
  obtain ⟨a, ha, rfl⟩ := (h.guarded _ g hg).floor
  cases hattested.symm.trans ha
  exact hrecord

theorem callExecutor_contains (hatt : cfg.hasAttestations = true) (h : Reserved cfg s i) (script : Script) :
    (callExecutor cfg .start i script).wp s
      (fun o t => t = { s with log := s.log ++ [.startCalled i] } ∧ script.call = .ok o ∧
        validate cfg o = .ok ())
      (fun _ => Contains) := by
  rw [callExecutor, wp_bind, wp_note, wp_tryCatch]
  refine wp_mono (takeResult_start_wp _ i script) (fun o t ht => ht) fun e t ht => ?_
  rw [ht]
  change wp (do rollback cfg i script.cleanup; throw e) _ _ _
  exact wp_seq (rollback_contains hatt h.launched.exposed script.cleanup) fun _ _ hu => hu

theorem readBack_contains (h : Contains s) (script : Script) :
    (readBack cfg i script).wp s (fun _ t => t = s) (fun _ => Contains) := by
  rw [readBack, wp_bind, wp_get, wp_onlyIf]
  refine ⟨fun _ => ?_, fun _ => rfl⟩
  have hisolated : Contains { s with quarantine := insert i.workspaceId s.quarantine } :=
    (Mark.isolate s _).contains h
  rw [wp_bind, wp_isolate]
  exact wp_imp (abandonStart_contains (contains_of_marks (always_cleanupFailedStart i _) hisolated))
    fun _ _ hu => hu.elim

theorem perform_start_contains (hatt : cfg.hasAttestations = true) (hrec : cfg.hasRecords = true)
    {script : Script} (hstart : request.action = .start) (h : Ready s request.identity)
    (hrecalls : Recalls cfg s request.identity script) :
    (perform cfg request false script).Ends s Contains := by
  rw [Ends, perform, hstart, wp_bind, wp_onlyIf]
  refine ⟨fun _ => ?_, fun hnot => absurd ⟨rfl, hatt⟩ hnot⟩
  refine wp_imp (burn_reserves h) fun _ t ht => ?_
  obtain ⟨hreserved, huntouched⟩ := ht
  refine wp_seq (callExecutor_contains hatt hreserved script) fun o u hu => ?_
  obtain ⟨rfl, hcall, hvalid⟩ := hu
  have hlaunched := hreserved.launched
  have hstill : Recalls cfg { t with log := t.log ++ [.startCalled request.identity] } request.identity
      script := by
    unfold Recalls
    dsimp only
    rw [huntouched.workspaces, huntouched.records, huntouched.detached]
    exact hrecalls
  refine wp_seq (collectEvidence_contains hrec hlaunched hstill hcall hvalid) fun _ v hv => ?_
  obtain ⟨hcontains, hfiles, r, hr⟩ := hv
  rw [wp_bind, wp_onlyIf]
  refine ⟨fun _ => ?_, fun hnot => absurd rfl hnot⟩
  refine wp_imp (readBack_contains hcontains script) fun _ x hx => ?_
  subst hx
  rw [wp_bind, wp_remember, wp_bind, wp_onlyIf]
  refine ⟨fun hretry => absurd hretry.1 Bool.false_ne_true, fun _ => ?_⟩
  rw [wp_bind, wp_onlyIf, wp_raiseFloor]
  refine ⟨fun _ => ?_, fun hnot => absurd rfl hnot⟩
  exact hcontains.install (hfiles ▸ hlaunched.attested) hr o

theorem verdict_eq_go_of_ne (hne : request.action ≠ .start) (h : verdict cfg s request = .go) :
    ∃ o, s.workspaces.get? request.identity.workspaceId = some (request.identity, o) := by
  unfold verdict at h
  cases hcurrent : s.workspaces.get? request.identity.workspaceId with
  | none =>
    cases haction : request.action with
    | start => exact absurd haction hne
    | stop | status | reconcile => simp [haction, hcurrent] at h
  | some current =>
    by_cases heq : current.1 = request.identity
    · exact ⟨current.2, by rw [← heq]⟩
    · cases haction : request.action with
      | start => exact absurd haction hne
      | stop | status | reconcile => simp [haction, hcurrent, heq] at h

theorem perform_other_contains (hne : request.action ≠ .start) (h : Contains s)
    (hgo : verdict cfg s request = .go) (script : Script) :
    (perform cfg request false script).Ends s Contains := by
  obtain ⟨o', hstored⟩ := verdict_eq_go_of_ne hne hgo
  rw [Ends, perform, wp_bind, wp_onlyIf]
  refine ⟨fun hstart => absurd hstart.1 hne, fun _ => ?_⟩
  refine wp_seq_mono (always_callExecutor hne _ script s) (fun o t hst => ?_) fun _ _ hst =>
    hst.keeps Mark.contains h
  refine wp_seq_mono (always_collectEvidence _ _ script t) (fun _ u htu => ?_) fun _ u htu =>
    htu.keeps Mark.contains (hst.keeps Mark.contains h)
  have hframe : Frame s u := hst.frame.trans htu.frame
  have hu : Contains u := htu.keeps Mark.contains (hst.keeps Mark.contains h)
  rw [wp_bind, wp_onlyIf]
  refine ⟨fun hstart => absurd hstart hne, fun _ => ?_⟩
  rw [wp_bind, wp_remember, wp_bind, wp_onlyIf]
  refine ⟨fun hretry => absurd hretry.1 Bool.false_ne_true, fun _ => ?_⟩
  rw [wp_bind, wp_onlyIf]
  refine ⟨fun hstart => absurd hstart hne, fun _ => hu.remember ?_ ?_⟩
  · rw [hframe.workspaces]
    exact Dict.mem_of_get? hstored
  · rw [hframe.floor]
    exact h.remembered _ _ _ hstored

/-! ## Runs -/

/-- A request that does not lose a process it has started. -/
def Contained (cfg : Config) (s : World) : Event → Prop
  | .dispatch request script => request.action = .start → Recalls cfg s request.identity script
  | _ => True

/-- For a remembered workspace the evidence and the detached tasks are those before the request. -/
theorem Admitted.recalls {script : Script} {u : World} (h : Admitted cfg request s t u)
    (hrecalls : Recalls cfg s request.identity script) : Recalls cfg u request.identity script := by
  intro hmem
  rw [h.ticks.outside_workspaces.2] at hmem
  have hut : u = t := by
    refine h.examined.recovered.resolve_right fun ⟨_, _, hnot, _⟩ => hnot ?_
    rw [screen_workspaces h.examined.screened, hydrate_workspaces]
    exact hmem
  subst hut
  have hdetached : u.detached = s.detached := by
    rw [screen_detached h.examined.screened, hydrate_detached]
  rw [(screen_log h.examined.screened).2.1, hydrate_records, hdetached]
  exact hrecalls hmem

theorem Contains.step (hatt : cfg.hasAttestations = true) (hrec : cfg.hasRecords = true)
    (hs : Contains s) {event : Event} (hcontained : Contained cfg s event) : Contains (s.step cfg event) := by
  refine step_keeps (Tick.contains hatt) (fun t change h => ?_) (fun t n h => ?_) hs ?_
  · exact h.raise rfl rfl rfl subset_rfl rfl rfl fun _ => le_rfl
  · exact h.raise rfl rfl rfl subset_rfl rfl rfl fun _ => le_rfl
  · rintro request script t u rfl hadmitted
    have hretry : isCleanupRetry cfg u request = false := by
      simp [isCleanupRetry, hatt]
    rw [hretry]
    by_cases hstart : request.action = .start
    · exact perform_start_contains hatt hrec hstart (hadmitted.ready hatt hrec hs hstart)
        (hadmitted.recalls (hcontained hstart))
    · exact perform_other_contains hstart (hadmitted.contains hatt hs) hadmitted.verdict script

/-- In every run of a registry with both stores whose starts are contained, the executor starts a
generation only when the one before it is known to be gone. -/
theorem exclusive_of_contained (hatt : cfg.hasAttestations = true) (hrec : cfg.hasRecords = true)
    (outside : Outside) (attestations : Attestations) (records : Records) (events : List Event) (n : ℕ)
    (hcontained : ∀ k < n, ∀ event, events[k]? = some event →
      Contained cfg (stateAt (World.step cfg) (.initial outside attestations records) events k) event) :
    Exclusive (stateAt (World.step cfg) (.initial outside attestations records) events n).log := by
  have hinitial : Contains (.initial outside attestations records) := by
    refine ⟨eachAfter_nil, fun w g hg => ?_, fun w i o hi => ?_, fun w => .inl rfl⟩
    · cases hg
    · cases hi
  exact (invariant_run hinitial fun k hk event hevent h =>
    h.step hatt hrec (hcontained k hk event hevent)).exclusive

namespace Sample

/-- A stop after which the control group is empty. -/
def stopping (generation : ℕ) : Event :=
  .dispatch (stop generation) (script stopped (record generation .emptyDurable))

/-- A start that is cancelled while its evidence is built. -/
def cancelled (generation : ℕ) : Event :=
  .dispatch (start generation)
    { script running (record generation .live) with factory := .error .cancelled }

end Sample

open Sample

/-- The second generation was started and never stopped when the third is started. -/
theorem cancelled_start_is_forgotten : ¬Exclusive (stateAt (World.step config) initial
      [started 1, stopping 1, cancelled 2, started 3] 4).log := by
  intro h
  have hsettled := h 9 (.startCalled (identity 3)) (by decide) _ rfl
  have hlive : unsettled "w" ((stateAt (World.step config) initial
      [started 1, stopping 1, cancelled 2, started 3] 4).log.take 9) = some 2 := by decide
  cases hlive.symm.trans hsettled

theorem exclusive_of_contained_restart : Exclusive (stateAt (World.step config) initial
      [started 1, stopping 1, started 2] 3).log := by
  refine exclusive_of_contained rfl rfl outside .empty .empty _ 3 fun k hk event hevent => ?_
  obtain rfl | rfl | rfl : k = 0 ∨ k = 1 ∨ k = 2 := by omega
  · cases hevent
    exact fun _ hmem => absurd hmem (by decide)
  · cases hevent
    exact fun hstart => absurd hstart (by decide)
  · cases hevent
    intro _ _ o ho hvalid
    refine ⟨fun hfactory => (by cases hfactory), .inl ⟨record 2 .live, rfl, ?_⟩⟩
    decide

end AgentBox.Lifecycle
