import AgentBox.Lifecycle.Refusals
import Mathlib.Data.Fintype.EquivFin

/-!
# The identity a start is answered for

A start that is answered `STARTED` or `ALREADY_RUNNING` names the identity in its answer. Later requests
are compared with the identity that the registry remembers. Both are the same unless the answer comes from
the cache of a workspace that has moved on, or another generation is found running
(`answered_iff_keepsIdentity`): the checks of a start let a higher generation pass, and the answer
`ALREADY_RUNNING` is then built from the request.
-/

namespace AgentBox.Lifecycle

open Method

variable {action : Action} {request : Request} {s t : World} {o : Observation} {i : Identity}
    {current : Option (Identity × Observation)}

variable {cfg : Config}

/-! ## Attachments -/

structure AttachRequest where
  identity : Identity
  runtimeEpoch : ℕ
  authorityEpoch : String
deriving DecidableEq

/-- `_attach_prepare` up to the reservation. -/
def attachPrepare (cfg : Config) (s : World) (request : AttachRequest) : Except Fault Observation :=
  match s.authority with
  | none => .error (.dispatch .bindingBootstrapRequired)
  | some epoch =>
    if request.runtimeEpoch ≠ cfg.runtimeEpoch then .error (.dispatch .runtimeInstallationMismatch)
    else if request.authorityEpoch ≠ epoch then .error (.dispatch .runtimeInstallationMismatch)
    else
      match s.workspaces.get? request.identity.workspaceId with
      | none => .error (.dispatch .workspaceNotFound)
      | some (i, o) =>
        if i ≠ request.identity then .error (.dispatch .projectIdentityChanged)
        else if !o.state.isRunning then .error (.dispatch .workspaceNotRunning)
        else .ok o

/-! ## Identities that are accepted -/

/-- The registry remembers the identity and does not take it for a changed one. An executor that raises
this error itself is no concern of the registry. -/
structure Consistent (cfg : Config) (s : World) (i : Identity) : Prop where
  stored : ∃ o, s.workspaces.get? i.workspaceId = some (i, o)
  accepted : ∀ request script, request.identity = i → request.action = .status ∨ request.action = .stop →
    script.call ≠ .error (.dispatch .projectIdentityChanged) →
    ((dispatch cfg request script).call s).1 ≠ .error (.dispatch .projectIdentityChanged)
  attachable : ∀ request : AttachRequest, request.identity = i →
    attachPrepare cfg s request ≠ .error (.dispatch .projectIdentityChanged)

/-- The identity is checked and taken for a changed one. -/
structure Contradicts (cfg : Config) (s : World) (i : Identity) : Prop where
  authority : s.authority ≠ none
  supported : cfg.supports i.agentType = true
  changed : checkIdentity cfg (s.hydrate cfg i.workspaceId) i = .error (.dispatch .projectIdentityChanged)

/-- Any fault but a changed identity. -/
def Unchanged (e : Fault) : Prop := e ≠ .dispatch .projectIdentityChanged

instance : DecidablePred Unchanged := fun e =>
  inferInstanceAs (Decidable (e ≠ .dispatch .projectIdentityChanged))

theorem unchanged_cancelled : Unchanged .cancelled := by decide

theorem unchanged_reconcile : Unchanged (.dispatch .reconciliationRequired) := by decide

theorem errorsMeet_validate (o : Observation) : ErrorsMeet Unchanged (validate cfg o) := by
  intro e he
  unfold validate at he
  repeat' split at he
  all_goals
    cases he
    try decide

theorem raises_orReconcile (m : Op Unit) : (orReconcile m).Raises Unchanged := by
  refine raises_tryCatch raises_of_true fun e _ => raises_throw ?_
  split
  · exact unchanged_cancelled
  · exact unchanged_reconcile

theorem raises_takeResult (action : Action) (i : Identity) {script : Script}
    (h : script.call ≠ .error (.dispatch .projectIdentityChanged)) :
    (takeResult cfg action i script).Raises Unchanged := by
  refine raises_bind (raises_liftExcept fun e he => ?_) fun o => ?_
  · rintro rfl
    exact h he
  · refine raises_bind (raises_onlyIf (raises_modify _)) fun _ => ?_
    exact raises_bind (raises_liftExcept (errorsMeet_validate o)) fun _ => raises_pure _

theorem raises_callFailed (hne : action ≠ .start) (i : Identity) (script : Script) {e : Fault}
    (he : Unchanged e) : (callFailed cfg action i script e).Raises Unchanged := by
  unfold callFailed
  split
  · exact absurd rfl hne
  · refine raises_ite (fun _ => raises_bind (raises_modify _) fun _ => ?_) fun _ => raises_throw he
    exact raises_bind (raises_orReconcile _) fun _ => raises_throw unchanged_reconcile
  · exact raises_throw he

theorem raises_collectEvidence (hne : action ≠ .start) (i : Identity) (script : Script) :
    (collectEvidence cfg action i script).Raises Unchanged := by
  refine raises_ite (fun _ => ?_) fun _ => raises_pure _
  split
  · exact absurd rfl hne
  · refine raises_tryCatch raises_of_true fun e _ => raises_ite (fun hcancelled => ?_) fun _ => ?_
    · exact raises_throw (hcancelled ▸ unchanged_cancelled)
    · refine raises_bind (raises_modify _) fun _ => ?_
      exact raises_bind (raises_orReconcile _) fun _ => raises_throw unchanged_reconcile
  · exact raises_pure _

section
variable (hne : request.action ≠ .start)
include hne

theorem raises_perform (retry : Bool) {script : Script}
    (h : script.call ≠ .error (.dispatch .projectIdentityChanged)) :
    (perform cfg request retry script).Raises Unchanged := by
  intro s
  rw [perform, wp_bind, wp_onlyIf]
  refine ⟨fun hstart => absurd hstart.1 hne, fun _ => ?_⟩
  refine raises_bind ?_ (fun o => ?_) s
  · refine raises_bind (raises_modify _) fun _ => ?_
    exact raises_tryCatch (raises_takeResult _ _ h) fun e he => raises_callFailed hne _ script he
  · refine raises_bind (raises_collectEvidence hne _ script) fun _ => ?_
    intro t
    rw [wp_bind, wp_onlyIf]
    refine ⟨fun hstart => absurd hstart hne, fun _ => ?_⟩
    refine raises_bind (raises_modify _) (fun _ => ?_) t
    refine raises_bind (raises_onlyIf (raises_modify _)) fun _ => ?_
    exact raises_bind (raises_onlyIf (raises_modify _)) fun _ => raises_pure _

/-- A request for the remembered identity is not refused for a changed one. -/
theorem verdict_of_stored {code : Code}
    (hstored : s.workspaces.get? request.identity.workspaceId = some (request.identity, o))
    (h : verdict cfg s request = .refuse code) : code ≠ .projectIdentityChanged := by
  rintro rfl
  unfold verdict at h
  rw [hstored] at h
  cases haction : request.action with
  | start => exact hne haction
  | stop | status | reconcile =>
    simp only [haction, ne_eq, not_true_eq_false, if_false] at h
    repeat' split at h
    all_goals cases h

/-- A request other than a start only looks at the evidence. -/
theorem examine_wp_of_ne (script : Script) : (examine cfg request script).wp s
      (fun _ t => s.screen cfg request.identity = some t)
      (fun e _ => e = .dispatch .reconciliationRequired) := by
  rw [examine, wp_bind, wp_get]
  split
  · rfl
  · next t hscreen =>
    rw [wp_bind, wp_modify, wp_onlyIf]
    exact ⟨fun hstart => absurd hstart.1 hne, fun _ => hscreen⟩

theorem lifecycle_wp_of_stored {script : Script}
    (hstored : s.workspaces.get? request.identity.workspaceId = some (request.identity, o))
    (hidentity : ¬Contradicts cfg s request.identity)
    (hcall : script.call ≠ .error (.dispatch .projectIdentityChanged)) :
    (lifecycle cfg request script).wp s (fun _ _ => True) (fun e _ => Unchanged e) := by
  rw [lifecycle, wp_bind, admission, wp_bind, wp_get]
  refine wp_unless (fun _ => (by decide)) fun hauthority => ?_
  refine wp_unless (fun _ => (by decide)) fun hagent => ?_
  rw [wp_bind, wp_modify, wp_bind, wp_get, wp_liftExcept]
  refine ⟨fun _ _ => ?_, fun e he => ?_⟩
  · refine wp_seq_mono (examine_wp_of_ne hne script) (fun _ t ht => ?_) fun e _ he =>
      he ▸ unchanged_reconcile
    have hremembered : t.workspaces.get? request.identity.workspaceId = some (request.identity, o) := by
      rw [screen_workspaces ht, hydrate_workspaces]
      exact hstored
    rw [respond, wp_bind, wp_get, wp_ite]
    refine ⟨fun _ => trivial, fun _ => ?_⟩
    rw [wp_bind, wp_raiseIf, resolve, wp_bind, wp_get]
    refine ⟨fun _ => unchanged_reconcile, fun _ => ?_⟩
    split
    · next code hrefuse =>
      have hcode := verdict_of_stored hne hremembered hrefuse
      exact fun h => hcode (Fault.dispatch.inj h)
    · exact trivial
    · exact raises_bind (raises_orReconcile _) (fun _ => raises_pure _) t
    · exact raises_perform hne _ hcall t
  · rintro rfl
    exact hidentity ⟨hauthority, not_not.mp hagent, he⟩

end

theorem attachPrepare_of_stored {request : AttachRequest}
    (hstored : s.workspaces.get? request.identity.workspaceId = some (request.identity, o)) :
    attachPrepare cfg s request ≠ .error (.dispatch .projectIdentityChanged) := by
  intro h
  unfold attachPrepare at h
  rw [hstored] at h
  simp only [ne_eq, not_true_eq_false, if_false] at h
  repeat' split at h
  all_goals cases h

/-- A request with an unused identifier is looked at, not answered from the cache. -/
theorem dispatch_of_contradicts (hopen : s.refuses = none) (h : Contradicts cfg s i)
    {requestId : String} (hfresh : s.cache.get? requestId = none) (script : Script) :
    ((dispatch cfg ⟨requestId, .status, i⟩ script).call s).1 =
      .error (.dispatch .projectIdentityChanged) := by
  rw [dispatch_call, hopen, hfresh]
  simp only [lifecycle, call_bind, admission_call, if_neg h.authority, h.supported, h.changed,
    not_true_eq_false, if_false]

variable (cache : Dict String (Request × Response))

theorem exists_not_mem :
    ∃ requestId, cache.get? requestId = none := by
  obtain ⟨requestId, h⟩ := Infinite.exists_notMem_finset cache.keys.toFinset
  refine ⟨requestId, Dict.not_mem_iff.mp fun hmem => h ?_⟩
  rw [List.mem_toFinset]
  exact Dict.mem_iff_mem_keys.mp hmem

/-- A script in which nothing happens. -/
def Script.idle : Script where
  call := .error .other
  factory := .error .other
  cleanup := .pending
  finalizePrevious := .error .other
  observeRecovery := .error .other
  finalizeCandidate := .error .other

theorem consistent_iff (hopen : s.refuses = none) :
    Consistent cfg s i ↔ (∃ o, s.workspaces.get? i.workspaceId = some (i, o)) ∧ ¬Contradicts cfg s i := by
  constructor
  · intro h
    refine ⟨h.stored, fun hcontra => ?_⟩
    obtain ⟨requestId, hfresh⟩ := exists_not_mem s.cache
    refine h.accepted ⟨requestId, .status, i⟩ .idle rfl (.inl rfl) nofun ?_
    exact dispatch_of_contradicts hopen hcontra hfresh .idle
  · rintro ⟨⟨o, hstored⟩, hidentity⟩
    refine ⟨⟨o, hstored⟩, ?_, ?_⟩
    · rintro request script rfl haction hcall herror
      have hne : request.action ≠ .start := by
        rcases haction with h | h <;> rw [h] <;> exact nofun
      have hwp := lifecycle_wp_of_stored hne hstored hidentity hcall
      rw [dispatch_call, hopen] at herror
      unfold wp at hwp
      split at herror
      · cases ‹none = some _›
      · split at herror <;> cases herror
      · split at herror
        · cases herror
        · next heq =>
          rw [heq] at hwp
          cases herror
          exact hwp rfl
    · rintro request rfl
      exact attachPrepare_of_stored hstored

/-! ## Floors -/

/-- The generation below which the durable record lets nothing start. -/
def durableFloor (cfg : Config) (s : World) (w : String) : ℕ :=
  match cfg.hasAttestations, s.attestations.get? w with
  | true, some a => a.minGeneration
  | _, _ => 0

/-- The latest generation that there is evidence about. -/
def latestEvidence (cfg : Config) (s : World) (w : String) : ℕ :=
  if cfg.hasRecords then ((s.records.snapshot w).bind Snapshot.latestGeneration).getD 0 else 0

theorem hydrate_floor (s : World) (w : String) :
    (s.hydrate cfg w).floor w = max (s.floor w) (durableFloor cfg s w) := by
  unfold World.hydrate durableFloor
  cases cfg.hasAttestations <;> cases s.attestations.get? w <;> simp

theorem hydrate_attestations (s : World) (w : String) : (s.hydrate cfg w).attestations = s.attestations := by
  unfold World.hydrate
  split <;> rfl

theorem hydrate_records (s : World) (w : String) : (s.hydrate cfg w).records = s.records := by
  unfold World.hydrate
  split <;> rfl

theorem screen_attestations (h : s.screen cfg i = some t) : t.attestations = s.attestations := by
  obtain ⟨_, _, -, -, rfl⟩ := screen_eq h
  rfl

theorem screen_floor (h : s.screen cfg i = some t) (hquarantine : i.workspaceId ∉ t.quarantine) :
    t.floor i.workspaceId = max (s.floor i.workspaceId) (latestEvidence cfg s i.workspaceId) := by
  unfold World.screen at h
  split at h
  · next hskip =>
    cases h
    cases hrecords : cfg.hasRecords with
    | false => simp only [latestEvidence, hrecords, Bool.false_eq_true, if_false, Nat.max_zero]
    | true =>
      simp only [hrecords, Bool.not_true, Bool.false_or, decide_eq_true_eq] at hskip
      exact absurd hskip hquarantine
  · next hlook =>
    obtain ⟨snapshot, hsnapshot, rfl⟩ := Option.map_eq_some_iff.mp h
    have hrecords : cfg.hasRecords = true := by
      by_contra hnot
      simp [hnot] at hlook
    simp only [latestEvidence, hrecords, if_true, hsnapshot, Option.bind_some, Function.update_self]

theorem checkIdentity_eq_ok_iff : checkIdentity cfg s i = .ok () ↔
      ¬(i.generation < 1 ∨ 0xFFFFFFFFFFFFFFFF < i.generation) ∧ s.floor i.workspaceId ≤ i.generation ∧
        ¬(i.hostId ≠ cfg.hostId ∨ i.hostRevision ≠ cfg.hostRevision) ∧
        s.bindings.get? i.projectId = some (i.bindingRevision, i.bindingDigest) := by
  unfold checkIdentity
  rw [error_or_eq_ok_iff, error_or_eq_ok_iff, error_or_eq_ok_iff, Nat.not_lt]
  cases s.bindings.get? i.projectId with
  | none => simp
  | some binding =>
    rw [error_or_eq_ok_iff, not_not, Option.some_inj, eq_comm]
    simp only [and_true]

/-- An identity that has passed its checks is contradicted later only by a floor. -/
theorem contradicts_iff (hauthority : t.authority ≠ none)
    (hagent : cfg.supports i.agentType = true) (hok : checkIdentity cfg s i = .ok ())
    (hbindings : t.bindings = s.bindings) (hmem : i.workspaceId ∈ t.workspaces) :
    Contradicts cfg t i ↔ i.generation < max (t.floor i.workspaceId) (durableFloor cfg t i.workspaceId) := by
  obtain ⟨hrange, -, hhost, hbinding⟩ := checkIdentity_eq_ok_iff.mp hok
  have hbinding' : (t.hydrate cfg i.workspaceId).bindings.get? i.projectId =
      some (i.bindingRevision, i.bindingDigest) := by
    rw [congrArg Outside.bindings (hydrate_toOutside t i.workspaceId), hbindings]
    exact hbinding
  rw [← hydrate_floor]
  constructor
  · intro h
    by_contra hfloor
    have hchanged := h.changed
    rw [checkIdentity_eq_ok_iff.mpr ⟨hrange, Nat.le_of_not_lt hfloor, hhost, hbinding'⟩] at hchanged
    cases hchanged
  · intro hfloor
    refine ⟨hauthority, hagent, ?_⟩
    rw [checkIdentity, if_neg hrange, if_pos hfloor, if_neg]
    rw [hydrate_workspaces]
    exact not_not.mpr hmem

/-! ## A start that is carried out -/

theorem abandonStart_wp (s : World) (i : Identity) (script : Script) (Q : Unit → World → Prop) :
    (abandonStart cfg i script).wp s Q (fun _ _ => True) := by
  rw [abandonStart, wp_bind]
  refine wp_of_forall (fun _ t => ?_) fun _ _ => trivial
  rw [wp_bind]
  exact wp_of_forall (fun _ _ => trivial) fun _ _ => trivial

theorem burn_frame (s : World) (i : Identity) :
    (burn cfg i).wp s (fun _ t => Frame s t) (fun _ _ => True) := by
  rw [burn, wp_bind, wp_get]
  split
  · exact ⟨rfl, rfl, rfl⟩
  · trivial

theorem callExecutor_frame (s : World) (i : Identity) (script : Script) :
    (callExecutor cfg .start i script).wp s (fun _ t => Frame s t) (fun _ _ => True) := by
  rw [callExecutor, wp_bind, note, wp_modify, wp_tryCatch]
  refine wp_mono (always_takeResult .start i script _) (fun _ t ht => ?_) fun e t _ => ?_
  · exact ⟨ht.frame.outside, ht.frame.workspaces, ht.frame.floor⟩
  · change wp (do rollback cfg i script.cleanup; throw e) t _ _
    rw [wp_bind]
    exact wp_of_forall (fun _ _ => trivial) fun _ _ => trivial

/-- A start that returns has found its generation in the durable record. -/
theorem readBack_frame (s : World) (i : Identity) (script : Script) :
    (readBack cfg i script).wp s (fun _ t => Frame s t ∧ durableFloor cfg t i.workspaceId ≤ i.generation)
      (fun _ _ => True) := by
  rw [readBack, wp_bind, wp_get, wp_onlyIf]
  refine ⟨fun _ => ?_, fun hfound => ⟨⟨rfl, rfl, rfl⟩, ?_⟩⟩
  · rw [wp_bind]
    exact wp_of_forall (fun _ t => abandonStart_wp t i script _) fun _ _ => trivial
  · unfold durableFloor
    split
    · next a hcfg ha =>
      have hown : some a = some (i.attested cfg.runtimeEpoch) := by
        by_contra hne
        exact hfound ⟨hcfg, ha ▸ hne⟩
      rw [Option.some.inj hown]
      exact le_rfl
    · exact Nat.zero_le _

/-- What a start that is carried out leaves. -/
structure Started (cfg : Config) (i : Identity) (s t : World) : Prop where
  outside : t.toOutside = s.toOutside
  remembered : ∃ o, t.workspaces.get? i.workspaceId = some (i, o)
  floor : t.floor i.workspaceId = i.generation
  durable : durableFloor cfg t i.workspaceId ≤ i.generation

theorem perform_start_wp (hstart : request.action = .start)
    (hfloor : s.floor request.identity.workspaceId < request.identity.generation) (retry : Bool)
    (script : Script) : (perform cfg request retry script).wp s (fun _ t => Started cfg request.identity s t)
      (fun _ _ => True) := by
  have hburn : (onlyIf (request.action = .start ∧ cfg.hasAttestations)
      (burn cfg request.identity)).wp s (fun _ t => Frame s t) (fun _ _ => True) := by
    rw [wp_onlyIf]
    exact ⟨fun _ => burn_frame s _, fun _ => ⟨rfl, rfl, rfl⟩⟩
  rw [perform]
  refine wp_seq hburn fun _ t hst => ?_
  rw [wp_bind, hstart]
  refine wp_imp (callExecutor_frame t _ script) fun o u htu => ?_
  refine wp_seq_mono (always_collectEvidence .start _ script u) (fun _ v huv => ?_) fun _ _ _ => trivial
  rw [wp_bind, wp_onlyIf]
  refine ⟨fun _ => ?_, fun hne => absurd rfl hne⟩
  refine wp_imp (readBack_frame v _ script) fun _ x hx => ?_
  have hframe : Frame s x := ((hst.trans htu).trans huv.frame).trans hx.1
  rw [wp_bind, remember, wp_modify, wp_bind, wp_onlyIf]
  have hpost : ∀ y : World, y.toOutside = x.toOutside → y.floor = x.floor →
      y.attestations = x.attestations →
      y.workspaces = x.workspaces.set request.identity.workspaceId (request.identity, o) →
      (do
        onlyIf (Action.start = .start)
          (raiseFloor request.identity.workspaceId request.identity.generation)
        return (⟨request, answerOf .start o, some o⟩ : Response) : Op Response).wp y
        (fun _ t => Started cfg request.identity s t) (fun _ _ => True) := by
    intro y houtside hfloors hfiles hworkspaces
    rw [wp_bind, wp_onlyIf, raiseFloor, wp_modify]
    refine ⟨fun _ => ⟨houtside.trans hframe.outside, ⟨o, ?_⟩, ?_, ?_⟩, fun hne => absurd rfl hne⟩
    · change y.workspaces.get? _ = _
      rw [hworkspaces, Dict.get?_set_self]
    · change Function.update y.floor _ _ _ = _
      rw [Function.update_self, hfloors, hframe.floor]
      omega
    · change durableFloor cfg y _ ≤ _
      unfold durableFloor
      rw [hfiles]
      exact hx.2
  exact ⟨fun _ => hpost _ rfl rfl rfl rfl, fun _ => hpost _ rfl rfl rfl rfl⟩

/-! ## Answers to a start -/

/-- Whatever runs is the identity itself, and no later generation has left evidence. -/
def RunsOnly (cfg : Config) (s : World) (i : Identity) : Prop :=
  ∀ j o, s.workspaces.get? i.workspaceId = some (j, o) → o.state.isRunning = true →
    j = i ∧ latestEvidence cfg s i.workspaceId ≤ i.generation

/-- What a verdict on a start says: it goes ahead only above the floor, when nothing runs. -/
def Verdict.Justified (s : World) (i : Identity) (current : Option (Identity × Observation)) :
    Verdict → Prop
  | .refuse _ => True
  | .alreadyRunning o => ∃ j, current = some (j, o) ∧ o.state.isRunning = true
  | .alreadyStopped _ => False
  | .go => s.floor i.workspaceId < i.generation ∧ ∀ j o, current = some (j, o) → ¬o.state.isRunning = true

theorem justified_startVerdict : (startVerdict cfg s i current).Justified s i current := by
  unfold startVerdict
  repeat' split
  any_goals trivial
  · next hrunning => exact ⟨_, rfl, hrunning⟩
  · next hrunning hfloor =>
    refine ⟨Nat.lt_of_not_le hfloor, fun j o heq => ?_⟩
    cases heq
    exact hrunning
  · next hfloor => exact ⟨Nat.lt_of_not_le hfloor, nofun⟩

theorem justified_verdict {v : Verdict} (hstart : request.action = .start) (h : verdict cfg s request = v) :
    v.Justified s request.identity (s.workspaces.get? request.identity.workspaceId) := by
  rw [← h, verdict, hstart]
  dsimp only
  split
  · trivial
  · exact justified_startVerdict

/-- A start that is answered without the cache. -/
theorem lifecycle_start_wp {s : World} {request : Request} (hstart : request.action = .start)
    (script : Script) : (lifecycle cfg request script).wp s (fun _ t => t.refuses = s.refuses ∧
        (((∃ o, t.workspaces.get? request.identity.workspaceId = some (request.identity, o)) ∧
          ¬Contradicts cfg t request.identity) ↔ RunsOnly cfg s request.identity)) (fun _ _ => True) := by
  rw [lifecycle]
  refine wp_seq_mono (admission_wp s request) ?_ fun _ _ _ => trivial
  rintro - _ ⟨rfl, hauthority, hagent, hok⟩
  refine wp_seq_mono (examine_wp _ request script) ?_ fun _ _ _ => trivial
  rintro - u ⟨t, hexamined⟩
  have hticks : Ticks cfg s u := (Tick.hydrate s _).ticks.trans hexamined.ticks
  obtain ⟨houtside, hworkspaces⟩ := hticks.outside_workspaces
  have hbindings : u.bindings = (s.hydrate cfg request.identity.workspaceId).bindings := by
    rw [houtside, hydrate_toOutside]
  have hnotReconcile : ¬(request.action = .reconcile ∧
      request.identity.workspaceId ∈ u.quarantine) := by
    rw [hstart]
    exact fun h => by cases h.1
  rw [respond, wp_bind, wp_get, if_neg hnotReconcile, wp_bind, wp_raiseIf, resolve, wp_bind, wp_get]
  refine ⟨fun _ => trivial, fun hquarantine => ?_⟩
  have hquarantine : request.identity.workspaceId ∉ u.quarantine := fun hmem =>
    hquarantine ⟨hmem, by simp [isCleanupRetry, hstart]⟩
  split
  · trivial
  · -- the workspace is remembered, so that it was not recovered
    next o hverdict =>
      obtain ⟨j, hj, hrunning⟩ := justified_verdict hstart hverdict
      have hmem : request.identity.workspaceId ∈ u.workspaces := Dict.mem_of_get? hj
      have hscreen : (s.hydrate cfg request.identity.workspaceId).screen cfg request.identity = some u := by
        rcases hexamined.recovered with rfl | ⟨-, -, hnot, -⟩
        · exact hexamined.screened
        · rw [screen_workspaces hexamined.screened, hydrate_workspaces] at hnot
          exact absurd (hworkspaces ▸ hmem) hnot
      have hfloor := screen_floor hscreen hquarantine
      have hchecked := (checkIdentity_eq_ok_iff.mp hok).2.1
      have hdurable : durableFloor cfg u request.identity.workspaceId ≤
          (s.hydrate cfg request.identity.workspaceId).floor request.identity.workspaceId := by
        rw [hydrate_floor]
        unfold durableFloor
        rw [screen_attestations hscreen, hydrate_attestations]
        exact le_max_right _ _
      have hlatest : latestEvidence cfg (s.hydrate cfg request.identity.workspaceId)
          request.identity.workspaceId = latestEvidence cfg s request.identity.workspaceId := by
        unfold latestEvidence
        rw [hydrate_records]
      rw [wp_pure, contradicts_iff (houtside ▸ hauthority) hagent hok hbindings hmem]
      refine ⟨congrArg Outside.refuses houtside, ?_, ?_⟩
      · rintro ⟨⟨o', ho'⟩, hnot⟩ k p hk -
        rw [← hworkspaces, ho'] at hk
        cases hk
        exact ⟨rfl, by omega⟩
      · intro hruns
        rw [hworkspaces] at hj
        obtain ⟨rfl, hle⟩ := hruns j o hj hrunning
        exact ⟨⟨o, hworkspaces ▸ hj⟩, by omega⟩
  · next hverdict => exact (justified_verdict hstart hverdict).elim
  · next hgo =>
    obtain ⟨hfloor, hidle⟩ := justified_verdict hstart hgo
    refine wp_imp (perform_start_wp hstart hfloor _ script) ?_
    rintro response v ⟨hv, ⟨o, ho⟩, hraised, hdurable⟩
    have houtside' : v.toOutside = s.toOutside := hv.trans houtside
    refine ⟨congrArg Outside.refuses houtside', iff_of_true ⟨⟨o, ho⟩, ?_⟩ fun j p hj hrunning => ?_⟩
    · rw [contradicts_iff (houtside' ▸ hauthority) hagent hok ?_ (Dict.mem_of_get? ho)]
      · omega
      · rw [houtside', hydrate_toOutside]
    · rw [← hworkspaces] at hj
      exact absurd hrunning (hidle j p hj)

/-! ## Runs -/

/-- The condition under which a start is answered for the identity that is remembered. An answer from the
cache changes nothing, so that there the identity must be the remembered one already. -/
def KeepsIdentity (cfg : Config) (s : World) (request : Request) : Prop :=
  match s.cache.get? request.requestId with
  | some _ => (∃ o, s.workspaces.get? request.identity.workspaceId = some (request.identity, o)) ∧
      ¬Contradicts cfg s request.identity
  | none => RunsOnly cfg s request.identity

theorem contradicts_cache :
    Contradicts cfg { s with cache := cache } i ↔ Contradicts cfg s i := by
  have hchecked : checkIdentity cfg (World.hydrate cfg { s with cache := cache } i.workspaceId) i =
      checkIdentity cfg (s.hydrate cfg i.workspaceId) i := by
    unfold World.hydrate
    cases cfg.hasAttestations <;> cases s.attestations.get? i.workspaceId <;> rfl
  constructor
  · exact fun h => ⟨h.authority, h.supported, hchecked ▸ h.changed⟩
  · exact fun h => ⟨h.authority, h.supported, hchecked ▸ h.changed⟩

theorem consistent_iff_keepsIdentity {script : Script} {response : Response}
    (hstart : request.action = .start) (h : (dispatch cfg request script).call s = (.ok response, t)) :
    Consistent cfg t request.identity ↔ KeepsIdentity cfg s request := by
  rw [dispatch_call] at h
  unfold KeepsIdentity
  split at h
  · cases h
  · next known answer hopen hcache =>
    rw [hcache]
    split at h
    · cases h
    · cases h
      exact consistent_iff hopen
  · next hopen hcache =>
    rw [hcache]
    have hwp := @lifecycle_start_wp cfg s request hstart script
    unfold wp at hwp
    split at h
    · next u heq =>
      cases h
      rw [heq] at hwp
      have hopen' : ({ u with cache := remembered u.cache request response } : World).refuses = none :=
        hwp.1.trans hopen
      rw [consistent_iff hopen', contradicts_cache]
      exact hwp.2
    · cases h

open Sample

end AgentBox.Lifecycle
