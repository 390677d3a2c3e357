import AgentBox.Lifecycle.Ticks

/-!
# Refused requests

A refused request may name another generation of a workspace that runs. If it is refused before the
evidence about the workspace is looked at, later requests for the running generation are answered as if it
had not been made (`refused_leaves_no_trace`): all it can have done is to load the durable floor, which
every request does first.

Otherwise it puts the workspace into quarantine: the record of the running generation counts as live only
for a request that names this generation. The stop that follows is then refused
(`refused_start_blocks_the_stop`).
-/

namespace AgentBox.Lifecycle

open Method

variable {w : String} {t : World} {request : Request} {s : World} {cfg : Config}

/-! ## Loading the floor -/

theorem hydrate_hydrate (s : World) (w : String) : (s.hydrate cfg w).hydrate cfg w = s.hydrate cfg w := by
  cases hcfg : cfg.hasAttestations with
  | false => simp only [World.hydrate, hcfg]
  | true =>
    cases ha : s.attestations.get? w with
    | none => simp only [World.hydrate, hcfg, ha]
    | some a =>
      simp only [World.hydrate, hcfg, ha, Function.update_self, Function.update_idem, max_assoc, max_self]
      split
      · rw [Finset.insert_idem]
      · rfl

theorem hydrate_log (s : World) (w : String) : (s.hydrate cfg w).log = s.log := by
  unfold World.hydrate
  split <;> rfl

theorem admission_call (s : World) (request : Request) : (admission cfg request).call s =
      if s.authority = none then (.error (.dispatch .bindingBootstrapRequired), s)
      else if ¬cfg.supports request.identity.agentType then (.error (.dispatch .agentUnsupported), s)
      else (checkIdentity cfg (s.hydrate cfg request.identity.workspaceId) request.identity,
        s.hydrate cfg request.identity.workspaceId) := by
  set outcome := if s.authority = none then _ else _ with houtcome
  have hwp : (admission cfg request).wp s (fun a t => (.ok a, t) = outcome)
      (fun e t => (.error e, t) = outcome) := by
    rw [admission, wp_bind, wp_get]
    refine wp_unless (fun h => by rw [houtcome, if_pos h]) fun h => ?_
    rw [houtcome, if_neg h]
    refine wp_unless (fun h => by rw [if_pos h]) fun h => ?_
    rw [if_neg h, wp_bind, wp_modify, wp_bind, wp_get, wp_liftExcept]
    exact ⟨fun _ hok => by rw [hok], fun _ herror => by rw [herror]⟩
  exact call_of_wp (P := fun r t => (r, t) = outcome) hwp

/-- A request that comes after the floor was loaded is handled as if it had not been. -/
theorem lifecycle_hydrate (s : World) (request : Request) (script : Script) :
    (lifecycle cfg request script).call (s.hydrate cfg request.identity.workspaceId) =
        (lifecycle cfg request script).call s ∨ ∃ e, (lifecycle cfg request script).call s = (.error e, s) ∧
        (lifecycle cfg request script).call (s.hydrate cfg request.identity.workspaceId) =
          (.error e, s.hydrate cfg request.identity.workspaceId) := by
  have hauthority : (s.hydrate cfg request.identity.workspaceId).authority = s.authority :=
    congrArg Outside.authority (hydrate_toOutside s _)
  simp only [lifecycle, call_bind, admission_call, hauthority, hydrate_hydrate]
  by_cases hnone : s.authority = none
  · simp only [if_pos hnone]
    exact .inr ⟨_, rfl, rfl⟩
  · by_cases hagent : ¬cfg.supports request.identity.agentType
    · simp only [if_neg hnone, if_pos hagent]
      exact .inr ⟨_, rfl, rfl⟩
    · exact .inl (by simp only [if_neg hnone, if_neg hagent])

/-- Two states from which a workspace's requests are answered alike. -/
inductive Alike (cfg : Config) (w : String) : World → World → Prop
  | same (s : World) : Alike cfg w s s
  | loaded (s : World) : Alike cfg w s (s.hydrate cfg w)

theorem Alike.log (h : Alike cfg w s t) : t.log = s.log := by
  cases h with
  | same => rfl
  | loaded => exact hydrate_log s w

theorem dispatch_call (s : World) (request : Request) (script : Script) :
    (dispatch cfg request script).call s = match s.refuses, s.cache.get? request.requestId with
      | some e, _ => (.error e, s)
      | none, some (known, response) =>
        if known ≠ request then (.error (.dispatch .protocolInvalid), s) else (.ok response, s)
      | none, none => match (lifecycle cfg request script).call s with
        | (.ok response, t) => (.ok response, { t with cache := remembered t.cache request response })
        | (.error e, t) => (.error e, t) := by
  rw [dispatch, call_bind]
  change (match s.refuses, s.cache.get? request.requestId with
    | some e, _ => throw e
    | none, some (known, response) => _
    | none, none => _ : Op Response).call s = _
  split
  · rfl
  · next known response _ _ =>
    by_cases hknown : known ≠ request
    · rw [call_bind, raiseIf, if_pos hknown, if_pos hknown]
      rfl
    · rw [call_bind, raiseIf, if_neg hknown, if_neg hknown]
      rfl
  · rw [call_bind]
    rcases (lifecycle cfg request script).call s with ⟨_ | _, _⟩
    · rfl
    · rfl

theorem dispatch_hydrate (s : World) (request : Request) (script : Script) :
    ((dispatch cfg request script).call (s.hydrate cfg request.identity.workspaceId)).1 =
        ((dispatch cfg request script).call s).1 ∧
      Alike cfg request.identity.workspaceId ((dispatch cfg request script).call s).2
        ((dispatch cfg request script).call (s.hydrate cfg request.identity.workspaceId)).2 := by
  have hrefuses : (s.hydrate cfg request.identity.workspaceId).refuses = s.refuses :=
    congrArg Outside.refuses (hydrate_toOutside s _)
  have hcache : (s.hydrate cfg request.identity.workspaceId).cache = s.cache :=
    congrArg Outside.cache (hydrate_toOutside s _)
  simp only [dispatch_call, hrefuses, hcache]
  split
  · exact ⟨rfl, .loaded s⟩
  · split
    · exact ⟨rfl, .loaded s⟩
    · exact ⟨rfl, .loaded s⟩
  · rcases lifecycle_hydrate s request script with heq | ⟨e, hs, ht⟩
    · rw [heq]
      exact ⟨rfl, .same _⟩
    · rw [hs, ht]
      exact ⟨rfl, .loaded s⟩

/-! ## Answers -/

/-- The answers to requests that are made one after another, and the effects up to the end. -/
def answers (cfg : Config) (s : World) : List (Request × Script) → List (Except Fault Response) × List Effect
  | [] => ([], s.log)
  | (request, script) :: rest =>
    let next := (dispatch cfg request script).call s
    (next.1 :: (answers cfg next.2 rest).1, (answers cfg next.2 rest).2)

theorem Alike.answers {later : List (Request × Script)}
    (hlater : ∀ x ∈ later, x.1.identity.workspaceId = w) (h : Alike cfg w s t) :
    AgentBox.Lifecycle.answers cfg t later = AgentBox.Lifecycle.answers cfg s later := by
  induction later generalizing s t with
  | nil => simp only [AgentBox.Lifecycle.answers, h.log]
  | cons x rest ih =>
    cases h with
    | same => rfl
    | loaded =>
      obtain rfl := hlater x List.mem_cons_self
      obtain ⟨hanswer, halike⟩ := dispatch_hydrate s x.1 x.2
      have hrest := ih (fun y hy => hlater y (List.mem_cons_of_mem _ hy)) halike
      simp only [AgentBox.Lifecycle.answers, hanswer, hrest]

/-! ## Requests that are refused early -/

/-- The request gets as far as the evidence about its workspace. -/
structure Looks (cfg : Config) (s : World) (request : Request) : Prop where
  open_ : s.refuses = none
  fresh : s.cache.get? request.requestId = none
  authority : s.authority ≠ none
  supported : cfg.supports request.identity.agentType = true
  identity : checkIdentity cfg (s.hydrate cfg request.identity.workspaceId) request.identity = .ok ()
  unquarantined : request.identity.workspaceId ∉
    (s.hydrate cfg request.identity.workspaceId).quarantine

/-- In quarantine, a request for a remembered workspace changes nothing when it is refused. -/
theorem examine_wp_of_mem (script : Script) (hquarantine : request.identity.workspaceId ∈ s.quarantine)
    (hmem : request.identity.workspaceId ∈ s.workspaces) :
    (examine cfg request script).wp s (fun _ t => t = s) (fun _ _ => False) := by
  have hscreen : s.screen cfg request.identity = some s := by
    rw [World.screen, if_pos]
    simp [hquarantine, decide_true]
  rw [examine, wp_bind, wp_get, hscreen]
  change wp (do modify fun _ => s; onlyIf _ _) s _ _
  rw [wp_bind, wp_modify, wp_onlyIf]
  exact ⟨fun _ => recover_wp_of_mem hmem script, fun _ => rfl⟩

theorem alike_of_refused (hcfg : cfg.hasAttestations = true) {script : Script} {e : Fault}
    (hmem : request.identity.workspaceId ∈ s.workspaces) (hlooks : ¬Looks cfg s request)
    (hrefused : ((dispatch cfg request script).call s).1 = .error e) :
    Alike cfg request.identity.workspaceId s ((dispatch cfg request script).call s).2 := by
  have hwp : (dispatch cfg request script).wp s (fun _ _ => True)
      (fun _ t => Alike cfg request.identity.workspaceId s t) := by
    rw [dispatch, wp_bind, wp_get]
    split
    · exact .same s
    · exact wp_unless (fun _ => .same s) fun _ => trivial
    · next hrefuses hcache =>
      rw [wp_bind, lifecycle, wp_bind, admission, wp_bind, wp_get]
      refine wp_unless (fun _ => .same s) fun hauthority => ?_
      refine wp_unless (fun _ => .same s) fun hagent => ?_
      rw [wp_bind, wp_modify, wp_bind, wp_get, wp_liftExcept]
      refine ⟨fun _ hidentity => ?_, fun _ _ => .loaded s⟩
      have hquarantine : request.identity.workspaceId ∈
          (s.hydrate cfg request.identity.workspaceId).quarantine := by
        by_contra hnot
        exact hlooks ⟨hrefuses, hcache, hauthority, not_not.mp hagent, hidentity, hnot⟩
      refine wp_seq_mono (examine_wp_of_mem script hquarantine ?_) ?_ fun _ _ h => h.elim
      · rw [hydrate_workspaces]
        exact hmem
      rintro - _ rfl
      rw [respond, wp_bind, wp_get, wp_ite]
      refine ⟨fun _ => trivial, fun _ => ?_⟩
      refine wp_unless (fun _ => .loaded s) fun hretry => absurd ⟨hquarantine, ?_⟩ hretry
      simp [isCleanupRetry, hcfg]
  exact error_of_wp hwp hrefused

/-! ## Runs -/

/-- The workspace runs the identity, and the only evidence that is not settled is that it is live. -/
structure Live (s : World) (i : Identity) : Prop where
  running : ∃ o, s.workspaces.get? i.workspaceId = some (i, o) ∧ o.state = .running
  evidence : ∃ snapshot r, s.records.snapshot i.workspaceId = some snapshot ∧
    snapshot.unresolvedGenerations = [i.generation] ∧ snapshot.latestUnresolved = some r ∧
    r.cleanup = .live

/-- A request for another generation of a live workspace that is refused before the evidence is looked at
does not change how later requests for the live generation are answered, nor what these do. This holds in
every state, whether or not a run reaches it. -/
theorem refused_leaves_no_trace (hattestations : cfg.hasAttestations = true) (s : World) (i : Identity)
    (hlive : Live s i) (request : Request) (script : Script)
    (hworkspace : request.identity.workspaceId = i.workspaceId) (e : Fault)
    (hrefused : ((dispatch cfg request script).call s).1 = .error e) (hlooks : ¬Looks cfg s request)
    (later : List (Request × Script)) (hlater : ∀ x ∈ later, x.1.identity = i) :
    answers cfg ((dispatch cfg request script).call s).2 later = answers cfg s later := by
  obtain ⟨o, ho, -⟩ := hlive.running
  have hmem : request.identity.workspaceId ∈ s.workspaces := by
    rw [hworkspace]
    exact Dict.mem_of_get? ho
  refine (alike_of_refused hattestations hmem hlooks hrefused).answers fun x hx => ?_
  rw [hlater x hx, hworkspace]

namespace Sample

/-- The first generation runs. -/
def first : World := stateAt (World.step config) initial [started 1] 1

theorem live_first : Live first (identity 1) :=
  ⟨⟨running, by decide⟩, ⟨_, record 1 .live, rfl, by decide⟩⟩

/-- The second generation, for another revision of the binding. -/
def rebound : Request := ⟨"rebound", .start, { identity 2 with bindingRevision := "2" }⟩

end Sample

open Sample

/-- The stop of a live generation that the executor would have seen is refused after the refused start of
the next generation. -/
theorem refused_start_blocks_the_stop : Live first (identity 1) ∧ ((dispatch config (start 2)
        (script running (record 2 .live))).call first).1 = .error (.dispatch .reconciliationRequired) ∧
      .stopCalled (identity 1) ∈ (answers config first
        [(stop 1, script stopped (record 1 .emptyDurable))]).2 ∧ answers config
          (stateAt (World.step config) initial [started 1, started 2] 2)
          [(stop 1, script stopped (record 1 .emptyDurable))] =
        ([.error (.dispatch .reconciliationRequired)], first.log) := by
  exact ⟨live_first, by decide +kernel, by decide, by decide⟩

/-- After the refused start for another revision of the binding, the stop is answered as without it. -/
theorem refused_leaves_no_trace_rebound : answers config ((dispatch config rebound
        (script running (record 2 .live))).call first).2 [(stop 1, script stopped (record 1 .emptyDurable))] =
      answers config first [(stop 1, script stopped (record 1 .emptyDurable))] := by
  refine refused_leaves_no_trace rfl first (identity 1) live_first rebound _ rfl
    (.dispatch .projectIdentityChanged) (by decide) (fun h => ?_) _ fun x hx => ?_
  · have hchanged : checkIdentity config (first.hydrate config "w")
        rebound.identity = .error (.dispatch .projectIdentityChanged) := by decide +kernel
    cases hchanged.symm.trans h.identity
  · obtain rfl := List.mem_singleton.mp hx
    rfl

end AgentBox.Lifecycle
