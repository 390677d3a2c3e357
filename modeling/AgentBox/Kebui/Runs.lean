import AgentBox.Kebui.History

/-!
# Runs of the admission journal

`step_spec` lifts what the methods do to the directory with all its instances. The file stays the payload
of a well-formed snapshot, and a claim on a request is only ever gained by the instance whose `accept`
stored the request. From these two facts: one unfinished request per slot, a phase that only moves along
the graph, a revision that only grows, and a dispatch fence that one instance sets once.
-/

namespace AgentBox.Kebui

open Nat Method

variable {calls : List Call} {k : ℕ} {id : String}

/-- An open instance that claims a request. -/
def System.Live (sys : System) (i : ℕ) (id : String) : Prop :=
  ∃ self, sys.instances[i]? = some self ∧ self.opened = true ∧ id ∈ self.live

/-- Nobody claims what they did not claim before. -/
def NoNewClaims (sys sys' : System) : Prop := ∀ i id, sys'.Live i id → sys.Live i id

/-! ## One call -/

/-- What a call does to the directory. -/
inductive Stepped (sys : System) (call : Call) (sys' : System) : Prop
  | stayed (hfile : sys'.file = sys.file) (hclaims : NoNewClaims sys sys')
  | initialized (hnone : sys.file = none) (hfile : sys'.file = some (payload ⟨1, []⟩))
      (hclaims : NoNewClaims sys sys')
  | retired (old : Snapshot) (records : List AdmissionRecord) (hold : sys.file = some (payload old))
      (hwf : old.WellFormed)
      (hretired : List.Forall₂
        (fun r r' => Evolves r r' ∧ (r'.phase = r.phase ∨ r'.phase = .unknown)) old.records records)
      (hroom : old.journalRevision < maxRevision)
      (hfile : sys'.file = some (payload ⟨old.journalRevision + 1, records⟩))
      (hclaims : NoNewClaims sys sys')
  | admitted (i : ℕ) (request : AdmissionRequest) (executionId : String) (replies : ℕ → Reply)
      (hcall : call = .accept i request executionId replies) (old : Snapshot) (record : AdmissionRecord)
      (hold : sys.file = some (payload old)) (hwf : old.WellFormed) (hrequest : record.request = request)
      (hphase : record.phase = .accepted)
      (hnew : ∀ r ∈ old.records, r.requestId ≠ request.requestId)
      (hchange : Change old ⟨old.journalRevision + 1, old.records ++ [record]⟩)
      (hfile : sys'.file = some (payload ⟨old.journalRevision + 1, old.records ++ [record]⟩))
      (hclaims : ∀ j id, sys'.Live j id → sys.Live j id ∨ (j = i ∧ id = request.requestId))
  | moved (i : ℕ) (request : AdmissionRequest) (expected : String) (phase : AdmissionPhase)
      (receipt status : Option String) (replies : ℕ → Reply)
      (hcall : call = .transition i request expected phase receipt status replies)
      (hlive : sys.Live i request.requestId) (old : Snapshot) (record updated : AdmissionRecord)
      (hold : sys.file = some (payload old)) (hwf : old.WellFormed) (hmem : record ∈ old.records)
      (hid : record.requestId = request.requestId) (hevolves : Evolves record updated)
      (hphase : updated.phase = phase) (hroom : old.journalRevision < maxRevision)
      (hfile : sys'.file = some (payload ⟨old.journalRevision + 1, put old.records updated⟩))
      (hclaims : NoNewClaims sys sys')

section
variable {α : Type} {sys : System} {m : Op α} {i : ℕ}

theorem opened_survivor {result : Except Fault α × Store} (h : (survivor result).opened = true) :
    result.2.self.opened = true ∧ (survivor result).live = result.2.self.live := by
  unfold survivor at h ⊢
  split
  · next hcrash =>
    rw [hcrash] at h
    cases h
  · next hne =>
    split at h
    · next hcrash => exact absurd hcrash hne
    · exact ⟨h, rfl⟩

/-- A constructor leaves the claims of the others alone and makes none. -/
theorem noNewClaims_construct {m : Op Unit} (h : Claims (sys.view .fresh) (m.call (sys.view .fresh)).2) :
    NoNewClaims sys (sys.construct m).2 := by
  rintro i id ⟨self, hself, hopen, hid⟩
  change (sys.instances ++ [survivor _])[i]? = some self at hself
  rcases lt_or_ge i sys.instances.length with hi | hi
  · rw [List.getElem?_append_left hi] at hself
    exact ⟨self, hself, hopen, hid⟩
  · rw [List.getElem?_append_right hi, List.getElem?_singleton] at hself
    split at hself
    · cases hself
      rw [(opened_survivor hopen).2] at hid
      cases h.live hid
    · cases hself

/-- A method can only change the claims of its own instance. -/
theorem live_invoke {j : ℕ} {id : String} {self : Instance} (hself : sys.instances[i]? = some self)
    (h : (sys.invoke i m).2.Live j id) :
    sys.Live j id ∨ (j = i ∧ (m.call (sys.view self)).2.self.opened = true ∧
      id ∈ (m.call (sys.view self)).2.self.live) := by
  obtain ⟨self', hself', hopen, hid⟩ := h
  unfold System.invoke at hself'
  rw [hself] at hself'
  change (sys.instances.set i (survivor _))[j]? = some self' at hself'
  by_cases hij : i = j
  · subst hij
    rw [List.getElem?_set_self (List.getElem?_eq_some_iff.mp hself).1] at hself'
    cases hself'
    obtain ⟨hopened, hlive⟩ := opened_survivor hopen
    exact .inr ⟨rfl, hopened, hlive ▸ hid⟩
  · rw [List.getElem?_set_ne hij] at hself'
    exact .inl ⟨self', hself', hopen, hid⟩

theorem noNewClaims_invoke {self : Instance} (hself : sys.instances[i]? = some self)
    (h : Claims (sys.view self) (m.call (sys.view self)).2) : NoNewClaims sys (sys.invoke i m).2 := by
  intro j id hlive
  rcases live_invoke hself hlive with hold | ⟨rfl, hopened, hid⟩
  · exact hold
  · exact ⟨self, hself, h.opened hopened, h.live hid⟩

theorem file_invoke {self : Instance} (m : Op α) (hself : sys.instances[i]? = some self) :
    (sys.invoke i m).2.file = (m.call (sys.view self)).2.file := by
  unfold System.invoke
  rw [hself]
  rfl

theorem stepped_invoke_none {call : Call} (hnone : sys.instances[i]? = none) :
    Stepped sys call (sys.invoke i m).2 := by
  have hsame : (sys.invoke i m).2 = sys := by
    unfold System.invoke
    rw [hnone]
  rw [hsame]
  exact .stayed rfl fun _ _ h => h

/-- A method that leaves the file alone. -/
theorem stepped_of_quiet {call : Call} (h : ∀ s : Store, m.wp s (fun _ t => Quiet s t) fun _ t => Quiet s t) :
    Stepped sys call (sys.invoke i m).2 := by
  cases hself : sys.instances[i]? with
  | none => exact stepped_invoke_none hself
  | some self =>
    have hquiet := state_of_wp (h (sys.view self))
    refine .stayed ?_ (noNewClaims_invoke hself hquiet.toClaims)
    rw [file_invoke m hself]
    exact hquiet.file

theorem stepped_construct {m : Op Unit} {call : Call} (hquiet : Quiet (sys.view .fresh)
    (m.call (sys.view .fresh)).2) : Stepped sys call (sys.construct m).2 :=
  .stayed hquiet.file (noNewClaims_construct hquiet.toClaims)

theorem live_dead {j : ℕ} {id : String}
    (h : System.Live { sys with instances := sys.instances.modify i .dead } j id) :
    sys.Live j id := by
  obtain ⟨self, hself, hopen, hid⟩ := h
  change (sys.instances.modify i .dead)[j]? = some self at hself
  rw [List.getElem?_modify] at hself
  cases hj : sys.instances[j]? with
  | none => rw [hj] at hself; cases hself
  | some self' =>
    rw [hj] at hself
    by_cases hij : i = j
    · simp only [hij, if_true] at hself
      cases hself
      cases hopen
    · simp only [if_neg hij] at hself
      cases hself
      exact ⟨self', hj, hopen, hid⟩

/-- What a call on a sound directory does. -/
theorem step_spec (hsound : SoundFile sys.file) (call : Call) : Stepped sys call (sys.step call) := by
  cases call with
  | initializeForTest replies =>
    rcases state_of_wp (@initializeForTest_wp replies (sys.view .fresh)) with hq | h
    · exact stepped_construct hq
    · exact .initialized h.file.1 h.file.2 (noNewClaims_construct h.toClaims)
  | openExisting recover replies =>
    have hwp := @openExisting_wp replies (sys.view .fresh) recover hsound
    rcases state_of_wp hwp with hq | h
    · exact stepped_construct hq
    · obtain ⟨old, records, hold, hwf, hretired, hroom, hfile⟩ := h.file
      exact .retired old records hold hwf hretired hroom hfile (noNewClaims_construct h.toClaims)
  | accept i request executionId replies =>
    cases hself : sys.instances[i]? with
    | none => exact stepped_invoke_none hself
    | some self =>
      have hwp := @accept_wp replies (sys.view self) request executionId hsound
      have hfileEq := file_invoke (accept replies request executionId) hself
      rcases state_of_wp hwp with hq | h
      · exact .stayed (hfileEq.trans hq.file) (noNewClaims_invoke hself hq.toClaims)
      · obtain ⟨old, record, hold, hwf, hrequest, hphase, hnew, hchange, hfile⟩ := h.file
        refine .admitted i request executionId replies rfl old record hold hwf hrequest hphase hnew
          hchange (hfileEq.trans hfile) fun j id hlive => ?_
        rcases live_invoke hself hlive with hold | ⟨rfl, hopened, hid⟩
        · exact .inl hold
        · rcases List.mem_cons.mp (h.live hid) with rfl | hid
          · exact .inr ⟨rfl, rfl⟩
          · exact .inl ⟨self, hself, h.open_, hid⟩
  | transition i request expected phase receipt status replies =>
    cases hself : sys.instances[i]? with
    | none => exact stepped_invoke_none hself
    | some self =>
      have hwp := @transition_wp replies (sys.view self) request phase expected receipt status hsound
      have hfileEq := file_invoke (transition replies request expected phase receipt status) hself
      rcases state_of_wp hwp with hq | h
      · exact .stayed (hfileEq.trans hq.file) (noNewClaims_invoke hself hq.toClaims)
      · obtain ⟨old, record, updated, hold, hwf, hmem, hid, hevolves, hphase, hroom, hfile⟩ := h.file
        exact .moved i request expected phase receipt status replies rfl
          ⟨self, hself, h.open_, h.claimed⟩ old record updated hold hwf hmem hid hevolves hphase hroom
          (hfileEq.trans hfile) (noNewClaims_invoke hself h.toClaims)
  | read i request replies => exact stepped_of_quiet (quiet_read request)
  | close i => exact stepped_of_quiet quiet_close
  | crash i => exact .stayed rfl fun _ _ h => live_dead h

end

/-! ## Runs -/

/-- What a call makes of the stored snapshot, `none` standing for no file. -/
theorem Stepped.sound {sys sys' : System} {call : Call} (hsound : SoundFile sys.file)
    (h : Stepped sys call sys') : SoundFile sys'.file := by
  have hholds : ∀ {s : Snapshot}, s.WellFormed → sys'.file = some (payload s) → SoundFile sys'.file := by
    intro s hs hfile b hb
    rw [hfile] at hb
    exact ⟨s, hs, (Option.some.inj hb).symm⟩
  cases h with
  | stayed hfile => rwa [hfile]
  | initialized _ hfile => exact hholds wellFormed_initial hfile
  | retired old records _ hwf hretired hroom hfile =>
    exact hholds (wellFormed_evolve hwf (hretired.imp fun _ _ h => h.1) hroom) hfile
  | admitted _ _ _ _ _ old record _ hwf _ _ _ hchange hfile => exact hholds (hchange.wellFormed hwf) hfile
  | moved _ _ _ _ _ _ _ _ _ old record updated _ hwf hmem _ hevolves _ hroom hfile =>
    exact hholds (wellFormed_evolve hwf (evolves_put hwf.ids hmem hevolves) hroom) hfile

theorem sound_reached (calls : List Call) (k : ℕ) : SoundFile (reached calls k).file := by
  refine invariant_stateAt (I := fun sys : System => SoundFile sys.file) ?_ ?_ k
  · intro b hb
    cases hb
  · intro sys call hsound
    exact (step_spec hsound call).sound hsound

/-- Each call of a run makes a step. -/
theorem stepped_reached {call : Call} (h : calls[k]? = some call) :
    Stepped (reached calls k) call (reached calls (k + 1)) := by
  unfold reached
  rw [stateAt_succ h]
  exact step_spec (sound_reached calls k) call

variable {s : Snapshot}

theorem storedAt_of_file (hwf : s.WellFormed) (h : (reached calls k).file = some (payload s)) :
    storedAt calls k = some s := by
  rw [storedAt, h, Option.bind_some, decode_payload hwf]
  rfl

/-- The stored snapshot is what the file is the payload of. -/
theorem file_of_storedAt (h : storedAt calls k = some s) :
    (reached calls k).file = some (payload s) ∧ s.WellFormed := by
  unfold storedAt at h
  cases hfile : (reached calls k).file with
  | none => rw [hfile] at h; cases h
  | some b =>
    obtain ⟨s', hwf, rfl⟩ := sound_reached calls k b hfile
    rw [hfile, Option.bind_some, decode_payload hwf] at h
    cases h
    exact ⟨rfl, hwf⟩

theorem payload_injective {s' : Snapshot} (h : s.WellFormed) (h' : s'.WellFormed)
    (heq : payload s = payload s') : s = s' := by
  have hdecode := decode_payload h
  rw [heq, decode_payload h'] at hdecode
  exact (Except.ok.inj hdecode).symm

/-- Two consecutive snapshots of a run: the same one, or a change. -/
theorem change_of_storedAt {s' : Snapshot} (h : storedAt calls k = some s)
    (h' : storedAt calls (k + 1) = some s') : s' = s ∨ Change s s' := by
  obtain ⟨hfile, hwf⟩ := file_of_storedAt h
  obtain ⟨hfile', hwf'⟩ := file_of_storedAt h'
  cases hcall : calls[k]? with
  | none =>
    rw [reached, stateAt_of_none hcall, ← reached, hfile] at hfile'
    exact .inl (payload_injective hwf' hwf (Option.some.inj hfile').symm)
  | some call =>
    have hsame : ∀ {old : Snapshot}, old.WellFormed →
        (reached calls k).file = some (payload old) → old = s := by
      intro old hold heq
      rw [hfile] at heq
      exact payload_injective hold hwf (Option.some.inj heq).symm
    have hnext : ∀ {new : Snapshot}, new.WellFormed →
        (reached calls (k + 1)).file = some (payload new) → new = s' := by
      intro new hnew heq
      rw [hfile'] at heq
      exact payload_injective hnew hwf' (Option.some.inj heq).symm
    cases stepped_reached hcall with
    | stayed heq =>
      rw [hfile, hfile'] at heq
      exact .inl (payload_injective hwf' hwf (Option.some.inj heq))
    | initialized hnone => rw [hfile] at hnone; cases hnone
    | retired old records hold hold_wf hretired hroom hnew =>
      obtain rfl := hsame hold_wf hold
      have hchange : Change old ⟨old.journalRevision + 1, records⟩ :=
        .evolve (hretired.imp fun _ _ h => h.1) hroom
      exact .inr (hnext (hchange.wellFormed hwf) hnew ▸ hchange)
    | admitted _ _ _ _ _ old record hold hold_wf _ _ _ hchange hnew =>
      obtain rfl := hsame hold_wf hold
      exact .inr (hnext (hchange.wellFormed hwf) hnew ▸ hchange)
    | moved _ _ _ _ _ _ _ _ _ old record updated hold hold_wf hmem _ hevolves _ hroom hnew =>
      obtain rfl := hsame hold_wf hold
      have hchange : Change old ⟨old.journalRevision + 1, put old.records updated⟩ :=
        .evolve (evolves_put hwf.ids hmem hevolves) hroom
      exact .inr (hnext (hchange.wellFormed hwf) hnew ▸ hchange)

/-- Once there is a snapshot, there is one. -/
theorem storedAt_succ (h : storedAt calls k = some s) : ∃ s', storedAt calls (k + 1) = some s' := by
  obtain ⟨hfile, hwf⟩ := file_of_storedAt h
  have hsound := sound_reached calls (k + 1)
  have hsome : (reached calls (k + 1)).file ≠ none := by
    cases hcall : calls[k]? with
    | none =>
      rw [reached, stateAt_of_none hcall, ← reached, hfile]
      exact Option.some_ne_none _
    | some call =>
      cases stepped_reached hcall with
      | stayed heq => rw [heq, hfile]; exact Option.some_ne_none _
      | initialized hnone => rw [hfile] at hnone; cases hnone
      | retired _ _ _ _ _ _ hnew | admitted _ _ _ _ _ _ _ _ _ _ _ _ _ hnew
      | moved _ _ _ _ _ _ _ _ _ _ _ _ _ _ _ _ _ _ _ hnew => rw [hnew]; exact Option.some_ne_none _
  obtain ⟨b, hb⟩ := Option.ne_none_iff_exists'.mp hsome
  obtain ⟨s', hs', rfl⟩ := hsound b hb
  exact ⟨s', storedAt_of_file hs' hb⟩

/-! ## Phases along a run -/

/-- A request is stored in a phase after `k` calls. -/
def InPhase (calls : List Call) (k : ℕ) (id : String) (phase : AdmissionPhase) : Prop :=
  ∃ s, storedAt calls k = some s ∧ ∃ r ∈ s.records, r.requestId = id ∧ r.phase = phase

/-- The call at `k` fences a request. -/
def Fences (calls : List Call) (k : ℕ) (id : String) : Prop :=
  InPhase calls (k + 1) id .dispatchFenced ∧ ¬InPhase calls k id .dispatchFenced

/-- How far a phase is in the graph. -/
def AdmissionPhase.rank : AdmissionPhase → ℕ
  | accepted => 0
  | dispatchFenced => 1
  | acknowledged => 2
  | _ => 3

variable {p : AdmissionPhase}

theorem rank_lt_of_allowed {q : AdmissionPhase} (h : q ∈ p.allowed) : p.rank < q.rank := by
  cases p <;> cases q <;> first | decide | (revert h; decide)

/-- A stored request stays stored, and its phase stays or moves along the graph. -/
theorem inPhase_succ (h : InPhase calls k id p) :
    ∃ q, InPhase calls (k + 1) id q ∧ (q = p ∨ q ∈ p.allowed) := by
  obtain ⟨s, hs, r, hr, rfl, rfl⟩ := h
  obtain ⟨s', hs'⟩ := storedAt_succ hs
  rcases change_of_storedAt hs hs' with rfl | hchange
  · exact ⟨r.phase, ⟨s', hs', r, hr, rfl, rfl⟩, .inl rfl⟩
  · cases hchange with
    | evolve hevolves =>
      obtain ⟨r', hr', hev⟩ := exists_of_mem_left hevolves hr
      exact ⟨r'.phase, ⟨_, hs', r', hr', hev.requestId, rfl⟩, hev.phase⟩
    | joins => exact ⟨r.phase, ⟨_, hs', r, List.mem_append_left _ hr, rfl, rfl⟩, .inl rfl⟩

/-- A request is stored in one phase. -/
theorem InPhase.unique {q : AdmissionPhase} (h : InPhase calls k id p) (h' : InPhase calls k id q) :
    p = q := by
  obtain ⟨s, hs, r, hr, hid, rfl⟩ := h
  obtain ⟨s', hs', r', hr', hid', rfl⟩ := h'
  rw [hs] at hs'
  cases hs'
  rw [List.inj_on_of_nodup_map (file_of_storedAt hs).2.ids hr hr' (hid.trans hid'.symm)]

/-- The rank of a stored request never falls. -/
theorem rank_mono {m : ℕ} (hkm : k ≤ m) (h : InPhase calls k id p) :
    ∃ q, InPhase calls m id q ∧ p.rank ≤ q.rank := by
  induction m, hkm using le_induction with
  | base => exact ⟨p, h, le_refl _⟩
  | succ m _ ih =>
    obtain ⟨q, hq, hle⟩ := ih
    obtain ⟨q', hq', hstep⟩ := inPhase_succ hq
    refine ⟨q', hq', ?_⟩
    rcases hstep with rfl | hallowed
    · exact hle
    · exact le_trans hle (le_of_lt (rank_lt_of_allowed hallowed))

/-- After the call that fences it a request is beyond the fence or at it, and not fenced again. -/
theorem fences_once {m : ℕ} (h : Fences calls k id) (h' : Fences calls m id) : m ≤ k := by
  by_contra hlt
  obtain ⟨q, hq, hrank⟩ := rank_mono (Nat.succ_le_of_lt (Nat.lt_of_not_le hlt)) h.1
  obtain ⟨q', hq', hstep⟩ := inPhase_succ hq
  have hfenced : q' = .dispatchFenced := hq'.unique h'.1
  subst hfenced
  rcases hstep with rfl | hallowed
  · exact h'.2 hq
  · have hlt' := rank_lt_of_allowed hallowed
    exact absurd hrank (not_le.mpr hlt')

/-! ## Claims along a run -/

/-- The call at `j` stored a request that was not stored before, on behalf of instance `i`. -/
def AcceptedBy (calls : List Call) (j i : ℕ) (id : String) : Prop :=
  (∃ request executionId replies, calls[j]? = some (.accept i request executionId replies) ∧
    request.requestId = id) ∧
  (∀ p, ¬InPhase calls j id p) ∧ InPhase calls (j + 1) id .accepted

/-- Whoever claims a request accepted it, and has been open and claimed it ever since. -/
theorem accepted_of_live {i : ℕ} (h : (reached calls k).Live i id) :
    ∃ j < k, AcceptedBy calls j i id ∧ ∀ m, j < m → m ≤ k → (reached calls m).Live i id := by
  induction k with
  | zero =>
    obtain ⟨self, hself, -⟩ := h
    cases hself
  | succ k ih =>
    have hextend : (reached calls k).Live i id → ∃ j < k + 1, AcceptedBy calls j i id ∧
        ∀ m, j < m → m ≤ k + 1 → (reached calls m).Live i id := by
      intro hk
      obtain ⟨j, hj, haccepted, hlive⟩ := ih hk
      refine ⟨j, lt_succ_of_lt hj, haccepted, fun m hjm hm => ?_⟩
      rcases lt_or_eq_of_le hm with hlt | rfl
      · exact hlive m hjm (le_of_lt_succ hlt)
      · exact h
    cases hcall : calls[k]? with
    | none =>
      rw [reached, stateAt_of_none hcall] at h
      exact hextend h
    | some call =>
      cases stepped_reached hcall with
      | stayed _ hclaims | initialized _ _ hclaims | retired _ _ _ _ _ _ _ hclaims
      | moved _ _ _ _ _ _ _ _ _ _ _ _ _ _ _ _ _ _ _ _ hclaims => exact hextend (hclaims i id h)
      | admitted i' request executionId replies heq old record hold hwf hrequest hphase hnew hchange
          hfile hclaims =>
          rcases hclaims i id h with hk | ⟨rfl, rfl⟩
          · exact hextend hk
          · refine ⟨k, lt_succ_self k, ⟨⟨request, executionId, replies, ?_, rfl⟩, ?_, ?_⟩, ?_⟩
            · rw [hcall, heq]
            · rintro p ⟨s, hs, r, hr, hid, -⟩
              rw [storedAt_of_file hwf hold] at hs
              cases hs
              exact hnew r hr hid
            · exact ⟨_, storedAt_of_file (hchange.wellFormed hwf) hfile, record,
                List.mem_append_right _ (List.mem_singleton_self _),
                congrArg AdmissionRequest.requestId hrequest, hphase⟩
            · intro m hkm hm
              obtain rfl := le_antisymm hm hkm
              exact h

/-- A request is fenced by a `transition` of an instance that claims it. -/
theorem live_of_fences (h : Fences calls k id) : ∃ i request expected receipt status replies,
      calls[k]? = some (.transition i request expected .dispatchFenced receipt status replies) ∧
        request.requestId = id ∧ (reached calls k).Live i id := by
  obtain ⟨⟨s', hs', r', hr', hid, hphase'⟩, hbefore⟩ := h
  -- a record that was fenced before cannot be the one that is fenced now
  have hold_not : ∀ {old : Snapshot}, old.WellFormed → (reached calls k).file = some (payload old) →
      ∀ r ∈ old.records, r.requestId = id → r.phase ≠ .dispatchFenced := fun hwf hold r hr hrid hp =>
    hbefore ⟨_, storedAt_of_file hwf hold, r, hr, hrid, hp⟩
  obtain ⟨hfile', hwf'⟩ := file_of_storedAt hs'
  have hrecords : ∀ {new : Snapshot}, new.WellFormed →
      (reached calls (k + 1)).file = some (payload new) → r' ∈ new.records := by
    intro new hnew heq
    rw [hfile'] at heq
    rwa [← payload_injective hnew hwf' (Option.some.inj heq).symm] at hr'
  cases hcall : calls[k]? with
  | none =>
    rw [storedAt, reached, stateAt_of_none hcall] at hs'
    exact absurd ⟨s', hs', r', hr', hid, hphase'⟩ hbefore
  | some call =>
    cases stepped_reached hcall with
    | stayed heq =>
      rw [heq] at hfile'
      exact absurd hphase' (hold_not hwf' hfile' r' hr' hid)
    | initialized _ hfile => cases hrecords wellFormed_initial hfile
    | retired old records hold hwf hretired hroom hfile =>
      have hmem := hrecords (wellFormed_evolve hwf (hretired.imp fun _ _ h => h.1) hroom) hfile
      obtain ⟨r, hr, hev, hphase⟩ := exists_of_mem_right hretired hmem
      rw [hphase'] at hphase
      rcases hphase with heq | heq
      · exact absurd heq.symm (hold_not hwf hold r hr (hev.requestId ▸ hid))
      · cases heq
    | admitted _ request _ _ _ old record hold hwf _ hphase _ hchange hfile =>
      rcases List.mem_append.mp (hrecords (hchange.wellFormed hwf) hfile) with hr | hr
      · exact absurd hphase' (hold_not hwf hold r' hr hid)
      · rw [List.mem_singleton.mp hr, hphase] at hphase'
        cases hphase'
    | moved i request expected phase receipt status replies heq hlive old record updated hold hwf hmem
        hrecord hevolves hphase hroom hfile =>
        have hmem' := hrecords (wellFormed_evolve hwf (evolves_put hwf.ids hmem hevolves) hroom) hfile
        obtain ⟨r, hr, hput⟩ := List.mem_map.mp hmem'
        split at hput
        · subst hput
          have hown : request.requestId = id := by rw [← hrecord, ← hevolves.requestId, hid]
          rw [hphase'] at hphase
          subst hphase
          exact ⟨i, request, expected, receipt, status, replies, heq ▸ rfl, hown, hown ▸ hlive⟩
        · subst hput
          exact absurd hphase' (hold_not hwf hold r hr hid)

/-- No request is accepted twice. -/
theorem accepted_once {j m i i' : ℕ} (h : AcceptedBy calls j i id) (h' : AcceptedBy calls m i' id) :
    m ≤ j := by
  by_contra hlt
  obtain ⟨q, hq, -⟩ := rank_mono (Nat.lt_of_not_le hlt) h.2.2
  exact h'.2.1 q hq

/-- No two open instances claim one request. -/
def System.Exclusive (sys : System) : Prop := ∀ i i' id, sys.Live i id → sys.Live i' id → i = i'

/-- Whatever instances a run opens and loses, at most one claims a request. -/
theorem exclusive_reached (calls : List Call) (k : ℕ) : (reached calls k).Exclusive := by
  intro i i' id h h'
  obtain ⟨j, -, hj, -⟩ := accepted_of_live h
  obtain ⟨m, -, hm, -⟩ := accepted_of_live h'
  obtain rfl := le_antisymm (accepted_once hm hj) (accepted_once hj hm)
  obtain ⟨⟨_, _, _, hcall, -⟩, -⟩ := hj
  obtain ⟨⟨_, _, _, hcall', -⟩, -⟩ := hm
  cases hcall.symm.trans hcall'
  rfl

/-! ## The journal's contract -/

/-- At most one request of a snapshot is unfinished in a slot. -/
def OneUnfinishedPerSlot (s : Snapshot) : Prop :=
  ∀ r ∈ s.records, ∀ r' ∈ s.records, r.unfinished = true → r'.unfinished = true → r.slot = r'.slot →
    r = r'

theorem Snapshot.WellFormed.oneUnfinished (h : s.WellFormed) : OneUnfinishedPerSlot s := by
  intro r hr r' hr' hunfinished hunfinished' hslot
  exact List.inj_on_of_nodup_map h.slots (List.mem_filter.mpr ⟨hr, hunfinished⟩)
    (List.mem_filter.mpr ⟨hr', hunfinished'⟩) hslot

/-- What holds of every run of the journal's calls. -/
structure Orderly (calls : List Call) : Prop where
  /-- whatever is stored is a snapshot, written as it is read -/
  stored : ∀ k b, (reached calls k).file = some b → ∃ s, storedAt calls k = some s ∧ encode s = .ok b
  slots : ∀ k s, storedAt calls k = some s → OneUnfinishedPerSlot s
  /-- a request is fenced at most once -/
  once : ∀ id k m, Fences calls k id → Fences calls m id → k = m
  /-- and by the instance that accepted it and has been open since -/
  owner : ∀ id k, Fences calls k id → ∃ i,
    (∃ request expected receipt status replies,
      calls[k]? = some (.transition i request expected .dispatchFenced receipt status replies) ∧
        request.requestId = id) ∧
    ∃ j < k, AcceptedBy calls j i id ∧ ∀ m, j < m → m ≤ k → (reached calls m).Live i id
  /-- a stored request stays stored, and its phase moves along the graph -/
  graph : ∀ k id p, InPhase calls k id p →
    ∃ q, InPhase calls (k + 1) id q ∧ (q = p ∨ q ∈ p.allowed)
  /-- a request that was not stored before begins as accepted -/
  begins : ∀ k id p, InPhase calls (k + 1) id p → (∃ q, InPhase calls k id q) ∨ p = .accepted
  /-- a change of what is stored raises the revision -/
  revision : ∀ k s s', storedAt calls k = some s → storedAt calls (k + 1) = some s' →
    s' = s ∨ s.journalRevision < s'.journalRevision

theorem inPhase_begins (h : InPhase calls (k + 1) id p) : (∃ q, InPhase calls k id q) ∨ p = .accepted := by
  obtain ⟨s', hs', r', hr', hid, hphase⟩ := h
  cases hs : storedAt calls k with
  | none =>
    -- the first snapshot has no records
    obtain ⟨hfile', hwf'⟩ := file_of_storedAt hs'
    have hnone : (reached calls k).file = none := by
      cases hfile : (reached calls k).file with
      | none => rfl
      | some b =>
        obtain ⟨s, hwf, rfl⟩ := sound_reached calls k b hfile
        rw [storedAt_of_file hwf hfile] at hs
        cases hs
    have hno : ∀ {old : Snapshot}, (reached calls k).file ≠ some (payload old) := by
      intro old heq
      rw [hnone] at heq
      cases heq
    cases hcall : calls[k]? with
    | none =>
      rw [reached, stateAt_of_none hcall, ← reached, hnone] at hfile'
      cases hfile'
    | some call =>
      cases stepped_reached hcall with
      | stayed heq => rw [heq, hnone] at hfile'; cases hfile'
      | initialized _ hfile =>
        rw [hfile] at hfile'
        rw [← payload_injective wellFormed_initial hwf' (Option.some.inj hfile')] at hr'
        cases hr'
      | retired _ _ hold | admitted _ _ _ _ _ _ _ hold | moved _ _ _ _ _ _ _ _ _ _ _ _ hold =>
        exact absurd hold hno
  | some s =>
    rcases change_of_storedAt hs hs' with rfl | hchange
    · exact .inl ⟨p, s', hs, r', hr', hid, hphase⟩
    · cases hchange with
      | evolve hevolves =>
        obtain ⟨r, hr, hev⟩ := exists_of_mem_right hevolves hr'
        exact .inl ⟨r.phase, s, hs, r, hr, hev.requestId ▸ hid, rfl⟩
      | joins haccepted =>
        rcases List.mem_append.mp hr' with hr' | hr'
        · exact .inl ⟨p, s, hs, r', hr', hid, hphase⟩
        · rw [List.mem_singleton.mp hr', haccepted] at hphase
          exact .inr hphase.symm

/-- The journal keeps its contract over every run of calls, whatever the system answers and wherever a
process dies. -/
theorem journal_orderly (calls : List Call) : Orderly calls where
  stored := by
    intro k b hb
    obtain ⟨s, hwf, rfl⟩ := sound_reached calls k b hb
    exact ⟨s, storedAt_of_file hwf hb, encode_eq_ok hwf⟩
  slots k s hs := (file_of_storedAt hs).2.oneUnfinished
  once id k m hk hm := le_antisymm (fences_once hm hk) (fences_once hk hm)
  owner := by
    intro id k hk
    obtain ⟨i, request, expected, receipt, status, replies, hcall, hid, hlive⟩ := live_of_fences hk
    exact ⟨i, ⟨request, expected, receipt, status, replies, hcall, hid⟩, accepted_of_live hlive⟩
  graph k id p h := inPhase_succ h
  begins k id p h := inPhase_begins h
  revision := by
    intro k s s' hs hs'
    rcases change_of_storedAt hs hs' with heq | hchange
    · exact .inl heq
    · exact .inr (hchange.revision ▸ lt_succ_self _)

/-- Whatever the journal stores is read back as it was written, and whatever is read is the encoding of a
well-formed snapshot. -/
theorem journal_codec : (∀ calls k b, (reached calls k).file = some b →
      ∃ s : Snapshot, s.WellFormed ∧ encode s = .ok b ∧ decode b = .ok s) ∧
    (∀ calls k s, storedAt calls k = some s → ∃ b, encode s = .ok b ∧ decode b = .ok s) ∧
    ∀ b s, decode b = .ok s → s.WellFormed ∧ encode s = .ok b := by
  refine ⟨fun calls k b hb => ?_, fun calls k s hs => ?_, fun b s h => decode_eq_ok h⟩
  · obtain ⟨s, hwf, rfl⟩ := sound_reached calls k b hb
    exact ⟨s, hwf, encode_eq_ok hwf, decode_payload hwf⟩
  · have hwf := (file_of_storedAt hs).2
    exact ⟨payload s, encode_eq_ok hwf, decode_payload hwf⟩

end AgentBox.Kebui
