import AgentBox.Control.Stops

/-!
# Runtime epochs

`classify_runtime_epoch` compares a verified epoch with the one recorded for the host. A larger one is
a restart of the Runtime: what was open on that host becomes doubtful, and a stop operation of that
time can no longer complete. The last part rests on `settled_serve`: a stop row that is not pending is
never written again.
-/

namespace AgentBox.Control

variable {d d' : Database} {c : Call} {r : Write} {stopOperationId hostId observed : String}
  {record : StopRow} {host : RuntimeHost} {n : ℕ}

/-- The epoch recorded for a host; zero, which is none, before the first. -/
def Database.lastEpoch (d : Database) (hostId : String) : ℕ :=
  ((d.hosts.get? hostId).bind (·.lastRuntimeEpoch)).elim 0 decimal

theorem decimal_of_runtimeEpoch (h : runtimeEpoch observed = .ok n) : decimal observed = n := by
  unfold runtimeEpoch at h
  simp only at h
  split at h
  · cases h
  · exact Except.ok.inj h

/-! ## Steps -/

theorem pending_of_read {id : String} {rd nw : WorkspaceRow} {old new : StopRow}
    (h : read d c = .ok (.completeStop id rd nw stopOperationId old new)) :
    d.stops.get? stopOperationId = some old ∧ old.result = .pending := by
  cases decides_of_read h with
  | completeStop hrecord hrow =>
    simp only [read, completeStop, bind_eq_ok_iff, throw_or_eq_ok_iff, orRaise_eq_ok_iff] at h
    obtain ⟨-, old, hold, hpending, -⟩ := h
    cases hold.symm.trans hrecord
    exact ⟨hrecord, not_not.mp hpending⟩

/-- The epoch that a classification records is at least the one it has found. -/
theorem lastEpoch_le_of_read (h : read d c = .ok r)
    (hr : (∃ k, r = .observe hostId host k) ∨ ∃ now, r = .fence hostId host now) :
    d.lastEpoch hostId ≤ host.lastRuntimeEpoch.elim 0 decimal := by
  obtain ⟨revision, observed, now, rfl⟩ :
      ∃ revision observed now, c = .classifyRuntimeEpoch hostId revision observed now := by
    have hdecides := decides_of_read h
    rcases hr with ⟨k, rfl⟩ | ⟨now, rfl⟩
    · cases hdecides; exact ⟨_, _, _, rfl⟩
    · cases hdecides; exact ⟨_, _, _, rfl⟩
  simp only [read, classifyRuntimeEpoch, bind_eq_ok_iff, throw_or_eq_ok_iff, orRaise_eq_ok_iff,
    domain_eq_ok_iff] at h
  obtain ⟨epoch, hepoch, -, found, hfound, -, h⟩ := h
  rw [Database.lastEpoch, hfound, Option.bind_some]
  unfold compareEpoch at h
  split at h
  · next hlast =>
    rw [hlast]
    exact Nat.zero_le _
  · next raw hlast =>
    simp only [bind_eq_ok_iff, throw_or_eq_ok_iff, domain_eq_ok_iff, pure_eq_ok_iff] at h
    obtain ⟨previous, hprevious, hle, rfl⟩ := h
    have hraw := decimal_of_runtimeEpoch hprevious
    have hobserved := decimal_of_runtimeEpoch hepoch
    rw [hlast]
    split at hr
    · rcases hr with ⟨k, heq⟩ | ⟨now, heq⟩
      · cases heq; rw [hlast]
      · cases heq
    · rcases hr with ⟨k, heq⟩ | ⟨now, heq⟩
      · cases heq
      · cases heq
        simp only [Option.elim]
        omega

theorem lastEpoch_le_set (h : d.lastEpoch hostId ≤ host.lastRuntimeEpoch.elim 0 decimal)
    (hhosts : d'.hosts = d.hosts.set hostId host) (i : String) : d.lastEpoch i ≤ d'.lastEpoch i := by
  unfold Database.lastEpoch at *
  rw [hhosts]
  by_cases hi : i = hostId
  · subst hi
    rwa [Dict.get?_set_self, Option.bind_some]
  · rw [Dict.get?_set_of_ne _ hi]

/-- The epoch recorded for a host never falls. -/
theorem lastEpoch_le_serve (d : Database) (c : Call) (i : String) :
    d.lastEpoch i ≤ (sessions.serve d c).2.lastEpoch i := by
  obtain hsame | ⟨r, a, hread, hwritten⟩ := written_serve d c
  · rw [hsame]
  generalize (sessions.serve d c).2 = d' at hwritten ⊢
  cases hwritten with
  | rolledBack | inserted => exact Nat.le_refl _
  | updated stops ht hup =>
    obtain ⟨_, -, rfl⟩ := updateRow_eq_ok hup
    exact Nat.le_refl _
  | observed => exact lastEpoch_le_set (lastEpoch_le_of_read hread (.inl ⟨_, rfl⟩)) rfl i
  | fenced => exact lastEpoch_le_set (lastEpoch_le_of_read hread (.inr ⟨_, rfl⟩)) rfl i

/-- A stop row that is not pending is not written again. -/
theorem settled_serve (hrecord : d.stops.get? stopOperationId = some record)
    (hsettled : record.result ≠ .pending) (c : Call) :
    (sessions.serve d c).2.stops.get? stopOperationId = some record := by
  obtain hsame | ⟨r, a, hread, hwritten⟩ := written_serve d c
  · rw [hsame]
    exact hrecord
  generalize (sessions.serve d c).2 = d' at hwritten ⊢
  cases hwritten with
  | rolledBack | inserted => exact hrecord
  | updated stops ht hup hreply hstops =>
    refine (hstops _ _ hrecord).resolve_right ?_
    rintro ⟨old, new, rfl⟩
    obtain ⟨hold, hpending⟩ := pending_of_read hread
    cases hold.symm.trans hrecord
    exact hsettled hpending
  | observed => exact hrecord
  | fenced =>
    refine (Dict.get?_updateWhere _ _ _ _).trans ?_
    simp [hrecord, isFencedStop, hsettled]

/-- A settled stop operation completes without a write. -/
theorem completeStop_of_settled (hrecord : d.stops.get? stopOperationId = some record)
    (hsettled : record.result ≠ .pending) (result : StopResult) (failureCode : Option String) (now : ℕ) :
    (sessions.serve d (.completeStop stopOperationId result failureCode now)).2 = d := by
  unfold Service.serve
  split
  · rfl
  · next r hread =>
    have hread : read d (.completeStop stopOperationId result failureCode now) = .ok r := hread
    cases decides_of_read hread with
    | completeStop =>
      obtain ⟨hold, hpending⟩ := pending_of_read hread
      cases hold.symm.trans hrecord
      exact absurd hpending hsettled

/-- The three ways a classification can go where an epoch has been recorded. -/
theorem read_classifyRuntimeEpoch {raw : String} {previous epoch : ℕ}
    (hhost : d.hosts.get? hostId = some host) (hrevision : 1 ≤ host.revision)
    (hlast : host.lastRuntimeEpoch = some raw) (hprevious : runtimeEpoch raw = .ok previous)
    (hepoch : runtimeEpoch observed = .ok epoch) (now : ℕ) :
    sessions.read d (.classifyRuntimeEpoch hostId host.revision observed now) =
      if epoch < previous then .error (raised (.epoch "Runtime epoch is stale"))
      else if epoch = previous then .ok (.observe hostId { host with updatedAt := now } .apiRestart)
      else .ok (.fence hostId
        { host with lastRuntimeEpoch := some observed, updatedAt := now } now) := by
  change classifyRuntimeEpoch d hostId host.revision observed now = _
  have hpositive : ¬host.revision < 1 := Nat.not_lt.mpr hrevision
  simp only [classifyRuntimeEpoch, compareEpoch, domain, hepoch, hhost, hlast, hprevious, orRaise,
    Except.mapError, hpositive, if_false, ne_eq, not_true_eq_false, bind, Except.bind, pure,
    Except.pure, throw, throwThe, MonadExceptOf.throw]
  split_ifs
  · rfl
  · rfl
  · rfl

/-! ## Histories -/

/-- What a restart leaves: the open rows and the pending stops of the host identity are doubtful,
everything else is as it was, and no stop of that time completes in what follows. -/
structure Restarted (d d' : Database) (hostId : String) (hostRevision now : ℕ) : Prop where
  workspaces : ∀ id, d'.workspaces.get? id = (d.workspaces.get? id).map fun r =>
    if isFenced hostId hostRevision r then fenced now r else r
  stops : ∀ k, d'.stops.get? k = (d.stops.get? k).map fun s =>
    if isFencedStop hostId hostRevision s then fencedStop now s else s
  hosts : ∀ i, i ≠ hostId → d'.hosts.get? i = d.hosts.get? i
  others : d'.projects = d.projects ∧ d'.bindings = d.bindings
  incomplete : ∀ k s, d.stops.get? k = some s → s.identity.hostId = hostId →
    s.identity.hostRevision = hostRevision → ∀ calls j result failureCode t,
      (sessions.serve (servedAfter d' calls j) (.completeStop k result failureCode t)).2 =
        servedAfter d' calls j

theorem restarted_of_fence (d : Database) (hostId : String) (host : RuntimeHost) (now : ℕ) :
    Restarted d (write d (.fence hostId host now)).2 hostId host.revision now where
  workspaces := Dict.get?_updateWhere _ _ _
  stops := Dict.get?_updateWhere _ _ _
  hosts := fun _ hi => Dict.get?_set_of_ne _ hi _
  others := ⟨rfl, rfl⟩
  incomplete := fun k s hs hid hrevision calls j result failureCode t => by
    obtain ⟨s', hs', hsettled⟩ : ∃ s', (write d (.fence hostId host now)).2.stops.get? k = some s' ∧
        s'.result ≠ .pending := by
      refine ⟨_, (Dict.get?_updateWhere _ _ _ _).trans (congrArg _ hs), ?_⟩
      dsimp only
      split
      · simp [fencedStop]
      · next hpending => simpa [isFencedStop, hid, hrevision] using hpending
    refine completeStop_of_settled ?_ hsettled result failureCode t
    exact invariant_stateAt (I := fun t : Database => t.stops.get? k = some s') hs'
      (fun _ c h => settled_serve h hsettled c) j

/-- In every history the recorded epoch of a host never falls. A classification with a smaller epoch
raises and changes nothing, one with the recorded epoch writes no workspace and no stop, and one with
a larger epoch fences exactly the host identity. -/
theorem epochs_fence (d₀ : Database) (calls : List Call) (i : ℕ) : (∀ j hostId, i ≤ j →
      (servedAfter d₀ calls i).lastEpoch hostId ≤ (servedAfter d₀ calls j).lastEpoch hostId) ∧
    ∀ hostId host raw previous observed epoch now,
      (servedAfter d₀ calls i).hosts.get? hostId = some host → 1 ≤ host.revision →
      host.lastRuntimeEpoch = some raw → runtimeEpoch raw = .ok previous → runtimeEpoch observed = .ok epoch →
      (epoch < previous → sessions.serve (servedAfter d₀ calls i)
            (.classifyRuntimeEpoch hostId host.revision observed now) =
          (raised (.epoch "Runtime epoch is stale"), servedAfter d₀ calls i)) ∧ (epoch = previous →
        (sessions.serve (servedAfter d₀ calls i)
            (.classifyRuntimeEpoch hostId host.revision observed now)).2 = { servedAfter d₀ calls i with
            hosts := (servedAfter d₀ calls i).hosts.set hostId { host with updatedAt := now } }) ∧
      (previous < epoch →
        Restarted (servedAfter d₀ calls i)
          (sessions.serve (servedAfter d₀ calls i)
            (.classifyRuntimeEpoch hostId host.revision observed now)).2
          hostId host.revision now) := by
  refine ⟨fun j hostId hij => ?_, fun hostId host raw previous observed epoch now hhost hrevision hlast
    hprevious hepoch => ?_⟩
  · refine persists_run (I := fun d : Database => _ ≤ d.lastEpoch hostId) hij (Nat.le_refl _)
      fun _ _ c _ hk => ?_
    exact Nat.le_trans hk (lastEpoch_le_serve _ c hostId)
  · have hread := read_classifyRuntimeEpoch hhost hrevision hlast hprevious hepoch now
    refine ⟨fun hlt => ?_, fun heq => ?_, fun hgt => ?_⟩
    · rw [if_pos hlt] at hread
      exact sessions.serve_of_error hread
    · rw [if_neg (by omega), if_pos heq] at hread
      rw [sessions.serve_of_ok hread]
      rfl
    · rw [if_neg (by omega), if_neg (by omega)] at hread
      rw [sessions.serve_of_ok hread]
      exact restarted_of_fence _ hostId { host with lastRuntimeEpoch := some observed, updatedAt := now } now

end AgentBox.Control
