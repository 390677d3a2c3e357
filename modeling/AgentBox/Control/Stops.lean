import AgentBox.Control.LostUpdates

/-!
# Stopping a workspace again

`begin_stop` inserts one stop operation per workspace, generation and binding revision, and the table
admits only one. The domain object allows the move to `STOPPING` from every state but `STOPPED`, so
also from the `UNKNOWN` that an inconclusive `complete_stop` leaves behind and from `STOPPING` itself;
there the insert fails with the database's own exception. `begin_stop_succeeds_iff` says for every row
the service can reach when such a call goes through, and `second_stop_raises` is the failing history.

The rows the service can reach are well-formed: `Established` collects what `begin_stop` relies on.
-/

namespace AgentBox.Control

variable {id marker hostId : String} {d d' : Database} {r rd nw : WorkspaceRow}
    {host host' : RuntimeHost} {c : Call}

/-! ## Rows the service has established -/

theorem of_managedMarker {i : Identity} (h : managedMarker i id = .ok marker) :
    i.validate = .ok () ∧ isWorkspaceId id = true := by
  unfold managedMarker at h
  simp only at h
  split_ifs at h with hhost hrev hproject hid hgen hbind hdigest
  simp only [Bool.not_eq_true', Bool.not_eq_false] at hhost hrev hproject hid hgen hbind hdigest
  refine ⟨?_, hid⟩
  simp [Identity.validate, hhost, hrev, hproject, hgen, hbind, hdigest]

/-- What the service has made sure of for the row it stores under `id`. -/
structure Established (d : Database) (id : String) (r : WorkspaceRow) : Prop where
  keyed : r.id = id
  wellNamed : isWorkspaceId id = true
  named : id = workspaceId r.projectId r.agentType
  valid : r.identity.validate = .ok ()
  host : d.hasHost r.hostId r.hostRevision = true
  checked : r.checked = true
  sizes : r.generation ≤ maxSqliteSequence ∧ r.bindingRevision ≤ maxSqliteSequence ∧
    r.hostRevision ≤ maxSqliteSequence

/-- The other tables matter only for the reference to the host. -/
theorem Established.mono (h : Established d id r) (hhost : ∀ i n, d'.hasHost i n = d.hasHost i n) :
    Established d' id r :=
  ⟨h.keyed, h.wellNamed, h.named, h.valid, (hhost _ _).trans h.host, h.checked, h.sizes⟩

/-- Every stored row is established. -/
def Wellformed (d : Database) : Prop := ∀ id r, d.workspaces.get? id = some r → Established d id r

/-- A host row that keeps its revision keeps all references to it. -/
theorem hasHost_set (hget : d.hosts.get? hostId = some host)
    (hrev : host'.revision = host.revision) (id : String) (revision : ℕ) :
    ({ d with hosts := d.hosts.set hostId host' } : Database).hasHost id revision =
      d.hasHost id revision := by
  unfold Database.hasHost
  rw [Dict.get?_set]
  by_cases h : id = hostId
  · subst h
    simp [hget, hrev]
  · simp [h]

/-- Writing one established row keeps the table well-formed. -/
theorem Wellformed.set (hd : Wellformed d) (hr : Established d id r) :
    Wellformed { d with workspaces := d.workspaces.set id r } := by
  intro k s hs
  rcases Dict.of_get?_set hs with ⟨rfl, rfl⟩ | ⟨-, hs⟩
  · exact hr.mono fun _ _ => rfl
  · exact (hd k s hs).mono fun _ _ => rfl

theorem Wellformed.withStops (hd : Wellformed d) (stops : Dict String StopRow) :
    Wellformed { d with stops := stops } :=
  fun id r hr => (hd id r hr).mono fun _ _ => rfl

/-- The identity a method leaves is valid again. -/
theorem valid_of_decides {r : Write} (h : Decides d c r) (ht : r.target = some (id, rd, nw))
    (hrd : rd.identity.validate = .ok ()) : nw.identity.validate = .ok () := by
  cases h with
  | observe | fence | create | createFromCurrentBinding => contradiction
  | transition next hrow => cases ht; exact hrd
  | beginStart hrow hmarker => cases ht; exact (of_managedMarker hmarker).1
  | recordExecutableEvidence | beginStop | completeStop => cases ht; exact hrd

/-- The row an update leaves where its method has read the stored row. -/
theorem established_of_updateRow (hd : Wellformed d) {r : Write} (h : Decides d c r)
    (ht : r.target = some (id, rd, nw)) (hup : updateRow d id rd nw = .ok d') :
    d' = { d with workspaces := d.workspaces.set id nw } ∧ Established d id nw := by
  obtain ⟨hread, hadv⟩ := advances_of_decides h ht
  have hrd := hd id rd hread
  unfold updateRow at hup
  rw [hread] at hup
  simp only [hadv.columns] at hup
  split_ifs at hup with hfits hchecked
  refine ⟨(Except.ok.inj hup).symm, ?_⟩
  -- the columns an update does not carry are those of the row that was read
  have hsame := hadv.columns
  have hid : nw.id = rd.id := by rw [← hsame]; rfl
  have hproject : nw.projectId = rd.projectId := by rw [← hsame]; rfl
  have hagent : nw.agentType = rd.agentType := by rw [← hsame]; rfl
  have hhost : nw.hostId = rd.hostId := by rw [← hsame]; rfl
  have hrevision : nw.hostRevision = rd.hostRevision := by rw [← hsame]; rfl
  simp only [Bool.not_eq_true', Bool.not_eq_false, WorkspaceRow.fits, Bool.and_eq_true,
    decide_eq_true_eq] at hfits
  constructor
  · rw [hid, hrd.keyed]
  · exact hrd.wellNamed
  · rw [hproject, hagent]
    exact hrd.named
  · exact valid_of_decides h ht hrd.valid
  · rw [hhost, hrevision]
    exact hrd.host
  · simpa using hchecked
  · exact ⟨hfits.1.1.1, hfits.1.2, hfits.2⟩

/-- A first row that the table admits is established. -/
theorem established_of_insert {row : WorkspaceRow} (hmarker : managedMarker row.identity row.id = .ok marker)
    (hid : row.id = workspaceId row.projectId row.agentType) (hfits : row.fits = true)
    (hadm : admitsWorkspace d row = true) : Established d row.id row := by
  obtain ⟨hvalid, hname⟩ := of_managedMarker hmarker
  simp only [admitsWorkspace, Bool.and_eq_true, decide_eq_true_eq] at hadm
  simp only [WorkspaceRow.fits, Bool.and_eq_true, decide_eq_true_eq] at hfits
  exact ⟨rfl, hname, hid, hvalid, hadm.1.2, hadm.2, hfits.1.1.1, hfits.1.2, hfits.2⟩

/-- The checks of a row still hold once a restart has fenced it. -/
theorem checked_fenced (h : r.checked = true) (now : ℕ) : (fenced now r).checked = true := by
  simp only [WorkspaceRow.checked, Bool.and_eq_true, decide_eq_true_eq] at h ⊢
  obtain ⟨⟨⟨⟨hgen, -⟩, hev⟩, hexit⟩, -⟩ := h
  have hcode : failureCodeOk (some "RUNTIME_RESTART") = true := by decide
  refine ⟨⟨⟨⟨hgen, Nat.succ_le_succ (Nat.zero_le _)⟩, ?_⟩, hexit⟩, hcode⟩
  -- evidence that was unobserved or verified is consistent as stale evidence too
  show (fenced now r).evidenceOk = true
  unfold WorkspaceRow.evidenceOk at hev
  simp only [WorkspaceRow.evidenceOk, fenced]
  split at hev
  · simp only [Bool.and_eq_true] at hev
    simp [hev.1.2, hev.2]
  · simp only [Bool.and_eq_true, beq_iff_eq] at hev
    simp [hev.1.1, hev.1.2, hev.2]
  · exact hev

/-- A restart keeps the table well-formed. -/
theorem Wellformed.fence (hd : Wellformed d) (hhost : d.hosts.get? hostId = some host)
    (hrev : host'.revision = host.revision) (now : ℕ) : Wellformed (write d (.fence hostId host' now)).2 := by
  intro id r hr
  simp only [write, Dict.get?_updateWhere, Option.map_eq_some_iff] at hr
  obtain ⟨s, hs, rfl⟩ := hr
  have h : Established (write d (.fence hostId host' now)).2 id s :=
    (hd id s hs).mono (hasHost_set hhost hrev)
  split
  · exact ⟨h.keyed, h.wellNamed, h.named, h.valid, h.host, checked_fenced h.checked now, h.sizes⟩
  · exact h

/-- Every call made with nobody in between keeps the table well-formed. -/
theorem Wellformed.serve (hd : Wellformed d) (c : Call) : Wellformed (sessions.serve d c).2 := by
  obtain hsame | ⟨r, a, hread, hwritten⟩ := written_serve d c
  · rw [hsame]
    exact hd
  have h : Decides d c r := decides_of_read hread
  generalize (sessions.serve d c).2 = d' at hwritten ⊢
  cases hwritten with
  | rolledBack => exact hd
  | inserted hfits hadmits =>
    apply hd.set
    cases h with
    | create hmarker | createFromCurrentBinding hmarker =>
      exact established_of_insert hmarker rfl hfits hadmits
  | updated stops ht hup =>
    obtain ⟨rfl, hest⟩ := established_of_updateRow hd h ht hup
    exact (hd.set hest).withStops _
  | observed =>
    cases h with
    | observe c hhost hrev =>
      intro id s hs
      exact (hd id s hs).mono (hasHost_set hhost hrev)
  | fenced =>
    cases h with
    | fence hhost hrev => exact hd.fence hhost hrev _

/-! ## Stopping -/

/-- The tables after the first `i` calls of a history in which each call ends before the next. -/
def servedAfter (d : Database) (calls : List Call) (i : ℕ) : Database :=
  stateAt (fun d c => (sessions.serve d c).2) d calls i

theorem wellformed_servedAfter (hd : d.workspaces = .empty) (calls : List Call) (i : ℕ) :
    Wellformed (servedAfter d calls i) := by
  apply invariant_stateAt (I := Wellformed)
  · intro id r hr
    rw [hd] at hr
    contradiction
  · intro t c ht
    exact ht.serve c

/-- The domain object allows the move to `STOPPING`. -/
def CanStop (s : WorkspaceState) : Prop := s = .stopping ∨ .stopping ∈ transitions s

instance (s : WorkspaceState) : Decidable (CanStop s) :=
  inferInstanceAs (Decidable (_ ∨ _))

/-- The session of an established row. -/
theorem ofRow_of_established (h : Established d id r) :
    ∃ s, AgentWorkspaceSession.ofRow r = .ok s ∧ s.state = r.state := by
  unfold AgentWorkspaceSession.ofRow AgentWorkspaceSession.init
  split
  · next e he =>
    rw [h.valid] at he
    contradiction
  · next hv =>
    have hid : ¬(!isWorkspaceId r.id) = true := by simp [h.keyed, h.wellNamed]
    have hname : r.id = workspaceId r.identity.projectId r.identity.agentType := h.keyed.trans h.named
    simp only [if_neg hid, if_neg (not_not.mpr hname)]
    exact ⟨_, rfl, rfl⟩

/-- On an established row that may be stopped, `begin_stop` goes on to its write. -/
theorem beginStop_read {row : WorkspaceRow} (hd : Wellformed d)
    (hrow : d.workspaces.get? id = some row) (hstop : CanStop row.state) (stopOperationId : String)
    (now : ℕ) : beginStop d id row.revision stopOperationId now =
      .ok (.beginStop id row (stopping row now) stopOperationId (pendingStop row now)) := by
  obtain ⟨s, hs, hstate⟩ := ofRow_of_established (hd id row hrow)
  have hmove : ∃ t, s.transition .stopping none = .ok t := by
    unfold AgentWorkspaceSession.transition
    rw [hstate]
    by_cases hsame : WorkspaceState.stopping = row.state
    · exact ⟨s, if_pos hsame⟩
    · have hmem := hstop.resolve_left fun h => hsame h.symm
      rw [if_neg hsame, if_neg (not_not.mpr hmem)]
      exact ⟨_, rfl⟩
  obtain ⟨t, ht⟩ := hmove
  simp only [beginStop, bind_eq_ok_iff, throw_or_eq_ok_iff, orRaise_eq_ok_iff, domain_eq_ok_iff,
    pure_eq_ok_iff]
  exact ⟨row, hrow, by simp, s, hs, t, ht, rfl⟩

/-- A stop operation is stored for the generation and binding revision of the row. -/
def HasStop (d : Database) (id : String) (row : WorkspaceRow) : Prop :=
  ∃ k s, d.stops.get? k = some s ∧ s.workspaceId = id ∧ s.identity.generation = row.generation ∧
    s.identity.bindingRevision = row.bindingRevision

/-- The unique key on stop operations. -/
theorem first_sameStop_isNone_iff {row : WorkspaceRow} (hid : row.id = id) (now : ℕ) :
    (d.stops.first (sameStop (pendingStop row now))).isNone = true ↔ ¬HasStop d id row := by
  subst hid
  rw [Option.isNone_iff_eq_none, Dict.first_eq_none_iff]
  constructor
  · rintro h ⟨k, s, hs, hw, hg, hb⟩
    have hne := h k s hs
    simp [sameStop, pendingStop, WorkspaceRow.identity, hw, hg, hb] at hne
  · intro h k s hs
    by_contra hsame
    simp only [sameStop, pendingStop, Bool.not_eq_false, Bool.and_eq_true, beq_iff_eq] at hsame
    exact h ⟨k, s, hs, hsame.1.1.symm, hsame.1.2.symm, hsame.2.symm⟩

/-- The update of `begin_stop` fails only where the revision no longer fits its column. -/
theorem updateRow_stopping {row : WorkspaceRow} (h : Established d id row)
    (hrow : d.workspaces.get? id = some row) (now : ℕ) : updateRow d id row (stopping row now) =
      if row.revision < maxSqliteSequence then
        .ok { d with workspaces := d.workspaces.set id (stopping row now) }
      else .error .overflow := by
  have hmerge : row.merge (stopping row now) row = stopping row now := by
    simp [WorkspaceRow.merge, stopping]
  obtain ⟨hgen, hbind, hhost⟩ := h.sizes
  have hchecked : (stopping row now).checked = true := by
    have hc := h.checked
    simp only [WorkspaceRow.checked, WorkspaceRow.evidenceOk, Bool.and_eq_true, decide_eq_true_eq] at hc ⊢
    exact ⟨⟨⟨⟨hc.1.1.1.1, Nat.succ_le_succ (Nat.zero_le _)⟩, hc.1.1.2⟩, hc.1.2⟩, hc.2⟩
  have hfits : (stopping row now).fits = decide (row.revision < maxSqliteSequence) := by
    rw [Bool.eq_iff_iff]
    simp only [WorkspaceRow.fits, stopping, Bool.and_eq_true, decide_eq_true_eq, hgen, hbind, hhost,
      and_true, true_and]
    exact decide_eq_true_iff.trans Nat.succ_le_iff
  simp only [updateRow, hrow, hmerge, hfits, hchecked]
  by_cases hlt : row.revision < maxSqliteSequence <;> simp [hlt]

namespace Sample

def projectId : String := "prj_00000000000000000000000000000000"

def identity : Identity where
  projectId := projectId
  agentType := .codex
  hostId := "wri_00000000000000000000000000000000"
  hostRevision := 1
  bindingRevision := 1
  bindingDigest := row.bindingDigest
  generation := 1

/-- One ready Project on one host, and no workspace yet. -/
def fresh : Database where
  projects := Dict.empty.set projectId ⟨"app", .ready, none, 1, none, 0⟩
  hosts := Dict.empty.set identity.hostId ⟨1, none, 0⟩
  workspaces := .empty
  stops := .empty
  bindings := .empty

/-- The identifier of the Project's Codex workspace. -/
def codex : String := "aws_b91ff553f9ff3e6b4f7bd1c04cb0da3c"

def firstStop : String := "wso_00000000000000000000000000000001"

def secondStop : String := "wso_00000000000000000000000000000002"

/-- A stop of the first generation runs into its timeout. -/
def timedOut : List Call :=
  [.create identity "admin" none 0, .beginStop codex 1 firstStop 1,
    .completeStop firstStop .timeout (some "stop_timeout") 2]

end Sample

open Sample

/-- For every row the service can reach, where the domain object allows the move to `STOPPING` and the
caller knows the row's revision: `begin_stop` returns a new pending stop operation exactly if none is
stored for the row's generation and binding revision, its identifier is new and the revision has room
to grow. -/
theorem begin_stop_succeeds_iff (d : Database) (hempty : d.workspaces = .empty) (calls : List Call)
    (i : ℕ) {id : String} {row : WorkspaceRow}
    (hrow : (servedAfter d calls i).workspaces.get? id = some row) (hstop : CanStop row.state)
    {stopOperationId : String} (hid : isStopId stopOperationId = true) (now : ℕ) : (∃ record,
        (sessions.serve (servedAfter d calls i)
          (.beginStop id row.revision stopOperationId now)).1.reply = .ok (.stop stopOperationId record) ∧
        (sessions.serve (servedAfter d calls i)
          (.beginStop id row.revision stopOperationId now)).2.stops.get? stopOperationId = some record ∧
        record.result = .pending ∧ record.workspaceId = id ∧ record.identity = row.identity) ↔
      ¬HasStop (servedAfter d calls i) id row ∧ stopOperationId ∉ (servedAfter d calls i).stops ∧
        row.revision < maxSqliteSequence := by
  have hd := wellformed_servedAfter hempty calls i
  generalize servedAfter d calls i = t at *
  have hest := hd id row hrow
  have hserve : sessions.serve t (.beginStop id row.revision stopOperationId now) =
      write t (.beginStop id row (stopping row now) stopOperationId (pendingStop row now)) :=
    sessions.serve_of_ok (c := .beginStop id row.revision stopOperationId now)
      (beginStop_read hd hrow hstop stopOperationId now)
  rw [hserve]
  simp only [write, updateRow_stopping hest hrow now]
  by_cases hlt : row.revision < maxSqliteSequence
  · -- the row is updated; what is left is the insert
    have hadmits : admitsStop { t with workspaces := t.workspaces.set id (stopping row now) }
        stopOperationId (pendingStop row now) = true ↔
          ¬HasStop t id row ∧ stopOperationId ∉ t.stops := by
      rw [← first_sameStop_isNone_iff hest.keyed now]
      have hmem : row.id ∈ t.workspaces.set id (stopping row now) := by
        rw [hest.keyed]
        exact Dict.mem_of_get? (Dict.get?_set_self _ _ _)
      have hhost : ({ t with workspaces := t.workspaces.set id (stopping row now) } : Database).hasHost
          row.hostId row.hostRevision = true := hest.host
      simp [admitsStop, hid, pendingStop, hmem, WorkspaceRow.identity, hhost, and_comm]
    simp only [hlt, if_true, and_true, ← hadmits]
    by_cases hyes : admitsStop { t with workspaces := t.workspaces.set id (stopping row now) }
        stopOperationId (pendingStop row now) = true
    · simp only [hyes, Bool.not_true, Bool.false_eq_true, if_false, iff_true]
      exact ⟨pendingStop row now, rfl, Dict.get?_set_self _ _ _, rfl, hest.keyed, rfl⟩
    · simp [hyes, rolledBack]
  · simp [hlt, rolledBack]

/-- A workspace that has just been created can be stopped. -/
theorem begin_stop_succeeds_when_created : ∃ record, (sessions.serve (servedAfter fresh timedOut 1)
        (.beginStop codex 1 firstStop 1)).1.reply = .ok (.stop firstStop record) ∧
      record.result = .pending ∧ record.workspaceId = codex := by
  have hcreated : ((servedAfter fresh timedOut 1).workspaces.get? codex).map
        (fun r => (r.state, r.revision)) = some (.starting, 1) ∧
      (servedAfter fresh timedOut 1).stops = .empty := by
    decide +kernel
  obtain ⟨hrow, hstops⟩ := hcreated
  obtain ⟨row, hrow, hfields⟩ := Option.map_eq_some_iff.mp hrow
  obtain ⟨hstate, hrev⟩ := Prod.mk.inj hfields
  have hstop : CanStop row.state := by
    rw [hstate]
    decide
  have hid : isStopId firstStop = true := by decide
  have hnone : ¬HasStop (servedAfter fresh timedOut 1) codex row := by
    rintro ⟨k, s, hs, -⟩
    rw [hstops, Dict.get?_empty] at hs
    exact absurd hs.symm (Option.some_ne_none s)
  have hfresh : firstStop ∉ (servedAfter fresh timedOut 1).stops := by
    rw [hstops]
    exact Dict.not_mem_empty _
  have hlt : row.revision < maxSqliteSequence := by
    rw [hrev]
    decide
  obtain ⟨record, hreply, -, hpending, hworkspace, -⟩ :=
    (begin_stop_succeeds_iff fresh rfl timedOut 1 hrow hstop hid 1).mpr ⟨hnone, hfresh, hlt⟩
  rw [hrev] at hreply
  exact ⟨record, hreply, hpending, hworkspace⟩

/-- After a stop that timed out the workspace is `UNKNOWN`, from where it may be stopped; the second
`begin_stop` of the generation fails with the database's uniqueness error. -/
theorem second_stop_raises : ((servedAfter fresh timedOut 3).workspaces.get? codex).map
        (fun r => (r.state, r.revision)) = some (.unknown, 3) ∧ CanStop .unknown ∧
      (sessions.serve (servedAfter fresh timedOut 3)
        (.beginStop codex 3 secondStop 3)).1.reply = .error .integrity := by
  decide +kernel

end AgentBox.Control
