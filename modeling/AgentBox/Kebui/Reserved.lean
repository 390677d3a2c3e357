import AgentBox.Kebui.Runs

/-!
# What was admitted always fits

`accept` refuses a request whose reservation does not fit, and a reservation covers every later form of
its record. So on a directory that a run has reached, neither a transition nor a recovery is refused for
capacity: encoding their snapshot succeeds, and no error they raise is the capacity error.
-/

namespace AgentBox.Kebui

open Method

variable {α : Type} {m : Op α}

/-- An error other than the capacity error. -/
def NotCapacity (e : Fault) : Prop := e ≠ .admission .capacity

section
variable {replies : ℕ → Reply} {s : Store} {α : Type} {body : Op α}

theorem raises_checkpoint {code : Code} (h : code ≠ .capacity) :
    (checkpoint replies code).Raises NotCapacity := by
  intro s
  simp only [checkpoint, wp_bind, wp_get, wp_set]
  split
  · trivial
  · exact Fault.noConfusion
  · exact fun heq => h (Fault.admission.inj heq)
  · exact Fault.noConfusion

theorem raises_checkDirectory : (checkDirectory replies).Raises NotCapacity :=
  raises_bind (raises_checkpoint (by decide)) fun _ => raises_checkpoint (by decide)

theorem raises_fileIdentity : (fileIdentity replies).Raises NotCapacity :=
  raises_bind (raises_checkpoint (by decide)) fun _ =>
    raises_bind (raises_checkpoint (by decide)) fun _ => raises_checkDirectory

theorem raises_checkInventory (empty : Bool) : (checkInventory replies empty).Raises NotCapacity :=
  raises_bind (raises_checkpoint (by decide)) fun _ => raises_bind raises_get fun _ =>
    raises_ite (fun _ => raises_raiseIf (by simp [NotCapacity])) fun _ =>
      raises_raiseIf (by simp [NotCapacity])

theorem raises_closing (h : body.Raises NotCapacity) : (closing replies body).Raises NotCapacity :=
  raises_bind
    (raises_tryCatch h fun _ he =>
      raises_bind (raises_onlyIf (raises_checkpoint (by decide))) fun _ => raises_throw he) fun _ =>
    raises_bind (raises_checkpoint (by decide)) fun _ => raises_pure _

theorem raises_unlink : (unlink replies).Raises NotCapacity :=
  raises_bind
    (raises_tryCatch (raises_checkpoint (by decide)) fun _ he =>
      raises_ite (fun _ => raises_throw he) fun _ => raises_modify _) fun _ => raises_modify _

theorem raises_construct : (construct replies).Raises NotCapacity :=
  raises_tryCatch raises_of_true fun _ _ =>
    raises_bind (raises_raiseIf (by simp [NotCapacity])) fun _ =>
      raises_bind (raises_modify _) fun _ => raises_throw (by simp [NotCapacity])

/-- The reading of a snapshot that decodes. -/
theorem raises_read {b : Bytes} {old : Snapshot} (h : decode b = .ok old) :
    (closing replies do
      checkpoint replies .invalidSnapshot
      Method.raiseIf (¬(0 < b.length ∧ b.length ≤ maxSnapshotBytes)) (.admission .invalidSnapshot)
      checkpoint replies .invalidSnapshot
      let snapshot ← Method.liftExcept ((decode b).mapError .admission)
      fileIdentity replies
      checkpoint replies .storeUnavailable
      checkpoint replies .storeUnavailable
      fileIdentity replies
      checkInventory replies false
      return snapshot).Raises NotCapacity := by
  rw [h]
  exact raises_closing <| raises_bind (raises_checkpoint (by decide)) fun _ =>
    raises_bind (raises_raiseIf (by simp [NotCapacity])) fun _ =>
    raises_bind (raises_checkpoint (by decide)) fun _ =>
    raises_bind (raises_liftExcept nofun) fun _ =>
    raises_bind raises_fileIdentity fun _ => raises_bind (raises_checkpoint (by decide)) fun _ =>
    raises_bind (raises_checkpoint (by decide)) fun _ => raises_bind raises_fileIdentity fun _ =>
    raises_bind (raises_checkInventory _) fun _ => raises_pure _

/-- After a part that leaves the file alone and does not fail for capacity. -/
theorem wp_calm {β : Type} {m : Op α} {f : α → Op β} {Q : β → Store → Prop} (hst : Quiet s t)
    (hm : m.Always Quiet) (hraises : m.Raises NotCapacity)
    (hnext : ∀ a u, Quiet s u → (f a).wp u Q fun e _ => NotCapacity e) :
    (m >>= f).wp t Q fun e _ => NotCapacity e :=
  wp_seq_mono (wp_and (hm t) (hraises t)) (fun a u h => hnext a u (hst.trans h.1)) fun _ _ h => h.2

/-- Reading a sound file does not fail for capacity. -/
theorem readBarrier_notCapacity (hsound : SoundFile s.file) (hst : Quiet s t) :
    (readBarrier replies).wp t (fun _ _ => True) fun e _ => NotCapacity e := by
  unfold readBarrier
  refine wp_calm hst (quiet_checkInventory _) (raises_checkInventory _) fun _ t ht => ?_
  refine wp_calm ht (quiet_checkpoint _) (raises_checkpoint (by decide)) fun _ u hu => ?_
  rw [wp_bind, wp_get]
  refine wp_lift (fun b hb => ?_) fun e he => ?_
  · have hfile : s.file = some b := by
      rw [← hu.file]
      exact orRaise_eq_ok_iff.mp hb
    obtain ⟨snapshot, hwf, rfl⟩ := hsound b hfile
    exact raises_read (decode_payload hwf) u
  · cases hf : u.file with
    | none =>
      rw [hf] at he
      cases he
      exact Fault.noConfusion
    | some b =>
      rw [hf] at he
      cases he

theorem readBarrier_wellFormed (hst : Quiet s t) (hsound : SoundFile s.file) :
    (readBarrier replies).wp t (fun old _ => old.WellFormed) fun e _ => NotCapacity e :=
  wp_mono (wp_and (readBarrier_sound hst hsound) (readBarrier_notCapacity hsound hst))
    (fun _ _ h => h.1.2.2) fun _ _ h => h.2

/-- A commit of a well-formed snapshot does not fail for capacity. -/
theorem raises_commit {snapshot : Snapshot} (h : snapshot.WellFormed) :
    (commit replies snapshot).Raises NotCapacity := by
  unfold commit
  rw [encode_eq_ok h]
  refine raises_bind (raises_liftExcept nofun) fun _ => ?_
  refine raises_bind (raises_tryCatch raises_of_true fun e _ => ?_) fun _ => raises_unlink
  exact raises_bind (raises_raiseIf (by simp [NotCapacity])) fun _ =>
    raises_bind (raises_modify _) fun _ => raises_bind raises_unlink fun _ =>
      raises_throw (by simp [NotCapacity])

/-- A method under the lock raises what its body raises, and nothing about capacity besides. -/
theorem locked_notCapacity
    (hbody : ∀ t, Quiet s t → body.wp t (fun _ _ => True) fun e _ => NotCapacity e) :
    (locked replies body).wp s (fun _ _ => True) fun e _ => NotCapacity e := by
  unfold locked
  rw [wp_bind, wp_get]
  refine wp_unless (fun _ => by simp [NotCapacity]) fun _ => ?_
  refine wp_calm (.refl s) (quiet_checkpoint _) (raises_checkpoint (by decide)) fun _ _ h => ?_
  refine wp_calm h (quiet_checkpoint _) (raises_checkpoint (by decide)) fun _ _ h => ?_
  rw [wp_tryCatch]
  refine wp_mono (Q := fun _ _ => True) (E := fun e _ => NotCapacity e) ?_ (fun _ _ _ => trivial)
    fun e t he => ?_
  · refine wp_calm h quiet_checkDirectory raises_checkDirectory fun _ _ h => ?_
    refine wp_calm h (quiet_checkpoint _) (raises_checkpoint (by decide)) fun _ _ h => ?_
    refine wp_calm h quiet_checkDirectory raises_checkDirectory fun _ t h => ?_
    refine wp_seq (hbody t h) fun _ u _ => ?_
    exact wp_calm (.refl u) quiet_checkDirectory raises_checkDirectory fun _ _ _ => trivial
  · cases e with
    | osError =>
      rw [wp_bind, wp_modify]
      simp [NotCapacity]
    | admission code =>
      rw [wp_bind, wp_onlyIf]
      exact ⟨fun _ => he, fun _ => he⟩
    | crash => exact he

theorem errorsMeet_mapError {x : Except Code α} (h : ErrorsMeet (· ≠ .capacity) x) :
    ErrorsMeet NotCapacity (x.mapError .admission) := by
  intro e he
  cases x with
  | ok a => cases he
  | error code =>
    cases he
    exact fun heq => h code rfl (Fault.admission.inj heq)

theorem errorsMeet_next (n : ℕ) : ErrorsMeet (· ≠ Code.capacity) (next n) := by
  intro e he
  unfold next at he
  split at he <;> cases he
  decide

theorem errorsMeet_makeRecord (request : AdmissionRequest) (executionId : String)
    (phase : AdmissionPhase) (revision : ℕ) (receipt status : Option String) :
    ErrorsMeet (· ≠ Code.capacity) (makeRecord request executionId phase revision receipt status) := by
  intro e he
  unfold makeRecord at he
  split at he <;> cases he
  decide

theorem errorsMeet_find (snapshot : Snapshot) (request : AdmissionRequest) :
    ErrorsMeet (· ≠ Code.capacity) (find snapshot request) := by
  intro e he
  unfold find at he
  split at he
  · cases he
  · split at he <;> cases he
    decide

theorem errorsMeet_retire (r : AdmissionRecord) : ErrorsMeet (· ≠ Code.capacity) (retire r) := by
  unfold retire
  rw [errorsMeet_ite]
  refine ⟨fun _ => errorsMeet_pure r, fun _ => ?_⟩
  rw [errorsMeet_bind]
  exact ⟨errorsMeet_next _, fun _ _ => errorsMeet_makeRecord _ _ _ _ _ _⟩

theorem errorsMeet_mapM_retire (records : List AdmissionRecord) :
    ErrorsMeet (· ≠ Code.capacity) (records.mapM retire) := by
  induction records with
  | nil => exact errorsMeet_pure []
  | cons r records ih =>
    rw [List.mapM_cons, errorsMeet_bind]
    refine ⟨errorsMeet_retire r, fun _ _ => ?_⟩
    rw [errorsMeet_bind]
    exact ⟨ih, fun _ _ => errorsMeet_pure _⟩

theorem errorsMeet_successor (record : AdmissionRecord) (phase : AdmissionPhase)
    (receipt status : Option String) :
    ErrorsMeet (· ≠ Code.capacity) (successor record phase receipt status) := by
  unfold successor
  simp only [errorsMeet_ite, errorsMeet_bind, errorsMeet_throw, errorsMeet_next, errorsMeet_makeRecord]
  simp

/-! ## Transitions and recoveries -/

theorem transition_notCapacity {request : AdmissionRequest} {expected : String}
    {phase : AdmissionPhase} {receipt status : Option String} (hsound : SoundFile s.file) :
    (transition replies request expected phase receipt status).wp s (fun _ _ => True)
      fun e _ => NotCapacity e := by
  have hvalidate : ErrorsMeet (· ≠ Code.capacity) (validateRevision expected) := by
    intro e he
    unfold validateRevision at he
    split at he <;> cases he
    decide
  unfold transition
  refine wp_lift (fun expected' _ => ?_) (errorsMeet_mapError hvalidate)
  rw [wp_bind, wp_get]
  refine wp_unless (fun _ => by simp [NotCapacity]) fun _ => ?_
  refine locked_notCapacity fun t hst => ?_
  refine wp_seq (readBarrier_wellFormed hst hsound) fun old u hwf => ?_
  refine wp_lift (fun found hfound => ?_) (errorsMeet_mapError (errorsMeet_find old request))
  refine wp_lift (fun record hrecord => ?_) fun e he => ?_
  · obtain ⟨hmem, -⟩ := (find_eq_ok (mapError_eq_ok hfound)).1 record (orRaise_eq_ok_iff.mp hrecord)
    refine wp_unless (fun _ => by simp [NotCapacity]) fun _ => ?_
    rw [wp_bind, wp_get]
    refine wp_unless (fun _ => by simp [NotCapacity]) fun _ => ?_
    refine wp_lift (fun updated hupdated => ?_) (errorsMeet_mapError (errorsMeet_successor _ _ _ _))
    obtain ⟨hevolves, -, -⟩ := successor_eq_ok (mapError_eq_ok hupdated)
    refine wp_lift (fun revision hrevision => ?_) (errorsMeet_mapError (errorsMeet_next _))
    obtain ⟨hroom, rfl⟩ := next_eq_ok (mapError_eq_ok hrevision)
    have hnew := wellFormed_evolve hwf (evolves_put hwf.ids hmem hevolves) hroom
    refine wp_seq (raises_commit hnew u) fun _ v _ => ?_
    rw [wp_bind, wp_onlyIf]
    exact ⟨fun _ => trivial, fun _ => trivial⟩
  · cases found with
    | none =>
      cases he
      simp [NotCapacity]
    | some r => cases he

theorem openExisting_notCapacity {recover : Bool} (hsound : SoundFile s.file) :
    (openExisting replies recover).wp s (fun _ _ => True) fun e _ => NotCapacity e := by
  unfold openExisting
  refine wp_calm (.refl s) quiet_construct raises_construct fun _ s₁ h₁ => ?_
  rw [wp_tryCatch]
  refine wp_mono (Q := fun _ _ => True) (E := fun e _ => NotCapacity e) ?_ (fun _ _ _ => trivial)
    fun e t he => ?_
  · refine locked_notCapacity fun t hst => ?_
    refine wp_seq (readBarrier_wellFormed (h₁.trans hst) hsound) fun old u hwf => ?_
    rw [wp_onlyIf]
    refine ⟨fun _ => ?_, fun _ => trivial⟩
    refine wp_lift (fun records hrecords => ?_) (errorsMeet_mapError (errorsMeet_mapM_retire _))
    have hevolves := (mapM_retire_eq_ok (mapError_eq_ok hrecords)).imp fun _ _ h => h.1
    refine wp_seq_mono (Q := fun _ _ => True) (E := fun e _ => NotCapacity e) ?_ (fun _ _ _ => trivial)
      fun _ _ h => h
    rw [wp_onlyIf]
    refine ⟨fun _ => ?_, fun _ => trivial⟩
    refine wp_lift (fun revision hrevision => ?_) (errorsMeet_mapError (errorsMeet_next _))
    obtain ⟨hroom, rfl⟩ := next_eq_ok (mapError_eq_ok hrevision)
    exact raises_commit (wellFormed_evolve hwf hevolves hroom) u
  · rw [wp_bind]
    exact he

end

/-! ## The contract of the reservations -/

theorem outcomeOf_ne_capacity {s : Store} (h : m.wp s (fun _ _ => True) fun e _ => NotCapacity e) :
    outcomeOf (m.call s).1 ≠ .raised .capacity := by
  cases hm : (m.call s).1 with
  | ok a => exact Outcome.noConfusion
  | error e =>
    have he : NotCapacity e := error_of_wp h hm
    cases e with
    | admission code => exact fun heq => he (congrArg Fault.admission (Outcome.raised.inj heq))
    | osError =>
      intro heq
      cases heq
    | crash => exact Outcome.noConfusion

theorem invoke_ne_capacity {sys : System} {i : ℕ}
    (h : ∀ self, m.wp (sys.view self) (fun _ _ => True) fun e _ => NotCapacity e) :
    (sys.invoke i m).1 ≠ .raised .capacity := by
  unfold System.invoke
  cases hself : sys.instances[i]? with
  | none =>
    intro heq
    cases heq
  | some self => exact outcomeOf_ne_capacity (h self)

/-- A call that changes requests which are stored already. -/
inductive Call.OnStored : Call → Prop
  | transition (i : ℕ) (request : AdmissionRequest) (expected : String) (phase : AdmissionPhase)
      (receipt status : Option String) (replies : ℕ → Reply) :
      OnStored (.transition i request expected phase receipt status replies)
  | recovery (recover : Bool) (replies : ℕ → Reply) : OnStored (.openExisting recover replies)

/-- What the reservations guarantee over a run. -/
structure Reserved (calls : List Call) : Prop where
  /-- a reservation bounds the size of the record in every phase it can reach -/
  bounds : ∀ r r' : AdmissionRecord, r'.request = r.request → r'.executionId = r.executionId →
    (bytes (recordText r')).length + 1 ≤ reservedRecordBytes r
  /-- the reservations of what is stored fit -/
  fits : ∀ k s, storedAt calls k = some s →
    headerReservedBytes + reservations s.records ≤ maxSnapshotBytes
  /-- whatever the stored records evolve to can be encoded -/
  encodes : ∀ k s s', storedAt calls k = some s → List.Forall₂ Evolves s.records s'.records →
    s'.journalRevision ≤ maxRevision → encode s' = .ok (payload s')
  /-- no transition and no recovery fails for capacity -/
  never : ∀ k call, call.OnStored → ((reached calls k).perform call).1 ≠ .raised .capacity

/-- What `accept` admitted never fails for capacity afterwards. -/
theorem capacity_reserved (calls : List Call) : Reserved calls where
  bounds r r' hrequest hexecution := length_recordText_le hrequest hexecution
  fits k s hs := (file_of_storedAt hs).2.fits
  encodes := by
    intro k s s' hs hevolves hrevision
    have hwf := (file_of_storedAt hs).2
    have hreserved : ∀ r' ∈ s'.records, reservedRecordBytes r' ≤ recordReservedBytes := by
      intro r' hr'
      obtain ⟨r, hr, hev⟩ := exists_of_mem_right hevolves hr'
      rw [reservedRecordBytes_congr hev.request hev.execution]
      exact hwf.reserved r hr
    have hfew : s'.records.length ≤ maxRecords := hevolves.length_eq ▸ hwf.few
    have hsize := length_payload_le s' hrevision
    have hsum := reservations_le hreserved
    have htotal := Nat.mul_le_mul_right recordReservedBytes hfew
    have hlimit : headerReservedBytes + maxRecords * recordReservedBytes ≤ maxSnapshotBytes := by decide
    exact encode_eq_ok_iff.mpr ⟨hfew, hreserved, by omega, rfl⟩
  never := by
    intro k call hcall
    have hsound := sound_reached calls k
    cases hcall with
    | recovery recover replies => exact outcomeOf_ne_capacity (openExisting_notCapacity hsound)
    | transition i request expected phase receipt status replies =>
      exact invoke_ne_capacity fun self => transition_notCapacity hsound

end AgentBox.Kebui
