import AgentBox.Kebui.Journal
import Mathlib.Data.List.Forall2

/-!
# What the journal's directory goes through

Between two calls the stored snapshot either stays or makes one of the steps of `Change`: some records
evolve along the phase graph, or one record is admitted into a free slot. `Snapshot.WellFormed` is kept by
every such step (`Change.wellFormed`), so the file is always the payload of a well-formed snapshot
(`System.Sound`). What the methods do to the directory is read off their bodies once
(`step_spec`); every statement about runs follows from it.
-/

namespace AgentBox.Kebui

open List Method

variable {r r' record updated : AdmissionRecord} {records records' : List AdmissionRecord}
    {α β : Type} {R : α → β → Prop} {xs : List α} {ys : List β} {old new : Snapshot}
    {request : AdmissionRequest} {phase : AdmissionPhase} {receipt status : Option String}
    {s t u : Store}

/-! ## Steps of a snapshot -/

/-- A record after one change: the same request, at most one step further in the phase graph. -/
structure Evolves (r r' : AdmissionRecord) : Prop where
  request : r'.request = r.request
  execution : r'.executionId = r.executionId
  revision : r'.recordRevision ≤ r.recordRevision + 1
  phase : r'.phase = r.phase ∨ r'.phase ∈ r.phase.allowed

theorem Evolves.refl (r : AdmissionRecord) : Evolves r r := ⟨rfl, rfl, Nat.le_succ _, .inl rfl⟩

theorem Evolves.requestId (h : Evolves r r') : r'.requestId = r.requestId :=
  congrArg AdmissionRequest.requestId h.request

theorem Evolves.slot (h : Evolves r r') : r'.slot = r.slot := by
  unfold AdmissionRecord.slot
  rw [h.request]

/-- Nothing leads out of a finished phase. -/
theorem Evolves.unfinished (h : Evolves r r') (hr : r'.unfinished = true) :
    r.unfinished = true := by
  rcases h.phase with heq | hmem
  · rwa [AdmissionRecord.unfinished, ← heq]
  · unfold AdmissionRecord.unfinished
    cases hphase : r.phase <;> rw [hphase] at hmem <;> first | rfl | cases hmem

/-- What a change to the journal makes of a snapshot. -/
inductive Change (old : Snapshot) : Snapshot → Prop
  | evolve {records : List AdmissionRecord} (hevolves : List.Forall₂ Evolves old.records records)
      (hroom : old.journalRevision < maxRevision) : Change old ⟨old.journalRevision + 1, records⟩
  | joins {record : AdmissionRecord} (hphase : record.phase = .accepted)
      (hnew : ∀ r ∈ old.records, r.requestId ≠ record.requestId)
      (hfree : ∀ r ∈ old.records, r.unfinished = true → r.slot ≠ record.slot)
      (hfirst : record.recordRevision = 1) (hfew : old.records.length < maxRecords)
      (hreserved : reservedRecordBytes record ≤ recordReservedBytes)
      (hroom : old.journalRevision < maxRevision) :
      Change old ⟨old.journalRevision + 1, old.records ++ [record]⟩

theorem map_requestId_of_evolves (h : List.Forall₂ Evolves records records') :
    records'.map AdmissionRecord.requestId = records.map AdmissionRecord.requestId := by
  induction h with
  | nil => rfl
  | cons hr _ ih => rw [map_cons, map_cons, hr.requestId, ih]

/-- Records that evolve hold no slot they did not hold before. -/
theorem heldSlots_sublist (h : List.Forall₂ Evolves records records') :
    (heldSlots records').Sublist (heldSlots records) := by
  induction h with
  | nil => exact List.Sublist.refl _
  | @cons r r' records records' hr _ ih =>
    unfold heldSlots at ih ⊢
    cases hnew : r'.unfinished with
    | true =>
      rw [filter_cons_of_pos hnew, filter_cons_of_pos (hr.unfinished hnew), map_cons,
        map_cons, hr.slot]
      exact ih.cons_cons _
    | false =>
      rw [filter_cons_of_neg (by simp [hnew])]
      cases hold : r.unfinished with
      | true =>
        rw [filter_cons_of_pos hold, map_cons]
        exact ih.cons _
      | false => rwa [filter_cons_of_neg (by simp [hold])]

theorem exists_of_mem_right (h : List.Forall₂ R xs ys) {y : β} (hy : y ∈ ys) : ∃ x ∈ xs, R x y := by
  induction h with
  | nil => cases hy
  | cons hr _ ih =>
    rcases mem_cons.mp hy with rfl | hy
    · exact ⟨_, by simp, hr⟩
    · obtain ⟨x, hx, hxy⟩ := ih hy
      exact ⟨x, by simp [hx], hxy⟩

theorem exists_of_mem_left (h : List.Forall₂ R xs ys) {x : α} (hx : x ∈ xs) : ∃ y ∈ ys, R x y :=
  exists_of_mem_right h.flip hx

theorem wellFormed_initial : Snapshot.WellFormed ⟨1, []⟩ where
  few := Nat.zero_le _
  revision := by decide
  bounded := by simp
  ids := nodup_nil
  slots := nodup_nil
  reserved := by simp

theorem wellFormed_evolve (h : old.WellFormed)
    (hevolves : List.Forall₂ Evolves old.records records)
    (hroom : old.journalRevision < maxRevision) :
    Snapshot.WellFormed ⟨old.journalRevision + 1, records⟩ where
  few := hevolves.length_eq ▸ h.few
  revision := ⟨Nat.succ_le_succ (Nat.zero_le _), hroom⟩
  bounded := by
    intro r' hr'
    obtain ⟨r, hr, hev⟩ := exists_of_mem_right hevolves hr'
    exact Nat.le_trans hev.revision (Nat.succ_le_succ (h.bounded r hr))
  ids := by
    rw [map_requestId_of_evolves hevolves]
    exact h.ids
  slots := h.slots.sublist (heldSlots_sublist hevolves)
  reserved := by
    intro r' hr'
    obtain ⟨r, hr, hev⟩ := exists_of_mem_right hevolves hr'
    rw [reservedRecordBytes_congr hev.request hev.execution]
    exact h.reserved r hr

theorem mem_heldSlots_iff {slot : Slot} :
    slot ∈ heldSlots records ↔ ∃ r ∈ records, r.unfinished = true ∧ r.slot = slot := by
  simp only [heldSlots, mem_map, mem_filter, and_assoc]

theorem wellFormed_admit (h : old.WellFormed)
    (hnew : ∀ r ∈ old.records, r.requestId ≠ record.requestId)
    (hfree : ∀ r ∈ old.records, r.unfinished = true → r.slot ≠ record.slot)
    (hfirst : record.recordRevision = 1) (hfew : old.records.length < maxRecords)
    (hreserved : reservedRecordBytes record ≤ recordReservedBytes)
    (hroom : old.journalRevision < maxRevision) :
    Snapshot.WellFormed ⟨old.journalRevision + 1, old.records ++ [record]⟩ where
  few := by
    rw [length_append]
    exact hfew
  revision := ⟨Nat.succ_le_succ (Nat.zero_le _), hroom⟩
  bounded := by
    intro r hr
    rcases mem_append.mp hr with hr | hr
    · exact Nat.le_succ_of_le (h.bounded r hr)
    · rw [mem_singleton.mp hr, hfirst]
      exact Nat.succ_le_succ (Nat.zero_le _)
  ids := by
    rw [map_append, nodup_append]
    refine ⟨h.ids, by simp, ?_⟩
    intro id hid id' hid'
    obtain ⟨r, hr, rfl⟩ := mem_map.mp hid
    rw [map_singleton, mem_singleton] at hid'
    rw [hid']
    exact hnew r hr
  slots := by
    have hsplit : heldSlots (old.records ++ [record]) = heldSlots old.records ++ heldSlots [record] := by
      simp only [heldSlots, filter_append, map_append]
    have hone : (heldSlots [record]).Nodup := by
      refine List.Nodup.sublist ?_ (nodup_singleton record.slot)
      exact filter_sublist.map AdmissionRecord.slot
    rw [hsplit, nodup_append]
    refine ⟨h.slots, hone, ?_⟩
    intro slot hslot slot' hslot'
    obtain ⟨r, hr, hunfinished, rfl⟩ := mem_heldSlots_iff.mp hslot
    obtain ⟨r', hr', -, rfl⟩ := mem_heldSlots_iff.mp hslot'
    rw [mem_singleton.mp hr']
    exact hfree r hr hunfinished
  reserved := by
    intro r hr
    rcases mem_append.mp hr with hr | hr
    · exact h.reserved r hr
    · rwa [mem_singleton.mp hr]

/-- Every change keeps a snapshot well formed. -/
theorem Change.wellFormed (h : old.WellFormed) (hchange : Change old new) : new.WellFormed := by
  cases hchange with
  | evolve hevolves hroom => exact wellFormed_evolve h hevolves hroom
  | joins _ hnew hfree hfirst hfew hreserved hroom =>
    exact wellFormed_admit h hnew hfree hfirst hfew hreserved hroom

theorem Change.revision (hchange : Change old new) :
    new.journalRevision = old.journalRevision + 1 := by
  cases hchange <;> rfl

/-! ## The pure parts of the methods -/

theorem next_eq_ok {n m : ℕ} (h : next n = .ok m) : n < maxRevision ∧ m = n + 1 := by
  unfold next at h
  split at h
  · cases h
  · next hn => exact ⟨Nat.lt_of_not_le hn, (Except.ok.inj h).symm⟩

theorem makeRecord_eq_ok {executionId : String} {revision : ℕ}
    (h : makeRecord request executionId phase revision receipt status = .ok r) :
    r.request = request ∧ r.executionId = executionId ∧ r.phase = phase ∧
      r.recordRevision = revision := by
  unfold makeRecord at h
  split at h
  · cases h
    exact ⟨rfl, rfl, rfl, rfl⟩
  · cases h

/-- Recovery retires a record or leaves it alone. -/
theorem retire_eq_ok (h : retire r = .ok r') :
    Evolves r r' ∧ (r'.phase = r.phase ∨ r'.phase = .unknown) := by
  unfold retire at h
  split at h
  · cases h
    exact ⟨.refl r, .inl rfl⟩
  · next hphase =>
    obtain ⟨revision, hnext, hmake⟩ := bind_eq_ok_iff.mp h
    obtain ⟨-, rfl⟩ := next_eq_ok hnext
    obtain ⟨hrequest, hexecution, hunknown, hrevision⟩ := makeRecord_eq_ok hmake
    refine ⟨⟨hrequest, hexecution, Nat.le_of_eq hrevision, .inr ?_⟩, .inr hunknown⟩
    rw [hunknown]
    cases hr : r.phase <;> simp [hr, AdmissionPhase.finished] at hphase <;> decide

theorem mapM_retire_eq_ok (h : records.mapM retire = .ok records') :
    List.Forall₂ (fun r r' => Evolves r r' ∧ (r'.phase = r.phase ∨ r'.phase = .unknown)) records
      records' := by
  induction records generalizing records' with
  | nil =>
    cases h
    exact .nil
  | cons r records ih =>
    rw [mapM_cons] at h
    obtain ⟨r', hr', h⟩ := bind_eq_ok_iff.mp h
    obtain ⟨rest, hrest, h⟩ := bind_eq_ok_iff.mp h
    cases h
    exact .cons (retire_eq_ok hr') (ih hrest)

theorem successor_eq_ok (h : successor record phase receipt status = .ok updated) :
    Evolves record updated ∧ updated.phase = phase ∧ phase ∈ record.phase.allowed := by
  unfold successor at h
  simp only [throw_or_eq_ok_iff, not_not] at h
  obtain ⟨hallowed, -, -, h⟩ := h
  obtain ⟨revision, hnext, hmake⟩ := bind_eq_ok_iff.mp h
  obtain ⟨-, rfl⟩ := next_eq_ok hnext
  obtain ⟨hrequest, hexecution, hphase, hrevision⟩ := makeRecord_eq_ok hmake
  exact ⟨⟨hrequest, hexecution, Nat.le_of_eq hrevision, .inr (hphase ▸ hallowed)⟩, hphase, hallowed⟩

theorem find_eq_ok {snapshot : Snapshot} {found : Option AdmissionRecord}
    (h : find snapshot request = .ok found) :
    (∀ r, found = some r → r ∈ snapshot.records ∧ r.requestId = request.requestId) ∧
      (found = none → ∀ r ∈ snapshot.records, r.requestId ≠ request.requestId) := by
  unfold find at h
  split at h
  · next hnone =>
    cases h
    refine ⟨?_, fun _ r hr => ?_⟩
    · intro r hr
      cases hr
    · simpa using List.find?_eq_none.mp hnone r hr
  · next r hfound =>
    split at h
    · cases h
    · cases h
      refine ⟨fun r' hr' => ?_, ?_⟩
      · cases hr'
        exact ⟨mem_of_find?_eq_some hfound, by simpa using List.find?_some hfound⟩
      · intro hnone
        cases hnone

/-- Putting a successor in its record's place evolves the records. -/
theorem evolves_put (hids : (records.map AdmissionRecord.requestId).Nodup)
    (hmem : record ∈ records) (hevolves : Evolves record updated) :
    List.Forall₂ Evolves records (put records updated) := by
  have hone : ∀ r ∈ records, Evolves r (if r.requestId = updated.requestId then updated else r) := by
    intro r hr
    split
    · next hid =>
      rw [inj_on_of_nodup_map hids hr hmem (hid.trans hevolves.requestId)]
      exact hevolves
    · exact .refl r
  clear hids hmem
  unfold put
  induction records with
  | nil => exact .nil
  | cons r records ih =>
    exact .cons (hone r (by simp)) (ih fun r' hr' => hone r' (by simp [hr']))

/-! ## What the parts of a method leave alone -/

/-- What holds of the caller's instance after any part of a method: it is not opened again, and it
claims nothing new. -/
structure Claims (s t : Store) : Prop where
  opened : t.self.opened = true → s.self.opened = true
  live : t.self.live ⊆ s.self.live

/-- A part of a method that leaves the snapshot file alone. -/
structure Quiet (s t : Store) : Prop extends Claims s t where
  file : t.file = s.file

theorem Claims.refl (s : Store) : Claims s s := ⟨id, fun _ => id⟩

theorem Claims.trans (h : Claims s t) (h' : Claims t u) : Claims s u :=
  ⟨h.opened ∘ h'.opened, fun _ hid => h.live (h'.live hid)⟩

instance : Std.Refl Quiet := ⟨fun s => ⟨.refl s, rfl⟩⟩

instance : IsTrans Store Quiet :=
  ⟨fun _ _ _ h h' => ⟨h.toClaims.trans h'.toClaims, h'.file.trans h.file⟩⟩

theorem quiet_of_eq (hfile : t.file = s.file) (hopened : t.self.opened = s.self.opened)
    (hlive : t.self.live = s.self.live) : Quiet s t :=
  ⟨⟨fun h => hopened ▸ h, fun _ h => hlive ▸ h⟩, hfile⟩

theorem Quiet.refl (s : Store) : Quiet s s := Std.Refl.refl s

theorem Quiet.trans (h : Quiet s t) (h' : Quiet t u) : Quiet s u :=
  IsTrans.trans _ _ _ h h'

section
variable {replies : ℕ → Reply}
  {α : Type} {body : Op α} {s t u : Store} {snapshot : Snapshot} {request : AdmissionRequest}
    {phase : AdmissionPhase} {executionId : String}

theorem quiet_checkpoint (code : Code) : (checkpoint replies code).Always Quiet := by
  intro s
  simp only [checkpoint, wp_bind, wp_get, wp_set]
  split <;> exact quiet_of_eq rfl rfl rfl

theorem quiet_closing (h : body.Always Quiet) : (closing replies body).Always Quiet :=
  always_bind
    (always_tryCatch h fun _ =>
      always_bind (always_onlyIf fun _ => quiet_checkpoint _) fun _ => always_throw _) fun _ =>
    always_return (quiet_checkpoint _)

theorem quiet_checkDirectory : (checkDirectory replies).Always Quiet :=
  always_bind (quiet_checkpoint _) fun _ => quiet_checkpoint _

theorem quiet_fileIdentity : (fileIdentity replies).Always Quiet :=
  always_bind (quiet_checkpoint _) fun _ => always_bind (quiet_checkpoint _) fun _ =>
    quiet_checkDirectory

theorem quiet_checkInventory (empty : Bool) : (checkInventory replies empty).Always Quiet :=
  always_bind (quiet_checkpoint _) fun _ => always_read fun _ =>
    always_ite (fun _ => always_raiseIf _ _) fun _ => always_raiseIf _ _

theorem quiet_readBarrier : (readBarrier replies).Always Quiet :=
  always_bind (quiet_checkInventory _) fun _ => always_bind (quiet_checkpoint _) fun _ =>
    always_read fun _ => always_bind (always_liftExcept _) fun _ =>
    quiet_closing <| always_bind (quiet_checkpoint _) fun _ => always_unless fun _ =>
      always_bind (quiet_checkpoint _) fun _ => always_bind (always_liftExcept _) fun _ =>
      always_bind quiet_fileIdentity fun _ => always_bind (quiet_checkpoint _) fun _ =>
      always_bind (quiet_checkpoint _) fun _ => always_bind quiet_fileIdentity fun _ =>
      always_return (quiet_checkInventory _)

theorem quiet_close : close.Always Quiet :=
  always_modify fun _ => ⟨⟨fun h => (Bool.false_ne_true h).elim, nil_subset _⟩, rfl⟩

theorem quiet_unlink : (unlink replies).Always Quiet :=
  always_bind
    (always_tryCatch (quiet_checkpoint _) fun _ =>
      always_ite (fun _ => always_throw _) fun _ => always_modify fun _ => quiet_of_eq rfl rfl rfl) fun _ =>
    always_modify fun _ => quiet_of_eq rfl rfl rfl

theorem quiet_construct : (construct replies).Always Quiet :=
  always_tryCatch (always_bind (quiet_checkpoint _) fun _ => quiet_checkDirectory) fun _ =>
    always_unless fun _ => always_bind quiet_close fun _ => always_throw _

theorem quiet_fence :
    (modify fun s : Store => { s with self := { s.self with fenced := true } } : Op Unit).Always Quiet :=
  always_modify fun _ => quiet_of_eq rfl rfl rfl

/-- What is kept by every part that leaves the file alone. -/
def Stable (P : Store → Prop) : Prop := ∀ s t, P s → Quiet s t → P t

section
variable {β : Type} {m : Op α} {f : α → Op β} {Q : β → Store → Prop} {E : Fault → Store → Prop}

theorem Stable.seq {P : Store → Prop} (hP : Stable P) (hs : P s) (hm : m.Always Quiet)
    (hnext : ∀ a t, P t → (f a).wp t Q E) (hraise : ∀ e t, P t → E e t) : (m >>= f).wp s Q E :=
  wp_seq_mono (hm s) (fun a t h => hnext a t (hP s t hs h)) fun e t h => hraise e t (hP s t hs h)

theorem Stable.wp {P : Store → Prop} (hP : Stable P) (hs : P s) (hm : m.Always Quiet)
    (hraise : ∀ e t, P t → E e t) : m.wp s (fun _ => P) E :=
  wp_mono (hm s) (fun _ t h => hP s t hs h) fun e t h => hraise e t (hP s t hs h)

/-- After a part that leaves the file alone. -/
theorem wp_quiet (hst : Quiet s t) (hm : m.Always Quiet) (hnext : ∀ a u, Quiet s u → (f a).wp u Q E)
    (hraise : ∀ e u, Quiet s u → E e u) : (m >>= f).wp t Q E :=
  Stable.seq (fun _ _ h h' => h.trans h') hst hm hnext hraise

end

/-- A body that closes its file returns what the body returned. -/
theorem closing_wp {P : α → Prop} (h : body.wp s (fun a _ => P a) fun _ _ => True) :
    (closing replies body).wp s (fun a _ => P a) fun _ _ => True := by
  unfold closing
  rw [wp_bind, wp_tryCatch]
  refine wp_mono h (fun a t ha => ?_) (fun e t _ => ?_)
  · exact wp_seq_mono (quiet_checkpoint _ t) (fun _ _ _ => ha) fun _ _ _ => trivial
  · rw [wp_bind]
    exact wp_of_forall (fun _ _ => trivial) fun _ _ => trivial

/-- The barrier returns the snapshot that is stored. -/
theorem readBarrier_returns (s : Store) : (readBarrier replies).wp s
    (fun snapshot _ => ∃ payload, s.file = some payload ∧ decode payload = .ok snapshot)
    fun _ _ => True := by
  have hraise : ∀ (_ : Fault) t, Quiet s t → True := fun _ _ _ => trivial
  refine wp_quiet (.refl s) (quiet_checkInventory _) (fun _ _ h => ?_) hraise
  refine wp_quiet h (quiet_checkpoint _) (fun _ t h => ?_) hraise
  rw [wp_bind, wp_get]
  refine wp_lift (fun payload hpayload => ?_) fun _ _ => trivial
  have hfile : s.file = some payload := by
    rw [← h.file]
    exact orRaise_eq_ok_iff.mp hpayload
  apply closing_wp
  refine wp_quiet h (quiet_checkpoint _) (fun _ _ h => ?_) hraise
  refine wp_quiet h (always_raiseIf _ _) (fun _ _ h => ?_) hraise
  refine wp_quiet h (quiet_checkpoint _) (fun _ _ h => ?_) hraise
  refine wp_lift (fun snapshot hdecode => ?_) fun _ _ => trivial
  have hresult := mapError_eq_ok hdecode
  refine wp_quiet h quiet_fileIdentity (fun _ _ h => ?_) hraise
  refine wp_quiet h (quiet_checkpoint _) (fun _ _ h => ?_) hraise
  refine wp_quiet h (quiet_checkpoint _) (fun _ _ h => ?_) hraise
  refine wp_quiet h quiet_fileIdentity (fun _ _ h => ?_) hraise
  refine wp_quiet h (quiet_checkInventory _) (fun _ _ _ => ?_) hraise
  exact ⟨payload, hfile, hresult⟩

theorem readBarrier_wp (s : Store) : (readBarrier replies).wp s
    (fun snapshot t => Quiet s t ∧ ∃ payload, s.file = some payload ∧ decode payload = .ok snapshot)
    fun _ t => Quiet s t :=
  wp_mono (wp_and (quiet_readBarrier s) (readBarrier_returns s)) (fun _ _ h => h) fun _ _ h => h.1

/-! ## Commits -/

/-- The file is as before or holds the new snapshot. -/
structure Commits (snapshot : Snapshot) (s t : Store) : Prop extends Claims s t where
  file : t.file = s.file ∨ t.file = some (payload snapshot)

theorem Quiet.commits (h : Quiet s t) : Commits snapshot s t :=
  ⟨h.toClaims, .inl h.file⟩

theorem stable_commits : Stable (Commits snapshot s) :=
  fun _ _ h h' => ⟨h.toClaims.trans h'.toClaims, by rw [h'.file]; exact h.file⟩

/-- The file holds the new snapshot. -/
structure Committed (snapshot : Snapshot) (s t : Store) : Prop extends Claims s t where
  file : t.file = some (payload snapshot)

theorem Committed.commits (h : Committed snapshot s t) :
    Commits snapshot s t := ⟨h.toClaims, .inr h.file⟩

theorem stable_committed : Stable (Committed snapshot s) :=
  fun _ _ h h' => ⟨h.toClaims.trans h'.toClaims, h'.file.trans h.file⟩

/-- Writing the temporary file and renaming it. -/
theorem rename_wp (snapshot : Snapshot) (s : Store) :
    (closing replies do
      checkpoint replies .storeUnavailable
      checkpoint replies .storeUnavailable
      checkpoint replies .invalidSnapshot
      checkpoint replies .snapshotChanged
      checkDirectory replies
      checkpoint replies .storeUnavailable
      modify fun s => { s with file := some (payload snapshot), temporary := false }
      checkpoint replies .storeUnavailable
      checkpoint replies .snapshotChanged
      fileIdentity replies).wp s (fun _ t => Committed snapshot s t)
      fun _ t => Commits snapshot s t := by
  have hbefore : ∀ (_ : Fault) t, Quiet s t → Commits snapshot s t := fun _ _ h => h.commits
  have hafter : ∀ (_ : Fault) t, Committed snapshot s t → Commits snapshot s t := fun _ _ h => h.commits
  unfold closing
  rw [wp_bind, wp_tryCatch]
  refine wp_mono (Q := fun _ => Committed snapshot s) (E := fun _ => Commits snapshot s) ?_
    (fun _ t ht => ?_) fun e t ht => ?_
  · have h := Quiet.refl s
    iterate 4
      refine wp_quiet h (quiet_checkpoint _) (fun _ _ h => ?_) hbefore
    refine wp_quiet h quiet_checkDirectory (fun _ _ h => ?_) hbefore
    refine wp_quiet h (quiet_checkpoint _) (fun _ t h => ?_) hbefore
    rw [wp_bind, wp_modify]
    have hrenamed : Committed snapshot s { t with file := some (payload snapshot), temporary := false } :=
      ⟨⟨h.opened, h.live⟩, rfl⟩
    refine stable_committed.seq hrenamed (quiet_checkpoint _) (fun _ _ h => ?_) hafter
    refine stable_committed.seq h (quiet_checkpoint _) (fun _ _ h => ?_) hafter
    exact stable_committed.wp h quiet_fileIdentity hafter
  · exact stable_committed.seq ht (quiet_checkpoint _) (fun _ _ h => h) hafter
  · exact stable_commits.seq ht (always_onlyIf fun _ => quiet_checkpoint _) (fun _ _ h => h) fun _ _ h => h

theorem replaceFile_wp (snapshot : Snapshot) (s : Store) :
    (replaceFile replies snapshot (payload snapshot)).wp s (fun _ t => Committed snapshot s t)
      fun _ t => Commits snapshot s t := by
  unfold replaceFile
  refine wp_quiet (.refl s) quiet_checkDirectory (fun _ _ h => ?_) fun _ _ h => h.commits
  refine wp_quiet h (quiet_checkpoint _) (fun _ t h => ?_) fun _ _ h => h.commits
  rw [wp_bind, wp_modify, wp_bind]
  have hopened : Quiet s { t with temporary := true } := ⟨⟨h.opened, h.live⟩, h.file⟩
  refine wp_mono (rename_wp snapshot _) (fun _ t ht => ?_) fun _ t ht => ?_
  · have hs : Committed snapshot s t := ⟨hopened.toClaims.trans ht.toClaims, ht.file⟩
    refine stable_committed.seq hs quiet_readBarrier (fun _ _ h => ?_) fun _ _ h => h.commits
    exact stable_committed.wp h (always_raiseIf _ _) fun _ _ h => h.commits
  · refine ⟨hopened.toClaims.trans ht.toClaims, ?_⟩
    rw [← hopened.file]
    exact ht.file

theorem commit_wp (snapshot : Snapshot) (s : Store) :
    (commit replies snapshot).wp s (fun _ t => Committed snapshot s t)
      fun _ t => Commits snapshot s t := by
  unfold commit
  refine wp_lift (fun written hwritten => ?_) fun _ _ => (Quiet.refl s).commits
  obtain ⟨-, -, -, rfl⟩ := encode_eq_ok_iff.mp (mapError_eq_ok hwritten)
  rw [wp_bind, wp_tryCatch]
  refine wp_mono (replaceFile_wp snapshot s) (fun _ t ht => ?_) fun e t ht => ?_
  · exact stable_committed.wp ht quiet_unlink fun _ _ h => h.commits
  · refine stable_commits.seq ht (always_raiseIf _ _) (fun _ _ h => ?_) fun _ _ h => h
    refine stable_commits.seq h quiet_fence (fun _ _ h => ?_) fun _ _ h => h
    exact stable_commits.seq h quiet_unlink (fun _ _ h => h) fun _ _ h => h

/-! ## The lock -/

/-- A method under the lock runs its body only while the instance is open. -/
theorem locked_wp {P : Store → Prop} (hP : Stable P) (hs : P s)
    (hbody : s.self.opened = true → ∀ t, Quiet s t → Ends body t P) : Ends (locked replies body) s P := by
  have hquiet : ∀ (_ : Fault) t, Quiet s t → P t := fun _ t ht => hP s t hs ht
  unfold Ends locked
  rw [wp_bind, wp_get]
  refine wp_unless (fun _ => hs) fun hopen => ?_
  have hopened : s.self.opened = true := by simpa using (not_or.mp hopen).2
  refine wp_quiet (.refl s) (quiet_checkpoint _) (fun _ _ h => ?_) hquiet
  refine wp_quiet h (quiet_checkpoint _) (fun _ _ h => ?_) hquiet
  rw [wp_tryCatch]
  refine wp_mono (Q := fun _ => P) (E := fun _ => P) ?_ (fun _ _ h => h) fun e t ht => ?_
  · refine wp_quiet h quiet_checkDirectory (fun _ _ h => ?_) hquiet
    refine wp_quiet h (quiet_checkpoint _) (fun _ _ h => ?_) hquiet
    refine wp_quiet h quiet_checkDirectory (fun _ t h => ?_) hquiet
    refine wp_seq (hbody hopened t h) fun a u hu => ?_
    exact hP.seq hu quiet_checkDirectory (fun _ _ h => h) fun _ _ h => h
  · cases e with
    | osError => exact hP.seq ht quiet_fence (fun _ _ h => h) fun _ _ h => h
    | admission code => exact hP.seq ht (always_onlyIf fun _ => quiet_fence) (fun _ _ h => h) fun _ _ h => h
    | crash => exact ht

/-! ## What the methods do to the directory -/

/-- A file that holds nothing but well-formed snapshots. -/
def SoundFile (file : Option Bytes) : Prop :=
  ∀ b, file = some b → ∃ snapshot : Snapshot, snapshot.WellFormed ∧ b = payload snapshot

/-- The stored snapshot of a sound directory is read as it was written. -/
theorem readBarrier_sound (hst : Quiet s t) (hsound : SoundFile s.file) : (readBarrier replies).wp t
    (fun old u => Quiet s u ∧ s.file = some (payload old) ∧ old.WellFormed) fun _ u => Quiet s u := by
  refine wp_mono (readBarrier_wp t) (fun old u h => ?_) fun _ _ h => hst.trans h
  obtain ⟨hquiet, b, hfile, hdecode⟩ := h
  rw [hst.file] at hfile
  obtain ⟨snapshot, hwf, rfl⟩ := hsound b hfile
  rw [decode_payload hwf] at hdecode
  cases hdecode
  exact ⟨hst.trans hquiet, hfile, hwf⟩

/-- A record of the file is replaced by its successor in `phase`. -/
structure Moves (request : AdmissionRequest) (phase : AdmissionPhase) (s t : Store) : Prop
    extends Claims s t where
  open_ : s.self.opened = true
  claimed : request.requestId ∈ s.self.live
  file : ∃ (old : Snapshot) (record updated : AdmissionRecord), s.file = some (payload old) ∧
    old.WellFormed ∧ record ∈ old.records ∧ record.requestId = request.requestId ∧
    Evolves record updated ∧ updated.phase = phase ∧ old.journalRevision < maxRevision ∧
    t.file = some (payload ⟨old.journalRevision + 1, put old.records updated⟩)

theorem Moves.quiet (h : Moves request phase s t) (h' : Quiet t u) : Moves request phase s u := by
  obtain ⟨old, record, updated, hold, hwf, hmem, hid, hev, hphase, hroom, hfile⟩ := h.file
  exact ⟨h.toClaims.trans h'.toClaims, h.open_, h.claimed, old, record, updated, hold, hwf, hmem, hid,
    hev, hphase, hroom, h'.file.trans hfile⟩

/-- A part that leaves the file alone after one that may have changed it. -/
theorem stable_quiet_or {R : Store → Prop} (hR : Stable R) : Stable fun t => Quiet s t ∨ R t := by
  rintro t u (h | h) htu
  · exact .inl (h.trans htu)
  · exact .inr (hR t u h htu)

/-- Storing a snapshot that `R` describes. -/
theorem commit_or {R : Store → Prop} (hsu : Quiet s u) (hR : ∀ v, Committed snapshot u v → R v) :
    (commit replies snapshot).wp u (fun _ => Committed snapshot u) fun _ v => Quiet s v ∨ R v := by
  refine wp_mono (commit_wp _ u) (fun _ _ h => h) fun _ v hv => ?_
  rcases hv.file with heq | hnew
  · exact .inl ⟨hsu.toClaims.trans hv.toClaims, heq.trans hsu.file⟩
  · exact .inr (hR v ⟨hv.toClaims, hnew⟩)

/-- A body under the lock that starts from the stored snapshot. -/
theorem lockedRead_wp {R : Store → Prop} {k : Snapshot → Op α} (hR : Stable R)
    (hsound : SoundFile s.file) (hst : Quiet s t)
    (hk : ∀ old u, t.self.opened = true → Quiet s u → s.file = some (payload old) → old.WellFormed →
      Ends (k old) u fun v => Quiet s v ∨ R v) :
    Ends (locked replies (readBarrier replies >>= k)) t fun v => Quiet s v ∨ R v := by
  refine locked_wp (stable_quiet_or hR) (.inl hst) fun hopen u htu => ?_
  refine wp_seq_mono (readBarrier_sound (hst.trans htu) hsound) (fun old v h => ?_) fun _ _ h => .inl h
  obtain ⟨hsv, hold, hwf⟩ := h
  exact hk old v hopen hsv hold hwf

/-- A constructor closes the instance when its body raises. -/
theorem constructed_wp {P : Store → Prop} {m : Op Unit} (hP : Stable P) (hquiet : ∀ t, Quiet s t → P t)
    (hm : ∀ t, Quiet s t → Ends m t P) :
    Ends (construct replies >>= fun _ => tryCatch m fun e => close >>= fun _ => throw e) s P := by
  refine wp_quiet (.refl s) quiet_construct (fun _ t hst => ?_) fun _ t => hquiet t
  rw [wp_tryCatch]
  refine wp_mono (hm t hst) (fun _ _ h => h) fun e u hu => ?_
  exact hP.seq hu quiet_close (fun _ _ h => h) fun _ _ h => h

theorem transition_wp {expected : String} {receipt status : Option String}
    (hsound : SoundFile s.file) :
    Ends (transition replies request expected phase receipt status) s fun t =>
      Quiet s t ∨ Moves request phase s t := by
  have hs : Quiet s s ∨ Moves request phase s s := .inl (.refl s)
  unfold transition
  refine wp_lift (fun expected' _ => ?_) fun _ _ => hs
  rw [wp_bind, wp_get]
  refine wp_unless (fun _ => hs) fun _ => ?_
  refine lockedRead_wp (fun _ _ h => h.quiet) hsound (.refl s) fun old u hopen hsu hold hwf => ?_
  have hu : Quiet s u ∨ Moves request phase s u := .inl hsu
  refine wp_lift (fun found hfound => ?_) fun _ _ => hu
  refine wp_lift (fun record hrecord => ?_) fun _ _ => hu
  obtain ⟨hmem, hid⟩ := (find_eq_ok (mapError_eq_ok hfound)).1 record (orRaise_eq_ok_iff.mp hrecord)
  refine wp_unless (fun _ => hu) fun _ => ?_
  rw [wp_bind, wp_get]
  refine wp_unless (fun _ => hu) fun hlive => ?_
  have hclaimed : request.requestId ∈ s.self.live := hsu.live (not_not.mp hlive)
  refine wp_lift (fun updated hupdated => ?_) fun _ _ => hu
  obtain ⟨hevolves, hphase, -⟩ := successor_eq_ok (mapError_eq_ok hupdated)
  refine wp_lift (fun revision hrevision => ?_) fun _ _ => hu
  obtain ⟨hroom, rfl⟩ := next_eq_ok (mapError_eq_ok hrevision)
  have hmoves : ∀ v, Committed ⟨old.journalRevision + 1, put old.records updated⟩ u v →
      Moves request phase s v := fun v hv =>
    ⟨hsu.toClaims.trans hv.toClaims, hopen, hclaimed, old, record, updated, hold, hwf, hmem, hid, hevolves,
      hphase, hroom, hv.file⟩
  refine wp_seq (commit_or hsu hmoves) fun _ v hv => ?_
  rw [wp_bind, wp_onlyIf]
  refine ⟨fun _ => .inr ((hmoves v hv).quiet ?_), fun _ => .inr (hmoves v hv)⟩
  exact ⟨⟨id, fun _ hmem => (mem_filter.mp hmem).1⟩, rfl⟩

/-- A new record is stored for a request. -/
structure Admits (request : AdmissionRequest) (s t : Store) : Prop where
  open_ : s.self.opened = true
  live : t.self.live ⊆ request.requestId :: s.self.live
  file : ∃ (old : Snapshot) (record : AdmissionRecord), s.file = some (payload old) ∧ old.WellFormed ∧
    record.request = request ∧ record.phase = .accepted ∧
    (∀ r ∈ old.records, r.requestId ≠ request.requestId) ∧
    Change old ⟨old.journalRevision + 1, old.records ++ [record]⟩ ∧
    t.file = some (payload ⟨old.journalRevision + 1, old.records ++ [record]⟩)

theorem Admits.quiet (h : Admits request s t) (h' : Quiet t u) : Admits request s u := by
  obtain ⟨old, record, hold, hwf, hrequest, hphase, hnew, hchange, hfile⟩ := h.file
  exact ⟨h.open_, fun _ hid => h.live (h'.live hid), old, record, hold, hwf, hrequest, hphase, hnew,
    hchange, h'.file.trans hfile⟩

theorem admitNew_wp {old : Snapshot} (hopen : s.self.opened = true) (hsu : Quiet s u)
    (hold : s.file = some (payload old)) (hwf : old.WellFormed)
    (hnew : ∀ r ∈ old.records, r.requestId ≠ request.requestId) :
    Ends (admitNew replies request executionId old) u fun t => Quiet s t ∨ Admits request s t := by
  have hu : Quiet s u ∨ Admits request s u := .inl hsu
  unfold admitNew
  refine wp_lift (fun record hrecord => ?_) fun _ _ => hu
  obtain ⟨hrequest, -, hphase, hfirst⟩ := makeRecord_eq_ok (mapError_eq_ok hrecord)
  refine wp_unless (fun _ => hu) fun hcapacity => ?_
  refine wp_unless (fun _ => hu) fun hbusy => ?_
  refine wp_lift (fun revision hrevision => ?_) fun _ _ => hu
  obtain ⟨hroom, rfl⟩ := next_eq_ok (mapError_eq_ok hrevision)
  rw [not_or, Nat.not_le, Nat.not_lt] at hcapacity
  have hid : record.requestId = request.requestId := congrArg AdmissionRequest.requestId hrequest
  have hfree : ∀ r ∈ old.records, r.unfinished = true → r.slot ≠ record.slot := by
    intro r hr hunfinished hslot
    apply hbusy
    rw [any_eq_true]
    refine ⟨r, hr, ?_⟩
    rw [Bool.and_eq_true, decide_eq_true_eq]
    exact ⟨hunfinished, hslot⟩
  have hchange : Change old ⟨old.journalRevision + 1, old.records ++ [record]⟩ :=
    .joins hphase (hid ▸ hnew) hfree hfirst hcapacity.1 hcapacity.2 hroom
  have hadmits : ∀ v : Store, v.self.live ⊆ request.requestId :: s.self.live →
      v.file = some (payload ⟨old.journalRevision + 1, old.records ++ [record]⟩) →
      Admits request s v := fun v hlive hfile =>
    ⟨hopen, hlive, old, record, hold, hwf, hrequest, hphase, hnew, hchange, hfile⟩
  have hgrown : ∀ {v : Store}, Claims u v → v.self.live ⊆ s.self.live := fun hv _ hid' =>
    hsu.live (hv.live hid')
  refine wp_seq (commit_or hsu fun v hv => ?_) fun _ v hv => ?_
  · exact hadmits v (fun _ hmem => mem_cons_of_mem _ (hgrown hv.toClaims hmem)) hv.file
  · rw [wp_bind, wp_modify]
    refine .inr (hadmits _ ?_ hv.file)
    exact cons_subset_cons _ (hgrown hv.toClaims)

theorem accept_wp (hsound : SoundFile s.file) :
    Ends (accept replies request executionId) s fun t => Quiet s t ∨ Admits request s t := by
  have hs : Quiet s s ∨ Admits request s s := .inl (.refl s)
  unfold accept
  refine wp_unless (fun _ => hs) fun _ => ?_
  rw [wp_bind, wp_get]
  refine wp_unless (fun _ => hs) fun _ => ?_
  refine lockedRead_wp (fun _ _ h => h.quiet) hsound (.refl s) fun old u hopen hsu hold hwf => ?_
  refine wp_lift (fun found hfound => ?_) fun _ _ => .inl hsu
  cases found with
  | some record =>
    exact wp_quiet hsu (always_raiseIf _ _) (fun _ _ h => .inl h) fun _ _ h => .inl h
  | none => exact admitNew_wp hopen hsu hold hwf ((find_eq_ok (mapError_eq_ok hfound)).2 rfl)

/-- Recovery retires the unfinished records of the file. -/
structure Retires (s t : Store) : Prop extends Claims s t where
  file : ∃ (old : Snapshot) (records : List AdmissionRecord), s.file = some (payload old) ∧
    old.WellFormed ∧
    List.Forall₂ (fun r r' => Evolves r r' ∧ (r'.phase = r.phase ∨ r'.phase = .unknown)) old.records
      records ∧
    old.journalRevision < maxRevision ∧ t.file = some (payload ⟨old.journalRevision + 1, records⟩)

theorem Retires.quiet (h : Retires s t) (h' : Quiet t u) : Retires s u := by
  obtain ⟨old, records, hold, hwf, hretired, hroom, hfile⟩ := h.file
  exact ⟨h.toClaims.trans h'.toClaims, old, records, hold, hwf, hretired, hroom, h'.file.trans hfile⟩

theorem openExisting_wp {recover : Bool} (hsound : SoundFile s.file) :
    Ends (openExisting replies recover) s fun t => Quiet s t ∨ Retires s t := by
  have hretire : Stable (Retires s) := fun _ _ h => h.quiet
  have hstable := stable_quiet_or (s := s) hretire
  refine constructed_wp hstable (fun _ => .inl) fun s₁ hss₁ => ?_
  refine lockedRead_wp hretire hsound hss₁ fun old u _ hsu hold hwf => ?_
  refine (wp_onlyIf ..).mpr ⟨fun _ => ?_, fun _ => .inl hsu⟩
  refine wp_lift (fun records hrecords => ?_) fun _ _ => .inl hsu
  have hretired := mapM_retire_eq_ok (mapError_eq_ok hrecords)
  refine wp_seq (Q := fun _ t => Quiet s t ∨ Retires s t) ?_ fun _ v hv =>
    hstable v _ hv (quiet_of_eq rfl rfl rfl)
  rw [wp_onlyIf]
  refine ⟨fun _ => ?_, fun _ => .inl hsu⟩
  refine wp_lift (fun revision hrevision => ?_) fun _ _ => .inl hsu
  obtain ⟨hroom, rfl⟩ := next_eq_ok (mapError_eq_ok hrevision)
  have hretires : ∀ v, Committed ⟨old.journalRevision + 1, records⟩ u v → Retires s v := fun v hv =>
    ⟨hsu.toClaims.trans hv.toClaims, old, records, hold, hwf, hretired, hroom, hv.file⟩
  exact wp_imp (commit_or hsu hretires) fun _ v hv => .inr (hretires v hv)

/-- The first snapshot of a directory. -/
structure Initializes (s t : Store) : Prop extends Claims s t where
  file : s.file = none ∧ t.file = some (payload ⟨1, []⟩)

theorem initializeForTest_wp (s : Store) :
    Ends (initializeForTest replies) s fun t => Quiet s t ∨ Initializes s t := by
  have hstable : Stable fun t => Quiet s t ∨ Initializes s t := stable_quiet_or fun t u h h' =>
    ⟨h.toClaims.trans h'.toClaims, h.file.1, h'.file.trans h.file.2⟩
  refine constructed_wp hstable (fun _ => .inl) fun s₁ hss₁ => ?_
  refine wp_seq (locked_wp hstable (.inl hss₁) fun hopen t hst => ?_)
    fun _ u hu => hstable u _ hu (quiet_of_eq rfl rfl rfl)
  refine wp_quiet (hss₁.trans hst) (quiet_checkInventory _) (fun _ u h => ?_) fun _ _ h => .inl h
  refine wp_quiet h (quiet_checkpoint _) (fun _ v hsv => ?_) fun _ _ h => .inl h
  rw [wp_bind, wp_get]
  refine wp_unless (fun _ => .inl hsv) fun hnone => ?_
  have hempty : s.file = none := by
    rw [← hsv.file]
    simpa using hnone
  have hfirst : ∀ w, Committed ⟨1, []⟩ v w → Initializes s w := fun w hw =>
    ⟨hsv.toClaims.trans hw.toClaims, hempty, hw.file⟩
  exact wp_imp (commit_or hsv hfirst) fun _ w hw => .inr (hfirst w hw)

theorem quiet_read (request : AdmissionRequest) (s : Store) : Ends (read replies request) s (Quiet s) := by
  unfold read
  refine locked_wp (fun t u h h' => h.trans h') (.refl s) fun _ t hst => ?_
  refine wp_quiet hst quiet_readBarrier (fun _ u hsu => ?_) fun _ _ h => h
  exact wp_mono (always_liftExcept _ u) (fun _ _ h => hsu.trans h) fun _ _ h => hsu.trans h

end

end AgentBox.Kebui
