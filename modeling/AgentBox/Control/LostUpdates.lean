import AgentBox.Control.Sessions

/-!
# Lost updates of workspace rows

The revision of a workspace row is compared where the row is read and not where it is written. Two
calls that have read one revision both pass the comparison, both write `revision + 1`, and both start
the same generation: `both_starts_win` is such a run.

Where every late write finds the revision its call has read, the comparison is as good as a
compare-and-swap. `Tracks` says what then holds of one workspace at every point of a run: the stored
revision counts the calls that took effect, a waiting call that is still current has read the stored
row, no expected revision has been used twice, and the generations handed out go up.
-/

namespace AgentBox.Control

open List

variable {d : Database} {w : String} {stored : WorkspaceRow} {a : Answer} {first : ℕ}
  {id : String} {rd nw row' : WorkspaceRow} {d' : Database}

abbrev SessionWorld := World Database Call Write Answer

/-- The tables are changed by the service alone. -/
def unchanged (_ : Database) (o : Empty) : Database := o.elim

/-- The service after the first `i` events of a run on `d`. -/
def sessionsAfter (d : Database) (events : List (Event Call Empty)) (i : ℕ) : SessionWorld :=
  stateAt (sessions.step unchanged) ⟨d, [], []⟩ events i

/-! ## What a call decides -/

/-- The one workspace row a write updates, as it was read and as the method leaves it. -/
def Write.target : Write → Option (String × WorkspaceRow × WorkspaceRow)
  | .update id read new => some (id, read, new)
  | .beginStop id read new _ _ => some (id, read, new)
  | .completeStop id read new _ _ _ => some (id, read, new)
  | .insert _ | .observe .. | .fence .. => none

/-- The revision a call expects, for the methods that take one. -/
def Call.expectedRevision : Call → Option ℕ
  | .transition _ expected .. => some expected
  | .beginStart _ expected _ => some expected
  | .recordExecutableEvidence _ expected .. => some expected
  | .beginStop _ expected .. => some expected
  | .classifyRuntimeEpoch .. | .create .. | .createFromCurrentBinding .. | .completeStop .. => none

/-- The workspace a call starts a generation of. -/
def Call.starts : Call → Option String
  | .beginStart id _ _ => some id
  | _ => none

/-- What a method has made of the row it read under `id`. -/
structure Advances (c : Call) (id : String) (read new : WorkspaceRow) : Prop where
  /-- The method changes only columns that its update carries. -/
  columns : read.merge new read = new
  revision : new.revision = read.revision + 1
  expected : ∀ e, c.expectedRevision = some e → e = read.revision
  generation : read.generation ≤ new.generation
  started : ∀ w, c.starts = some w → w = id ∧ read.generation < new.generation

variable {c : Call} {r : Write}

/-- A method that goes on to update one row has read that row and advances it. -/
theorem advances_of_decides (h : Decides d c r) (ht : r.target = some (id, rd, nw)) :
    d.workspaces.get? id = some rd ∧ Advances c id rd nw := by
  have expects : ∀ {e n : ℕ}, some n = some e → e = n := fun h => (Option.some.inj h).symm
  cases h with
  | observe | fence | create | createFromCurrentBinding => contradiction
  | transition next hrow | recordExecutableEvidence hrow | beginStop hrow =>
    cases ht
    refine ⟨hrow, ?_, rfl, fun e => expects, le_rfl, fun w hw => ?_⟩
    · simp [WorkspaceRow.merge, transitioned, evidenced, stopping]
    · contradiction
  | beginStart hrow hmarker =>
    cases ht
    refine ⟨hrow, ?_, rfl, fun e => expects, Nat.le_succ _, fun w hw => ?_⟩
    · simp [WorkspaceRow.merge, restarted]
    · exact ⟨(Option.some.inj hw).symm, Nat.lt_succ_self _⟩
  | completeStop hrecord hrow =>
    cases ht
    refine ⟨hrow, ?_, rfl, fun e he => ?_, le_rfl, fun w hw => ?_⟩
    · simp [WorkspaceRow.merge, completed]
    · contradiction
    · contradiction

/-! ## What a write does to one row -/

/-- The one statement that updates a row by primary key, where it succeeds. -/
theorem updateRow_eq_ok (h : updateRow d id rd nw = .ok d') : ∃ stored, d.workspaces.get? id = some stored ∧
      d' = { d with workspaces := d.workspaces.set id (rd.merge nw stored) } := by
  unfold updateRow at h
  split at h
  · contradiction
  · next stored hs =>
    simp only at h
    split_ifs at h
    exact ⟨stored, hs, (Except.ok.inj h).symm⟩

/-- The ways a write can go: what it answers and the tables it leaves. A write that updates one row may
also write one stop operation, and only the completion of a stop changes a row that is there. -/
inductive Written (d : Database) : Write → Answer → Database → Prop
  | rolledBack (r : Write) (e : ServiceError) : Written d r ⟨.error e, []⟩ d
  | inserted {row : WorkspaceRow} : row.fits = true → admitsWorkspace d row = true →
      Written d (.insert row) ⟨.ok (.workspace row), []⟩
        { d with workspaces := d.workspaces.set row.id row }
  | updated {r : Write} {id : String} {rd nw : WorkspaceRow} {d' : Database} {reply : Reply}
      (stops : Dict String StopRow) : r.target = some (id, rd, nw) → updateRow d id rd nw = .ok d' →
      (∀ row, reply = .workspace row → row = nw) →
      (∀ k s, d.stops.get? k = some s →
        stops.get? k = some s ∨ ∃ old new, r = .completeStop id rd nw k old new) →
      Written d r ⟨.ok reply, [id]⟩ { d' with stops := stops }
  | observed {hostId : String} {host : RuntimeHost} {c : EpochClassification} :
      Written d (.observe hostId host c) ⟨.ok (.classification c), []⟩
        { d with hosts := d.hosts.set hostId host }
  | fenced {hostId : String} {host : RuntimeHost} {now : ℕ} :
      Written d (.fence hostId host now) (write d (.fence hostId host now)).1
        (write d (.fence hostId host now)).2

theorem written_write (d : Database) (r : Write) : Written d r (write d r).1 (write d r).2 := by
  cases r with
  | insert row =>
    simp only [write]
    split_ifs with hfits hadmits
    · exact .rolledBack _ _
    · exact .rolledBack _ _
    · exact .inserted (by simpa using hfits) (by simpa using hadmits)
  | update id rd nw =>
    simp only [write]
    split
    · exact .rolledBack _ _
    · next d' hup =>
      obtain ⟨_, -, rfl⟩ := updateRow_eq_ok hup
      exact .updated _ rfl hup (fun row h => (Reply.workspace.inj h).symm) fun _ _ h => .inl h
  | beginStop id rd nw stopOperationId record =>
    simp only [write]
    split
    · exact .rolledBack _ _
    · next d' hup =>
      obtain ⟨_, -, rfl⟩ := updateRow_eq_ok hup
      split_ifs with hadmits
      · exact .rolledBack _ _
      · refine .updated _ rfl hup (fun _ h => by cases h) fun k s hs => .inl ?_
        -- the operation is new
        simp only [admitsStop, Bool.not_eq_true', Bool.not_eq_false, Bool.and_eq_true,
          decide_eq_true_eq] at hadmits
        refine (Dict.get?_set_of_ne _ (fun hk => ?_) _).trans hs
        exact hadmits.1.1.1.1 (hk ▸ Dict.mem_of_get? hs)
  | completeStop id rd nw stopOperationId old new =>
    simp only [write]
    split
    · exact .rolledBack _ _
    · next d' hup =>
      obtain ⟨_, -, rfl⟩ := updateRow_eq_ok hup
      split
      · exact .rolledBack _ _
      · refine .updated _ rfl hup (fun _ h => by cases h) fun k s hs => ?_
        by_cases hk : k = stopOperationId
        · exact .inr ⟨old, new, hk ▸ rfl⟩
        · exact .inl ((Dict.get?_set_of_ne _ hk _).trans hs)
  | observe hostId host c => exact .observed
  | fence hostId host now => exact .fenced

/-- A call that is served on its own changes nothing, or writes what it has decided. -/
theorem written_serve (d : Database) (c : Call) : (sessions.serve d c).2 = d ∨
    ∃ r a, sessions.read d c = .ok r ∧ Written d r a (sessions.serve d c).2 := by
  cases hread : sessions.read d c with
  | error a => exact .inl (congrArg Prod.snd (sessions.serve_of_error hread))
  | ok r =>
    rw [sessions.serve_of_ok hread]
    exact .inr ⟨r, _, rfl, written_write d r⟩

/-- The ways a write with answer `a` can go, seen from the row stored for `w`. -/
inductive RowWrite (w : String) (stored : WorkspaceRow) (r : Write) (a : Answer) : WorkspaceRow → Prop
  | untouched : w ∉ a.updated →
      (∀ rd nw row, r.target = some (w, rd, nw) → a.reply ≠ .ok (.workspace row)) →
      RowWrite w stored r a stored
  | updated (rd nw : WorkspaceRow) : r.target = some (w, rd, nw) → w ∈ a.updated →
      (∀ row, a.reply = .ok (.workspace row) → row = nw) →
      RowWrite w stored r a (rd.merge nw stored)
  | fenced (now : ℕ) : r.target = none → w ∈ a.updated → RowWrite w stored r a (fenced now stored)

/-- A transaction that is rolled back touches nothing. -/
theorem RowWrite.of_rolledBack {e : ServiceError} : RowWrite w stored r ⟨.error e, []⟩ stored := by
  apply RowWrite.untouched
  · simp
  · intro rd nw row _ h
    contradiction

/-- The row after an update of the row under `id`, where it succeeds. -/
theorem RowWrite.of_updateRow (hs : d.workspaces.get? w = some stored)
    (h : updateRow d id rd nw = .ok d') (ht : r.target = some (id, rd, nw)) (ha : a.updated = [id])
    (hreply : ∀ row, a.reply = .ok (.workspace row) → row = nw) :
    ∃ row, d'.workspaces.get? w = some row ∧ RowWrite w stored r a row := by
  obtain ⟨old, hold, rfl⟩ := updateRow_eq_ok h
  by_cases hid : w = id
  · subst hid
    rw [hs] at hold
    obtain rfl := Option.some.inj hold
    exact ⟨_, Dict.get?_set_self _ _ _, .updated rd nw ht (by simp [ha]) hreply⟩
  · refine ⟨stored, ?_, .untouched (by simpa [ha] using hid) ?_⟩
    · rw [Dict.get?_set_of_ne _ hid]
      exact hs
    · intro rd' nw' row ht'
      rw [ht] at ht'
      exact absurd (Prod.mk.inj (Option.some.inj ht')).1.symm hid

theorem write_row (hs : d.workspaces.get? w = some stored) (r : Write) :
    ∃ row, (write d r).2.workspaces.get? w = some row ∧ RowWrite w stored r (write d r).1 row := by
  have hwritten := written_write d r
  generalize (write d r).1 = a, (write d r).2 = d' at hwritten
  cases hwritten with
  | rolledBack => exact ⟨stored, hs, .of_rolledBack⟩
  | inserted hfits hadmits =>
    simp only [admitsWorkspace, Bool.and_eq_true, decide_eq_true_eq] at hadmits
    refine ⟨stored, ?_, .untouched (by simp) fun _ _ _ ht => by contradiction⟩
    refine (Dict.get?_set_of_ne _ (fun hid => ?_) _).trans hs
    exact hadmits.1.1.1.1 (hid ▸ Dict.mem_of_get? hs)
  | @updated _ id rd nw d' reply stops ht hup hreply =>
    obtain ⟨row, hget, hrow⟩ := RowWrite.of_updateRow (a := ⟨.ok reply, [id]⟩) hs hup ht rfl
      fun row hrow => hreply row (Except.ok.inj hrow)
    exact ⟨row, hget, hrow⟩
  | observed => exact ⟨stored, hs, .untouched (by simp) fun _ _ _ ht => by contradiction⟩
  | @fenced hostId host now =>
    simp only [write, Dict.get?_updateWhere, hs, Option.map_some]
    by_cases ht : isFenced hostId host.revision stored = true
    · refine ⟨fenced now stored, by simp [ht], .fenced now rfl ?_⟩
      exact mem_map.mpr ⟨(w, stored), mem_filter.mpr ⟨Dict.get?_eq_some_iff.mp hs, by simpa using ht⟩, rfl⟩
    · refine ⟨stored, by simp [ht], .untouched ?_ ?_⟩
      · intro hmem
        obtain ⟨⟨k, row⟩, hrow, rfl⟩ := mem_map.mp hmem
        obtain ⟨hin, hfen⟩ := mem_filter.mp hrow
        rw [Dict.value_unique hin (Dict.get?_eq_some_iff.mp hs)] at hfen
        exact ht (by simpa using hfen)
      · intro rd nw row htar
        contradiction

/-! ## What an answered call has done to one row -/

/-- The generation a call has handed to its caller. -/
def handed (w : String) (x : Call × Answer) : Option ℕ :=
  match x.1.starts, x.2.reply with
  | some id, .ok (.workspace row) => if id = w then some row.generation else none
  | _, _ => none

/-- The calls of a log that have taken effect on the row of `w`. -/
def effective (w : String) (log : List (Call × Answer)) : List (Call × Answer) :=
  log.filter fun x => w ∈ x.2.updated

/-- The generations handed out for `w`, in order. -/
def handedOut (w : String) (log : List (Call × Answer)) : List ℕ := log.filterMap (handed w)

theorem handedOut_concat (w : String) (log : List (Call × Answer)) (x : Call × Answer) :
    handedOut w (log ++ [x]) = handedOut w log ++ (handed w x).toList := by
  simp only [handedOut, filterMap_append, filterMap_cons, filterMap_nil]
  cases handed w x <;> rfl

/-- An answer that leaves the row alone. -/
structure Quiet (w : String) (c : Call) (a : Answer) (row row' : WorkspaceRow) : Prop where
  untouched : w ∉ a.updated
  same : row' = row
  none_handed : handed w (c, a) = none

/-- An answer that takes effect on the row as it stands. -/
structure Effective (w : String) (c : Call) (a : Answer) (row row' : WorkspaceRow) : Prop where
  updated : w ∈ a.updated
  revision : row'.revision = row.revision + 1
  expected : ∀ e, c.expectedRevision = some e → e = row.revision
  generation : row.generation ≤ row'.generation
  handed : ∀ g, handed w (c, a) = some g → row.generation < g ∧ g ≤ row'.generation

/-- What is known of a decided write: its call advances the row it has read, or is one of those that
expect no revision and start nothing. -/
def Decided (c : Call) (r : Write) : Prop :=
  (∀ id rd nw, r.target = some (id, rd, nw) → Advances c id rd nw) ∧
    (r.target = none → c.expectedRevision = none ∧ c.starts = none)

theorem decided_of_decides (h : Decides d c r) : Decided c r := by
  refine ⟨fun id rd nw ht => (advances_of_decides h ht).2, ?_⟩
  intro ht
  cases h with
  | observe | fence | create | createFromCurrentBinding => exact ⟨rfl, rfl⟩
  | transition | beginStart | recordExecutableEvidence | beginStop | completeStop => contradiction

/-- A generation is handed out by a call that starts one and returns its row. -/
theorem of_handed {g : ℕ} (h : handed w (c, a) = some g) :
    c.starts = some w ∧ ∃ row, a.reply = .ok (.workspace row) ∧ row.generation = g := by
  unfold handed at h
  split at h
  · next id row hstarts hreply =>
    split_ifs at h with hid
    subst hid
    exact ⟨hstarts, row, hreply, Option.some.inj h⟩
  · contradiction

/-- A write whose call has read the row as it stands leaves it alone or takes effect on it. -/
theorem quiet_or_effective (hs : d.workspaces.get? w = some stored) (hr : Decided c r)
    (hfresh : ∀ rd nw, r.target = some (w, rd, nw) → rd = stored) :
    ∃ row, (write d r).2.workspaces.get? w = some row ∧
      (Quiet w c (write d r).1 stored row ∨ Effective w c (write d r).1 stored row) := by
  obtain ⟨row, hrow, hcase⟩ := write_row hs r
  refine ⟨row, hrow, ?_⟩
  cases hcase with
  | untouched hup hfail =>
    refine .inl ⟨hup, rfl, ?_⟩
    rw [Option.eq_none_iff_forall_ne_some]
    intro g hg
    obtain ⟨hstarts, row, hreply, -⟩ := of_handed hg
    cases ht : r.target with
    | none =>
      rw [(hr.2 ht).2] at hstarts
      contradiction
    | some t =>
      obtain ⟨rfl, -⟩ := (hr.1 t.1 t.2.1 t.2.2 ht).started w hstarts
      exact hfail t.2.1 t.2.2 row ht hreply
  | updated rd nw ht hup hreply =>
    obtain rfl := hfresh rd nw ht
    have hadv := hr.1 w rd nw ht
    rw [hadv.columns] at hrow ⊢
    refine .inr ⟨hup, hadv.revision, hadv.expected, hadv.generation, ?_⟩
    intro g hg
    obtain ⟨hstarts, row, hok, rfl⟩ := of_handed hg
    obtain rfl := hreply row hok
    exact ⟨(hadv.started w hstarts).2, le_rfl⟩
  | fenced now ht hup =>
    refine .inr ⟨hup, rfl, ?_, le_rfl, ?_⟩
    · intro e he
      rw [(hr.2 ht).1] at he
      contradiction
    · intro g hg
      obtain ⟨hstarts, -⟩ := of_handed hg
      rw [(hr.2 ht).2] at hstarts
      contradiction

/-- A call answered from its read alone leaves the row alone. -/
theorem quiet_of_read (h : read d c = .error a) (w : String) (row : WorkspaceRow) : Quiet w c a row row := by
  obtain ⟨hup, hrow⟩ := isPlain_of_read h
  refine ⟨by simp [hup], rfl, ?_⟩
  rw [Option.eq_none_iff_forall_ne_some]
  intro g hg
  obtain ⟨hstarts, row, hreply, -⟩ := of_handed hg
  have hatomic := hrow row hreply
  cases c <;> contradiction

/-! ## Runs in which every late write is current -/

/-- The write finds the revision its call has read. -/
def IsCurrent (d : Database) (_ : Call) (r : Write) : Prop :=
  ∀ id rd nw, r.target = some (id, rd, nw) →
    ∀ stored, d.workspaces.get? id = some stored → stored.revision = rd.revision

/-- What holds of the workspace `w`, whose revision was `first`, along such a run. -/
structure Tracks (w : String) (first : ℕ) (s : SessionWorld) (row : WorkspaceRow) : Prop where
  stored : s.db.workspaces.get? w = some row
  counted : row.revision = first + (effective w s.log).length
  decided : ∀ p ∈ s.waiting, Decided p.1 p.2
  waiting : ∀ p ∈ s.waiting, ∀ rd nw, p.2.target = some (w, rd, nw) →
    rd.revision ≤ row.revision ∧ (rd.revision = row.revision → rd = row)
  used : ∀ x ∈ effective w s.log, ∀ e, x.1.expectedRevision = some e → e < row.revision
  once : ∀ e, ((effective w s.log).filter fun x => x.1.expectedRevision = some e).length ≤ 1
  started : ∀ g ∈ handedOut w s.log, g ≤ row.generation
  increasing : (handedOut w s.log).Pairwise (· < ·)

variable {s : SessionWorld}

variable {waiting : List (Call × Write)}

/-- A quiet answer, with fewer calls waiting. -/
theorem Tracks.quiet {row : WorkspaceRow} (h : Tracks w first s row) (hq : Quiet w c a row row')
    (hd : d.workspaces.get? w = some row') (hwait : waiting ⊆ s.waiting) :
    Tracks w first ⟨d, waiting, s.log ++ [(c, a)]⟩ row' := by
  obtain rfl := hq.same
  have heff : effective w (s.log ++ [(c, a)]) = effective w s.log := by
    simp [effective, hq.untouched]
  have hout : handedOut w (s.log ++ [(c, a)]) = handedOut w s.log := by
    simp [handedOut, hq.none_handed]
  refine ⟨hd, ?_, ?_, ?_, ?_, ?_, ?_, ?_⟩
  · rw [heff]
    exact h.counted
  · intro p hp
    exact h.decided p (hwait hp)
  · intro p hp
    exact h.waiting p (hwait hp)
  · rw [heff]
    exact h.used
  · rw [heff]
    exact h.once
  · rw [hout]
    exact h.started
  · rw [hout]
    exact h.increasing

/-- An answer that takes effect, with fewer calls waiting: those still waiting have read an older row. -/
theorem Tracks.effective {row : WorkspaceRow} (h : Tracks w first s row)
    (he : Effective w c a row row') (hd : d.workspaces.get? w = some row')
    (hwait : waiting ⊆ s.waiting) : Tracks w first ⟨d, waiting, s.log ++ [(c, a)]⟩ row' := by
  have heff : Control.effective w (s.log ++ [(c, a)]) = Control.effective w s.log ++ [(c, a)] := by
    simp [Control.effective, he.updated]
  have hrev := he.revision
  refine ⟨hd, ?_, ?_, ?_, ?_, ?_, ?_, ?_⟩
  · have hcount := h.counted
    simp only [heff, length_append, length_singleton]
    omega
  · intro p hp
    exact h.decided p (hwait hp)
  · intro p hp rd nw ht
    have hle := (h.waiting p (hwait hp) rd nw ht).1
    refine ⟨by omega, ?_⟩
    intro heq
    omega
  · intro x hx e hxe
    rw [heff] at hx
    rcases mem_append.mp hx with hx | hx
    · have := h.used x hx e hxe
      omega
    · rw [mem_singleton.mp hx] at hxe
      have := he.expected e hxe
      omega
  · intro e
    simp only [heff, filter_append, length_append]
    by_cases hce : c.expectedRevision = some e
    · -- the calls before it expected smaller revisions
      have hnone : (Control.effective w s.log).filter (fun x => x.1.expectedRevision = some e) = [] := by
        rw [filter_eq_nil_iff]
        intro x hx hxe
        have hlt := h.used x hx e (by simpa using hxe)
        have := he.expected e hce
        omega
      simp [hnone, hce]
    · have := h.once e
      simpa [hce] using this
  · intro g hg
    rw [handedOut_concat, mem_append, Option.mem_toList] at hg
    have hgen := he.generation
    rcases hg with hg | hg
    · have := h.started g hg
      omega
    · exact (he.handed g hg).2
  · rw [handedOut_concat, pairwise_append]
    refine ⟨h.increasing, ?_, ?_⟩
    · cases handed w (c, a) <;> simp
    · intro g hg g' hg'
      have hold := h.started g hg
      have hnew := (he.handed g' (Option.mem_toList.mp hg')).1
      omega

/-- A call that has read joins those waiting: it has read the row as it stands. -/
theorem Tracks.decide {row : WorkspaceRow} (h : Tracks w first s row) (hr : read s.db c = .ok r) :
    Tracks w first { s with waiting := s.waiting ++ [(c, r)] } row := by
  refine ⟨h.stored, h.counted, ?_, ?_, h.used, h.once, h.started, h.increasing⟩
  · intro p hp
    rcases mem_append.mp hp with hp | hp
    · exact h.decided p hp
    · rw [mem_singleton.mp hp]
      exact decided_of_decides (decides_of_read hr)
  · intro p hp rd nw ht
    rcases mem_append.mp hp with hp | hp
    · exact h.waiting p hp rd nw ht
    · rw [mem_singleton.mp hp] at ht
      have hread := (advances_of_decides (decides_of_read hr) ht).1
      rw [h.stored] at hread
      obtain rfl := Option.some.inj hread
      exact ⟨le_rfl, fun _ => rfl⟩

/-- A step that is current keeps track. -/
theorem Tracks.step {row : WorkspaceRow} (h : Tracks w first s row) (e : Event Call Empty)
    (hcurrent : ∀ i c r, e = .write i → s.waiting[i]? = some (c, r) → IsCurrent s.db c r) :
    ∃ row', Tracks w first (sessions.step unchanged s e) row' := by
  have hstep := sessions.stepOf_step unchanged s e
  generalize sessions.step unchanged s e = s' at hstep ⊢
  cases hstep with
  | answered c a hr =>
    exact ⟨row, h.quiet (quiet_of_read hr w row) h.stored (List.Subset.refl _)⟩
  | atomic c r hr ha =>
    have hfresh : ∀ rd nw, r.target = some (w, rd, nw) → rd = row := by
      intro rd nw ht
      have hread := (advances_of_decides (decides_of_read hr) ht).1
      rw [h.stored] at hread
      exact (Option.some.inj hread).symm
    obtain ⟨row', hrow', hq | he⟩ := quiet_or_effective h.stored (decided_of_decides (decides_of_read hr)) hfresh
    · exact ⟨row', h.quiet hq hrow' (List.Subset.refl _)⟩
    · exact ⟨row', h.effective he hrow' (List.Subset.refl _)⟩
  | decided c r hr ha => exact ⟨row, h.decide hr⟩
  | idle i hi => exact ⟨row, h⟩
  | written i c r hi =>
    have hmem : (c, r) ∈ s.waiting := mem_of_getElem? hi
    have hfresh : ∀ rd nw, r.target = some (w, rd, nw) → rd = row := by
      intro rd nw ht
      have hrev := hcurrent i c r rfl hi w rd nw ht row h.stored
      exact (h.waiting (c, r) hmem rd nw ht).2 hrev.symm
    obtain ⟨row', hrow', hq | he⟩ := quiet_or_effective h.stored (h.decided (c, r) hmem) hfresh
    · exact ⟨row', h.quiet hq hrow' (eraseIdx_subset ..)⟩
    · exact ⟨row', h.effective he hrow' (eraseIdx_subset ..)⟩
  | outside o => exact o.elim

/-- A run whose late writes are all current tracks every workspace it starts with. -/
theorem tracks_after {events : List (Event Call Empty)}
    (hcurrent : sessions.WritesMeet unchanged IsCurrent ⟨d, [], []⟩ events) {row : WorkspaceRow}
    (hw : d.workspaces.get? w = some row) (i : ℕ) :
    ∃ row', Tracks w row.revision (sessionsAfter d events i) row' := by
  apply invariant_run (I := fun s => ∃ row', Tracks w row.revision s row')
  · refine ⟨row, hw, ?_, ?_, ?_, ?_, ?_, ?_, ?_⟩
    all_goals simp [effective, handedOut]
  · rintro k - e he ⟨row', h⟩
    apply h.step
    intro n c r hn hr
    subst hn
    exact hcurrent k n c r he hr

namespace Sample

def workspace : String := "aws_00000000000000000000000000000000"

/-- A workspace whose first generation has exited. -/
def row : WorkspaceRow where
  id := workspace
  projectId := "prj_00000000000000000000000000000000"
  authorizationScope := "admin"
  hostId := "wri_00000000000000000000000000000000"
  hostRevision := 1
  agentType := .codex
  state := .exited
  runtimeSessionName := "agentbox-waw-codex-0000000000000000"
  runtimeMarker := "waw-v1"
  executableFingerprint := none
  generation := 1
  bindingRevision := 1
  bindingDigest := "0000000000000000000000000000000000000000000000000000000000000000"
  revision := 7
  createdAt := 0
  updatedAt := 0
  lastSeenAt := 0
  exitCode := some 0
  failureCode := none
  reconciliationState := .exited
  evidenceState := .unobserved
  evidenceGeneration := none
  evidenceRuntimeEpoch := none

def database : Database := ⟨.empty, .empty, Dict.empty.set workspace row, .empty, .empty⟩

/-- Two callers start the workspace; each reads revision 7 before the other has written. -/
def race : List (Event Call Empty) :=
  [.call (.beginStart workspace 7 1), .call (.beginStart workspace 7 2), .write 0, .write 0]

/-- The second caller reads after the first has written. -/
def inTurn : List (Event Call Empty) :=
  [.call (.beginStart workspace 7 1), .write 0, .call (.beginStart workspace 7 2)]

end Sample

open Sample

/-- In every run whose late writes find the revision their calls have read: at most one call with a
given expected revision takes effect on a workspace, the stored revision is the first one plus the
number of calls that took effect, and no generation is handed out twice. -/
theorem updates_are_not_lost (d : Database) (events : List (Event Call Empty))
    (hcurrent : sessions.WritesMeet unchanged IsCurrent ⟨d, [], []⟩ events) {w : String}
    {row : WorkspaceRow} (hw : d.workspaces.get? w = some row) (i : ℕ) :
    (∀ e, ((effective w (sessionsAfter d events i).log).filter
        fun x => x.1.expectedRevision = some e).length ≤ 1) ∧
      (∃ row', (sessionsAfter d events i).db.workspaces.get? w = some row' ∧
        row'.revision = row.revision + (effective w (sessionsAfter d events i).log).length) ∧
      (handedOut w (sessionsAfter d events i).log).Nodup := by
  obtain ⟨row', h⟩ := tracks_after hcurrent hw i
  refine ⟨h.once, ⟨row', h.stored, h.counted⟩, ?_⟩
  apply h.increasing.imp
  intro g g' hlt
  omega

/-- Callers in turn: one takes effect and starts generation 2. -/
theorem updates_are_not_lost_in_turn : handedOut workspace (sessionsAfter database inTurn 3).log = [2] ∧
      (handedOut workspace (sessionsAfter database inTurn 3).log).Nodup := by
  have hcurrent : sessions.WritesMeet unchanged IsCurrent ⟨database, [], []⟩ inTurn := by
    intro n i c r hn hr id rd nw ht stored hs
    -- the run's only late write is its second event
    obtain rfl : n = 1 := by
      by_contra hne
      have hlt : n < 3 := (List.getElem?_eq_some_iff.mp hn).1
      obtain rfl | rfl : n = 0 ∨ n = 2 := by omega
      all_goals contradiction
    obtain rfl : 0 = i := Event.write.inj (Option.some.inj hn)
    have hwait : ((sessionsAfter database inTurn 1).waiting[0]?).map
        (fun p => p.2.target.map fun t => (t.1, t.2.1.revision)) = some (some (workspace, 7)) := by
      decide
    have hstored : ((sessionsAfter database inTurn 1).db.workspaces.get?
        workspace).map WorkspaceRow.revision = some 7 := by
      decide
    unfold sessionsAfter at hwait hstored
    rw [hr, Option.map_some, ht, Option.map_some] at hwait
    obtain ⟨rfl, hrev⟩ := Prod.mk.inj (Option.some.inj (Option.some.inj hwait))
    rw [hs] at hstored
    rw [hrev, Option.some.inj hstored]
  have hw : database.workspaces.get? workspace = some row := by decide
  exact ⟨by decide, (updates_are_not_lost database inTurn hcurrent hw 3).2.2⟩

/-- Both callers pass the comparison with revision 7 and take effect, the revision goes up once, and
both are handed generation 2. -/
theorem both_starts_win : ((effective workspace (sessionsAfter database race 4).log).filter
        fun x => x.1.expectedRevision = some 7).length = 2 ∧
      ((sessionsAfter database race 4).db.workspaces.get? workspace).map
        WorkspaceRow.revision = some (row.revision + 1) ∧
      handedOut workspace (sessionsAfter database race 4).log = [2, 2] := by
  decide

end AgentBox.Control
