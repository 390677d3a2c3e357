import AgentBox.Control.Chain
import Mathlib.Data.List.TakeWhile

/-!
# Can a ready Project always be bound again?

`ProjectService.mark_ready` and `mark_error` move a Project's revision; an attempt that was reserved
before keeps the revision it was made for. While such an attempt is open, `reserve` refuses every
other one and `commit` refuses it, so the Project stays without a binding at its own revision.
`rebinding_succeeds_iff` says in which of the reachable states the ledger can bind a ready Project,
and `stale_attempt_blocks` is the history that ends in one where it cannot.
-/

namespace AgentBox.Control

open Option

variable {d : Database} {p : String} {project : Project}

/-! ## Marking a Project -/

inductive ProjectCall where
  | markReady (projectId : String) (defaultBranch : Option String) (expectedRevision : Option ℕ)
      (now : ℕ)
  | markError (projectId : String) (expectedRevision : Option ℕ) (now : ℕ)
  deriving DecidableEq

/-- `ProjectConflict()` -/
def projectConflict : ServiceError := .conflict "Project conflicts with an existing workspace"

/-- `_validate_expected_revision` -/
def validateExpectedRevision (project : Project) (expectedRevision : Option ℕ) :
    Except ServiceError Unit :=
  match expectedRevision with
  | none => pure ()
  | some n => if n < 1 ∨ project.revision ≠ n then throw projectConflict else pure ()

section
variable (d : Database) (projectId : String)

/-- `_cas_project`, with the changed columns already in `new`. -/
def casProject (new : Project) (now : ℕ) : Except ServiceError Database :=
  if maxSqliteSequence ≤ new.revision then throw projectConflict
  else fenceWorkspaces
    { d with
      projects := d.projects.set projectId { new with revision := new.revision + 1, updatedAt := now } }
    (fun w => w.projectId == projectId && w.state.isLive) "PROJECT_BINDING_STALE" projectConflict now

/-- `default_branch[:128] if default_branch else None` -/
def normalizedBranch (defaultBranch : Option String) : Option String :=
  (defaultBranch.filter fun b => b != "").map fun b => String.ofList (b.toList.take 128)

def markReady (defaultBranch : Option String) (expectedRevision : Option ℕ)
    (now : ℕ) : Except ServiceError Database := do
  let project ← orRaise (d.projects.get? projectId) (.notFound projectId)
  validateExpectedRevision project expectedRevision
  let ready := { project with state := .ready, defaultBranch := normalizedBranch defaultBranch }
  if project.state = .ready ∧ project.defaultBranch = normalizedBranch defaultBranch then pure d
  else casProject d projectId ready now

def markError (expectedRevision : Option ℕ) (now : ℕ) :
    Except ServiceError Database :=
  match d.projects.get? projectId with
  | none => pure d
  | some project => do
      validateExpectedRevision project expectedRevision
      if project.state = .error then pure d
      else casProject d projectId { project with state := .error } now

def projectStep (c : ProjectCall) : Database :=
  match (match c with
    | .markReady projectId branch expected now => markReady d projectId branch expected now
    | .markError projectId expected now => markError d projectId expected now) with
  | .ok d' => d'
  | .error _ => d

end

/-- Marking moves a Project but not its directory, and touches workspaces besides. -/
inductive Marks (d : Database) : Database → Prop
  | unchanged : Marks d d
  | moved {p : String} {project : Project} (project' : Project) (ws : Dict String WorkspaceRow) :
      d.projects.get? p = some project → project'.relativePath = project.relativePath →
      Marks d { d with projects := d.projects.set p project', workspaces := ws }

theorem marks_of_casProject {d' : Database} {new : Project} {now : ℕ}
    (h : casProject d p new now = .ok d') (hget : d.projects.get? p = some project)
    (hpath : new.relativePath = project.relativePath) : Marks d d' := by
  unfold casProject at h
  split_ifs at h
  obtain rfl := fenceWorkspaces_eq_ok h
  exact .moved _ _ hget hpath

theorem marks_of_projectStep (d : Database) (c : ProjectCall) : Marks d (projectStep d c) := by
  unfold projectStep
  split
  · next d' h =>
    cases c with
    | markReady p branch expected now =>
      simp only [markReady, bind_eq_ok_iff, orRaise_eq_ok_iff] at h
      obtain ⟨project, hget, -, -, h⟩ := h
      split_ifs at h
      · obtain rfl := Except.ok.inj h
        exact .unchanged
      · exact marks_of_casProject h hget rfl
    | markError p expected now =>
      simp only [markError] at h
      split at h
      · obtain rfl := Except.ok.inj h
        exact .unchanged
      · next project hget =>
        simp only [bind_eq_ok_iff] at h
        obtain ⟨-, -, h⟩ := h
        split_ifs at h
        · obtain rfl := Except.ok.inj h
          exact .unchanged
        · exact marks_of_casProject h hget rfl
  · exact .unchanged

/-! ## Stored rows -/

/-- What the ledger has made sure of for a stored binding. -/
structure IsPlaced (d : Database) (p : String) (k : ℕ) (r : BindingRow) : Prop where
  checked : r.checked p k = true
  fits : k ≤ maxSqliteSequence
  host : d.hasHost r.hostId r.hostRevision = true
  key : ∃ project, d.projects.get? p = some project ∧ project.relativePath = r.relativeKey

/-- The chains are linked and every binding has its place. -/
structure Sound (d : Database) : Prop where
  linked : AllLinked d
  placed : ∀ p k r, d.bindings.get? (p, k) = some r → IsPlaced d p k r

section
variable {u : Unicode} {d d' : Database}
  {p key hostId : String} {k h n revision hostRevision : ℕ} {r : BindingRow}
  {now : ℕ} {new row : BindingRow} {digest : String}

/-- Bindings keep their place while hosts stay and Projects keep their directories. -/
theorem IsPlaced.mono (h : IsPlaced d p k r) (hhosts : d'.hosts = d.hosts)
    (hprojects : ∀ project, d.projects.get? p = some project →
      ∃ project', d'.projects.get? p = some project' ∧ project'.relativePath = project.relativePath) :
    IsPlaced d' p k r := by
  refine ⟨h.checked, h.fits, ?_, ?_⟩
  · unfold Database.hasHost
    rw [hhosts]
    exact h.host
  · obtain ⟨project, hget, hpath⟩ := h.key
    obtain ⟨project', hget', hpath'⟩ := hprojects project hget
    exact ⟨project', hget', hpath'.trans hpath⟩

/-- A checked row that stays where an earlier one is. -/
theorem IsPlaced.rewrite {r' : BindingRow} (h : IsPlaced d p k r)
    (hchecked : r'.checked p k = true) (hkey : r'.relativeKey = r.relativeKey)
    (hid : r'.hostId = r.hostId) (hrev : r'.hostRevision = r.hostRevision) : IsPlaced d p k r' := by
  refine ⟨hchecked, h.fits, ?_, ?_⟩
  · rw [hid, hrev]
    exact h.host
  · rw [hkey]
    exact h.key

theorem IsPlaced.reserved {q : Reservation} (hfits : k ≤ maxSqliteSequence)
    (hat : IsReadyAt d q.projectId key q.expectedProjectRevision u)
    (hhost : d.hasHost q.hostId q.hostRevision = true)
    (hchecked : (q.attempt key now).checked q.projectId k = true) :
    IsPlaced d q.projectId k (q.attempt key now) := by
  obtain ⟨project, hget, -, -, -, hkey⟩ := hat
  exact ⟨hchecked, hfits, hhost, project, hget, (of_validateRelativeKey hkey).symm⟩

/-- A new row has to be placed; the others are where they were. -/
theorem placed_set {bindings : Dict (String × ℕ) BindingRow}
    (h : ∀ p k r, bindings.get? (p, k) = some r → IsPlaced d p k r) (hnew : IsPlaced d p k new) :
    ∀ p' k' r, (bindings.set (p, k) new).get? (p', k') = some r → IsPlaced d p' k' r := by
  intro p' k' r hr
  obtain ⟨heq, rfl⟩ | ⟨-, hr⟩ := Dict.of_get?_set hr
  · obtain ⟨rfl, rfl⟩ := Prod.mk.inj heq
    exact hnew
  · exact h p' k' r hr

theorem Effect.hosts_eq (he : Effect u d d') : d'.hosts = d.hosts := by
  cases he <;> rfl

theorem Effect.projects_eq (he : Effect u d d') : d'.projects = d.projects := by
  cases he <;> rfl

theorem sound_of_effect (he : Effect u d d') (hd : Sound d) : Sound d' := by
  refine ⟨fun p => (grows_of_effect he hd.linked p).1, fun p k r hr => ?_⟩
  have hplaced : ∀ p k r, d'.bindings.get? (p, k) = some r → IsPlaced d p k r := by
    cases he with
    | fenced ws => exact hd.placed
    | reservedFirst now hat hhost hopen hhead hr hd' hnew hchecked =>
      exact placed_set hd.placed (.reserved (by decide) hat hhost hchecked)
    | reservedNext now hat hhost hopen hhead hr hd' hmax hnew hchecked =>
      exact placed_set hd.placed (.reserved hmax hat hhost hchecked)
    | committedFirst now hrow hopen hat hdigest hprevious hchecked =>
      exact placed_set hd.placed ((hd.placed _ _ _ hrow).rewrite hchecked rfl rfl rfl)
    | committedNext now hrow hopen hat hdigest hprevious hpred hchecked hchecked' =>
      exact placed_set (placed_set hd.placed ((hd.placed _ _ _ hpred).rewrite hchecked rfl rfl rfl))
        ((hd.placed _ _ _ hrow).rewrite hchecked' rfl rfl rfl)
    | doubted now ws hrow hstatus hchecked =>
      exact placed_set hd.placed ((hd.placed _ _ _ hrow).rewrite hchecked rfl rfl rfl)
  exact (hplaced p k r hr).mono he.hosts_eq fun project hget =>
    ⟨project, he.projects_eq ▸ hget, rfl⟩

theorem sound_of_marks (hm : Marks d d') (hd : Sound d) : Sound d' := by
  cases hm with
  | unchanged => exact hd
  | moved project' ws hget hpath =>
    rename_i p project
    refine ⟨fun p' => (Grows.of_bindings_eq hd.linked rfl p').1, fun p' k r hr => ?_⟩
    refine (hd.placed p' k r hr).mono rfl fun other hother => ?_
    by_cases hp : p' = p
    · subst hp
      cases hget.symm.trans hother
      exact ⟨project', Dict.get?_set_self .., hpath⟩
    · exact ⟨other, (Dict.get?_set_of_ne _ hp _).trans hother, rfl⟩

/-! ## Heads and attempts of a linked chain -/

/-- The Project's head is current and was made for this revision. -/
def BoundAt (d : Database) (p : String) (revision : ℕ) : Prop :=
  ∃ k row, head d p = some (k, row) ∧ row.status = .current ∧ row.projectRevision = revision

theorem head_eq (hl : Linked (chain d p) h n) (hr : chain d p k = some r) (hhead : r.isHead = true) :
    head d p = some ((p, k), r) := by
  apply Dict.firstEntry_eq_of_unique hr
  · simp [hhead]
  · rintro ⟨p', k'⟩ r' hr' hp
    simp only [Bool.and_eq_true, beq_iff_eq] at hp
    obtain ⟨rfl, hhead'⟩ := hp
    rw [hl.eq_of_isHead hr hhead, hl.eq_of_isHead hr' hhead']

/-- The head, if there is one, has the last revision but for that of an attempt. -/
theorem head_cases (hl : Linked (chain d p) h n) :
    (h = 0 ∧ head d p = none) ∨ 1 ≤ h ∧ ∃ r, chain d p h = some r ∧ head d p = some ((p, h), r) := by
  rcases Nat.eq_zero_or_pos h with rfl | hpos
  · refine .inl ⟨rfl, head_eq_none_iff.mpr fun k r hr => Bool.eq_false_iff.mpr fun hhead => ?_⟩
    exact absurd (hl.eq_of_isHead hr hhead) (Nat.ne_of_gt (hl.mem hr).1)
  · obtain ⟨r, hr⟩ := (hl.range h).mpr ⟨hpos, by have := hl.last; omega⟩
    exact .inr ⟨hpos, r, hr, head_eq hl hr (hl.head r hr)⟩

/-- A current row is the head. -/
theorem isHead_of_current (hl : Linked (chain d p) h n) (hr : chain d p k = some r)
    (hcurrent : r.status = .current) : r.isHead = true := by
  rcases Nat.lt_trichotomy k h with hk | rfl | hk
  · rw [(hl.past k r hk hr).2] at hcurrent
    contradiction
  · exact hl.head r hr
  · have hstatus := (isOpen_iff.mp (hl.attempt k r hk hr)).2
    rw [hcurrent] at hstatus
    rcases hstatus with hstatus | hstatus <;> contradiction

theorem boundAt_iff (hl : AllLinked d) : BoundAt d p revision ↔
      ∃ k row, chain d p k = some row ∧ row.status = .current ∧ row.projectRevision = revision := by
  constructor
  · rintro ⟨k, row, hhead, hrest⟩
    exact ⟨k.2, row, (of_firstEntry_chain hhead).2.1, hrest⟩
  · rintro ⟨k, row, hrow, hcurrent, hrevision⟩
    obtain ⟨h, n, hlinked⟩ := hl p
    exact ⟨(p, k), row, head_eq hlinked hrow (isHead_of_current hlinked hrow hcurrent), hcurrent, hrevision⟩

/-- A unique index admits a row unless it also holds another one of the Project. -/
theorem isUnique_iff {index : BindingRow → Bool} : isUnique d index p k r = true ↔
      (index r = true → ∀ j s, j ≠ k → chain d p j = some s → index s = false) := by
  unfold isUnique
  rw [Bool.or_eq_true, Bool.not_eq_true', isNone_iff_eq_none, Dict.firstEntry_eq_none_iff]
  constructor
  · rintro (hr | hr) hr' j s hj hs
    · rw [hr] at hr'
      contradiction
    · simpa [hj] using hr (p, j) s hs
  · intro h
    cases hr : index r with
    | false => exact .inl rfl
    | true =>
      right
      rintro ⟨p', j⟩ s hs
      by_cases hp : p' = p
      · subst hp
        by_cases hj : j = k
        · simp [hj]
        · simp [h hr j s hj hs]
      · simp [hp]

theorem updateBinding_of_checks {old : BindingRow} (hget : d.bindings.get? (p, k) = some old)
    (hkeeps : old.keepsIdentity new = true) (hlegal : isLegal old.status new.status = true)
    (hchecked : new.checked p k = true) (hopen : isUnique d BindingRow.inOpenIndex p k new = true)
    (hhead : isUnique d BindingRow.inHeadIndex p k new = true) :
    updateBinding d p k new = .ok { d with bindings := d.bindings.set (p, k) new } := by
  unfold updateBinding
  rw [hget]
  exact if_pos ⟨hkeeps, hlegal, hchecked, hopen, hhead⟩

/-! ## Committing the open attempt -/

theorem checked_iff : r.checked p k = true ↔
    isProjectId p = true ∧ relativeKeyOk r.relativeKey = true ∧ 1 ≤ r.projectRevision ∧ 1 ≤ k ∧
      r.bindingDigest.all isDigest = true ∧
      predecessorOk k r.previousRevision r.previousDigest = true ∧ isHostId r.hostId = true ∧
      1 ≤ r.hostRevision ∧
      ((r.status != .current && r.status != .superseded) || r.bindingDigest.isSome) = true := by
  simp [BindingRow.checked, and_assoc]

theorem checked_superseded (h : r.checked p k = true) (hsome : r.bindingDigest.isSome = true) :
    (superseded r now).checked p k = true := by
  rw [checked_iff] at h ⊢
  obtain ⟨hp, hkey, hrev, hk, hdigest, hpred, hhost, hhostRev, -⟩ := h
  exact ⟨hp, hkey, hrev, hk, hdigest, hpred, hhost, hhostRev, by simp [superseded, hsome]⟩

theorem checked_attested (h : r.checked p k = true) (hdigest : isDigest digest = true) :
    (attested r digest now).checked p k = true := by
  rw [checked_iff] at h ⊢
  obtain ⟨hp, hkey, hrev, hk, -, hpred, hhost, hhostRev, -⟩ := h
  exact ⟨hp, hkey, hrev, hk, hdigest, hpred, hhost, hhostRev, rfl⟩

/-- The head steps down when an attempt is about to follow it. -/
theorem supersede_eq_ok (hd : Sound d) (hl : Linked (chain d p) h (h + 1))
    (hrow : chain d p (h + 1) = some row) (now : ℕ) :
    ∃ d', supersede d p row now = .ok d' ∧ d'.projects = d.projects ∧ d'.hosts = d.hosts ∧
      d'.bindings.get? (p, h + 1) = some row ∧
      ∀ j s, j ≠ h + 1 → chain d' p j = some s → s.status = .superseded := by
  obtain ⟨rfl, hnone⟩ | ⟨hpos, -⟩ := head_cases hl
  · -- the first binding has no predecessor and there is no head
    refine ⟨d, ?_, rfl, rfl, hrow, fun j s hj hs => ?_⟩
    · unfold supersede
      rw [(hl.first row hrow).1]
      simp [hnone, pure, Except.pure]
    · have := hl.mem hs
      omega
  · obtain ⟨hlink, pred, hpred, hsome, hdigest⟩ := hl.link h row hpos hrow
    obtain ⟨-, hstatus⟩ := isHead_iff.mp (hl.head pred hpred)
    have hchecked : (superseded pred now).checked p h = true :=
      checked_superseded (hd.placed p h pred hpred).checked hsome
    have hupdate : updateBinding d p h (superseded pred now) =
        .ok { d with bindings := d.bindings.set (p, h) (superseded pred now) } := by
      apply updateBinding_of_checks hpred
      · simp [BindingRow.keepsIdentity, superseded]
      · rcases hstatus with hstatus | hstatus <;> rw [hstatus] <;> rfl
      · exact hchecked
      · exact isUnique_iff.mpr fun hin => absurd hin Bool.false_ne_true
      · exact isUnique_iff.mpr fun hin => absurd hin Bool.false_ne_true
    refine ⟨{ d with bindings := d.bindings.set (p, h) (superseded pred now) }, ?_, rfl, rfl, ?_,
      fun j s hj hs => ?_⟩
    · unfold supersede
      rw [hlink]
      simp only [bind_eq_ok_iff, throw_or_eq_ok_iff, orRaise_eq_ok_iff]
      refine ⟨pred, hpred, ?_, hupdate⟩
      rw [not_or, not_not, not_and_or, not_not, not_not]
      exact ⟨hdigest.symm, hstatus⟩
    · exact (Dict.get?_set_of_ne _ (fun heq => Nat.succ_ne_self h (Prod.mk.inj heq).2) _).trans hrow
    · by_cases hjh : j = h
      · subst hjh
        obtain rfl := Option.some.inj ((Dict.get?_set_self ..).symm.trans hs)
        rfl
      · have hs' : chain d p j = some s := by
          rw [← hs]
          exact (Dict.get?_set_of_ne _ (fun heq => hjh (Prod.mk.inj heq).2) _).symm
        have := hl.mem hs'
        exact (hl.past j s (by omega) hs').2

/-- An open attempt made for the Project's revision can be committed. -/
theorem commit_succeeds (hd : Sound d) (hat : IsReadyAt d p row.relativeKey row.projectRevision u)
    (hrow : chain d p k = some row) (hopen : row.isOpen = true)
    (hfits : row.projectRevision ≤ maxSqliteSequence) (hdigest : isDigest digest = true) (now : ℕ) :
    BoundAt (ledgerStep u d (.commit p k row.projectRevision digest now)) p row.projectRevision := by
  obtain ⟨h, n, hl⟩ := hd.linked p
  obtain ⟨rfl, rfl⟩ := hl.eq_of_isOpen hrow hopen
  have hplaced := hd.placed p _ row hrow
  obtain ⟨hp, -, hrev, hk, -⟩ := checked_iff.mp hplaced.checked
  obtain ⟨hnone, hstatus⟩ := isOpen_iff.mp hopen
  obtain ⟨project, hget, harchived, hstate, hrevision, hkey⟩ := hat
  obtain ⟨d', hsupersede, hprojects, hhosts, hrow', hrest⟩ := supersede_eq_ok hd hl hrow now
  have hupdate : updateBinding d' p (h + 1) (attested row digest now) =
      .ok { d' with bindings := d'.bindings.set (p, h + 1) (attested row digest now) } := by
    apply updateBinding_of_checks hrow'
    · simp [BindingRow.keepsIdentity, attested, hnone]
    · rcases hstatus with hstatus | hstatus <;> rw [hstatus] <;> rfl
    · exact checked_attested hplaced.checked hdigest
    · exact isUnique_iff.mpr fun hin => absurd hin Bool.false_ne_true
    · refine isUnique_iff.mpr fun _ j s hj hs => ?_
      simp [BindingRow.inHeadIndex, hrest j s hj hs]
  have hcommit : commit u d p (h + 1) row.projectRevision digest now = .ok ((h + 1, attested row digest now),
        { d' with bindings := d'.bindings.set (p, h + 1) (attested row digest now) }) := by
    have hnotCurrent : row.status ≠ .current := by
      rcases hstatus with hstatus | hstatus <;> rw [hstatus] <;> simp
    simp only [commit, bind_eq_ok_iff, checkPattern_eq_ok_iff, positiveInteger_eq_ok_iff, orRaise_eq_ok_iff]
    refine ⟨(), hp, (), ⟨hk, hplaced.fits⟩, (), ⟨hrev, hfits⟩, (), hdigest, row, hrow, ?_⟩
    rw [if_neg hnotCurrent]
    simp only [commitAttempt, bind_eq_ok_iff, orRaise_eq_ok_iff, throw_or_eq_ok_iff,
      compatibleKey_eq_ok_iff, pure_eq_ok_iff]
    refine ⟨?_, project, hget, row.relativeKey, hkey, ?_, ?_, d', hsupersede, _, hupdate, rfl⟩
    · simp [hopen]
    · simp [harchived, hstate, hrevision]
    · simp [hplaced.host]
  have hstep : ledgerStep u d (.commit p (h + 1) row.projectRevision digest now) =
      { d' with bindings := d'.bindings.set (p, h + 1) (attested row digest now) } := by
    simp only [ledgerStep, ledger, hcommit]
  have hsound := sound_of_effect (effect_of_ledger u d (.commit p (h + 1) row.projectRevision digest now)) hd
  rw [boundAt_iff hsound.linked, hstep]
  exact ⟨h + 1, attested row digest now, Dict.get?_set_self .., rfl, rfl⟩

/-! ## Reserving the next attempt -/

/-- A stripped text neither begins nor ends with a space. -/
theorem isSpace_of_eq_strip {l : List Char} (h : l = strip l) :
    (∀ c, l.head? = some c → isSpace c = false) ∧ ∀ c, l.getLast? = some c → isSpace c = false := by
  have hnot : ∀ m : List Char, m.dropWhile isSpace = m → ∀ c, m.head? = some c → isSpace c = false := by
    intro m hm c hc
    have := List.head?_dropWhile_not isSpace m
    rw [hm, hc] at this
    exact this
  have hlen := congrArg List.length h
  simp only [strip, List.length_reverse] at hlen
  have hfirst := (List.dropWhile_sublist isSpace (l := l)).length_le
  have hsecond := (List.dropWhile_sublist isSpace (l := (l.dropWhile isSpace).reverse)).length_le
  rw [List.length_reverse] at hsecond
  -- nothing was dropped on either side
  have hleft : l.dropWhile isSpace = l := (List.dropWhile_suffix isSpace).eq_of_length (by omega)
  have hright : l.reverse.dropWhile isSpace = l.reverse := by
    rw [hleft] at hlen hsecond
    exact (List.dropWhile_suffix isSpace).eq_of_length (by rw [List.length_reverse]; omega)
  refine ⟨hnot l hleft, fun c hc => hnot l.reverse hright c ?_⟩
  rw [List.head?_reverse]
  exact hc

/-- A validated key passes the check constraint of its column. -/
theorem relativeKeyOk_of_validate {key' : String} (h : validateRelativeKey u key = .ok key') :
    relativeKeyOk key' = true := by
  obtain rfl := of_validateRelativeKey h
  unfold validateRelativeKey at h
  simp only at h
  split_ifs at h with hinvalid hcategory hcontrol hother
  simp only [Bool.or_eq_true, not_or, Bool.not_eq_true, List.isEmpty_eq_false_iff, decide_eq_false_iff_not,
    bne_eq_false_iff_eq, beq_eq_false_iff_ne, Bool.not_eq_false'] at hinvalid
  obtain ⟨⟨⟨⟨⟨⟨hne, hlen⟩, hstrip⟩, hdot⟩, hdots⟩, hmatch⟩, -⟩ := hinvalid
  have hcString : cString key' = key'.toList := by
    apply List.takeWhile_eq_self_iff.mpr
    intro c hc
    simp only [List.any_eq_true, not_exists, not_and, Bool.or_eq_true, decide_eq_true_eq] at hcontrol
    have := hcontrol c hc
    simp only [decide_eq_true_eq]
    rintro rfl
    exact this (.inl (by decide))
  obtain ⟨hhead, hlast⟩ := isSpace_of_eq_strip hstrip
  have hspace : isSpace ' ' = true := by decide
  have hslash : ∀ c ∈ key'.toList, c ≠ '/' ∧ c ≠ '\\' := by
    cases hl : key'.toList with
    | nil => simp
    | cons c rest =>
      rw [hl] at hmatch
      simp only [matchesRelativeKey, Bool.and_eq_true, bne_iff_ne, List.all_eq_true] at hmatch
      intro c' hc'
      rcases List.mem_cons.mp hc' with rfl | hc'
      · exact ⟨hmatch.1.1.1, hmatch.1.1.2⟩
      · exact hmatch.2 c' hc'
  have hpos := List.length_pos_of_ne_nil hne
  simp only [relativeKeyOk, hcString, Bool.and_eq_true, decide_eq_true_eq, bne_iff_ne,
    Bool.not_eq_true', List.contains_eq_mem, decide_eq_false_iff_not]
  refine ⟨⟨⟨⟨⟨⟨⟨hpos, by omega⟩, fun hc => ?_⟩, fun hc => ?_⟩, hdot⟩, hdots⟩, fun hc => ?_⟩, fun hc => ?_⟩
  · rw [hhead _ hc] at hspace
    contradiction
  · rw [hlast _ hc] at hspace
    contradiction
  · exact (hslash _ hc).1 rfl
  · exact (hslash _ hc).2 rfl

/-- The caller asks for a binding after the head it observes. -/
def reservationFor (d : Database) (p : String) (revision : ℕ) (hostId : String) (hostRevision : ℕ) :
    Reservation where
  projectId := p
  expectedProjectRevision := revision
  hostId := hostId
  hostRevision := hostRevision
  expectedHeadRevision := (head d p).map fun e => e.1.2
  expectedHeadDigest := (head d p).bind fun e => e.2.bindingDigest

/-- The attempt stored for it. -/
def attemptFor (d : Database) (p : String) (revision : ℕ) (hostId : String) (hostRevision : ℕ)
    (key : String) (now : ℕ) : BindingRow :=
  (reservationFor d p revision hostId hostRevision).attempt key now

/-- The expected head is complete: a head has a digest. -/
theorem checkHead_reservationFor (hd : Sound d) :
    (reservationFor d p revision hostId hostRevision).checkHead = .ok () := by
  unfold Reservation.checkHead
  simp only [reservationFor]
  cases hh : head d p with
  | none => rfl
  | some e =>
    obtain ⟨-, hrow, hishead⟩ := of_firstEntry_chain hh
    obtain ⟨digest, hdigest⟩ := isSome_iff_exists.mp (isHead_iff.mp hishead).1
    have hplaced := hd.placed p e.1.2 e.2 hrow
    obtain ⟨-, -, -, hk, hall, -⟩ := checked_iff.mp hplaced.checked
    rw [hdigest, all_some] at hall
    simp only [map_some, bind_some, hdigest, bind_eq_ok_iff, positiveInteger_eq_ok_iff,
      checkPattern_eq_ok_iff]
    exact ⟨(), ⟨hk, hplaced.fits⟩, hall⟩

theorem nextRevision_reservationFor (hl : Linked (chain d p) h n) (hnot : ¬BoundAt d p revision)
    (hkey : ∀ k row, head d p = some (k, row) → row.relativeKey = key)
    (hroom : ∀ k row, head d p = some (k, row) → k.2 < maxSqliteSequence)
    (hterminal : ∀ id w, d.workspaces.get? id = some w → w.projectId = p → w.state.isTerminal = true) :
    nextRevision d (reservationFor d p revision hostId hostRevision) key = .ok (h + 1) := by
  obtain ⟨rfl, hh⟩ | ⟨-, row, -, hh⟩ := head_cases hl
  · unfold nextRevision
    simp [reservationFor, hh, pure, Except.pure]
  · have hlive : (d.workspaces.first fun w => w.projectId == p && !w.state.isTerminal) = none := by
      rw [Dict.first_eq_none_iff]
      intro id w hw
      by_cases hp : w.projectId = p
      · simp [hterminal id w hw hp]
      · simp [hp]
    apply (nextRevision_of_head hh).mpr
    refine ⟨by simp [reservationFor, hh], ?_, ?_, Nat.not_le_of_lt (hroom _ row hh), ?_, rfl⟩
    · rintro ⟨hne, -⟩
      exact hne (hkey _ row hh).symm
    · rintro ⟨hcurrent, hrevision, -⟩
      exact hnot ⟨_, row, hh, hcurrent, hrevision.symm⟩
    · show ¬(d.workspaces.first fun w => w.projectId == p && !w.state.isTerminal).isSome = true
      rw [hlive]
      exact Bool.false_ne_true

/-- The constraints of the table admit the next attempt. -/
theorem insertBinding_reservationFor {project : Project} (hd : Sound d)
    (hl : Linked (chain d p) n n) (hp : isProjectId p = true) (hrev : 1 ≤ revision)
    (hhostId : isHostId hostId = true) (hhostRev : 1 ≤ hostRevision)
    (hhost : d.hasHost hostId hostRevision = true) (hget : d.projects.get? p = some project)
    (hkey : validateRelativeKey u project.relativePath = .ok project.relativePath)
    (hrow : row = attemptFor d p revision hostId hostRevision project.relativePath now) :
    insertBinding d p (n + 1) row = .ok { d with bindings := d.bindings.set (p, n + 1) row } := by
  have habsent : (p, n + 1) ∉ d.bindings := by
    rw [Dict.mem_iff_exists]
    rintro ⟨r, hr⟩
    have := (hl.mem hr).2
    omega
  -- the attempt names the head, if there is one
  have hhead : (n = 0 ∧ head d p = none) ∨ ∃ r digest, chain d p n = some r ∧
      r.bindingDigest = some digest ∧ isDigest digest = true ∧ head d p = some ((p, n), r) := by
    obtain hnone | ⟨-, r, hr, hh⟩ := head_cases hl
    · exact .inl hnone
    · obtain ⟨digest, hdigest⟩ := isSome_iff_exists.mp (isHead_iff.mp (hl.head r hr)).1
      obtain ⟨-, -, -, -, hall, -⟩ := checked_iff.mp (hd.placed p n r hr).checked
      rw [hdigest, all_some] at hall
      exact .inr ⟨r, digest, hr, hdigest, hall, hh⟩
  have hpredecessor : predecessorOk (n + 1) ((head d p).map fun e => e.1.2)
      ((head d p).bind fun e => e.2.bindingDigest) = true := by
    obtain ⟨rfl, hnone⟩ | ⟨r, digest, hr, hdigest, hall, hh⟩ := hhead
    · rw [hnone]
      rfl
    · have hn : n ≠ 0 := by
        have := (hl.mem hr).1
        omega
      rw [hh]
      simp [predecessorOk, hn, hdigest, hall]
  have hforeign : hasPredecessor d p row = true := by
    obtain ⟨rfl, hnone⟩ | ⟨r, digest, hr, hdigest, hall, hh⟩ := hhead
    · simp [hrow, hasPredecessor, attemptFor, Reservation.attempt, reservationFor, hnone]
    · have hr' : d.bindings.get? (p, n) = some r := hr
      simp [hrow, hasPredecessor, attemptFor, Reservation.attempt, reservationFor, hh, hdigest, hr']
  have hchecked : row.checked p (n + 1) = true := hrow ▸
    checked_iff.mpr ⟨hp, relativeKeyOk_of_validate hkey, hrev, by omega, rfl, hpredecessor, hhostId,
      hhostRev, rfl⟩
  -- every other row of the Project is attested, so none is pending
  have hunique : isUnique d BindingRow.inOpenIndex p (n + 1) row = true := by
    refine isUnique_iff.mpr fun _ j s hj hs => ?_
    have hmem := hl.mem hs
    have hsome := (hl.isSome_iff hs).mpr hmem.2
    rcases Nat.lt_or_eq_of_le hmem.2 with hlt | rfl
    · simp [BindingRow.inOpenIndex, (hl.past j s hlt hs).2]
    · have hstatus := (isHead_iff.mp (hl.head s hs)).2
      rcases hstatus with hstatus | hstatus <;>
        simp [BindingRow.inOpenIndex, hstatus, hsome]
  subst hrow
  unfold insertBinding
  exact if_pos ⟨habsent, hchecked, Dict.mem_of_get? hget, hforeign, hhost, hunique,
    isUnique_iff.mpr fun hin => absurd hin Bool.false_ne_true⟩

/-- Without an open attempt and with room for a revision, the next attempt can be reserved. -/
theorem reserve_succeeds (hd : Sound d) (hat : IsReadyAt d p key revision u)
    (hp : isProjectId p = true) (hrev : 1 ≤ revision ∧ revision ≤ maxSqliteSequence)
    (hhostId : isHostId hostId = true) (hhostRev : 1 ≤ hostRevision ∧ hostRevision ≤ maxSqliteSequence)
    (hhost : d.hasHost hostId hostRevision = true)
    (hterminal : ∀ id w, d.workspaces.get? id = some w → w.projectId = p → w.state.isTerminal = true)
    (hopen : openAttempt d p = none) (hnot : ¬BoundAt d p revision)
    (hroom : ∀ k row, head d p = some (k, row) → k.2 < maxSqliteSequence) (now : ℕ) :
    ∃ k, chain (ledgerStep u d (.reserve (reservationFor d p revision hostId hostRevision) now)) p k =
      some (attemptFor d p revision hostId hostRevision key now) := by
  obtain ⟨h, n, hl⟩ := hd.linked p
  obtain rfl := hl.eq_of_no_attempt (openAttempt_eq_none_iff.mp hopen)
  obtain ⟨project, hget, harchived, hstate, hrevision, hkey⟩ := hat
  obtain rfl := of_validateRelativeKey hkey
  -- the head has the Project's key
  have hsame : ∀ k row, head d p = some (k, row) → row.relativeKey = project.relativePath := by
    intro k row hh
    obtain ⟨-, hrow, -⟩ := of_firstEntry_chain hh
    obtain ⟨project', hget', hpath⟩ := (hd.placed p k.2 row hrow).key
    cases hget.symm.trans hget'
    exact hpath.symm
  obtain ⟨row, hrow⟩ : ∃ row, row = attemptFor d p revision hostId hostRevision project.relativePath now :=
    ⟨_, rfl⟩
  have hinsert := insertBinding_reservationFor hd hl hp hrev.1 hhostId hhostRev.1 hhost hget hkey hrow
  have hreserve : reserve u d (reservationFor d p revision hostId hostRevision) now =
      .ok ((n + 1, row), { d with bindings := d.bindings.set (p, n + 1) row }) := by
    subst hrow
    simp only [reserve, bind_eq_ok_iff, checkPattern_eq_ok_iff, positiveInteger_eq_ok_iff,
      orRaise_eq_ok_iff, throw_or_eq_ok_iff, compatibleKey_eq_ok_iff]
    refine ⟨(), hp, (), hrev, (), hhostId, (), hhostRev, (), checkHead_reservationFor hd, project, hget,
      ?_, project.relativePath, hkey, ?_, ?_⟩
    · simp [reservationFor, harchived, hstate, hrevision]
    · simp [reservationFor, hhost]
    · rw [show openAttempt d (reservationFor d p revision hostId hostRevision).projectId = none from hopen]
      simp only [bind_eq_ok_iff, pure_eq_ok_iff]
      exact ⟨n + 1, nextRevision_reservationFor hl hnot hsame hroom hterminal, _, hinsert, rfl⟩
  refine ⟨n + 1, ?_⟩
  rw [← hrow]
  simp only [ledgerStep, ledger, hreserve, chain]
  exact Dict.get?_set_self ..

/-! ## Blocked Projects -/

/-- What keeps the ledger from binding a Project at its revision: an open attempt for another one, or
a head with the last revision there is. -/
def IsObstructed (d : Database) (p : String) (revision : ℕ) : Prop :=
  (∃ k row, chain d p k = some row ∧ row.isOpen = true ∧ row.projectRevision ≠ revision) ∨
    (openAttempt d p = none ∧ ∃ k row, chain d p k = some row ∧ row.isHead = true ∧
      maxSqliteSequence ≤ k)

structure Blocked (d : Database) (p : String) (revision : ℕ) : Prop where
  linked : AllLinked d
  atRevision : ∀ project, d.projects.get? p = some project → project.revision = revision
  obstructed : IsObstructed d p revision
  unbound : ¬BoundAt d p revision

theorem IsReadyAt.revision_eq (h : IsReadyAt d p key n u)
    (hat : ∀ project, d.projects.get? p = some project → project.revision = revision) : n = revision := by
  obtain ⟨project, hget, -, -, hn, -⟩ := h
  exact hn.symm.trans (hat project hget)

/-- On a blocked Project a call can at most doubt a row. -/
theorem chain_of_blocked (hb : Blocked d p revision) (he : Effect u d d') :
    chain d' p = chain d p ∨ ∃ k row now, chain d p k = some row ∧
      (row.status = .pending ∨ row.status = .current) ∧
      chain d' p = Function.update (chain d p) k (some (doubted row now)) := by
  -- no attempt can be stored and no attempt can be committed
  have hreserve : openAttempt d p = none →
      (∀ k row, head d p = some (k, row) → k.2 < maxSqliteSequence) → False := by
    intro hopen hroom
    obtain ⟨k, row, hrow, hisopen, -⟩ | ⟨-, k, row, hrow, hishead, hmax⟩ := hb.obstructed
    · rw [openAttempt_eq_none_iff.mp hopen k row hrow] at hisopen
      contradiction
    · obtain ⟨h, n, hl⟩ := hb.linked p
      have := hroom _ row (head_eq hl hrow hishead)
      omega
  have hcommit : ∀ k row, chain d p k = some row → row.isOpen = true →
      IsReadyAt d p row.relativeKey row.projectRevision u → False := by
    intro k row hrow hisopen hat
    obtain ⟨k', row', hrow', hisopen', hne⟩ | ⟨hnone, -⟩ := hb.obstructed
    · obtain ⟨h, n, hl⟩ := hb.linked p
      obtain rfl : k' = k := (hl.eq_of_isOpen hrow' hisopen').1.trans (hl.eq_of_isOpen hrow hisopen).1.symm
      cases hrow.symm.trans hrow'
      exact hne (hat.revision_eq hb.atRevision)
    · rw [openAttempt_eq_none_iff.mp hnone k row hrow] at hisopen
      contradiction
  have hother : ∀ {bindings : Dict (String × ℕ) BindingRow} {p' k row}, p ≠ p' →
      chain { d with bindings := bindings.set (p', k) row } p = chain { d with bindings := bindings } p :=
    fun hne => funext fun k => chain_set_of_ne _ hne ..
  cases he with
  | fenced ws => exact .inl rfl
  | reservedFirst now hat hhost hopen hhead hr hd hnew hchecked =>
    refine .inl (hother ?_)
    rintro rfl
    exact hreserve hopen fun k row hh => by rw [hhead] at hh; contradiction
  | reservedNext now hat hhost hopen hhead hr hd hmax hnew hchecked =>
    refine .inl (hother ?_)
    rintro rfl
    refine hreserve hopen fun k' row' hh => ?_
    rw [hhead] at hh
    obtain ⟨rfl, -⟩ := Prod.mk.inj (Option.some.inj hh)
    exact hmax
  | committedFirst now hrow hopen hat hdigest hprevious hchecked =>
    refine .inl (hother ?_)
    rintro rfl
    exact hcommit _ _ hrow hopen hat
  | committedNext now hrow hopen hat hdigest hprevious hpred hchecked hchecked' =>
    have hne : p ≠ _ := fun hp => hcommit _ _ (hp ▸ hrow) hopen (hp ▸ hat)
    exact .inl ((hother hne).trans (hother hne))
  | doubted now ws hrow hstatus hchecked =>
    rename_i p' k row
    by_cases hp : p = p'
    · subst hp
      exact .inr ⟨k, row, now, hrow, hstatus, funext fun j => chain_set_self ..⟩
    · exact .inl (funext fun k => chain_set_of_ne _ hp ..)

/-- Blocking is about the chain alone. -/
theorem blocked_of_effect (hb : Blocked d p revision) (he : Effect u d d') : Blocked d' p revision := by
  have hlinked : AllLinked d' := fun p' => (grows_of_effect he hb.linked p').1
  refine ⟨hlinked, fun project hget => hb.atRevision project (he.projects_eq ▸ hget), ?_, ?_⟩
  · obtain hsame | ⟨k, row, now, hrow, hstatus, hupdate⟩ := chain_of_blocked hb he
    · unfold IsObstructed
      simp only [openAttempt_eq_none_iff, hsame]
      simpa only [IsObstructed, openAttempt_eq_none_iff] using hb.obstructed
    · have hat : ∀ k' row', chain d p k' = some row' → ∃ row'', chain d' p k' = some row'' ∧
          (row'.isOpen = true → row''.isOpen = true) ∧ (row'.isHead = true → row''.isHead = true) ∧
          row''.projectRevision = row'.projectRevision := by
        intro k' row' hrow'
        rw [hupdate]
        by_cases hk : k' = k
        · subst hk
          cases hrow.symm.trans hrow'
          exact ⟨_, Function.update_self .., isOpen_doubted, isHead_doubted, rfl⟩
        · exact ⟨row', (Function.update_of_ne hk ..).trans hrow', id, id, rfl⟩
      obtain ⟨k', row', hrow', hopen, hne⟩ | ⟨hnone, k', row', hrow', hhead, hmax⟩ := hb.obstructed
      · obtain ⟨row'', hrow'', hopen', -, hrevision⟩ := hat k' row' hrow'
        exact .inl ⟨k', row'', hrow'', hopen' hopen, hrevision ▸ hne⟩
      · obtain ⟨row'', hrow'', -, hhead', -⟩ := hat k' row' hrow'
        refine .inr ⟨openAttempt_eq_none_iff.mpr fun j r hr => ?_, k', row'', hrow'', hhead' hhead, hmax⟩
        rw [hupdate] at hr
        by_cases hj : j = k
        · subst hj
          rw [Function.update_self] at hr
          obtain rfl := Option.some.inj hr
          have hclosed := openAttempt_eq_none_iff.mp hnone j row hrow
          simp only [BindingRow.isOpen, Bool.and_eq_false_iff] at hclosed
          obtain hclosed | hclosed := hclosed
          · simpa [BindingRow.isOpen, doubted] using hclosed
          · rcases hstatus with hstatus | hstatus
            · simp [hstatus] at hclosed
            · obtain ⟨h, n, hl⟩ := hb.linked p
              exact not_isOpen_of_isSome
                (isHead_iff.mp (isHead_doubted (isHead_of_current hl hrow hstatus))).1
        · rw [Function.update_of_ne hj] at hr
          exact openAttempt_eq_none_iff.mp hnone j r hr
  · rw [boundAt_iff hlinked]
    rintro ⟨k', row', hrow', hcurrent, hrevision⟩
    apply hb.unbound
    rw [boundAt_iff hb.linked]
    obtain hsame | ⟨k, row, now, hrow, hstatus, hupdate⟩ := chain_of_blocked hb he
    · exact ⟨k', row', hsame ▸ hrow', hcurrent, hrevision⟩
    · rw [hupdate] at hrow'
      by_cases hk : k' = k
      · subst hk
        rw [Function.update_self] at hrow'
        obtain rfl := Option.some.inj hrow'
        contradiction
      · rw [Function.update_of_ne hk] at hrow'
        exact ⟨k', row', hrow', hcurrent, hrevision⟩

/-- No sequence of calls binds a blocked Project. -/
theorem blocked_run (hb : Blocked d p revision) (calls : List LedgerCall) :
    Blocked (calls.foldl (ledgerStep u) d) p revision := by
  induction calls generalizing d with
  | nil => exact hb
  | cons c calls ih => exact ih (blocked_of_effect hb (effect_of_ledger u d c))

end

/-! ## Runs -/

/-- Calls of the ledger and of the Project service, and whatever the sessions do to their tables. -/
inductive ServiceEvent where
  | ledger (c : LedgerCall)
  | project (c : ProjectCall)
  | sessions (workspaces : Dict String WorkspaceRow) (stops : Dict String StopRow)

def serviceStep (u : Unicode) (d : Database) : ServiceEvent → Database
  | .ledger c => ledgerStep u d c
  | .project c => projectStep d c
  | .sessions workspaces stops => { d with workspaces := workspaces, stops := stops }

/-- The tables after the first `i` events. -/
def servicesAfter (u : Unicode) (d : Database) (events : List ServiceEvent) (i : ℕ) : Database :=
  stateAt (serviceStep u) d events i

theorem sound_servicesAfter (u : Unicode) (hempty : d.bindings = .empty)
    (events : List ServiceEvent) (i : ℕ) : Sound (servicesAfter u d events i) := by
  apply invariant_stateAt (I := Sound)
  · refine ⟨allLinked_ledgerAfter u hempty [] 0, fun p k r hr => ?_⟩
    rw [hempty, Dict.get?_empty] at hr
    contradiction
  · intro t e ht
    cases e with
    | ledger c => exact sound_of_effect (effect_of_ledger u t c) ht
    | project c => exact sound_of_marks (marks_of_projectStep t c) ht
    | sessions workspaces stops =>
      refine ⟨fun p => (Grows.of_bindings_eq ht.linked rfl p).1, fun p k r hr => ?_⟩
      exact (ht.placed p k r hr).mono rfl fun project hget => ⟨project, hget, rfl⟩

/-- The Project is bound at the revision, has an open attempt for it, or can get one. -/
def CanRebind (d : Database) (p : String) (revision : ℕ) : Prop :=
  BoundAt d p revision ∨
    (∃ k row, openAttempt d p = some (k, row) ∧ row.projectRevision = revision) ∨
    (openAttempt d p = none ∧ ∀ k row, head d p = some (k, row) → k.2 < maxSqliteSequence)

/-- A Project that cannot be bound again is blocked. -/
theorem blocked_of_not_canRebind (hl : AllLinked d) (hget : d.projects.get? p = some project)
    (h : ¬CanRebind d p project.revision) : Blocked d p project.revision := by
  simp only [CanRebind, not_or] at h
  obtain ⟨hunbound, hattempt, hroom⟩ := h
  refine ⟨hl, fun project' hget' => ?_, ?_, hunbound⟩
  · rw [Option.some.inj (hget.symm.trans hget')]
  · cases hopen : openAttempt d p with
    | some e =>
      obtain ⟨-, hrow, hisopen⟩ := of_firstEntry_chain hopen
      exact .inl ⟨e.1.2, e.2, hrow, hisopen, fun heq => hattempt ⟨e.1, e.2, hopen, heq⟩⟩
    | none =>
      simp only [hopen, true_and, not_forall, Nat.not_lt] at hroom
      obtain ⟨k, row, hhead, hmax⟩ := hroom
      obtain ⟨-, hrow, hishead⟩ := of_firstEntry_chain hhead
      exact .inr ⟨hopen, k.2, row, hrow, hishead, hmax⟩

namespace Sample

/-- The Project gets a binding, then goes through an error. -/
def rebound : List ServiceEvent :=
  [.ledger (.reserve firstReservation 1), .ledger (.commit firstReservation.projectId 1 1 digest 2),
    .project (.markError firstReservation.projectId none 3),
    .project (.markReady firstReservation.projectId none none 4)]

/-- The Project goes through an error while its first attempt is open. -/
def overtaken : List ServiceEvent :=
  [.ledger (.reserve firstReservation 1), .project (.markError firstReservation.projectId none 2),
    .project (.markReady firstReservation.projectId none none 3)]

abbrev recovered : Database := servicesAfter ascii registry rebound 4

abbrev stale : Database := servicesAfter ascii registry overtaken 3

end Sample

open Sample

/-- In every state the ledger and the Project service can reach together: a ready Project with a valid
key, a current host and only terminal workspaces can be bound at its revision by calls of the ledger
exactly if it is bound there, or has an open attempt for this revision, or has no open attempt and a
head below the last revision there is. -/
theorem rebinding_succeeds_iff (u : Unicode) (d : Database) (hempty : d.bindings = .empty)
    (events : List ServiceEvent) (i : ℕ) {p : String} {project : Project}
    (hget : (servicesAfter u d events i).projects.get? p = some project) (hp : isProjectId p = true)
    (hready : project.archivedAt = none ∧ project.state = .ready)
    (hrev : 1 ≤ project.revision ∧ project.revision ≤ maxSqliteSequence)
    (hkey : validateRelativeKey u project.relativePath = .ok project.relativePath)
    {hostId : String} {hostRevision : ℕ}
    (hhost : (servicesAfter u d events i).hasHost hostId hostRevision = true)
    (hhostId : isHostId hostId = true) (hhostRev : 1 ≤ hostRevision ∧ hostRevision ≤ maxSqliteSequence)
    (hterminal : ∀ id w, (servicesAfter u d events i).workspaces.get? id = some w →
      w.projectId = p → w.state.isTerminal = true) : (∃ calls : List LedgerCall,
        BoundAt (calls.foldl (ledgerStep u) (servicesAfter u d events i)) p project.revision) ↔
      CanRebind (servicesAfter u d events i) p project.revision := by
  have hsound := sound_servicesAfter u hempty events i
  generalize servicesAfter u d events i = t at *
  have hat : IsReadyAt t p project.relativePath project.revision u :=
    ⟨project, hget, hready.1, hready.2, rfl, hkey⟩
  have hdigest : isDigest digest = true := by decide
  constructor
  · rintro ⟨calls, hbound⟩
    by_contra hnot
    exact (blocked_run (blocked_of_not_canRebind hsound.linked hget hnot) calls).unbound hbound
  · rintro (hbound | ⟨k, row, hopen, hrevision⟩ | ⟨hopen, hroom⟩)
    · exact ⟨[], hbound⟩
    · -- the attempt is for this revision: commit it
      obtain ⟨-, hrow, hisopen⟩ := of_firstEntry_chain hopen
      obtain ⟨project', hget', hpath⟩ := (hsound.placed p k.2 row hrow).key
      cases hget.symm.trans hget'
      rw [hpath, ← hrevision] at hat
      rw [← hrevision] at hrev ⊢
      exact ⟨[.commit p k.2 row.projectRevision digest 0],
        commit_succeeds hsound hat hrow hisopen hrev.2 hdigest 0⟩
    · by_cases hbound : BoundAt t p project.revision
      · exact ⟨[], hbound⟩
      -- reserve the next attempt, then commit it
      obtain ⟨k, hrow⟩ := reserve_succeeds hsound hat hp hrev hhostId hhostRev hhost hterminal hopen
        hbound hroom 0
      have he := effect_of_ledger u t (.reserve (reservationFor t p project.revision hostId hostRevision) 0)
      refine ⟨[.reserve (reservationFor t p project.revision hostId hostRevision) 0,
        .commit p k project.revision digest 0], ?_⟩
      refine commit_succeeds (sound_of_effect he hsound) ?_ hrow (isOpen_attempt ..) hrev.2 hdigest 0
      unfold IsReadyAt
      rw [he.projects_eq]
      exact hat

/-- A Project with a committed binding can be bound again after an error. -/
theorem rebinding_succeeds_after_error : ∃ calls : List LedgerCall, BoundAt (calls.foldl (ledgerStep ascii)
        (servicesAfter ascii registry rebound 4)) firstReservation.projectId 3 := by
  have hproject : recovered.projects.get?
      firstReservation.projectId = some ⟨"app", .ready, none, 3, none, 4⟩ := by
    decide +kernel
  have hstate : recovered.hasHost firstReservation.hostId 1 = true ∧ recovered.workspaces = .empty ∧
      openAttempt recovered firstReservation.projectId = none ∧
      (head recovered
        firstReservation.projectId).map (fun e => e.1.2) = some 1 := by
    decide
  obtain ⟨hhost, hworkspaces, hopen, hhead⟩ := hstate
  refine (rebinding_succeeds_iff ascii registry rfl rebound 4 hproject
    (by decide +kernel) ⟨rfl, rfl⟩ (by decide) (by rfl) hhost (by decide +kernel) (by decide) ?_).mpr
    (.inr (.inr ⟨hopen, fun k row hh => ?_⟩))
  · intro id w hw
    rw [hworkspaces, Dict.get?_empty] at hw
    contradiction
  · rw [hh, map_some] at hhead
    rw [Option.some.inj hhead]
    decide

/-- The attempt was reserved at revision 1 and the Project is ready at revision 3: no sequence of
calls binds it. -/
theorem stale_attempt_blocks : (servicesAfter ascii registry overtaken 3).projects.get?
        firstReservation.projectId = some ⟨"app", .ready, none, 3, none, 3⟩ ∧
      validateRelativeKey ascii "app" = .ok "app" ∧ (servicesAfter ascii registry overtaken 3).hasHost
        firstReservation.hostId 1 = true ∧ (servicesAfter ascii registry overtaken 3).workspaces = .empty ∧
      ∀ calls : List LedgerCall, ¬BoundAt (calls.foldl (ledgerStep ascii)
          (servicesAfter ascii registry overtaken 3)) firstReservation.projectId 3 := by
  have hproject : stale.projects.get?
      firstReservation.projectId = some ⟨"app", .ready, none, 3, none, 3⟩ := by
    decide +kernel
  have hstate : (openAttempt stale firstReservation.projectId).map (fun e => e.2.projectRevision) = some 1 ∧
      head stale
        firstReservation.projectId = none := by
    decide +kernel
  obtain ⟨hopen, hhead⟩ := hstate
  have hsound := sound_servicesAfter ascii (d := registry) rfl overtaken 3
  have hnot : ¬CanRebind stale
      firstReservation.projectId 3 := by
    rintro (⟨k, row, hh, -⟩ | ⟨k, row, ho, hrevision⟩ | ⟨ho, -⟩)
    · rw [hhead] at hh
      contradiction
    · rw [ho, map_some, hrevision] at hopen
      exact absurd (Option.some.inj hopen) (by decide)
    · rw [ho, map_none] at hopen
      exact absurd hopen.symm (some_ne_none 1)
  refine ⟨hproject, by rfl, by decide +kernel, by decide +kernel, fun calls hbound => ?_⟩
  exact (blocked_run (blocked_of_not_canRebind hsound.linked hproject hnot) calls).unbound hbound

end AgentBox.Control
