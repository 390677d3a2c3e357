import AgentBox.Common.Method
import AgentBox.Control.Tables

/-!
# The Project binding ledger

`ProjectBindingService` allocates one chain of bindings per Project. `reserve` stores the next attempt
before any call to the Runtime, `commit` makes the attempt with the attested digest the current head,
and `require_reconciliation` takes an attempt or the head out of use. Every method runs
`BEGIN IMMEDIATE`: it is one step, and an exception rolls it back.

The constraints, unique indexes and triggers of the table are part of the statements here, since a
write they refuse changes nothing. Python's Unicode tables are the parameter `Unicode`. `Effect` says
what a method that returns can have done; every result about the ledger starts from `effect_of_ledger`.
-/

namespace AgentBox.Control

variable {field : String} {x : Unit}

/-! ## Project keys -/

/-- The tables behind `unicodedata` and `str.isalnum`. -/
structure Unicode where
  /-- `unicodedata.normalize("NFC", key)` -/
  nfc : String → String
  category : Char → String
  isAlnum : Char → Bool

/-- The characters `str.strip()` removes. -/
def isSpace (c : Char) : Bool :=
  let n := c.toNat
  (9 ≤ n && n ≤ 13) || (28 ≤ n && n ≤ 32) || n == 0x85 || n == 0xA0 || n == 0x1680 ||
    (0x2000 ≤ n && n ≤ 0x200A) || n == 0x2028 || n == 0x2029 || n == 0x202F || n == 0x205F ||
    n == 0x3000

/-- `str.strip()` -/
def strip (s : List Char) : List Char :=
  ((s.dropWhile isSpace).reverse.dropWhile isSpace).reverse

/-- `\A[^/\\.][^/\\]*\Z` -/
def matchesRelativeKey : List Char → Bool
  | [] => false
  | c :: rest => c != '/' && c != '\\' && c != '.' && rest.all fun c => c != '/' && c != '\\'

def validateRelativeKey (u : Unicode) (key : String) : Except String String :=
  let chars := key.toList
  if chars.isEmpty || 80 < chars.length || chars != strip chars || key == "." || key == ".." ||
      !matchesRelativeKey chars || u.nfc key != key then
    .error "relative_key is invalid"
  else if chars.any fun c => (u.category c).toList.head? == some 'C' then
    .error "relative_key contains a Unicode category C character"
  else if chars.any fun c => c.toNat < 32 || (0x7F ≤ c.toNat && c.toNat ≤ 0x9F) then
    .error "relative_key contains a control character"
  else if chars.any fun c => !(u.isAlnum c || ['-', '_', '.', ' '].contains c) then
    .error "relative_key contains unsupported characters"
  else .ok key

/-! ## The table -/

/-- `length(relative_key) BETWEEN 1 AND 80` and what follows it. -/
def relativeKeyOk (key : String) : Bool :=
  let chars := key.toList
  decide (1 ≤ (cString key).length) && decide ((cString key).length ≤ 80) &&
    chars.head? != some ' ' && chars.getLast? != some ' ' && key != "." && key != ".." &&
    !chars.contains '/' && !chars.contains '\\'

/-- `ck_waw_project_bindings_predecessor`. A comparison with `NULL` does not fail a check. -/
def predecessorOk (revision : ℕ) (previousRevision : Option ℕ) (previousDigest : Option String) : Bool :=
  if revision = 1 then previousRevision.isNone && previousDigest.isNone
  else (previousRevision.all fun k => k + 1 == revision) && previousDigest.all isDigest

namespace BindingRow

/-- The check constraints on the row stored under a Project and a revision. -/
def checked (projectId : String) (revision : ℕ) (r : BindingRow) : Bool :=
  isProjectId projectId && relativeKeyOk r.relativeKey && decide (1 ≤ r.projectRevision) &&
    decide (1 ≤ revision) && r.bindingDigest.all isDigest &&
    predecessorOk revision r.previousRevision r.previousDigest && isHostId r.hostId &&
    decide (1 ≤ r.hostRevision) &&
    ((r.status != .current && r.status != .superseded) || r.bindingDigest.isSome)

variable (r : BindingRow)

/-- An attempt without a digest that can still be committed. -/
def isOpen : Bool :=
  r.bindingDigest.isNone && (r.status == .pending || r.status == .reconciliationRequired)

/-- An attested binding that has not been superseded. -/
def isHead : Bool :=
  r.bindingDigest.isSome && (r.status == .current || r.status == .reconciliationRequired)

/-- The rows of the index `uq_waw_project_bindings_open_attempt`. -/
def inOpenIndex : Bool :=
  r.status == .pending || (r.status == .reconciliationRequired && r.bindingDigest.isNone)

/-- The rows of the index `uq_waw_project_bindings_head`. -/
def inHeadIndex : Bool :=
  r.status == .current || (r.status == .reconciliationRequired && r.bindingDigest.isSome)

/-- The row passes the trigger `trg_waw_project_bindings_immutable_identity`. -/
def keepsIdentity (old new : BindingRow) : Bool :=
  new.relativeKey == old.relativeKey && new.projectRevision == old.projectRevision &&
    new.previousRevision == old.previousRevision && new.previousDigest == old.previousDigest &&
    new.hostId == old.hostId && new.hostRevision == old.hostRevision &&
    new.createdAt == old.createdAt &&
    (old.bindingDigest.isNone || new.bindingDigest == old.bindingDigest)

end BindingRow

/-- The trigger `trg_waw_project_bindings_legal_transition`. -/
def isLegal : BindingStatus → BindingStatus → Bool
  | .pending, new => new != .superseded
  | .current, new => new != .pending
  | .reconciliationRequired, new => new != .pending
  | .superseded, new => new == .superseded

section
variable (d : Database) (projectId : String) (revision : ℕ) (r : BindingRow)

/-- The open attempt of a Project, with its revision. -/
def openAttempt : Option ((String × ℕ) × BindingRow) :=
  d.bindings.firstEntry fun k r => k.1 == projectId && r.isOpen

/-- The head of a Project's chain, with its revision. -/
def head : Option ((String × ℕ) × BindingRow) :=
  d.bindings.firstEntry fun k r => k.1 == projectId && r.isHead

/-- No other row of the Project is in a unique index together with this one. -/
def isUnique (index : BindingRow → Bool) (projectId : String) (revision : ℕ) (r : BindingRow) : Bool :=
  !index r || (d.bindings.firstEntry fun k s =>
    k.1 == projectId && k.2 != revision && index s).isNone

/-- The foreign key to the predecessor; it holds where a column is `NULL`. -/
def hasPredecessor : Bool :=
  match r.previousRevision, r.previousDigest with
  | some k, some digest => (d.bindings.get? (projectId, k)).any fun s => s.bindingDigest == some digest
  | _, _ => true

def insertBinding : Except ServiceError Database :=
  if (projectId, revision) ∉ d.bindings ∧ r.checked projectId revision ∧ projectId ∈ d.projects ∧
      hasPredecessor d projectId r ∧ d.hasHost r.hostId r.hostRevision ∧
      isUnique d BindingRow.inOpenIndex projectId revision r ∧
      isUnique d BindingRow.inHeadIndex projectId revision r then
    .ok { d with bindings := d.bindings.set (projectId, revision) r }
  else .error (.conflict "binding reservation conflicted")

/-- An update by primary key. -/
def updateBinding : Except ServiceError Database :=
  match d.bindings.get? (projectId, revision) with
  | none => .error .staleData
  | some old =>
    if old.keepsIdentity r ∧ isLegal old.status r.status ∧ r.checked projectId revision ∧
        isUnique d BindingRow.inOpenIndex projectId revision r ∧
        isUnique d BindingRow.inHeadIndex projectId revision r then
      .ok { d with bindings := d.bindings.set (projectId, revision) r }
    else .error .integrity

/-! ## Fencing workspaces -/

/-- `state NOT IN ('EXITED', 'STOPPED', 'STOPPING')` -/
def WorkspaceState.isLive (s : WorkspaceState) : Bool := !s.isTerminal && s != .stopping

/-- The row a fence leaves. -/
def retired (failureCode : String) (now : ℕ) (r : WorkspaceRow) : WorkspaceRow :=
  { r with
    state := .unknown
    reconciliationState := .reconciliationRequired
    failureCode := some failureCode
    revision := r.revision + 1
    updatedAt := now
    lastSeenAt := now }

/-- Retire all workspaces that satisfy `p`, or none. -/
def fenceWorkspaces (p : WorkspaceRow → Bool) (failureCode : String) (exhausted : ServiceError)
    (now : ℕ) : Except ServiceError Database :=
  if (d.workspaces.first fun r => p r && decide (maxSqliteSequence ≤ r.revision)).isSome then
    .error exhausted
  else if (d.workspaces.first fun r => p r && !(retired failureCode now r).checked).isSome then
    .error .integrity
  else .ok { d with workspaces := d.workspaces.updateWhere p (retired failureCode now) }

/-- `_fence_binding_workspaces`; a binding without a digest has none. -/
def fenceBindingWorkspaces (now : ℕ) : Except ServiceError Database :=
  match r.bindingDigest with
  | none => pure d
  | some digest =>
    let code := "BINDING_RECONCILIATION_REQUIRED"
    fenceWorkspaces d (fun w => w.projectId == projectId && w.bindingRevision == revision &&
      w.bindingDigest == digest && w.state.isLive && !(w.state == .unknown &&
        w.reconciliationState == .reconciliationRequired && w.failureCode == some code))
      code (.conflict "workspace revision is exhausted") now

end

/-! ## The methods -/

/-- `_identifier` and `_digest` -/
def checkPattern (field : String) (ok : Bool) : Except ServiceError Unit :=
  if ok then pure () else throw (.conflict (field ++ " is invalid"))

/-- `_positive_integer` -/
def positiveInteger (field : String) (n : ℕ) : Except ServiceError Unit :=
  checkPattern field (decide (1 ≤ n) && decide (n ≤ maxSqliteSequence))

@[simp] theorem checkPattern_eq_ok_iff {ok : Bool} : checkPattern field ok = .ok x ↔ ok = true := by
  cases ok <;> simp [checkPattern, pure, Except.pure, throw, throwThe, MonadExceptOf.throw]

@[simp] theorem positiveInteger_eq_ok_iff {n : ℕ} :
    positiveInteger field n = .ok x ↔ 1 ≤ n ∧ n ≤ maxSqliteSequence := by
  simp [positiveInteger]

/-- The arguments of `reserve`. -/
structure Reservation where
  projectId : String
  expectedProjectRevision : ℕ
  hostId : String
  hostRevision : ℕ
  expectedHeadRevision : Option ℕ
  expectedHeadDigest : Option String
  deriving DecidableEq

/-- The expected head is given in full or not at all. -/
def Reservation.checkHead (q : Reservation) : Except ServiceError Unit :=
  match q.expectedHeadRevision, q.expectedHeadDigest with
  | none, none => pure ()
  | some revision, some digest => do
      positiveInteger "expected_head_revision" revision
      checkPattern "expected_head_digest" (isDigest digest)
  | _, _ => throw (.conflict "binding predecessor is incomplete")

variable (q : Reservation) (relativeKey : String)

/-- The row a reservation stores. -/
def Reservation.attempt (now : ℕ) : BindingRow where
  relativeKey := relativeKey
  projectRevision := q.expectedProjectRevision
  bindingDigest := none
  previousRevision := q.expectedHeadRevision
  previousDigest := q.expectedHeadDigest
  hostId := q.hostId
  hostRevision := q.hostRevision
  status := .pending
  createdAt := now
  updatedAt := now

/-- The open attempt is the one the caller asks for. -/
def Reservation.isReplayOf (r : BindingRow) : Prop :=
  r.relativeKey = relativeKey ∧ r.projectRevision = q.expectedProjectRevision ∧
    r.previousRevision = q.expectedHeadRevision ∧ r.previousDigest = q.expectedHeadDigest ∧
    r.hostId = q.hostId ∧ r.hostRevision = q.hostRevision

instance (q : Reservation) (relativeKey : String) (r : BindingRow) :
    Decidable (q.isReplayOf relativeKey r) :=
  inferInstanceAs (Decidable (_ ∧ _))

/-- What a method returns: a row with its revision, and the tables it leaves. -/
abbrev Outcome := (ℕ × BindingRow) × Database

inductive LedgerCall where
  | reserve (q : Reservation) (now : ℕ)
  | commit (projectId : String) (bindingRevision expectedProjectRevision : ℕ) (bindingDigest : String)
      (now : ℕ)
  | requireReconciliation (projectId : String) (bindingRevision : ℕ)
      (expectedBindingDigest : Option String) (now : ℕ)
  deriving DecidableEq

section
variable (u : Unicode) (d : Database) (projectId : String) (row : BindingRow)

/-- The Project's key, where a Runtime could use it. -/
def compatibleKey (project : Project) : Except ServiceError String :=
  match validateRelativeKey u project.relativePath with
  | .error _ => throw (.notReady "Project relative key is not WAW-compatible")
  | .ok key => pure key

/-- The revision after the head the caller has observed. -/
def nextRevision (q : Reservation) (relativeKey : String) : Except ServiceError ℕ :=
  match head d q.projectId with
  | none =>
    if q.expectedHeadRevision.isSome ∨ q.expectedHeadDigest.isSome then
      throw (.conflict "binding predecessor does not exist")
    else pure 1
  | some ((_, revision), row) => do
      if some revision ≠ q.expectedHeadRevision ∨ row.bindingDigest ≠ q.expectedHeadDigest then
        throw (.conflict "binding predecessor is stale")
      if relativeKey ≠ row.relativeKey ∧ q.expectedProjectRevision = row.projectRevision then
        throw (.conflict "Project identity changed without a revision advance")
      if row.status = .current ∧ q.expectedProjectRevision = row.projectRevision ∧
          relativeKey = row.relativeKey ∧ q.hostId = row.hostId ∧ q.hostRevision = row.hostRevision then
        throw (.conflict "current binding requires reconciliation before an unchanged advance")
      if maxSqliteSequence ≤ revision then throw (.conflict "binding revision is exhausted")
      if (d.workspaces.first fun w => w.projectId == q.projectId && !w.state.isTerminal).isSome then
        throw (.conflict "Project binding cannot advance while a workspace is non-terminal")
      return revision + 1

def reserve (q : Reservation) (now : ℕ) : Except ServiceError Outcome := do
  checkPattern "project_id" (isProjectId q.projectId)
  positiveInteger "expected_project_revision" q.expectedProjectRevision
  checkPattern "runtime_host_installation_id" (isHostId q.hostId)
  positiveInteger "runtime_host_installation_revision" q.hostRevision
  q.checkHead
  let project ← orRaise (d.projects.get? q.projectId) (.notReady q.projectId)
  if project.archivedAt.isSome ∨ project.state ≠ .ready ∨
      project.revision ≠ q.expectedProjectRevision then
    throw (.notReady q.projectId)
  let relativeKey ← compatibleKey u project
  if !d.hasHost q.hostId q.hostRevision then
    throw (.conflict "runtime host identity is not current")
  match openAttempt d q.projectId with
  | some ((_, revision), row) => do
      if ¬q.isReplayOf relativeKey row then throw (.conflict "another binding attempt is pending")
      return ((revision, row), d)
  | none => do
      let revision ← nextRevision d q relativeKey
      let d' ← insertBinding d q.projectId revision (q.attempt relativeKey now)
      return ((revision, q.attempt relativeKey now), d')

/-- The row a superseded head leaves. -/
def superseded (now : ℕ) : BindingRow :=
  { row with status := .superseded, updatedAt := now }

/-- The predecessor of the attempt that is about to become the head steps down. -/
def supersede (now : ℕ) : Except ServiceError Database :=
  match row.previousRevision with
  | none =>
    if (head d projectId).isSome then throw (.conflict "first binding already has a head") else pure d
  | some k => do
      let predecessor ← orRaise (d.bindings.get? (projectId, k)) (.conflict "binding predecessor changed")
      if predecessor.bindingDigest ≠ row.previousDigest ∨
          (predecessor.status ≠ .current ∧ predecessor.status ≠ .reconciliationRequired) then
        throw (.conflict "binding predecessor changed")
      updateBinding d projectId k (superseded predecessor now)

/-- The row `commit` leaves. -/
def attested (digest : String) (now : ℕ) : BindingRow :=
  { row with bindingDigest := some digest, status := .current, updatedAt := now }

/-- The part of `commit` for a row that is not current yet. -/
def commitAttempt (revision expectedProjectRevision : ℕ) (digest : String)
    (row : BindingRow) (now : ℕ) : Except ServiceError Outcome := do
  if !row.isOpen then throw (.conflict "binding attempt is not committable")
  let project ← orRaise (d.projects.get? projectId) (.notReady projectId)
  let relativeKey ← compatibleKey u project
  if project.archivedAt.isSome ∨ project.state ≠ .ready ∨ project.revision ≠ expectedProjectRevision ∨
      relativeKey ≠ row.relativeKey ∨ row.projectRevision ≠ expectedProjectRevision then
    throw (.notReady projectId)
  if !d.hasHost row.hostId row.hostRevision then throw (.conflict "runtime host identity changed")
  let d' ← supersede d projectId row now
  let d'' ← updateBinding d' projectId revision (attested row digest now)
  return ((revision, attested row digest now), d'')

def commit (bindingRevision expectedProjectRevision : ℕ) (bindingDigest : String)
    (now : ℕ) : Except ServiceError Outcome := do
  checkPattern "project_id" (isProjectId projectId)
  positiveInteger "binding_revision" bindingRevision
  positiveInteger "expected_project_revision" expectedProjectRevision
  checkPattern "binding_digest" (isDigest bindingDigest)
  let row ← orRaise (d.bindings.get? (projectId, bindingRevision)) (.notFound projectId)
  if row.status = .current then
    if row.bindingDigest = some bindingDigest ∧ row.projectRevision = expectedProjectRevision then
      pure ((bindingRevision, row), d)
    else throw (.conflict "binding attestation differs from current")
  else commitAttempt u d projectId bindingRevision expectedProjectRevision bindingDigest row now

/-- The row `require_reconciliation` leaves. -/
def doubted (now : ℕ) : BindingRow :=
  { row with status := .reconciliationRequired, updatedAt := now }

def requireReconciliation (bindingRevision : ℕ)
    (expectedBindingDigest : Option String) (now : ℕ) : Except ServiceError Outcome := do
  checkPattern "project_id" (isProjectId projectId)
  positiveInteger "binding_revision" bindingRevision
  checkPattern "expected_binding_digest" (expectedBindingDigest.all isDigest)
  let row ← orRaise (d.bindings.get? (projectId, bindingRevision)) (.notFound projectId)
  if row.bindingDigest ≠ expectedBindingDigest then
    throw (.conflict "binding reconciliation target is stale")
  match row.status with
  | .reconciliationRequired => do
      let d' ← fenceBindingWorkspaces d projectId bindingRevision row now
      return ((bindingRevision, row), d')
  | .superseded => throw (.conflict "binding is not reconcilable")
  | .pending | .current => do
      let d' ← updateBinding d projectId bindingRevision (doubted row now)
      let d'' ← fenceBindingWorkspaces d' projectId bindingRevision row now
      return ((bindingRevision, doubted row now), d'')

def ledger : LedgerCall → Except ServiceError Outcome
  | .reserve q now => reserve u d q now
  | .commit projectId revision expected digest now => commit u d projectId revision expected digest now
  | .requireReconciliation projectId revision digest now =>
    requireReconciliation d projectId revision digest now

/-- The tables after a call: an exception leaves them as they were. -/
def ledgerStep (c : LedgerCall) : Database :=
  match ledger u d c with
  | .ok (_, d') => d'
  | .error _ => d

end

/-! ## What a method can have done -/

section
variable {u : Unicode} {d d' : Database} {key p : String} {k now : ℕ} {o : Outcome}
  {r row : BindingRow} {q : Reservation} {n expected : ℕ} {digest : String}

theorem compatibleKey_eq_ok_iff {project : Project} :
    compatibleKey u project = .ok key ↔ validateRelativeKey u project.relativePath = .ok key := by
  unfold compatibleKey
  cases validateRelativeKey u project.relativePath with
  | error e => simp [throw, throwThe, MonadExceptOf.throw]
  | ok k => simp [pure, Except.pure]

/-- The validator returns the key it was given. -/
theorem of_validateRelativeKey {key' : String} (h : validateRelativeKey u key = .ok key') : key' = key := by
  unfold validateRelativeKey at h
  simp only at h
  split_ifs at h
  exact (Except.ok.inj h).symm

theorem insertBinding_eq_ok (h : insertBinding d p k r = .ok d') :
    (p, k) ∉ d.bindings ∧ r.checked p k = true ∧ d' = { d with bindings := d.bindings.set (p, k) r } := by
  unfold insertBinding at h
  split_ifs at h with hok
  exact ⟨hok.1, hok.2.1, (Except.ok.inj h).symm⟩

theorem updateBinding_eq_ok (h : updateBinding d p k r = .ok d') :
    r.checked p k = true ∧ d' = { d with bindings := d.bindings.set (p, k) r } := by
  unfold updateBinding at h
  split at h
  · contradiction
  · split_ifs at h with hok
    exact ⟨hok.2.2.1, (Except.ok.inj h).symm⟩

theorem fenceWorkspaces_eq_ok {p : WorkspaceRow → Bool} {code : String} {e : ServiceError}
    (h : fenceWorkspaces d p code e now = .ok d') :
    d' = { d with workspaces := d.workspaces.updateWhere p (retired code now) } := by
  unfold fenceWorkspaces at h
  split_ifs at h
  exact (Except.ok.inj h).symm

/-- A fence of a binding changes workspaces only. -/
theorem fenceBindingWorkspaces_eq_ok (h : fenceBindingWorkspaces d p k r now = .ok d') :
    ∃ ws, d' = { d with workspaces := ws } := by
  unfold fenceBindingWorkspaces at h
  split at h
  · exact ⟨d.workspaces, (Except.ok.inj h).symm⟩
  · exact ⟨_, fenceWorkspaces_eq_ok h⟩

/-- The Project may be bound at this revision. -/
def IsReadyAt (d : Database) (p : String) (key : String) (revision : ℕ) (u : Unicode) : Prop :=
  ∃ project, d.projects.get? p = some project ∧ project.archivedAt = none ∧ project.state = .ready ∧
    project.revision = revision ∧ validateRelativeKey u project.relativePath = .ok key

/-- What a method of the ledger that returns can have done to the tables. -/
inductive Effect (u : Unicode) (d : Database) : Database → Prop
  /-- At most workspaces were fenced. -/
  | fenced (ws : Dict String WorkspaceRow) : Effect u d { d with workspaces := ws }
  | reservedFirst {q : Reservation} {key : String} (now : ℕ) :
      IsReadyAt d q.projectId key q.expectedProjectRevision u → d.hasHost q.hostId q.hostRevision = true →
      openAttempt d q.projectId = none → head d q.projectId = none →
      q.expectedHeadRevision = none → q.expectedHeadDigest = none → (q.projectId, 1) ∉ d.bindings →
      (q.attempt key now).checked q.projectId 1 = true →
      Effect u d { d with bindings := d.bindings.set (q.projectId, 1) (q.attempt key now) }
  | reservedNext {q : Reservation} {key : String} {k : String × ℕ} {row : BindingRow} (now : ℕ) :
      IsReadyAt d q.projectId key q.expectedProjectRevision u → d.hasHost q.hostId q.hostRevision = true →
      openAttempt d q.projectId = none → head d q.projectId = some (k, row) →
      q.expectedHeadRevision = some k.2 → q.expectedHeadDigest = row.bindingDigest →
      k.2 < maxSqliteSequence → (q.projectId, k.2 + 1) ∉ d.bindings →
      (q.attempt key now).checked q.projectId (k.2 + 1) = true →
      Effect u d { d with bindings := d.bindings.set (q.projectId, k.2 + 1) (q.attempt key now) }
  | committedFirst {p : String} {k : ℕ} {row : BindingRow} {digest : String} (now : ℕ) :
      d.bindings.get? (p, k) = some row → row.isOpen = true →
      IsReadyAt d p row.relativeKey row.projectRevision u → isDigest digest = true →
      row.previousRevision = none → (attested row digest now).checked p k = true →
      Effect u d { d with bindings := d.bindings.set (p, k) (attested row digest now) }
  | committedNext {p : String} {k j : ℕ} {row pred : BindingRow} {digest : String} (now : ℕ) :
      d.bindings.get? (p, k) = some row → row.isOpen = true →
      IsReadyAt d p row.relativeKey row.projectRevision u → isDigest digest = true →
      row.previousRevision = some j → d.bindings.get? (p, j) = some pred →
      (superseded pred now).checked p j = true → (attested row digest now).checked p k = true →
      Effect u d { d with bindings :=
        (d.bindings.set (p, j) (superseded pred now)).set (p, k) (attested row digest now) }
  | doubted {p : String} {k : ℕ} {row : BindingRow} (now : ℕ) (ws : Dict String WorkspaceRow) :
      d.bindings.get? (p, k) = some row → row.status = .pending ∨ row.status = .current →
      (Control.doubted row now).checked p k = true →
      Effect u d { d with
        bindings := d.bindings.set (p, k) (doubted row now)
        workspaces := ws }

theorem Effect.unchanged : Effect u d d := .fenced d.workspaces

/-- Where there is a head, the next revision is given out after five checks. -/
theorem nextRevision_of_head {k : String × ℕ} (hhead : head d q.projectId = some (k, row)) :
    nextRevision d q key = .ok n ↔
      ¬(some k.2 ≠ q.expectedHeadRevision ∨ row.bindingDigest ≠ q.expectedHeadDigest) ∧
      ¬(key ≠ row.relativeKey ∧ q.expectedProjectRevision = row.projectRevision) ∧
      ¬(row.status = .current ∧ q.expectedProjectRevision = row.projectRevision ∧
        key = row.relativeKey ∧ q.hostId = row.hostId ∧ q.hostRevision = row.hostRevision) ∧
      ¬maxSqliteSequence ≤ k.2 ∧
      ¬(d.workspaces.first fun w => w.projectId == q.projectId && !w.state.isTerminal).isSome = true ∧
      k.2 + 1 = n := by
  unfold nextRevision
  rw [hhead]
  simp only [throw_or_eq_ok_iff, pure_eq_ok_iff]

/-- The revision a reservation gets follows the head the caller named. -/
theorem of_nextRevision (h : nextRevision d q key = .ok n) :
    (head d q.projectId = none ∧ n = 1 ∧ q.expectedHeadRevision = none ∧ q.expectedHeadDigest = none) ∨
      ∃ k row, head d q.projectId = some (k, row) ∧ n = k.2 + 1 ∧ q.expectedHeadRevision = some k.2 ∧
        q.expectedHeadDigest = row.bindingDigest ∧ k.2 < maxSqliteSequence := by
  cases hhead : head d q.projectId with
  | none =>
    unfold nextRevision at h
    rw [hhead] at h
    simp only at h
    split_ifs at h with hsome
    obtain ⟨hr, hd⟩ := not_or.mp hsome
    rw [Option.not_isSome_iff_eq_none] at hr hd
    exact .inl ⟨rfl, (Except.ok.inj h).symm, hr, hd⟩
  | some e =>
    obtain ⟨hstale, -, -, hmax, -, hn⟩ := (nextRevision_of_head hhead).mp h
    obtain ⟨hr, hd⟩ := not_or.mp hstale
    exact .inr ⟨e.1, e.2, rfl, hn.symm, (not_not.mp hr).symm, (not_not.mp hd).symm, Nat.lt_of_not_le hmax⟩

theorem effect_of_reserve (h : reserve u d q now = .ok o) : Effect u d o.2 := by
  simp only [reserve, bind_eq_ok_iff, throw_or_eq_ok_iff, orRaise_eq_ok_iff, compatibleKey_eq_ok_iff] at h
  obtain ⟨-, -, -, -, -, -, -, -, -, -, project, hproject, hready, key, hkey, hhost, h⟩ := h
  simp only [not_or, Option.not_isSome_iff_eq_none, not_not] at hready
  have hat : IsReadyAt d q.projectId key q.expectedProjectRevision u :=
    ⟨project, hproject, hready.1, hready.2.1, hready.2.2, hkey⟩
  have hhost : d.hasHost q.hostId q.hostRevision = true := by simpa using hhost
  split at h
  · simp only [throw_or_eq_ok_iff, pure_eq_ok_iff] at h
    obtain ⟨-, rfl⟩ := h
    exact .unchanged
  · next hopen =>
    simp only [bind_eq_ok_iff, pure_eq_ok_iff] at h
    obtain ⟨n, hn, d', hinsert, rfl⟩ := h
    obtain ⟨hnew, hchecked, rfl⟩ := insertBinding_eq_ok hinsert
    obtain ⟨hhead, rfl, hr, hd⟩ | ⟨k, row, hhead, rfl, hr, hd, hmax⟩ := of_nextRevision hn
    · exact .reservedFirst now hat hhost hopen hhead hr hd hnew hchecked
    · exact .reservedNext now hat hhost hopen hhead hr hd hmax hnew hchecked

theorem effect_of_commitAttempt (hdigest : isDigest digest = true) (hrow : d.bindings.get? (p, k) = some row)
    (h : commitAttempt u d p k expected digest row now = .ok o) : Effect u d o.2 := by
  simp only [commitAttempt, bind_eq_ok_iff, throw_or_eq_ok_iff, orRaise_eq_ok_iff,
    compatibleKey_eq_ok_iff, pure_eq_ok_iff] at h
  obtain ⟨hopen, project, hproject, key, hkey, hready, -, d', hsupersede, d'', hupdate, rfl⟩ := h
  simp only [not_or, Option.not_isSome_iff_eq_none, not_not] at hready
  obtain ⟨harchived, hstate, hrev, rfl, hexpected⟩ := hready
  have hopen : row.isOpen = true := by simpa using hopen
  have hat : IsReadyAt d p row.relativeKey row.projectRevision u :=
    ⟨project, hproject, harchived, hstate, hrev.trans hexpected.symm, hkey⟩
  obtain ⟨hchecked, rfl⟩ := updateBinding_eq_ok hupdate
  unfold supersede at hsupersede
  split at hsupersede
  · next hprevious =>
    split_ifs at hsupersede
    obtain rfl := Except.ok.inj hsupersede
    exact .committedFirst now hrow hopen hat hdigest hprevious hchecked
  · next j hprevious =>
    simp only [bind_eq_ok_iff, throw_or_eq_ok_iff, orRaise_eq_ok_iff] at hsupersede
    obtain ⟨pred, hpred, -, hupdate'⟩ := hsupersede
    obtain ⟨hchecked', rfl⟩ := updateBinding_eq_ok hupdate'
    exact .committedNext now hrow hopen hat hdigest hprevious hpred hchecked' hchecked

theorem effect_of_commit (h : commit u d p k expected digest now = .ok o) : Effect u d o.2 := by
  simp only [commit, bind_eq_ok_iff, checkPattern_eq_ok_iff, orRaise_eq_ok_iff] at h
  obtain ⟨-, -, -, -, -, -, -, hdigest, row, hrow, h⟩ := h
  split_ifs at h
  · obtain rfl := Except.ok.inj h
    exact .unchanged
  · exact effect_of_commitAttempt hdigest hrow h

theorem effect_of_requireReconciliation {digest : Option String}
    (h : requireReconciliation d p k digest now = .ok o) : Effect u d o.2 := by
  simp only [requireReconciliation, bind_eq_ok_iff, throw_or_eq_ok_iff, orRaise_eq_ok_iff] at h
  obtain ⟨-, -, -, -, -, -, row, hrow, -, h⟩ := h
  -- `PENDING` and `CURRENT` go the same way
  have hmarked : ∀ o, (row.status = .pending ∨ row.status = .current) →
      (do let d' ← updateBinding d p k (Control.doubted row now)
          let d'' ← fenceBindingWorkspaces d' p k row now
          pure ((k, Control.doubted row now), d'') : Except ServiceError Outcome) = .ok o →
      Effect u d o.2 := by
    intro o hstatus ho
    simp only [bind_eq_ok_iff, pure_eq_ok_iff] at ho
    obtain ⟨d', hupdate, d'', hfence, rfl⟩ := ho
    obtain ⟨hchecked, rfl⟩ := updateBinding_eq_ok hupdate
    obtain ⟨ws, rfl⟩ := fenceBindingWorkspaces_eq_ok hfence
    exact .doubted now ws hrow hstatus hchecked
  split at h
  · simp only [bind_eq_ok_iff, pure_eq_ok_iff] at h
    obtain ⟨d', hfence, rfl⟩ := h
    obtain ⟨ws, rfl⟩ := fenceBindingWorkspaces_eq_ok hfence
    exact .fenced ws
  · contradiction
  · next hstatus => exact hmarked o (.inl hstatus) h
  · next hstatus => exact hmarked o (.inr hstatus) h

/-- A step of the ledger leaves the tables alone or has one of the effects. -/
theorem effect_of_ledger (u : Unicode) (d : Database) (c : LedgerCall) : Effect u d (ledgerStep u d c) := by
  unfold ledgerStep
  split
  · next o d' h =>
    cases c with
    | reserve q now => exact effect_of_reserve h
    | commit p k expected digest now => exact effect_of_commit h
    | requireReconciliation p k digest now => exact effect_of_requireReconciliation h
  · exact .unchanged

end

end AgentBox.Control
