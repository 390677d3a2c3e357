import AgentBox.Kebui.Capacity
import AgentBox.Common.Run

/-!
# The admission journal

Any number of `KebuiAdmissionJournal` instances share one directory. A method takes the lock on the
directory, reads the snapshot file, and may replace it by a rename. The exclusive lock makes the methods
of different instances take turns, so a run is a list of calls.

What the operating system answers is arbitrary: every place where a method talks to it is a
`checkpoint`, at which the call goes on, an `OSError` is raised, the check behind it fails, or the process
dies. A process that dies leaves the directory as it is and takes its instance with it.
-/

namespace AgentBox.Kebui

/-- What the system answers at a checkpoint. -/
inductive Reply
  | fine
  | osError
  /-- the values it returned do not pass the check at this place -/
  | refused
  | crash
deriving DecidableEq, Repr

inductive Fault
  | admission (code : Code)
  | osError
  | crash
deriving DecidableEq, Repr

/-- What an instance holds in memory. -/
structure Instance where
  opened : Bool
  fenced : Bool
  readonly : Bool
  /-- the requests this instance accepted and has not finished -/
  live : List String
deriving DecidableEq, Repr

/-- The directory as the caller finds it, and the caller's instance. -/
structure Store where
  file : Option Bytes
  /-- temporary files that nobody removed -/
  orphans : ℕ
  /-- whether the caller's own temporary file is there -/
  temporary : Bool
  self : Instance
  asked : ℕ

abbrev Op := Method Fault Store

variable (replies : ℕ → Reply)

/-! ## The operating system -/

/-- The next answer of the system; `code` is what a failed check raises here. -/
def checkpoint (code : Code) : Op Unit := do
  let s ← get
  set { s with asked := s.asked + 1 }
  match replies s.asked with
  | .fine => pure ()
  | .osError => throw .osError
  | .refused => throw (.admission code)
  | .crash => throw .crash

/-- A `finally` clause that closes a file descriptor. -/
def closing {α : Type} (replies : ℕ → Reply) (body : Op α) : Op α := do
  let result ← tryCatch body fun e => do
    Method.onlyIf (e ≠ .crash) (checkpoint replies .storeUnavailable)
    throw e
  checkpoint replies .storeUnavailable
  return result

/-! ## Files -/

/-- `_check_directory` -/
def checkDirectory : Op Unit := do
  checkpoint replies .invalidDirectory
  checkpoint replies .directoryChanged

/-- `_file_identity` -/
def fileIdentity : Op Unit := do
  checkpoint replies .invalidSnapshot
  checkpoint replies .snapshotChanged
  checkDirectory replies

/-- `_check_inventory` -/
def checkInventory (empty : Bool) : Op Unit := do
  checkpoint replies .invalidInventory
  let s ← get
  let entries := s.orphans + (if s.temporary then 1 else 0) + (if s.file.isSome then 1 else 0)
  if empty then Method.raiseIf (entries ≠ 0) (.admission .invalidInventory)
  else Method.raiseIf (¬(s.file.isSome ∧ entries = 1)) (.admission .invalidInventory)

/-- `_read_barrier` -/
def readBarrier : Op Snapshot := do
  checkInventory replies false
  checkpoint replies .storeUnavailable
  let s ← get
  let payload ← Method.liftExcept (orRaise s.file .osError)
  closing replies do
    checkpoint replies .invalidSnapshot
    Method.raiseIf (¬(0 < payload.length ∧ payload.length ≤ maxSnapshotBytes))
      (.admission .invalidSnapshot)
    checkpoint replies .invalidSnapshot
    let snapshot ← Method.liftExcept ((decode payload).mapError .admission)
    fileIdentity replies
    checkpoint replies .storeUnavailable
    checkpoint replies .storeUnavailable
    fileIdentity replies
    checkInventory replies false
    return snapshot

variable (snapshot : Snapshot)

/-- The `try` block of `_commit`: write a temporary file, rename it over the snapshot, read it back. -/
def replaceFile (written : Bytes) : Op Unit := do
  checkDirectory replies
  checkpoint replies .storeUnavailable
  modify fun s => { s with temporary := true }
  closing replies do
    checkpoint replies .storeUnavailable
    checkpoint replies .storeUnavailable
    checkpoint replies .invalidSnapshot
    checkpoint replies .snapshotChanged
    checkDirectory replies
    checkpoint replies .storeUnavailable
    -- `os.replace`
    modify fun s => { s with file := some written, temporary := false }
    checkpoint replies .storeUnavailable
    checkpoint replies .snapshotChanged
    fileIdentity replies
  let stored ← readBarrier replies
  Method.raiseIf (stored ≠ snapshot) (.admission .snapshotChanged)

/-- The `finally` clause of `_commit`: `os.unlink`, with its `OSError` suppressed. -/
def unlink : Op Unit := do
  tryCatch (checkpoint replies .storeUnavailable) fun e =>
    if e = .crash then throw e
    else modify fun s => { s with orphans := s.orphans + (if s.temporary then 1 else 0) }
  modify fun s => { s with temporary := false }

/-- `_commit` -/
def commit : Op Unit := do
  let written ← Method.liftExcept ((encode snapshot).mapError .admission)
  tryCatch (replaceFile replies snapshot written) fun e => do
    Method.raiseIf (e = .crash) .crash
    modify fun s => { s with self := { s.self with fenced := true } }
    unlink replies
    throw (.admission .commitUncertain)
  unlink replies

/-- The codes that leave an instance usable. -/
def harmless : Code → Bool
  | .busy | .capacity | .conflict | .notObserved | .casConflict | .claimRetired | .invalidTransition
  | .alreadyInitialized | .readOnly | .invalidMetadata => true
  | _ => false

/-- `_locked` -/
def locked {α : Type} (replies : ℕ → Reply) (body : Op α) : Op α := do
  let s ← get
  Method.raiseIf (s.self.fenced ∨ ¬s.self.opened) (.admission .storeUnavailable)
  checkpoint replies .storeUnavailable
  checkpoint replies .busy
  tryCatch (do
    checkDirectory replies
    checkpoint replies .busy
    checkDirectory replies
    let result ← body
    checkDirectory replies
    return result) fun e =>
    match e with
    | .osError => do
      modify fun s => { s with self := { s.self with fenced := true } }
      throw (.admission .storeUnavailable)
    | .admission code => do
      Method.onlyIf (harmless code = false)
        (modify fun s => { s with self := { s.self with fenced := true } })
      throw (.admission code)
    | .crash => throw .crash

/-! ## Methods -/

/-- `_next` -/
def next (revision : ℕ) : Except Code ℕ :=
  if maxRevision ≤ revision then .error .revisionExhausted else .ok (revision + 1)

/-- `_find` -/
def find (request : AdmissionRequest) : Except Code (Option AdmissionRecord) :=
  match snapshot.records.find? (fun r => r.requestId == request.requestId) with
  | none => .ok none
  | some r => if r.request ≠ request then .error .conflict else .ok (some r)

/-- `close` -/
def close : Op Unit := modify fun s => { s with self := { s.self with opened := false, live := [] } }

/-- `__init__`: the directory is opened and checked. -/
def construct : Op Unit :=
  tryCatch (do
    checkpoint replies .invalidDirectory
    checkDirectory replies) fun e => do
    Method.raiseIf (e = .crash) .crash
    close
    throw (.admission .invalidDirectory)

/-- `initialize_for_test` -/
def initializeForTest : Op Unit := do
  construct replies
  tryCatch (do
    locked replies do
      checkInventory replies true
      checkpoint replies .storeUnavailable
      let s ← get
      Method.raiseIf s.file.isSome (.admission .alreadyInitialized)
      commit replies ⟨1, []⟩
    modify fun s => { s with self := { s.self with readonly := false } }) fun e => do
    close
    throw e

/-- The record that recovery leaves of an unfinished one. -/
def retire (r : AdmissionRecord) : Except Code AdmissionRecord := do
  if r.phase.finished ∨ r.phase = .unknown then return r
  let revision ← next r.recordRevision
  makeRecord r.request r.executionId .unknown revision r.receiptRef r.terminalStatus

/-- `open_existing` -/
def openExisting (recover : Bool) : Op Unit := do
  construct replies
  tryCatch (locked replies do
    let snapshot ← readBarrier replies
    Method.onlyIf (recover = true) do
      let records ← Method.liftExcept ((snapshot.records.mapM retire).mapError .admission)
      Method.onlyIf (records ≠ snapshot.records) do
        let revision ← Method.liftExcept ((next snapshot.journalRevision).mapError .admission)
        commit replies ⟨revision, records⟩
      modify fun s => { s with self := { s.self with readonly := false } }) fun e => do
    close
    throw e

variable (request : AdmissionRequest)

/-- `read` -/
def read : Op (Option AdmissionRecord) :=
  locked replies do
    let snapshot ← readBarrier replies
    Method.liftExcept ((find snapshot request).mapError .admission)

/-- The body of `accept` for a request that is not in the snapshot. -/
def admitNew (executionId : String)
    (snapshot : Snapshot) : Op (AdmissionRecord × Bool) := do
  let record ← Method.liftExcept
    ((makeRecord request executionId .accepted 1 none none).mapError .admission)
  Method.raiseIf (maxRecords ≤ snapshot.records.length ∨
    recordReservedBytes < reservedRecordBytes record) (.admission .capacity)
  Method.raiseIf
    (snapshot.records.any fun item => !item.phase.finished && decide (item.slot = record.slot))
    (.admission .busy)
  let revision ← Method.liftExcept ((next snapshot.journalRevision).mapError .admission)
  commit replies ⟨revision, snapshot.records ++ [record]⟩
  modify fun s => { s with self := { s.self with live := request.requestId :: s.self.live } }
  return (record, true)

/-- `accept` -/
def accept (executionId : String) : Op (AdmissionRecord × Bool) := do
  Method.raiseIf (isId "kexe_" executionId = false) (.admission .invalidMetadata)
  let s ← get
  Method.raiseIf s.self.readonly (.admission .readOnly)
  locked replies do
    let snapshot ← readBarrier replies
    let existing ← Method.liftExcept ((find snapshot request).mapError .admission)
    match existing with
    | some record => do
      Method.raiseIf (record.executionId ≠ executionId) (.admission .conflict)
      return (record, false)
    | none => admitNew replies request executionId snapshot

/-- The record that `transition` puts in place of `record`, where its checks allow it. -/
def successor (record : AdmissionRecord) (phase : AdmissionPhase)
    (receiptRef terminalStatus : Option String) : Except Code AdmissionRecord := do
  if phase ∉ record.phase.allowed then throw .invalidTransition
  if phase = .terminal ∧ record.phase = .acknowledged ∧ receiptRef ≠ record.receiptRef then
    throw .conflict
  if phase = .unknown ∧ (receiptRef.isSome ∨ terminalStatus.isSome) then throw .invalidMetadata
  let revision ← next record.recordRevision
  makeRecord record.request record.executionId phase revision
    (if phase = .unknown then record.receiptRef else receiptRef) terminalStatus

/-- The records with `updated` in place of the one with its request id. -/
def put (records : List AdmissionRecord) (updated : AdmissionRecord) : List AdmissionRecord :=
  records.map fun item => if item.requestId = updated.requestId then updated else item

/-- `transition` -/
def transition (expectedRevision : String)
    (phase : AdmissionPhase) (receiptRef terminalStatus : Option String) : Op AdmissionRecord := do
  let expected ← Method.liftExcept ((validateRevision expectedRevision).mapError .admission)
  let s ← get
  Method.raiseIf s.self.readonly (.admission .readOnly)
  locked replies do
    let snapshot ← readBarrier replies
    let found ← Method.liftExcept ((find snapshot request).mapError .admission)
    let record ← Method.liftExcept (orRaise found (.admission .notObserved))
    Method.raiseIf (record.recordRevision ≠ expected) (.admission .casConflict)
    let t ← get
    Method.raiseIf (request.requestId ∉ t.self.live) (.admission .claimRetired)
    let updated ← Method.liftExcept
      ((successor record phase receiptRef terminalStatus).mapError .admission)
    let revision ← Method.liftExcept ((next snapshot.journalRevision).mapError .admission)
    commit replies ⟨revision, put snapshot.records updated⟩
    Method.onlyIf (phase.finished ∨ phase = .unknown) (modify fun s =>
      { s with self := { s.self with live := s.self.live.filter (· ≠ request.requestId) } })
    return updated

/-! ## Runs -/

/-- The directory and every instance there has been. -/
structure System where
  file : Option Bytes
  orphans : ℕ
  instances : List Instance

/-- An empty directory before any instance. -/
def System.empty : System := ⟨none, 0, []⟩

inductive Call
  | initializeForTest (replies : ℕ → Reply)
  | openExisting (recover : Bool) (replies : ℕ → Reply)
  | accept (by_ : ℕ) (request : AdmissionRequest) (executionId : String) (replies : ℕ → Reply)
  | transition (by_ : ℕ) (request : AdmissionRequest) (expectedRevision : String)
      (phase : AdmissionPhase) (receiptRef terminalStatus : Option String) (replies : ℕ → Reply)
  | read (by_ : ℕ) (request : AdmissionRequest) (replies : ℕ → Reply)
  | close (by_ : ℕ)
  /-- the process of an instance dies between two of its calls -/
  | crash (by_ : ℕ)

/-- What an instance is before its directory is checked. -/
def Instance.fresh : Instance := ⟨true, false, true, []⟩

/-- What is left of an instance whose process died. -/
def Instance.dead (i : Instance) : Instance := { i with opened := false, live := [] }

variable (sys : System)

/-- The store that an instance works on. -/
def System.view (self : Instance) : Store := ⟨sys.file, sys.orphans, false, self, 0⟩

/-- How a call ended. -/
inductive Outcome
  | returned
  | raised (code : Code)
  | died
deriving DecidableEq, Repr

def outcomeOf {α : Type} : Except Fault α → Outcome
  | .ok _ => .returned
  | .error (.admission code) => .raised code
  | .error .osError => .raised .storeUnavailable
  | .error .crash => .died

/-- The instance that a call leaves behind. -/
def survivor {α : Type} (result : Except Fault α × Store) : Instance :=
  match result.1 with
  | .error .crash => result.2.self.dead
  | _ => result.2.self

/-- The directory that a call leaves behind; a process that dies abandons its temporary file. -/
def System.after {α : Type} (instances : List Instance) (result : Except Fault α × Store) : System :=
  ⟨result.2.file, result.2.orphans + (if result.2.temporary then 1 else 0), instances⟩

/-- A constructor: a new instance, at the end of the list. -/
def System.construct (m : Op Unit) : Outcome × System :=
  let result := m.call (sys.view .fresh)
  (outcomeOf result.1, System.after (sys.instances ++ [survivor result]) result)

/-- A method of an instance there is. -/
def System.invoke {α : Type} (sys : System) (i : ℕ) (m : Op α) : Outcome × System :=
  match sys.instances[i]? with
  | none => (.raised .storeUnavailable, sys)
  | some self =>
    let result := m.call (sys.view self)
    (outcomeOf result.1, System.after (sys.instances.set i (survivor result)) result)

def System.perform : Call → Outcome × System
  | .initializeForTest replies => sys.construct (initializeForTest replies)
  | .openExisting recover replies => sys.construct (openExisting replies recover)
  | .accept i request executionId replies => sys.invoke i (accept replies request executionId)
  | .transition i request expected phase receiptRef terminalStatus replies =>
    sys.invoke i (transition replies request expected phase receiptRef terminalStatus)
  | .read i request replies => sys.invoke i (read replies request)
  | .close i => sys.invoke i close
  | .crash i => (.died, { sys with instances := sys.instances.modify i .dead })

def System.step (call : Call) : System := (sys.perform call).2

/-- The directory after the first `k` calls of a run. -/
def reached (calls : List Call) (k : ℕ) : System := stateAt System.step .empty calls k

/-- The snapshot that is stored after the first `k` calls. -/
def storedAt (calls : List Call) (k : ℕ) : Option Snapshot :=
  (reached calls k).file.bind fun payload => (decode payload).toOption

end AgentBox.Kebui
