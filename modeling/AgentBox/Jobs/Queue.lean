import AgentBox.Common.Sha256
import AgentBox.Common.SplitCalls
import AgentBox.Common.Table
import AgentBox.Common.Text

/-!
# The durable job queue

`JobService` over the `jobs` table. `enqueue`, `recover_expired` and `claim_next` open their transaction
with `BEGIN IMMEDIATE` and are atomic. The other methods select the job, check in Python that it is
running, and update by primary key the columns that differ from what they read; another transaction
may commit between the two statements, and the update then lands on a row the method never saw.

The payload check and the redaction of summaries are parameters of the service. The `job_events`
rows are left out: no method of the queue decides anything from them.
-/

namespace AgentBox.Jobs

/-! ## Rows -/

inductive JobStatus where
  | queued
  | running
  | succeeded
  | failed
  | cancelled
  | needsAttention
  deriving DecidableEq, Repr

/-- The text stored for a status. -/
def JobStatus.value : JobStatus → String
  | .queued => "queued"
  | .running => "running"
  | .succeeded => "succeeded"
  | .failed => "failed"
  | .cancelled => "cancelled"
  | .needsAttention => "needs_attention"

/-- `status in TERMINAL_JOB_STATES` -/
def JobStatus.isTerminal : JobStatus → Bool
  | .succeeded | .failed | .cancelled | .needsAttention => true
  | .queued | .running => false

/-- A row of `jobs`; times are microseconds. -/
structure Job (π : Type) where
  id : String
  type : String
  status : JobStatus
  createdAt : ℕ
  startedAt : Option ℕ
  finishedAt : Option ℕ
  requestedBy : String
  targetType : String
  targetId : Option String
  projectId : Option String
  progress : Option ℤ
  phase : Option String
  resultSummary : Option String
  errorCode : Option String
  errorSummary : Option String
  payload : π
  idempotencyKeyDigest : String
  resourceLockKey : String
  attempt : ℕ
  maxAttempts : ℕ
  leaseOwner : Option String
  leaseExpiresAt : Option ℕ
  heartbeatAt : Option ℕ
  requestId : Option String
  deriving DecidableEq

namespace Job

variable {π : Type}

/-- The stored row after an update that turned `read` into `new`. -/
def merge (read new stored : Job π) : Job π :=
  { stored with
    status := column read.status new.status stored.status
    startedAt := column read.startedAt new.startedAt stored.startedAt
    finishedAt := column read.finishedAt new.finishedAt stored.finishedAt
    progress := column read.progress new.progress stored.progress
    phase := column read.phase new.phase stored.phase
    resultSummary := column read.resultSummary new.resultSummary stored.resultSummary
    errorCode := column read.errorCode new.errorCode stored.errorCode
    errorSummary := column read.errorSummary new.errorSummary stored.errorSummary
    attempt := column read.attempt new.attempt stored.attempt
    leaseOwner := column read.leaseOwner new.leaseOwner stored.leaseOwner
    leaseExpiresAt := column read.leaseExpiresAt new.leaseExpiresAt stored.leaseExpiresAt
    heartbeatAt := column read.heartbeatAt new.heartbeatAt stored.heartbeatAt }

end Job

/-- The tables the queue touches. -/
structure Tables (π : Type) where
  projects : List String
  jobs : Dict String (Job π)

/-! ## The service -/

inductive JobError where
  | value (message : String)
  | runtime (message : String)
  | integrity
  | staleData
  deriving DecidableEq, Repr

inductive Reply (π : Type) where
  | enqueued (job : Job π) (created : Bool)
  | recovered (count : ℕ)
  | claimed (job : Option (Job π))
  | done
  deriving DecidableEq

/-- What the queue is configured with, and the two functions it applies to payloads and summaries. -/
structure Settings (π : Type) where
  secret : String
  jobLeaseSeconds : ℕ
  validPayload : π → Bool
  redactText : String → String

def jobTypes : List String :=
  ["project.create", "project.clone", "git.pull", "git.push", "git.branch.create",
   "git.branch.switch", "github.pr.create"]

/-- `[A-Za-z0-9._:-]{8,128}` -/
def validIdempotencyKey (key : String) : Bool :=
  (key.toList.all fun c => c.isAlphanum || c == '.' || c == '_' || c == ':' || c == '-') &&
    decide (8 ≤ key.length) && decide (key.length ≤ 128)

/-- `s[:n]` -/
def slice (s : String) (n : ℕ) : String := String.ofList (s.toList.take n)

/-- `s[:n] if s else None` -/
def sliceOrNone (s : Option String) (n : ℕ) : Option String :=
  match s with
  | none => none
  | some s => if s = "" then none else some (slice s n)

/-- `a or b` on optional texts, where the empty text is false. -/
def orElse (a : Option String) (b : String) : String :=
  match a with
  | none => b
  | some a => if a = "" then b else a

/-- `hmac.new(key, message, hashlib.sha256).hexdigest()` -/
def hmacSha256 (key message : List UInt8) : String :=
  let short := if key.length ≤ 64 then key else sha256 key
  let block := short ++ List.replicate (64 - short.length) 0
  let inner := sha256 (block.map (· ^^^ 0x36) ++ message)
  hexBytes (sha256 (block.map (· ^^^ 0x5c) ++ inner))

def keyedDigest (applicationSecret purpose value : String) : String :=
  hmacSha256 (utf8 applicationSecret) (utf8 (purpose ++ "\x00" ++ value))

/-- What an `enqueue` call passes, with the identifier and the clock reading it draws. -/
structure Request (π : Type) where
  jobType : String
  requestedBy : String
  targetType : String
  targetId : Option String
  projectId : Option String
  payload : π
  resourceLockKey : String
  idempotencyKey : String
  requestId : Option String
  idempotencyScope : Option String
  newIdentifier : String
  now : ℕ
  deriving DecidableEq

/-- `idempotency_scope or target_id or ""` -/
def Request.scope {π : Type} (q : Request π) : String := orElse q.idempotencyScope (orElse q.targetId "")

inductive Call (π : Type) where
  | enqueue (request : Request π)
  | recoverExpired (now : ℕ)
  /-- `choice` picks among queued jobs of one `created_at`, whose order SQLite leaves open. -/
  | claimNext (workerId : String) (now choice : ℕ)
  | progress (jobId : String) (progress : Option ℤ) (phase summary : String) (now : ℕ)
  | heartbeat (jobId : String) (now : ℕ)
  | succeed (jobId summary : String) (now : ℕ)
  | fail (jobId code summary : String) (now : ℕ)
  | needsAttention (jobId code summary : String) (now : ℕ)
  deriving DecidableEq

/-- What a method has decided to write. -/
inductive Write (π : Type) where
  | insert (job : Job π)
  | recover (now : ℕ)
  /-- One row by its primary key, with or without a row of `job_events` that refers to it. -/
  | update (jobId : String) (read new : Job π) (event : Bool) (reply : Reply π)
  deriving DecidableEq

abbrev Answer (π : Type) := Except JobError (Reply π)

section
variable {π : Type} (settings : Settings π) (d : Tables π)

/-- `JobService._digest` -/
def digest (requestedBy jobType scope key : String) : String :=
  keyedDigest settings.secret "job-idempotency"
    (requestedBy ++ "\x00" ++ jobType ++ "\x00" ++ scope ++ "\x00" ++ key)

/-- The digest an `enqueue` call looks for. -/
def Request.digest (q : Request π) : String :=
  Jobs.digest settings q.requestedBy q.jobType q.scope q.idempotencyKey

/-- The row `enqueue` inserts. -/
def Request.job (q : Request π) : Job π where
  id := q.newIdentifier
  type := q.jobType
  status := .queued
  createdAt := q.now
  startedAt := none
  finishedAt := none
  requestedBy := slice q.requestedBy 80
  targetType := slice q.targetType 32
  targetId := sliceOrNone q.targetId 80
  projectId := q.projectId
  progress := some 0
  phase := some "queued"
  resultSummary := none
  errorCode := none
  errorSummary := none
  payload := q.payload
  idempotencyKeyDigest := q.digest settings
  resourceLockKey := slice q.resourceLockKey 96
  attempt := 0
  maxAttempts := 1
  leaseOwner := none
  leaseExpiresAt := none
  heartbeatAt := none
  requestId := sliceOrNone q.requestId 72

/-- The job that already carries the digest. -/
def findDigest (digest : String) : Option (Job π) :=
  d.jobs.first fun j => j.idempotencyKeyDigest = digest

def enqueue (q : Request π) : Except (Answer π) (Write π) :=
  if q.jobType ∉ jobTypes then .error (.error (.value "job type is not allowlisted"))
  else if !validIdempotencyKey q.idempotencyKey then
    .error (.error (.value "idempotency key is invalid"))
  else if !settings.validPayload q.payload then
    .error (.error (.value "job payload is invalid"))
  else
    match findDigest d (q.digest settings) with
    | some existing => .error (.ok (.enqueued existing false))
    | none => .ok (.insert (q.job settings))

variable (now : ℕ) (j : Job π)

/-- `lease_expires_at is not NULL and lease_expires_at <= now` on a running job. -/
def isExpired : Bool :=
  j.status == .running && j.leaseExpiresAt.any (· ≤ now)

/-- The row `recover_expired` leaves. -/
def recovered : Job π :=
  { j with
    status := .needsAttention
    finishedAt := some now
    phase := some "recovery_required"
    errorCode := some "JOB_EXECUTION_INTERRUPTED"
    errorSummary := some "Job execution was interrupted and was not replayed" }

def recoverExpired (now : ℕ) : Except (Answer π) (Write π) := .ok (.recover now)

/-- The lock keys held by running jobs. -/
def runningLocks : List String :=
  (d.jobs.values.filter fun j => j.status = .running).map Job.resourceLockKey

/-- Queued jobs whose lock is free. -/
def claimable : List (Job π) :=
  d.jobs.values.filter fun j => j.status = .queued ∧ j.resourceLockKey ∉ runningLocks d

/-- The claimable jobs no other claimable job is older than. -/
def oldest : List (Job π) :=
  (claimable d).filter fun j => (claimable d).all fun k => decide (j.createdAt ≤ k.createdAt)

/-- The end of a lease taken or renewed at `now`. -/
def leaseEnd (now : ℕ) : ℕ := now + settings.jobLeaseSeconds * 1000000

/-- The row `claim_next` leaves. -/
def started (workerId : String) (now : ℕ) (j : Job π) : Job π :=
  { j with
    status := .running
    startedAt := some (j.startedAt.getD now)
    attempt := j.attempt + 1
    leaseOwner := some (slice workerId 80)
    leaseExpiresAt := some (leaseEnd settings now)
    heartbeatAt := some now
    progress := some 10
    phase := some "running" }

def claimNext (workerId : String) (now choice : ℕ) : Except (Answer π) (Write π) :=
  match (oldest d)[choice % (oldest d).length]? with
  | none => .error (.ok (.claimed none))
  | some j =>
    let j' := started settings workerId now j
    .ok (.update j.id j j' true (.claimed (some j')))

/-- `JobService._running`, with what the method then does to the row. -/
def running (jobId : String) (event : Bool) (change : Job π → Job π) : Except (Answer π) (Write π) :=
  match d.jobs.get? jobId with
  | none => .error (.error (.runtime "Job is not running"))
  | some j =>
    if j.status ≠ .running then .error (.error (.runtime "Job is not running"))
    else .ok (.update jobId j (change j) event .done)

/-- What `heartbeat` changes. -/
def renewed : Job π :=
  { j with heartbeatAt := some now, leaseExpiresAt := some (leaseEnd settings now) }

/-- What `progress` changes. -/
def progressed (progress : Option ℤ) (phase : String) (now : ℕ) (j : Job π) : Job π :=
  { renewed settings now j with progress := progress, phase := some (slice phase 48) }

/-- What `_finish` changes. -/
def finished (status : JobStatus) (code : Option String) (summary : String) (now : ℕ) (j : Job π) :
    Job π :=
  let safeSummary := settings.redactText summary
  let ended := { j with
    status := status
    finishedAt := some now
    progress := if status = JobStatus.succeeded then some 100 else j.progress
    phase := some status.value
    leaseOwner := none
    leaseExpiresAt := none }
  if status = .succeeded then { ended with resultSummary := some safeSummary }
  else { ended with
    errorCode := some (slice (orElse code "JOB_FAILED") 80)
    errorSummary := some safeSummary }

/-- `JobService._finish` -/
def finish (jobId : String) (status : JobStatus) (code : Option String)
    (summary : String) (now : ℕ) : Except (Answer π) (Write π) :=
  if !status.isTerminal then .error (.error (.value "invalid terminal Job state"))
  else running d jobId true (finished settings status code summary now)

def succeed (jobId summary : String) (now : ℕ) : Except (Answer π) (Write π) :=
  finish settings d jobId .succeeded none summary now

variable (jobId code summary : String) (now : ℕ)

def fail : Except (Answer π) (Write π) :=
  finish settings d jobId .failed (some code) summary now

def needsAttention : Except (Answer π) (Write π) :=
  finish settings d jobId .needsAttention (some code) summary now

/-- The read of a method. -/
def read : Call π → Except (Answer π) (Write π)
  | .enqueue q => enqueue settings d q
  | .recoverExpired now => recoverExpired now
  | .claimNext workerId now choice => claimNext settings d workerId now choice
  | .progress jobId p phase _ now => running d jobId true (progressed settings p phase now)
  | .heartbeat jobId now => running d jobId false (renewed settings now)
  | .succeed jobId summary now => succeed settings d jobId summary now
  | .fail jobId code summary now => fail settings d jobId code summary now
  | .needsAttention jobId code summary now => needsAttention settings d jobId code summary now

end

section
variable {π : Type}

/-- The methods that run `BEGIN IMMEDIATE`. -/
def Call.isAtomic : Call π → Bool
  | .enqueue _ | .recoverExpired _ | .claimNext .. => true
  | _ => false

/-- The unique and foreign keys of an inserted row. -/
def admits (d : Tables π) (j : Job π) : Bool :=
  decide (j.id ∉ d.jobs) && (findDigest d j.idempotencyKeyDigest).isNone &&
    j.projectId.all fun p => decide (p ∈ d.projects)

/-- The write of a method. -/
def write [DecidableEq π] (d : Tables π) : Write π → Answer π × Tables π
  | .insert j =>
    if admits d j then (.ok (.enqueued j true), { d with jobs := d.jobs.set j.id j })
    else (.error .integrity, d)
  | .recover now =>
    (.ok (.recovered (d.jobs.values.filter (isExpired now)).length),
      { d with jobs := d.jobs.updateWhere (isExpired now) (recovered now) })
  | .update jobId read new event reply =>
    match d.jobs.get? jobId with
    | some stored => (.ok reply, { d with jobs := d.jobs.set jobId (read.merge new stored) })
    | none =>
      -- the row is gone: an update matches nothing, and an event refers to nothing
      if new ≠ read then (.error .staleData, d)
      else if event then (.error .integrity, d)
      else (.ok reply, d)

/-- The service with its read and write steps. -/
def service [DecidableEq π] (settings : Settings π) : Service (Tables π) (Call π) (Write π) (Answer π)
    where
  atomic := Call.isAtomic
  read := read settings
  write := write

/-- Changes made by others: projects come, and go with all their jobs. -/
inductive Outside where
  | createProject (projectId : String)
  | deleteProject (projectId : String)
  deriving DecidableEq

def outside (d : Tables π) : Outside → Tables π
  | .createProject p => { d with projects := p :: d.projects }
  | .deleteProject p =>
    { projects := d.projects.filter (· ≠ p)
      jobs := d.jobs.deleteWhere fun j => j.projectId = some p }

end

end AgentBox.Jobs
