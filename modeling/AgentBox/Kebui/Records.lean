import AgentBox.Common.JsonNested
import AgentBox.Common.Method
import AgentBox.Control.Tables

/-!
# Admission records and their snapshot file

The metadata journal of synthetic admissions keeps one file: a canonical JSON document with a revision
and one record per request. A request and a record carry the checks of their constructors as a field.
`encode` refuses a snapshot that does not fit its capacity, and `decode` accepts a payload only if
encoding what it read gives the payload back.
-/

namespace AgentBox.Kebui

open Json

abbrev AgentType := Control.AgentType

/-- The codes of `KebuiAdmissionError` that the journal raises. -/
inductive Code
  | alreadyInitialized | busy | capacity | casConflict | claimRetired | commitUncertain | conflict
  | directoryChanged | invalidDirectory | invalidInventory | invalidMetadata | invalidSnapshot
  | invalidTransition | notObserved | readOnly | revisionExhausted | snapshotChanged
  | storeUnavailable
deriving DecidableEq, Repr

/-! ## Phases -/

inductive AdmissionPhase
  | accepted | dispatchFenced | acknowledged | terminal | rejectedBeforeDispatch | unknown
deriving DecidableEq, Repr

namespace AdmissionPhase

def value : AdmissionPhase → String
  | accepted => "accepted"
  | dispatchFenced => "dispatch_fenced"
  | acknowledged => "acknowledged"
  | terminal => "terminal"
  | rejectedBeforeDispatch => "rejected_before_dispatch"
  | unknown => "unknown"

def all : List AdmissionPhase :=
  [accepted, dispatchFenced, acknowledged, terminal, rejectedBeforeDispatch, unknown]

/-- `AdmissionPhase(value)`. -/
def ofValue? (s : String) : Option AdmissionPhase := all.find? fun p => p.value == s

/-- `phase in FINISHED_PHASES`. -/
def finished : AdmissionPhase → Bool
  | terminal | rejectedBeforeDispatch => true
  | _ => false

/-- The table of `transition`. -/
def allowed : AdmissionPhase → List AdmissionPhase
  | accepted => [dispatchFenced, rejectedBeforeDispatch, unknown]
  | dispatchFenced => [acknowledged, terminal, unknown]
  | acknowledged => [terminal, unknown]
  | _ => []

theorem ofValue?_value (p : AdmissionPhase) : ofValue? p.value = some p := by
  cases p <;> decide

end AdmissionPhase

/-! ## Validators -/

/-- `MAX_REVISION` -/
def maxRevision : ℕ := 0xFFFFFFFFFFFFFFFF

/-- `re.fullmatch("[1-9][0-9]{0,19}", s)` with `int(s)` in range. -/
def isPositiveU64 (s : String) : Bool :=
  match s.toList with
  | [] => false
  | c :: rest =>
    '1' ≤ c && c ≤ '9' && rest.length ≤ 19 && rest.all isDigit && decimal s ≤ maxRevision

/-- `validate_id`. -/
def isId (opening s : String) : Bool := matchesHexAfter opening 32 s

/-- `validate_binding_digest`. -/
def isDigest (s : String) : Bool := matchesHexAfter "" 64 s

/-- `TERMINAL_STATUSES` -/
def terminalStatuses : List String := ["completed", "failed", "canceled"]

/-! ## Requests and records -/

structure ConversationScope where
  ownerScope : String
  authEpoch : String
  projectId : String
  projectRevision : String
  bindingRevision : String
  bindingDigest : String
  hostId : String
  hostRevision : String
  runtimeEpoch : String
  apiAuthorityEpoch : String
  agentType : AgentType
  executionKind : String
  conversationId : String
  conversationRevision : String
  generation : String
  turnId : String
deriving DecidableEq, Repr

/-- What `parse_scope` checks of the values, once the sixteen fields are there. -/
def ConversationScope.accepted (s : ConversationScope) : Bool :=
  [s.authEpoch, s.projectRevision, s.bindingRevision, s.hostRevision, s.runtimeEpoch,
    s.apiAuthorityEpoch, s.conversationRevision, s.generation].all isPositiveU64 &&
  isDigest s.ownerScope && isId "prj_" s.projectId && isDigest s.bindingDigest &&
  isId "wri_" s.hostId && s.executionKind == "structured-candidate" &&
  isId "kcv_" s.conversationId && isId "ktr_" s.turnId

/-- `AdmissionRequest`, with the checks of `__post_init__`. -/
structure AdmissionRequest where
  requestId : String
  scope : ConversationScope
  adapterProfile : String
  contentAdmissionRef : String
  operation : String
  valid : (isId "kreq_" requestId && isId "ksyn_" contentAdmissionRef &&
    adapterProfile == "kebui-synthetic-adapter-v1" && operation == "submit_turn" &&
    scope.accepted) = true
deriving DecidableEq

/-- The checks of `AdmissionRecord.__post_init__`. -/
def recordAccepted (executionId : String) (phase : AdmissionPhase) (recordRevision : ℕ)
    (receiptRef terminalStatus : Option String) : Bool :=
  isId "kexe_" executionId && decide (1 ≤ recordRevision ∧ recordRevision ≤ maxRevision) &&
  receiptRef.all (isId "krcp_") &&
  (if phase = .terminal then terminalStatus.any terminalStatuses.contains && receiptRef.isSome
    else terminalStatus.isNone) &&
  !(decide (phase = .acknowledged) && receiptRef.isNone) &&
  !([AdmissionPhase.accepted, .dispatchFenced, .rejectedBeforeDispatch].contains phase &&
    receiptRef.isSome)

/-- `AdmissionRecord`; a revision is kept as the number its canonical numeral stands for. -/
structure AdmissionRecord where
  request : AdmissionRequest
  executionId : String
  phase : AdmissionPhase
  recordRevision : ℕ
  receiptRef : Option String
  terminalStatus : Option String
  valid : recordAccepted executionId phase recordRevision receiptRef terminalStatus = true
deriving DecidableEq

/-- The constructor, which raises where a check fails. -/
def makeRecord (request : AdmissionRequest) (executionId : String) (phase : AdmissionPhase)
    (recordRevision : ℕ) (receiptRef terminalStatus : Option String) : Except Code AdmissionRecord :=
  if h : recordAccepted executionId phase recordRevision receiptRef terminalStatus = true then
    .ok ⟨request, executionId, phase, recordRevision, receiptRef, terminalStatus, h⟩
  else .error .invalidMetadata

structure Snapshot where
  journalRevision : ℕ
  records : List AdmissionRecord
deriving DecidableEq

/-- The fields that at most one unfinished request may hold. -/
structure Slot where
  hostId : String
  projectId : String
  agentType : AgentType
deriving DecidableEq, Repr

variable (r : AdmissionRecord)

/-- `_slot` -/
def AdmissionRecord.slot : Slot :=
  ⟨r.request.scope.hostId, r.request.scope.projectId, r.request.scope.agentType⟩

def AdmissionRecord.requestId : String := r.request.requestId

/-! ## Writing -/

/-- `scope_metadata`, sorted by key. -/
def scopeMetadata (s : ConversationScope) : List (String × String) :=
  [("agent_type", s.agentType.value), ("api_authority_epoch", s.apiAuthorityEpoch),
    ("auth_epoch", s.authEpoch), ("binding_digest", s.bindingDigest),
    ("binding_revision", s.bindingRevision), ("conversation_id", s.conversationId),
    ("conversation_revision", s.conversationRevision), ("execution_kind", s.executionKind),
    ("generation", s.generation), ("host_id", s.hostId), ("host_revision", s.hostRevision),
    ("owner_scope", s.ownerScope), ("project_id", s.projectId),
    ("project_revision", s.projectRevision), ("runtime_epoch", s.runtimeEpoch), ("turn_id", s.turnId)]

def scopeText (s : ConversationScope) : List Char :=
  dumpObject ((scopeMetadata s).map fun m => (m.1, dumpString m.2))

/-- `_json(_request_dict(request))` -/
def requestText (r : AdmissionRequest) : List Char :=
  dumpObject [("adapter_profile", dumpString r.adapterProfile),
    ("content_admission_ref", dumpString r.contentAdmissionRef), ("operation", dumpString r.operation),
    ("request_id", dumpString r.requestId), ("scope", scopeText r.scope)]

/-- The text of a record's dictionary, with `sort_keys=True`. -/
def rowText (request : List Char) (executionId phase revision : String)
    (receiptRef terminalStatus : Option String) : List Char :=
  dumpObject [("execution_id", dumpString executionId), ("phase", dumpString phase),
    ("receipt_ref", dumpValue receiptRef), ("record_revision", dumpString revision),
    ("request", request), ("terminal_status", dumpValue terminalStatus)]

/-- `_json(_record_dict(record))` -/
def recordText : List Char :=
  rowText (requestText r.request) r.executionId r.phase.value (toString r.recordRevision) r.receiptRef
    r.terminalStatus

/-- `_SCHEMA` -/
def schema : String := "kebui-synthetic-admission-v1"

/-- The text of the root dictionary. -/
def rootText (revision : String) (rows : List (List Char)) : List Char :=
  dumpObject [("journal_revision", dumpString revision), ("records", dumpArray rows),
    ("schema_version", dumpString schema)]

/-- `text.encode("utf-8")` -/
def bytes (text : List Char) : Bytes := text.flatMap String.utf8EncodeChar

def maxRecords : ℕ := 255

def recordReservedBytes : ℕ := 4096

def headerReservedBytes : ℕ := 4096

def maxSnapshotBytes : ℕ := 1024 * 1024

/-- `max((phase.value for phase in AdmissionPhase), key=len)` -/
def longestPhase : String :=
  (AdmissionPhase.all.map AdmissionPhase.value).foldl
    (fun best s => if best.length < s.length then s else best) ""

/-- `"krcp_" + "f" * 32` -/
def largestReceipt : String := String.ofList ("krcp_".toList ++ List.replicate 32 'f')

/-- `reserved_record_bytes`: the size of the record's largest successor, with the list delimiter. -/
def reservedRecordBytes : ℕ :=
  (bytes (rowText (requestText r.request) r.executionId longestPhase (toString maxRevision)
    (some largestReceipt) (some "completed"))).length + 1

/-- The payload of a snapshot, with the line end after it. -/
def payload (s : Snapshot) : Bytes :=
  bytes (rootText (toString s.journalRevision) (s.records.map recordText) ++ ['\n'])

/-- `_encode` -/
def encode (s : Snapshot) : Except Code Bytes := do
  if maxRecords < s.records.length then throw .capacity
  if headerReservedBytes < (bytes (rootText (toString maxRevision) [])).length + 1 then throw .capacity
  if s.records.any (fun r => decide (recordReservedBytes < reservedRecordBytes r)) then throw .capacity
  if maxSnapshotBytes < (payload s).length then throw .capacity
  return payload s

/-! ## Reading -/

mutual

/-- `_unique_object` lets no key pass twice, at any depth. -/
def uniqueKeys : Tree → Bool
  | .array items => uniqueKeysItems items
  | .object members => decide (members.map Prod.fst).Nodup && uniqueKeysMembers members
  | _ => true

def uniqueKeysItems : List Tree → Bool
  | [] => true
  | item :: items => uniqueKeys item && uniqueKeysItems items

def uniqueKeysMembers : List (CodePoints × Tree) → Bool
  | [] => true
  | (_, item) :: members => uniqueKeys item && uniqueKeysMembers members

end

/-- `_object`: a dictionary with exactly these keys. -/
def object (fields : List String) : Tree → Except Code (List (CodePoints × Tree))
  | .object members =>
    if (members.map Prod.fst).isPerm (fields.map fun f => codePoints f.toList) then .ok members
    else .error .invalidSnapshot
  | _ => .error .invalidSnapshot

/-- `row[key]` -/
def item (members : List (CodePoints × Tree)) (key : String) : Tree :=
  (members.lookup (codePoints key.toList)).getD .null

/-- A string of the document. A surrogate, which no validator lets pass, becomes a NUL. -/
def text? : Tree → Option String
  | .string s => some (String.ofList s.chars)
  | _ => none

/-- A value that has to be a string. -/
def text (e : Code) (tree : Tree) : Except Code String := orRaise (text? tree) e

/-- `str | None` -/
def optionalText : Tree → Except Code (Option String)
  | .null => .ok none
  | .string s => .ok (some (String.ofList s.chars))
  | _ => .error .invalidMetadata

/-- `int(validate_revision(value))` -/
def validateRevision (s : String) : Except Code ℕ :=
  if isPositiveU64 s then .ok (decimal s) else .error .invalidMetadata

def agentTypeOf? (s : String) : Option AgentType :=
  if s = "claude" then some .claude else if s = "codex" then some .codex else none

def scopeFields : List String :=
  ["owner_scope", "auth_epoch", "project_id", "project_revision", "binding_revision", "binding_digest",
    "host_id", "host_revision", "runtime_epoch", "api_authority_epoch", "agent_type", "execution_kind",
    "conversation_id", "conversation_revision", "generation", "turn_id"]

/-- `parse_scope`, whose errors `_decode` turns into its own. -/
def parseScope (tree : Tree) : Except Code ConversationScope := do
  let members ← object scopeFields tree
  let field (key : String) : Except Code String := text .invalidSnapshot (item members key)
  let ownerScope ← field "owner_scope"
  let authEpoch ← field "auth_epoch"
  let projectId ← field "project_id"
  let projectRevision ← field "project_revision"
  let bindingRevision ← field "binding_revision"
  let bindingDigest ← field "binding_digest"
  let hostId ← field "host_id"
  let hostRevision ← field "host_revision"
  let runtimeEpoch ← field "runtime_epoch"
  let apiAuthorityEpoch ← field "api_authority_epoch"
  let agent ← field "agent_type"
  let executionKind ← field "execution_kind"
  let conversationId ← field "conversation_id"
  let conversationRevision ← field "conversation_revision"
  let generation ← field "generation"
  let turnId ← field "turn_id"
  let agentType ← orRaise (agentTypeOf? agent) .invalidSnapshot
  let scope : ConversationScope :=
    ⟨ownerScope, authEpoch, projectId, projectRevision, bindingRevision, bindingDigest, hostId,
      hostRevision, runtimeEpoch, apiAuthorityEpoch, agentType, executionKind, conversationId,
      conversationRevision, generation, turnId⟩
  if scope.accepted then return scope else throw .invalidSnapshot

/-- The constructor of `AdmissionRequest`. -/
def makeRequest (requestId : String) (scope : ConversationScope)
    (adapterProfile contentAdmissionRef operation : String) : Except Code AdmissionRequest :=
  if h : (isId "kreq_" requestId && isId "ksyn_" contentAdmissionRef &&
      adapterProfile == "kebui-synthetic-adapter-v1" && operation == "submit_turn" &&
      scope.accepted) = true then
    .ok ⟨requestId, scope, adapterProfile, contentAdmissionRef, operation, h⟩
  else .error .invalidMetadata

def parseRequest (tree : Tree) : Except Code AdmissionRequest := do
  let members ← object
    ["request_id", "scope", "adapter_profile", "content_admission_ref", "operation"] tree
  let scope ← parseScope (item members "scope")
  let requestId ← text .invalidMetadata (item members "request_id")
  let adapterProfile ← text .invalidMetadata (item members "adapter_profile")
  let contentAdmissionRef ← text .invalidMetadata (item members "content_admission_ref")
  let operation ← text .invalidMetadata (item members "operation")
  makeRequest requestId scope adapterProfile contentAdmissionRef operation

/-- One row of the loop of `_decode`. -/
def parseRecord (tree : Tree) : Except Code AdmissionRecord := do
  let members ← object
    ["request", "execution_id", "phase", "record_revision", "receipt_ref", "terminal_status"] tree
  let request ← parseRequest (item members "request")
  let phaseText ← text .invalidSnapshot (item members "phase")
  let phase ← orRaise (AdmissionPhase.ofValue? phaseText) .invalidSnapshot
  let revisionText ← text .invalidMetadata (item members "record_revision")
  let recordRevision ← validateRevision revisionText
  let executionId ← text .invalidMetadata (item members "execution_id")
  let receiptRef ← optionalText (item members "receipt_ref")
  let terminalStatus ← optionalText (item members "terminal_status")
  makeRecord request executionId phase recordRevision receiptRef terminalStatus

/-- The loop of `_decode`, with the request ids and the slots it has seen. -/
def parseRecords (revision : ℕ) : List String → List Slot → List Tree →
    Except Code (List AdmissionRecord)
  | _, _, [] => .ok []
  | seen, slots, tree :: rest => do
    let record ← parseRecord tree
    if record.requestId ∈ seen ∨ revision < record.recordRevision then throw .invalidSnapshot
    if record.phase.finished then
      let records ← parseRecords revision (record.requestId :: seen) slots rest
      return record :: records
    else if record.slot ∈ slots then throw .invalidSnapshot
    else
      let records ← parseRecords revision (record.requestId :: seen) (record.slot :: slots) rest
      return record :: records

def array (e : Code) : Tree → Except Code (List Tree)
  | .array items => .ok items
  | _ => .error e

/-- The text of a payload, read as a document without repeated keys. -/
def readDocument (payload : Bytes) : Option Tree := do
  let text ← decodeUtf8 0 payload
  let tree ← loads text
  if uniqueKeys tree then some tree else none

/-- `_decode` -/
def decode (payload : Bytes) : Except Code Snapshot := do
  let tree ← orRaise (readDocument payload) .invalidSnapshot
  let members ← object ["schema_version", "journal_revision", "records"] tree
  let version ← text .invalidSnapshot (item members "schema_version")
  if version ≠ schema then throw .invalidSnapshot
  let revisionText ← text .invalidMetadata (item members "journal_revision")
  let revision ← validateRevision revisionText
  let values ← array .invalidSnapshot (item members "records")
  if maxRecords < values.length then throw .invalidSnapshot
  let records ← parseRecords revision [] [] values
  let written ← encode ⟨revision, records⟩
  if written ≠ payload then throw .invalidSnapshot
  return ⟨revision, records⟩

end AgentBox.Kebui
