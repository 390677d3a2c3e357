import AgentBox.Wire.Abws
import AgentBox.Wire.Awce
import AgentBox.Wire.Context

/-!
# Closed payload profiles

Reference: `agentbox_protocol/waw_wire.py`, from the module constants to `validate_payload`.

Every kind of frame has, on every leg it may travel, a closed set of fields and one rule per field.
`validatePayload` checks a payload against its profile, against the bound admission tuple and epoch,
and against the few rules that relate several fields.
-/

namespace AgentBox.Wire

/-- The bounded diagnostic every rejection turns into. -/
inductive WireError
  | protocolInvalid
deriving DecidableEq, Repr

/-- The four directed hops of one attachment. -/
inductive Leg
  | browserToApi | apiToBrowser | apiToRuntime | runtimeToApi
deriving DecidableEq, Repr

/-- `_ALLOWED` -/
def Leg.allowed : Leg → List ℕ
  | .browserToApi => [1, 3, 5, 9, 11, 12, 13, 15]
  | .apiToBrowser => [4, 6, 8, 10, 14, 16, 17, 18, 19, 20, 21, 26, 27]
  | .apiToRuntime => [2, 3, 5, 9, 11, 12, 13, 14, 15, 20, 22, 24]
  | .runtimeToApi => [4, 6, 7, 10, 12, 13, 14, 16, 17, 18, 19, 20, 21, 23, 25, 26, 27]

/-- `_HANDSHAKE` -/
def Leg.handshake : Leg → List ℕ
  | .browserToApi => [1, 3, 5]
  | .apiToBrowser => [4, 6, 8]
  | .apiToRuntime => [2, 3, 5, 22, 24]
  | .runtimeToApi => [7, 4, 6, 23, 25]

variable (kind : FrameType)

/-- `kind in KEY_TYPES` -/
def FrameType.isKey : Bool :=
  kind == .keyInit || kind == .keyAttest || kind == .keyConfirm || kind == .keyConfirmAck

/-! ## Enumerations -/

def workspaceStates : List String :=
  ["STARTING", "RUNNING", "NEEDS_INTERACTION", "TRUST_REQUIRED", "LOGIN_REQUIRED", "STOPPING",
   "EXITED", "STOPPED", "MISSING", "COLLISION", "BROKEN", "UNKNOWN"]

def errorCodes : List String :=
  ["PROTOCOL_INVALID", "SEQUENCE_EXHAUSTED", "RANDOMNESS_UNAVAILABLE",
   "RUNTIME_INSTALLATION_UNTRUSTED", "RUNTIME_INSTALLATION_MISMATCH", "RUNTIME_PEER_FORBIDDEN",
   "RUNTIME_UNAVAILABLE", "WAW_SOCKET_SET_INCOMPLETE", "WAW_SOCKET_PROVENANCE_INVALID",
   "WAW_TMP_UNTRUSTED", "WAW_CGROUP_UNTRUSTED", "SERVICE_SHUTDOWN", "WORKSPACE_NOT_FOUND",
   "WORKSPACE_NOT_READY", "WORKSPACE_NOT_RUNNING", "WORKSPACE_START_IN_PROGRESS",
   "WORKSPACE_WRITER_BUSY", "WORKSPACE_RESOURCE_LIMITED", "WORKSPACE_COLLISION",
   "WORKSPACE_MISSING", "WORKSPACE_EXITED", "WORKSPACE_STOPPED", "RECONCILIATION_REQUIRED",
   "BINDING_BOOTSTRAP_REQUIRED", "PROJECT_PATH_UNSUPPORTED", "PROJECT_RUNTIME_ACTIVE",
   "PROJECT_IDENTITY_CHANGED", "CODEX_REMOTE_CONFLICT", "WORKSPACE_AUTH_REQUIRED",
   "WORKSPACE_AUTH_STATUS_UNKNOWN", "WORKSPACE_AUTH_CHECK_REQUIRED", "WORKSPACE_TRUST_REQUIRED",
   "WORKSPACE_EXECUTABLE_UNSUPPORTED", "ATTACHMENT_TICKET_EXPIRED", "ATTACHMENT_TICKET_REPLAYED",
   "ATTACHMENT_TICKET_UNAVAILABLE", "ATTACHMENT_TICKET_RATE_LIMITED", "KEY_CONFIRM_FAILED",
   "STREAM_CRYPTO_FAILURE", "ATTACHMENT_PREPARE_REPLAY", "ATTACHMENT_STALE", "DETACH_FAILED",
   "DETACH_IN_PROGRESS", "ATTACHMENT_NOT_READY", "ADMITTED_DELIVERY_FAILED", "INPUT_RATE_LIMITED",
   "CONTROL_RATE_LIMITED", "OUTPUT_BACKPRESSURE", "RESIZE_FAILED", "TERMINAL_PARSE_LIMIT",
   "INPUT_WRITE_UNCERTAIN", "STOP_TIMEOUT", "INTERNAL_BOUNDED"]

def runtimeClose : List String :=
  ["ADMISSION_TIMEOUT", "ATTACHMENT_STALE", "PROTOCOL_INVALID", "SEQUENCE_EXHAUSTED",
   "RUNTIME_RESTART", "RUNTIME_UNAVAILABLE", "WORKSPACE_EXITED", "WORKSPACE_STOPPED",
   "OUTPUT_BACKPRESSURE", "TERMINAL_PARSE_LIMIT", "CONTROL_RATE_LIMITED"]

def apiClose : List String :=
  ["DETACHED", "LEASE_STALE", "SESSION_REVOKED", "AUTH_EPOCH_CHANGED", "ADMISSION_TIMEOUT",
   "ATTACHMENT_STALE", "PROTOCOL_INVALID", "SERVICE_SHUTDOWN", "RUNTIME_UNAVAILABLE",
   "OUTPUT_BACKPRESSURE", "TERMINAL_PARSE_LIMIT"]

def internalClose : List String := apiClose ++ ["CONTROL_RATE_LIMITED", "INTERNAL_BOUNDED"]

def rejectCodes : List String :=
  ["ATTACHMENT_STALE", "WORKSPACE_NOT_RUNNING", "WORKSPACE_EXITED", "WORKSPACE_STOPPED",
   "RECONCILIATION_REQUIRED"]

def resizeRejectCodes : List String :=
  ["CONTROL_RATE_LIMITED", "ATTACHMENT_STALE", "WORKSPACE_NOT_RUNNING", "WORKSPACE_EXITED",
   "WORKSPACE_STOPPED", "RESIZE_FAILED"]

/-- `_CLOSE_RULES` -/
def Leg.closeCodes : Leg → List String
  | .apiToRuntime => internalClose
  | .runtimeToApi => runtimeClose
  | .apiToBrowser => runtimeClose ++ apiClose
  | .browserToApi => runtimeClose ++ apiClose

/-! ## Rules -/

/-- A rule for one field. -/
inductive Rule
  /-- checked with the whole tuple -/
  | admission
  /-- checked with the whole context -/
  | context
  | u64 | crypto | cursor | u64Zero
  | one | inputLimit | outputLimit | columns | rows | exitCode
  | bool
  | att | aws | prj | wat | wreq
  | hex8 | hex32
  /-- base64url text of so many bytes -/
  | b64 (size : ℕ)
  | timestamp
  | close
  | noise | verified | running | agent | commitResult | resizeResult | detachResult | cleanup
  | exitState | gapReason | inputResult | error | state | reject | resizeReject | detachReject
  | inputReject
  /-- `None` or the rule -/
  | nullable (rule : Rule)
deriving DecidableEq, Repr

/-- `_INTEGER_BOUNDS` -/
def Rule.integerBounds : Rule → Option (ℤ × ℤ)
  | .one => some (1, 1)
  | .inputLimit => some (16384, 16384)
  | .outputLimit => some (32768, 32768)
  | .columns => some (8, 240)
  | .rows => some (1, 200)
  | .exitCode => some (-128, 255)
  | _ => none

variable (leg : Leg)

/-- `_ENUM_RULES`, and `_CLOSE_RULES` for the rule that depends on the leg. -/
def Rule.accepted : Rule → List String
  | .close => leg.closeCodes
  | .noise => ["Noise_NX_25519_AESGCM_SHA256"]
  | .verified => ["verified"]
  | .running => ["RUNNING"]
  | .agent => ["claude", "codex"]
  | .commitResult => ["committed", "rejected"]
  | .resizeResult => ["applied", "rejected"]
  | .detachResult => ["detached", "already_detached", "rejected"]
  | .cleanup => ["ATTACH_PTY_CLOSED", "ATTACH_PTY_CLOSE_UNCERTAIN"]
  | .exitState => ["EXITED", "STOPPED", "MISSING", "COLLISION", "BROKEN", "UNKNOWN"]
  | .gapReason => ["baseline_redraw", "ring_overflow", "cursor_expired", "slow_client"]
  | .inputResult => ["accepted", "written_to_pty", "write_uncertain", "rejected"]
  | .error => errorCodes
  | .state => workspaceStates
  | .reject => rejectCodes
  | .resizeReject => resizeRejectCodes
  | .detachReject => rejectCodes ++ ["DETACH_FAILED"]
  | .inputReject => rejectCodes ++ ["INPUT_RATE_LIMITED", "INPUT_WRITE_UNCERTAIN"]
  | _ => []

/-- `0|[1-9][0-9]{0,19}` -/
def matchesDecimal (s : List Char) : Bool := s == ['0'] || matchesPositiveDecimal s

/-- The bounds of a decimal string rule. -/
def Rule.decimalBounds : Rule → Option (ℕ × ℕ)
  | .u64 => some (1, maxU64)
  | .crypto => some (1, maxU64 - 1)
  | .cursor => some (0, maxU64 - 1)
  | .u64Zero => some (0, maxU64)
  | _ => none

/-- The kind of an identifier rule. -/
def Rule.idKind : Rule → Option String
  | .att => some "att"
  | .aws => some "aws"
  | .prj => some "prj"
  | .wat => some "wat"
  | .wreq => some "wreq"
  | _ => none

/-- `_B64_ALPHABET.index(c)`, and 64 for any other character. -/
def b64Index (c : Char) : ℕ :=
  if 'A' ≤ c ∧ c ≤ 'Z' then c.toNat - 65
  else if 'a' ≤ c ∧ c ≤ 'z' then c.toNat - 71
  else if '0' ≤ c ∧ c ≤ '9' then c.toNat + 4
  else if c = '-' then 62
  else if c = '_' then 63
  else 64

/-- Unpadded base64url text of `size` bytes, with no stray bits in its last character. -/
def matchesB64 (size : ℕ) (s : List Char) : Bool :=
  let remainder := size % 3
  s.length == (size * 8 + 5) / 6 && s != [] && s.all (b64Index · < 64) &&
    (remainder == 0 ||
      (s.getLast?.map b64Index).any fun i => i % (if remainder = 1 then 16 else 4) == 0)

/-- The days of a month of the proleptic Gregorian calendar. -/
def daysInMonth (year month : ℕ) : ℕ :=
  if month = 2 then
    if (year % 4 = 0 ∧ year % 100 ≠ 0) ∨ year % 400 = 0 then 29 else 28
  else if month = 4 ∨ month = 6 ∨ month = 9 ∨ month = 11 then 30
  else 31

/-- `datetime(year, month, day, hour, minute, second, microsecond)` does not raise. -/
def validDatetime (year month day hour minute second : ℕ) : Bool :=
  decide (1 ≤ year ∧ year ≤ 9999 ∧ 1 ≤ month ∧ month ≤ 12 ∧ 1 ≤ day ∧
    day ≤ daysInMonth year month ∧ hour < 24 ∧ minute < 60 ∧ second < 60)

/-- `YYYY-MM-DDThh:mm:ss.ffffffZ` with a real calendar date and time of day. -/
def matchesTimestamp (t : List Char) : Bool :=
  let digits (start stop : ℕ) := (t.drop start).take (stop - start)
  let number (start stop : ℕ) := decimalValue (digits start stop)
  t.length == 27 &&
    [(0, 4), (5, 7), (8, 10), (11, 13), (14, 16), (17, 19), (20, 26)].all
      (fun r => (digits r.1 r.2).all isDigit) &&
    [(4, '-'), (7, '-'), (10, 'T'), (13, ':'), (16, ':'), (19, '.'), (26, 'Z')].all
      (fun r => t[r.1]? == some r.2) &&
    validDatetime (number 0 4) (number 5 7) (number 8 10) (number 11 13) (number 14 16) (number 17 19)

/-- The part of `_scalar` for rules over strings. -/
def textMatches (rule : Rule) (s : List Char) : Bool :=
  match rule.idKind with
  | some kind => matchesId kind s
  | none =>
    match rule with
    | .hex8 => matchesHex 16 s
    | .hex32 => matchesHex 64 s
    | .b64 size => matchesB64 size s
    | .timestamp => matchesTimestamp s
    | rule => (rule.accepted leg).contains (String.ofList s)

/-- `_scalar` for a rule that is not nullable. -/
def scalarMatches (rule : Rule) (value : Scalar) : Bool :=
  match rule.decimalBounds with
  | some (minimum, maximum) =>
    match value with
    | .str s => matchesDecimal s && decide (minimum ≤ decimalValue s ∧ decimalValue s ≤ maximum)
    | _ => false
  | none =>
    match rule.integerBounds with
    | some (low, high) =>
      match value with
      | .int n => decide (low ≤ n ∧ n ≤ high)
      | _ => false
    | none =>
      match rule, value with
      | .bool, .bool _ => true
      | .bool, _ => false
      | _, .str s => textMatches leg rule s
      | _, _ => false

/-- `_scalar` does not raise. -/
def Rule.check (rule : Rule) (value : Scalar) : Bool :=
  match rule with
  | .admission => true
  | .context => true
  | .nullable rule => value == .null || scalarMatches leg rule value
  | rule => scalarMatches leg rule value

/-! ## Profiles -/

def admissionRules : List (String × Rule) := admissionKeys.map (·, .admission)

def contextRules : List (String × Rule) := contextKeys.map (·, .context)

def leaseRules : List (String × Rule) := [("attachment_id", .att), ("lease_number", .u64)]

def epochRules : List (String × Rule) := [("runtime_epoch", .u64)]

/-- The fields `_schema` adds to `protocol_version`; no two of the parts it merges share a name. -/
def schemaBody : FrameType → Option (List (String × Rule))
  | .wsHello => some (admissionRules ++ epochRules ++
      [("resume_cursor", .nullable .cursor), ("previous_runtime_epoch", .nullable .u64),
       ("ticket", .wat)])
  | .runtimeHello => some (admissionRules ++ epochRules ++
      [("resume_cursor", .nullable .cursor), ("previous_runtime_epoch", .nullable .u64),
       ("capability", .hex32)])
  | .keyInit => some (admissionRules ++ epochRules ++
      [("noise_protocol", .noise), ("crypto_envelope_version", .one),
       ("browser_ephemeral_public_key", .b64 32), ("noise_message_1", .b64 32)])
  | .keyAttest => some (admissionRules ++ epochRules ++
      [("noise_protocol", .noise), ("crypto_envelope_version", .one),
       ("runtime_attestation_x25519_fingerprint", .hex32),
       ("runtime_ephemeral_public_key", .b64 32), ("noise_message_2", .b64 128)])
  | .keyConfirm => some (contextRules ++ [("noise_protocol", .noise), ("ciphertext", .b64 48)])
  | .keyConfirmAck => some (contextRules ++
      [("noise_protocol", .noise), ("ciphertext", .b64 48), ("status", .verified),
       ("transcript_context_hash", .hex32)])
  | .helloAck => some (admissionRules ++ epochRules ++
      [("state", .running), ("output_cursor", .cursor), ("input_limit", .inputLimit),
       ("output_limit", .outputLimit)])
  | .admitted => some (admissionRules ++ epochRules ++
      [("state", .running), ("output_cursor", .cursor), ("lease_expires_at", .timestamp)])
  | .streamReadyAck => some (admissionRules ++ epochRules ++
      [("state", .running), ("output_cursor", .cursor), ("admission_fence", .hex32)])
  | .streamReady => some (admissionRules ++ epochRules)
  | .admissionCommit => some (admissionRules ++ epochRules ++ [("admission_fence", .hex32)])
  | .admissionCommitAck => some (admissionRules ++ epochRules ++
      [("result", .commitResult), ("reason_code", .nullable .reject)])
  | .resize => some (leaseRules ++ [("columns", .columns), ("rows", .rows)])
  | .resizeAck => some (leaseRules ++
      [("acknowledged_hop_sequence", .u64), ("requested_columns", .columns),
       ("requested_rows", .rows), ("effective_columns", .nullable .columns),
       ("effective_rows", .nullable .rows), ("result", .resizeResult),
       ("reason_code", .nullable .resizeReject)])
  | .heartbeat => some (leaseRules ++ [("sent_at_monotonic_tick", .u64)])
  | .ping => some [("nonce", .hex8), ("sent_at_monotonic_tick", .u64)]
  | .pong => some [("nonce", .hex8), ("echoed_sent_at_monotonic_tick", .u64)]
  | .detach => some leaseRules
  | .detachAck => some ((if leg = .runtimeToApi then admissionRules ++ epochRules else leaseRules) ++
      [("acknowledged_hop_sequence", .u64), ("result", .detachResult), ("cleanup_state", .cleanup),
       ("reason_code", .nullable .detachReject)])
  | .exit => some [("state", .exitState), ("exit_code", .nullable .exitCode)]
  | .gap => some [("from_cursor", .cursor), ("to_cursor", .u64Zero), ("reason", .gapReason)]
  | .ack => some ([("runtime_input_hop_sequence", .u64), ("crypto_sequence", .crypto),
      ("result", .inputResult), ("reason_code", .nullable .inputReject)] ++
      if leg = .apiToBrowser then [("browser_input_hop_sequence", .u64)] else [])
  | .error => some [("code", .error), ("retryable", .bool), ("request_id", .nullable .wreq)]
  | .close => some [("code", .close), ("workspace_state_at_close", .state)]
  | .state => some ([("workspace_id", .aws), ("project_id", .prj), ("agent_type", .agent),
      ("generation", .u64), ("state", .state), ("reason_code", .nullable .error)] ++
      if leg = .runtimeToApi then epochRules else [])
  | .input => none
  | .output => none

/-- `_schema`; `none` is its `WireError`. -/
def schema : Option (List (String × Rule)) :=
  (schemaBody leg kind).map (("protocol_version", .one) :: ·)

/-- `_profile` on a byte and a leg. -/
def profile (kind : ℕ) (leg : Leg) : Except WireError FrameType :=
  match FrameType.ofValue kind with
  | some frameType =>
    if frameType.value ∈ leg.allowed then .ok frameType else .error .protocolInvalid
  | none => .error .protocolInvalid

/-! ## Payloads -/

/-- What a frame carries. -/
inductive Payload
  | bytes (b : Bytes)
  | record (r : Record)

variable (r : Record)

/-- A field that holds a text equal to `s`. -/
def Record.isText (name s : String) : Bool := r.get? name == some (.text s)

/-- A field that is `None`. -/
def Record.isNull (name : String) : Bool := r.get? name == some .null

/-- The number a decimal text field denotes. -/
def Record.number (name : String) : ℕ :=
  match r.get? name with
  | some (.str s) => decimalValue s
  | _ => 0

/-- The rules of `validate_payload` that relate several fields of one kind of frame. -/
def fieldsAgree (trusted : Bool) (r : Record) : Bool :=
  match kind with
  | .error => !(trusted && r.isNull "request_id")
  | .resizeAck =>
    if r.isText "result" "applied" then
      r.isNull "reason_code" && r.get? "effective_columns" == r.get? "requested_columns" &&
        r.get? "effective_rows" == r.get? "requested_rows"
    else
      !r.isNull "reason_code" && r.isNull "effective_columns" && r.isNull "effective_rows"
  | .detachAck =>
    let positive := !r.isText "result" "rejected"
    r.isNull "reason_code" == positive &&
      r.isText "cleanup_state" (if positive then "ATTACH_PTY_CLOSED" else "ATTACH_PTY_CLOSE_UNCERTAIN")
  | .admissionCommitAck => r.isText "result" "committed" == r.isNull "reason_code"
  | .ack =>
    if r.isText "result" "accepted" || r.isText "result" "written_to_pty" then r.isNull "reason_code"
    else if r.isText "result" "write_uncertain" then r.isText "reason_code" "INPUT_WRITE_UNCERTAIN"
    else (rejectCodes ++ ["INPUT_RATE_LIMITED"]).any (r.isText "reason_code")
  | .gap =>
    let start := r.number "from_cursor"
    let stop := r.number "to_cursor"
    if r.isText "reason" "baseline_redraw" then start == 0 && stop == 0
    else decide (1 ≤ start ∧ start < stop)
  | _ => true

/-- The profile's own checks on a record. -/
def recordMatches (rules : List (String × Rule)) (r : Record) : Bool :=
  r.hasExactly (rules.map Prod.fst) &&
    rules.all fun rule => (r.get? rule.1).any (rule.2.check leg)

/-- The tuple or context inside a record is valid. -/
def boundTupleValid : Bool :=
  if admissionKeys.all (decide <| · ∈ r) then (validateAdmission (r.restrict admissionKeys)).isOk
  else if contextKeys.all (decide <| · ∈ r) then (validateContext (r.restrict contextKeys)).isOk
  else true

/-- The record agrees with the admission tuple it is bound to. -/
def admissionAgrees (admission : Option Record) (r : Record) : Bool :=
  match admission with
  | none => true
  | some admission =>
    (validateAdmission admission).isOk &&
      admissionKeys.all fun key => !decide (key ∈ r) || r.get? key == admission.get? key

/-- The record agrees with the Runtime epoch it is bound to. -/
def epochAgrees (runtimeEpoch : Option Scalar) (r : Record) : Bool :=
  match runtimeEpoch with
  | none => true
  | some epoch =>
    (validateU64 epoch).isOk &&
      (!decide ("runtime_epoch" ∈ r) || r.get? "runtime_epoch" == some epoch)

/-- The direction and size an opaque payload must have. -/
def envelopeFits (e : AwceEnvelope) : Bool :=
  if kind = .input then e.directionId == 1 && decide (e.ciphertext.length ≤ 16384 + 16)
  else e.directionId == 2 && decide (e.ciphertext.length ≤ 32768 + 16)

/-- `validate_payload` for a kind and a leg that `profile` let pass. -/
def validatePayload (payload : Payload) (admission : Option Record)
    (runtimeEpoch : Option Scalar) (trusted : Bool) : Except WireError Payload :=
  if kind.isOpaque then
    match payload with
    | .bytes b =>
      match decodeAwce b with
      | .ok e => if envelopeFits kind e then .ok payload else .error .protocolInvalid
      | .error _ => .error .protocolInvalid
    | .record _ => .error .protocolInvalid
  else
    match schema kind leg, payload with
    | some rules, .record r =>
      if recordMatches leg rules r && boundTupleValid r && admissionAgrees admission r &&
          epochAgrees runtimeEpoch r && fieldsAgree kind trusted r then
        .ok payload
      else .error .protocolInvalid
    | _, _ => .error .protocolInvalid

end AgentBox.Wire
