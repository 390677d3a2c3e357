import AgentBox.Wire.FlatRecords

/-!
# Closed payload profiles in the browser

Reference: `apps/web/src/features/workspace/wawWire.ts`, from the module constants to `validatePayload`,
`wawCryptoContext.ts` and `awce.ts`.

The browser writes the profile of every kind and leg out in one table, in its own order, and checks the
admission tuple and the handshake context with its own functions. `validatePayload_iff` says that a
payload passes here exactly when it passes in `agentbox_protocol`, and that the checked record has the
same fields. `ADMISSION_KEYS` lists the names in the order of `admissionKeys`.
-/

namespace AgentBox.Web

open Wire

/-! ## Enumerations -/

/-- `WORKSPACE_STATES` -/
def workspaceStates : List String :=
  ["BROKEN", "COLLISION", "EXITED", "LOGIN_REQUIRED", "MISSING", "NEEDS_INTERACTION", "RUNNING",
   "STARTING", "STOPPED", "STOPPING", "TRUST_REQUIRED", "UNKNOWN"]

/-- `ERROR_CODES` -/
def errorCodes : List String :=
  ["ADMITTED_DELIVERY_FAILED", "ATTACHMENT_NOT_READY", "ATTACHMENT_PREPARE_REPLAY",
   "ATTACHMENT_STALE", "ATTACHMENT_TICKET_EXPIRED", "ATTACHMENT_TICKET_RATE_LIMITED",
   "ATTACHMENT_TICKET_REPLAYED", "ATTACHMENT_TICKET_UNAVAILABLE", "BINDING_BOOTSTRAP_REQUIRED",
   "CODEX_REMOTE_CONFLICT", "CONTROL_RATE_LIMITED", "DETACH_FAILED", "DETACH_IN_PROGRESS",
   "INPUT_RATE_LIMITED", "INPUT_WRITE_UNCERTAIN", "INTERNAL_BOUNDED", "KEY_CONFIRM_FAILED",
   "OUTPUT_BACKPRESSURE", "PROJECT_IDENTITY_CHANGED", "PROJECT_PATH_UNSUPPORTED",
   "PROJECT_RUNTIME_ACTIVE", "PROTOCOL_INVALID", "RANDOMNESS_UNAVAILABLE",
   "RECONCILIATION_REQUIRED", "RESIZE_FAILED", "RUNTIME_INSTALLATION_MISMATCH",
   "RUNTIME_INSTALLATION_UNTRUSTED", "RUNTIME_PEER_FORBIDDEN", "RUNTIME_UNAVAILABLE",
   "SEQUENCE_EXHAUSTED", "SERVICE_SHUTDOWN", "STOP_TIMEOUT", "STREAM_CRYPTO_FAILURE",
   "TERMINAL_PARSE_LIMIT", "WAW_CGROUP_UNTRUSTED", "WAW_SOCKET_PROVENANCE_INVALID",
   "WAW_SOCKET_SET_INCOMPLETE", "WAW_TMP_UNTRUSTED", "WORKSPACE_AUTH_CHECK_REQUIRED",
   "WORKSPACE_AUTH_REQUIRED", "WORKSPACE_AUTH_STATUS_UNKNOWN", "WORKSPACE_COLLISION",
   "WORKSPACE_EXECUTABLE_UNSUPPORTED", "WORKSPACE_EXITED", "WORKSPACE_MISSING",
   "WORKSPACE_NOT_FOUND", "WORKSPACE_NOT_READY", "WORKSPACE_NOT_RUNNING",
   "WORKSPACE_RESOURCE_LIMITED", "WORKSPACE_START_IN_PROGRESS", "WORKSPACE_STOPPED",
   "WORKSPACE_TRUST_REQUIRED", "WORKSPACE_WRITER_BUSY"]

/-- `RUNTIME_CLOSE` -/
def runtimeClose : List String :=
  ["ADMISSION_TIMEOUT", "ATTACHMENT_STALE", "CONTROL_RATE_LIMITED", "OUTPUT_BACKPRESSURE",
   "PROTOCOL_INVALID", "RUNTIME_RESTART", "RUNTIME_UNAVAILABLE", "SEQUENCE_EXHAUSTED",
   "TERMINAL_PARSE_LIMIT", "WORKSPACE_EXITED", "WORKSPACE_STOPPED"]

/-- `API_CLOSE` -/
def apiClose : List String :=
  ["ADMISSION_TIMEOUT", "ATTACHMENT_STALE", "AUTH_EPOCH_CHANGED", "DETACHED", "LEASE_STALE",
   "OUTPUT_BACKPRESSURE", "PROTOCOL_INVALID", "RUNTIME_UNAVAILABLE", "SERVICE_SHUTDOWN",
   "SESSION_REVOKED", "TERMINAL_PARSE_LIMIT"]

/-- `INTERNAL_CLOSE` -/
def internalClose : List String :=
  ["ADMISSION_TIMEOUT", "ATTACHMENT_STALE", "AUTH_EPOCH_CHANGED", "CONTROL_RATE_LIMITED",
   "DETACHED", "INTERNAL_BOUNDED", "LEASE_STALE", "OUTPUT_BACKPRESSURE", "PROTOCOL_INVALID",
   "RUNTIME_UNAVAILABLE", "SERVICE_SHUTDOWN", "SESSION_REVOKED", "TERMINAL_PARSE_LIMIT"]

/-- `REJECT` -/
def rejectCodes : List String :=
  ["ATTACHMENT_STALE", "RECONCILIATION_REQUIRED", "WORKSPACE_EXITED", "WORKSPACE_NOT_RUNNING",
   "WORKSPACE_STOPPED"]

/-- `RESIZE_REJECT` -/
def resizeRejectCodes : List String :=
  ["ATTACHMENT_STALE", "CONTROL_RATE_LIMITED", "RESIZE_FAILED", "WORKSPACE_EXITED",
   "WORKSPACE_NOT_RUNNING", "WORKSPACE_STOPPED"]

/-- `DETACH_REJECT` -/
def detachRejectCodes : List String :=
  ["ATTACHMENT_STALE", "DETACH_FAILED", "RECONCILIATION_REQUIRED", "WORKSPACE_EXITED",
   "WORKSPACE_NOT_RUNNING", "WORKSPACE_STOPPED"]

/-- `ALLOWED` -/
def allowed : Leg → List ℕ
  | .browserToApi => [1, 3, 5, 9, 11, 12, 13, 15]
  | .apiToBrowser => [4, 6, 8, 10, 14, 16, 17, 18, 19, 20, 21, 26, 27]
  | .apiToRuntime => [2, 3, 5, 9, 11, 12, 13, 14, 15, 20, 22, 24]
  | .runtimeToApi => [4, 6, 7, 10, 12, 13, 14, 16, 17, 18, 19, 20, 21, 23, 25, 26, 27]

/-- `profile` -/
def profile (kind : ℕ) (leg : Leg) : Option FrameType :=
  if kind ∈ allowed leg then FrameType.ofValue kind else none

/-- `enums` of `scalar`; a rule that is no key of it has no member. -/
def enums (leg : Leg) : Rule → List String
  | .noise => ["Noise_NX_25519_AESGCM_SHA256"]
  | .verified => ["verified"]
  | .running => ["RUNNING"]
  | .agent => ["claude", "codex"]
  | .commitResult => ["committed", "rejected"]
  | .resizeResult => ["applied", "rejected"]
  | .detachResult => ["detached", "already_detached", "rejected"]
  | .cleanup => ["ATTACH_PTY_CLOSED", "ATTACH_PTY_CLOSE_UNCERTAIN"]
  | .exitState => ["EXITED", "STOPPED", "MISSING", "COLLISION", "BROKEN", "UNKNOWN"]
  | .gapReason => ["baseline_redraw", "ring_overflow", "cursor_expired", "slow_client"]
  | .inputResult => ["accepted", "written_to_pty", "write_uncertain", "rejected"]
  | .error => errorCodes
  | .state => workspaceStates
  | .reject => rejectCodes
  | .resizeReject => resizeRejectCodes
  | .detachReject => detachRejectCodes
  | .inputReject => rejectCodes ++ ["INPUT_RATE_LIMITED", "INPUT_WRITE_UNCERTAIN"]
  | .close =>
    match leg with
    | .apiToRuntime => internalClose
    | .runtimeToApi => runtimeClose
    | _ => runtimeClose ++ apiClose
  | _ => []

/-! ## Profiles -/

def admissionFields : List (String × Rule) :=
  [("workspace_id", .admission), ("project_id", .admission), ("generation", .admission),
   ("binding_revision", .admission), ("binding_digest", .admission), ("lease_number", .admission),
   ("agent_type", .admission), ("api_authority_epoch", .admission), ("attachment_id", .admission),
   ("mode", .admission), ("runtime_host_installation_revision", .admission),
   ("auth_epoch", .admission), ("runtime_host_installation_id", .admission)]

def contextFields : List (String × Rule) :=
  [("workspace_id", .context), ("project_id", .context), ("generation", .context),
   ("binding_revision", .context), ("binding_digest", .context), ("lease_number", .context),
   ("agent_type", .context), ("api_authority_epoch", .context), ("attachment_id", .context),
   ("runtime_epoch", .context), ("protocol_id", .context), ("crypto_envelope_version", .context),
   ("runtime_host_installation_revision", .context), ("auth_epoch", .context),
   ("runtime_host_installation_id", .context)]

/-- `SCHEMAS['browser-to-api']` -/
def browserToApiFields : FrameType → Option (List (String × Rule))
  | .wsHello => some (admissionFields ++
      [("runtime_epoch", .u64), ("resume_cursor", .nullable .cursor),
       ("previous_runtime_epoch", .nullable .u64), ("ticket", .wat)])
  | .keyInit => some (admissionFields ++
      [("runtime_epoch", .u64), ("noise_protocol", .noise), ("crypto_envelope_version", .one),
       ("browser_ephemeral_public_key", .b64 32), ("noise_message_1", .b64 32)])
  | .keyConfirm => some (contextFields ++ [("noise_protocol", .noise), ("ciphertext", .b64 48)])
  | .resize => some
      [("attachment_id", .att), ("lease_number", .u64), ("columns", .columns), ("rows", .rows)]
  | .heartbeat => some
      [("attachment_id", .att), ("lease_number", .u64), ("sent_at_monotonic_tick", .u64)]
  | .ping => some [("nonce", .hex8), ("sent_at_monotonic_tick", .u64)]
  | .detach => some [("attachment_id", .att), ("lease_number", .u64)]
  | _ => none

/-- `SCHEMAS['api-to-browser']` -/
def apiToBrowserFields : FrameType → Option (List (String × Rule))
  | .keyAttest => some (admissionFields ++
      [("runtime_epoch", .u64), ("noise_protocol", .noise), ("crypto_envelope_version", .one),
       ("runtime_attestation_x25519_fingerprint", .hex32),
       ("runtime_ephemeral_public_key", .b64 32), ("noise_message_2", .b64 128)])
  | .keyConfirmAck => some (contextFields ++
      [("noise_protocol", .noise), ("ciphertext", .b64 48), ("status", .verified),
       ("transcript_context_hash", .hex32)])
  | .admitted => some (admissionFields ++
      [("runtime_epoch", .u64), ("state", .running), ("output_cursor", .cursor),
       ("lease_expires_at", .timestamp)])
  | .pong => some [("nonce", .hex8), ("echoed_sent_at_monotonic_tick", .u64)]
  | .exit => some [("state", .exitState), ("exit_code", .nullable .exitCode)]
  | .gap => some [("from_cursor", .cursor), ("to_cursor", .u64Zero), ("reason", .gapReason)]
  | .ack => some
      [("runtime_input_hop_sequence", .u64), ("crypto_sequence", .crypto),
       ("result", .inputResult), ("reason_code", .nullable .inputReject),
       ("browser_input_hop_sequence", .u64)]
  | .error => some [("code", .error), ("retryable", .bool), ("request_id", .nullable .wreq)]
  | .close => some [("code", .close), ("workspace_state_at_close", .state)]
  | .state => some
      [("workspace_id", .aws), ("project_id", .prj), ("agent_type", .agent),
       ("generation", .u64), ("state", .state), ("reason_code", .nullable .error)]
  | .resizeAck => some
      [("attachment_id", .att), ("lease_number", .u64), ("acknowledged_hop_sequence", .u64),
       ("requested_columns", .columns), ("requested_rows", .rows),
       ("effective_columns", .nullable .columns), ("effective_rows", .nullable .rows),
       ("result", .resizeResult), ("reason_code", .nullable .resizeReject)]
  | .detachAck => some
      [("attachment_id", .att), ("lease_number", .u64), ("acknowledged_hop_sequence", .u64),
       ("result", .detachResult), ("cleanup_state", .cleanup),
       ("reason_code", .nullable .detachReject)]
  | _ => none

/-- `SCHEMAS['api-to-runtime']` -/
def apiToRuntimeFields : FrameType → Option (List (String × Rule))
  | .runtimeHello => some (admissionFields ++
      [("runtime_epoch", .u64), ("resume_cursor", .nullable .cursor),
       ("previous_runtime_epoch", .nullable .u64), ("capability", .hex32)])
  | .keyInit => some (admissionFields ++
      [("runtime_epoch", .u64), ("noise_protocol", .noise), ("crypto_envelope_version", .one),
       ("browser_ephemeral_public_key", .b64 32), ("noise_message_1", .b64 32)])
  | .keyConfirm => some (contextFields ++ [("noise_protocol", .noise), ("ciphertext", .b64 48)])
  | .resize => some
      [("attachment_id", .att), ("lease_number", .u64), ("columns", .columns), ("rows", .rows)]
  | .heartbeat => some
      [("attachment_id", .att), ("lease_number", .u64), ("sent_at_monotonic_tick", .u64)]
  | .ping => some [("nonce", .hex8), ("sent_at_monotonic_tick", .u64)]
  | .pong => some [("nonce", .hex8), ("echoed_sent_at_monotonic_tick", .u64)]
  | .detach => some [("attachment_id", .att), ("lease_number", .u64)]
  | .close => some [("code", .close), ("workspace_state_at_close", .state)]
  | .streamReady => some (admissionFields ++ [("runtime_epoch", .u64)])
  | .admissionCommit => some (admissionFields ++
      [("runtime_epoch", .u64), ("admission_fence", .hex32)])
  | _ => none

/-- `SCHEMAS['runtime-to-api']` -/
def runtimeToApiFields : FrameType → Option (List (String × Rule))
  | .keyAttest => some (admissionFields ++
      [("runtime_epoch", .u64), ("noise_protocol", .noise), ("crypto_envelope_version", .one),
       ("runtime_attestation_x25519_fingerprint", .hex32),
       ("runtime_ephemeral_public_key", .b64 32), ("noise_message_2", .b64 128)])
  | .keyConfirmAck => some (contextFields ++
      [("noise_protocol", .noise), ("ciphertext", .b64 48), ("status", .verified),
       ("transcript_context_hash", .hex32)])
  | .helloAck => some (admissionFields ++
      [("runtime_epoch", .u64), ("state", .running), ("output_cursor", .cursor),
       ("input_limit", .inputLimit), ("output_limit", .outputLimit)])
  | .heartbeat => some
      [("attachment_id", .att), ("lease_number", .u64), ("sent_at_monotonic_tick", .u64)]
  | .ping => some [("nonce", .hex8), ("sent_at_monotonic_tick", .u64)]
  | .pong => some [("nonce", .hex8), ("echoed_sent_at_monotonic_tick", .u64)]
  | .exit => some [("state", .exitState), ("exit_code", .nullable .exitCode)]
  | .gap => some [("from_cursor", .cursor), ("to_cursor", .u64Zero), ("reason", .gapReason)]
  | .ack => some
      [("runtime_input_hop_sequence", .u64), ("crypto_sequence", .crypto),
       ("result", .inputResult), ("reason_code", .nullable .inputReject)]
  | .error => some [("code", .error), ("retryable", .bool), ("request_id", .nullable .wreq)]
  | .close => some [("code", .close), ("workspace_state_at_close", .state)]
  | .state => some
      [("workspace_id", .aws), ("project_id", .prj), ("agent_type", .agent),
       ("generation", .u64), ("state", .state), ("reason_code", .nullable .error),
       ("runtime_epoch", .u64)]
  | .streamReadyAck => some (admissionFields ++
      [("runtime_epoch", .u64), ("state", .running), ("output_cursor", .cursor),
       ("admission_fence", .hex32)])
  | .admissionCommitAck => some (admissionFields ++
      [("runtime_epoch", .u64), ("result", .commitResult), ("reason_code", .nullable .reject)])
  | .resizeAck => some
      [("attachment_id", .att), ("lease_number", .u64), ("acknowledged_hop_sequence", .u64),
       ("requested_columns", .columns), ("requested_rows", .rows),
       ("effective_columns", .nullable .columns), ("effective_rows", .nullable .rows),
       ("result", .resizeResult), ("reason_code", .nullable .resizeReject)]
  | .detachAck => some (admissionFields ++
      [("runtime_epoch", .u64), ("acknowledged_hop_sequence", .u64), ("result", .detachResult),
       ("cleanup_state", .cleanup), ("reason_code", .nullable .detachReject)])
  | _ => none

/-- `SCHEMAS[leg][kind]`; every profile starts with `protocol_version`. -/
def schema (leg : Leg) (kind : FrameType) : Option (List (String × Rule)) :=
  let fields := match leg with
    | .browserToApi => browserToApiFields kind
    | .apiToBrowser => apiToBrowserFields kind
    | .apiToRuntime => apiToRuntimeFields kind
    | .runtimeToApi => runtimeToApiFields kind
  fields.map (("protocol_version", .one) :: ·)

/-! ## Scalars -/

/-- `uint` with its bounds. -/
def uint (minimum maximum : ℕ) (value : Scalar) : Bool :=
  match value with
  | .str s => matchesDecimal s && !(decimalValue s < minimum || maximum < decimalValue s)
  | _ => false

/-- The value is an integer between the bounds. -/
def within (low high : ℤ) (value : Scalar) : Bool :=
  match value with
  | .int n => !(n < low || high < n)
  | _ => false

/-- The units of UTF-16 that a text takes, its `length`. -/
def jsLength (s : List Char) : ℕ := (s.map fun c => if c.toNat < 0x10000 then 1 else 2).sum

/-- The check of a `b64_` rule: alphabet, length and unused bits only. -/
def isB64 (size : ℕ) (s : List Char) : Bool :=
  let remainder := size % 3
  !(jsLength s != (size * 8 + 5) / 6 || s == [] || s.any (b64Index · ≥ 64) ||
    (remainder != 0 &&
      (s.getLast?.map b64Index).any fun i => i % (if remainder = 1 then 16 else 4) != 0))

/-- `days[month - 1]` -/
def days (leap : Bool) (month : ℕ) : ℕ :=
  [31, if leap then 29 else 28, 31, 30, 31, 30, 31, 31, 30, 31, 30, 31].getD (month - 1) 0

/-- The check of the `timestamp` rule. -/
def isTimestamp (t : List Char) : Bool :=
  let digits (start stop : ℕ) := (t.drop start).take (stop - start)
  let number (start stop : ℕ) := decimalValue (digits start stop)
  let year := number 0 4
  let month := number 5 7
  let leap := year % 4 == 0 && (year % 100 != 0 || year % 400 == 0)
  -- the pattern of digits and separators
  t.length == 27 &&
    [(0, 4), (5, 7), (8, 10), (11, 13), (14, 16), (17, 19), (20, 26)].all
      (fun r => (digits r.1 r.2).all isDigit) &&
    [(4, '-'), (7, '-'), (10, 'T'), (13, ':'), (16, ':'), (19, '.'), (26, 'Z')].all
      (fun r => t[r.1]? == some r.2) &&
    !(year < 1 || month < 1 || month > 12 || number 8 10 < 1 || number 8 10 > days leap month ||
      number 11 13 > 23 || number 14 16 > 59 || number 17 19 > 59)

variable (leg : Leg) (rule : Rule) (value : Scalar)

/-- `scalar` after the nullable rules. -/
def plainScalar : Bool :=
  match rule with
  | .u64 => uint 1 maxU64 value
  | .crypto => uint 1 (maxU64 - 1) value
  | .cursor => uint 0 (maxU64 - 1) value
  | .u64Zero => uint 0 maxU64 value
  | .one => within 1 1 value
  | .inputLimit => within 16384 16384 value
  | .outputLimit => within 32768 32768 value
  | .columns => within 8 240 value
  | .rows => within 1 200 value
  | .exitCode => within (-128) 255 value
  | .bool =>
    match value with
    | .bool _ => true
    | _ => false
  | rule =>
    match value with
    | .str s =>
      match rule with
      | .att => matchesId "att" s
      | .aws => matchesId "aws" s
      | .prj => matchesId "prj" s
      | .wat => matchesId "wat" s
      | .wreq => matchesId "wreq" s
      | .hex8 => matchesHex 16 s
      | .hex32 => matchesHex 64 s
      | .b64 size => isB64 size s
      | .timestamp => isTimestamp s
      | rule => (enums leg rule).contains (String.ofList s)
    | _ => false

/-- `scalar` does not throw. -/
def scalar : Bool :=
  match rule with
  | .admission => true
  | .context => true
  | .nullable rule => value == .null || plainScalar leg rule value
  | rule => plainScalar leg rule value

/-! ## Records -/

/-- `exactRecord`: a copy with exactly these keys, in their order. -/
def exactRecord (value : Record) (keys : List String) : Option Record :=
  if value.length ≠ keys.length ∨ value.keys.any (!keys.contains ·) then none
  else keys.foldlM (fun result key => (value.get? key).map (result.set key ·)) .empty

/-- `CONTEXT_KEYS` -/
def contextKeys : List String :=
  admissionKeys.filter (· ≠ "mode") ++ ["runtime_epoch", "protocol_id", "crypto_envelope_version"]

/-- `validateU64` does not throw. -/
def validU64 (value : Option Scalar) : Bool :=
  match value with
  | some (.str s) => matchesPositiveDecimal s && decide (decimalValue s ≤ maxU64)
  | _ => false

/-- `validateHex32` does not throw. -/
def validHex32 (value : Option Scalar) : Bool :=
  match value with
  | some (.str s) => matchesHex 64 s
  | _ => false

/-- An identifier of this kind. -/
def validId (kind : String) (value : Option Scalar) : Bool :=
  match value with
  | some (.str s) => matchesId kind s
  | _ => false

/-- `validateMembers` does not throw. -/
def validMembers (record : Record) : Bool :=
  [("attachment_id", "att"), ("workspace_id", "aws"), ("project_id", "prj"),
    ("runtime_host_installation_id", "wri")].all (fun e => validId e.2 (record.get? e.1)) &&
  (record.isText "agent_type" "claude" || record.isText "agent_type" "codex") &&
  ["runtime_host_installation_revision", "auth_epoch", "api_authority_epoch", "lease_number",
    "generation", "binding_revision"].all (fun key => validU64 (record.get? key)) &&
  validHex32 (record.get? "binding_digest")

/-- `validateAdmission` -/
def validateAdmission (value : Record) : Option Record := do
  let record ← exactRecord value admissionKeys
  if validMembers record && record.isText "mode" "writer" then some record else none

/-- `validateContext` -/
def validateContext (value : Record) : Option Record := do
  let record ← exactRecord value contextKeys
  if validMembers record && validU64 (record.get? "runtime_epoch") &&
      record.isText "protocol_id" "agentbox-waw/v1" &&
      record.get? "crypto_envelope_version" == some (.int 1) then
    some record
  else none

/-! ## Envelopes -/

/-- `validateHeaderFields` -/
def validateHeaderFields (e : AwceFields) : Except AwceError Unit := do
  if e.cryptoEnvelopeVersion ≠ 1 then throw (.invalid "unsupported AWCE version")
  if 0xFF < e.directionId then throw (.invalid "AWCE direction is invalid")
  if e.directionId ≠ 1 ∧ e.directionId ≠ 2 then throw (.invalid "unknown AWCE direction")
  if 0xFFFF < e.flags ∨ e.flags ≠ 0 then throw (.invalid "AWCE flags are reserved and must be zero")
  if e.cryptoSequence < 1 ∨ Awce.maxTerminalSequence < e.cryptoSequence then
    throw (.invalid "AWCE crypto_sequence is invalid")
  if Awce.maxTerminalSequence < e.streamCursor then throw (.invalid "AWCE stream_cursor is invalid")
  if (e.directionId = 1 ∧ e.streamCursor ≠ 0) ∨ (e.directionId = 2 ∧ e.streamCursor < 1) then
    throw (.invalid "AWCE stream_cursor is invalid for its direction")
  if e.contextId.length ≠ 16 then throw (.invalid "AWCE context_id is invalid")
  if e.ciphertext.length < Awce.minCiphertextSize ∨ Awce.maxCiphertextSize < e.ciphertext.length then
    throw (.invalid "AWCE ciphertext length is outside the v1 limit")

/-- `decodeAwce` -/
def decodeAwce (data : Bytes) : Except AwceError AwceFields := do
  if data.length < Awce.headerSize then throw (.incomplete "AWCE header is incomplete")
  if Awce.maxEnvelopeSize < data.length then throw (.invalid "AWCE envelope exceeds the v1 limit")
  if data.slice 0 4 ≠ [0x41, 0x57, 0x43, 0x45] then throw (.invalid "invalid AWCE magic")
  let ciphertextLength := data.field 24 4
  if ciphertextLength < Awce.minCiphertextSize ∨ Awce.maxCiphertextSize < ciphertextLength then
    throw (.invalid "AWCE ciphertext length is outside the v1 limit")
  if data.length < Awce.headerSize + ciphertextLength then
    throw (.incomplete "AWCE ciphertext is incomplete")
  if Awce.headerSize + ciphertextLength < data.length then
    throw (.trailing "AWCE single-envelope decode has trailing bytes")
  validateHeaderFields (unpackAwce data)
  return unpackAwce data

/-! ## Payloads -/

/-- `Object.hasOwn(r, key)` -/
def hasOwn (r : Record) (key : String) : Bool := (r.get? key).isSome

/-- `Object.fromEntries(keys.map((key) => [key, r[key]]))` for keys that the record has. -/
def pick (r : Record) (keys : List String) : Record :=
  keys.foldl (fun d key => ((r.get? key).map (d.set key ·)).getD d) .empty

/-- The tuple or context inside a record is valid. -/
def tupleValid (r : Record) : Bool :=
  if admissionKeys.all (hasOwn r) then (validateAdmission (pick r admissionKeys)).isSome
  else if contextKeys.all (hasOwn r) then (validateContext (pick r contextKeys)).isSome
  else true

/-- The record agrees with `binding.admission`. -/
def admissionBound (admission : Option Record) (r : Record) : Bool :=
  match admission with
  | none => true
  | some admission =>
    match validateAdmission admission with
    | none => false
    | some bound => admissionKeys.all fun key => !(hasOwn r key && r.get? key != bound.get? key)

/-- The record agrees with `binding.runtimeEpoch`. -/
def epochBound (runtimeEpoch : Option Scalar) (r : Record) : Bool :=
  match runtimeEpoch with
  | none => true
  | some epoch =>
    validU64 (some epoch) && !(hasOwn r "runtime_epoch" && r.get? "runtime_epoch" != some epoch)

/-- The rules that relate several fields of one kind of frame. -/
def fieldsFit (kind : FrameType) (trusted : Bool) (r : Record) : Bool :=
  !(kind == .error && trusted && r.isNull "request_id") &&
  match kind with
  | .resizeAck =>
    if r.isText "result" "applied" then
      !(!r.isNull "reason_code" || r.get? "effective_columns" != r.get? "requested_columns" ||
        r.get? "effective_rows" != r.get? "requested_rows")
    else
      !(r.isNull "reason_code" || !r.isNull "effective_columns" || !r.isNull "effective_rows")
  | .detachAck =>
    let positive := !r.isText "result" "rejected"
    !(r.isNull "reason_code" != positive ||
      !r.isText "cleanup_state"
        (if positive then "ATTACH_PTY_CLOSED" else "ATTACH_PTY_CLOSE_UNCERTAIN"))
  | .admissionCommitAck => !(r.isText "result" "committed" != r.isNull "reason_code")
  | .ack =>
    if r.isText "result" "accepted" || r.isText "result" "written_to_pty" then r.isNull "reason_code"
    else if r.isText "result" "write_uncertain" then r.isText "reason_code" "INPUT_WRITE_UNCERTAIN"
    else (rejectCodes ++ ["INPUT_RATE_LIMITED"]).any (r.isText "reason_code")
  | .gap =>
    let start := r.number "from_cursor"
    let stop := r.number "to_cursor"
    if r.isText "reason" "baseline_redraw" then !(start != 0 || stop != 0)
    else !(start < 1 || stop ≤ start)
  | _ => true

/-- `validatePayload` for a kind and a leg that `profile` let pass; what it returns. -/
def validatePayload (kind : FrameType) (leg : Leg) (payload : Payload) (admission : Option Record)
    (runtimeEpoch : Option Scalar) (trusted : Bool) : Option Payload :=
  if kind = .input ∨ kind = .output then
    match payload with
    | .bytes b =>
      match decodeAwce b with
      | .ok env =>
        if env.directionId ≠ (if kind = .input then 1 else 2) ∨
            env.ciphertext.length > (if kind = .input then 16384 else 32768) + 16 then
          none
        else some (.bytes b)
      | .error _ => none
    | .record _ => none
  else
    match payload with
    | .bytes _ => none
    | .record payload => do
      let rules ← schema leg kind
      let r ← exactRecord payload (rules.map Prod.fst)
      if rules.all (fun e => (r.get? e.1).any (scalar leg e.2)) && tupleValid r &&
          admissionBound admission r && epochBound runtimeEpoch r && fieldsFit kind trusted r then
        some (.record r)
      else none

end AgentBox.Web
