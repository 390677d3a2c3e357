import AgentBox.Common.Bytes
import AgentBox.Common.Json

/-!
# The outer frame

Reference: `agentbox_protocol/abws.py`.

An ABWS frame is a 24-byte header followed by a payload: opaque bytes for `INPUT` and `OUTPUT`, a
strict JSON object for every other kind.
-/

namespace AgentBox.Wire

open Json

inductive FrameType
  | wsHello | runtimeHello | keyInit | keyAttest | keyConfirm | keyConfirmAck | helloAck | admitted
  | input | output | resize | heartbeat | ping | pong | detach | exit | gap | ack | error | close
  | state | streamReady | streamReadyAck | admissionCommit | admissionCommitAck | resizeAck
  | detachAck
deriving DecidableEq, Repr

namespace FrameType

/-- The members in the order of their values, which start at 1. -/
def members : List FrameType :=
  [wsHello, runtimeHello, keyInit, keyAttest, keyConfirm, keyConfirmAck, helloAck, admitted, input,
   output, resize, heartbeat, ping, pong, detach, exit, gap, ack, error, close, state, streamReady,
   streamReadyAck, admissionCommit, admissionCommitAck, resizeAck, detachAck]

/-- `int(kind)` -/
def value (kind : FrameType) : ℕ := members.idxOf kind + 1

/-- `FrameType(n)`; `none` is its `ValueError`. -/
def ofValue : ℕ → Option FrameType
  | 0 => none
  | n + 1 => members[n]?

theorem value_of_ofValue {n : ℕ} {kind : FrameType} (h : ofValue n = some kind) : kind.value = n := by
  cases n with
  | zero => cases h
  | succ n =>
    obtain ⟨hn, rfl⟩ := List.getElem?_eq_some_iff.mp h
    exact congrArg (· + 1) ((by decide : members.Nodup).idxOf_getElem n hn)

/-- `kind in OPAQUE_TYPES` -/
def isOpaque (kind : FrameType) : Bool := kind == input || kind == output

end FrameType

/-- The `ABWSError` classes. -/
inductive AbwsError
  /-- a header outside the contract -/
  | header (message : String)
  /-- `IncompleteFrame` -/
  | incomplete (message : String)
  /-- `TrailingBytes` -/
  | trailing
  /-- a payload that is not the JSON object the contract asks for; which message it carries depends
  on how far the scanner came and is left out -/
  | control
deriving DecidableEq, Repr

/-! ## Control payloads -/

mutual

/-- What the two hooks of `json.loads` let pass: no constant and no repeated key, at any depth. -/
def hooksAccept : Tree → Bool
  | .constant _ => false
  | .array items => hooksAcceptItems items
  | .object members => decide (members.map Prod.fst).Nodup && hooksAcceptMembers members
  | _ => true

def hooksAcceptItems : List Tree → Bool
  | [] => true
  | item :: items => hooksAccept item && hooksAcceptItems items

def hooksAcceptMembers : List (CodePoints × Tree) → Bool
  | [] => true
  | (_, item) :: members => hooksAccept item && hooksAcceptMembers members

end

/-- `MAX_JSON_DEPTH` -/
def maxJsonDepth : ℕ := 16

/-- `MAX_JSON_KEYS` -/
def maxJsonKeys : ℕ := 64

/-- `_validate_json_value` on a string. -/
def validateText (s : CodePoints) (depth : ℕ) : Bool :=
  decide (depth ≤ maxJsonDepth) && !s.any isSurrogate

mutual

/-- `_validate_json_value`: the key count after the value, or `none` where it raises. -/
def validateJsonValue : Tree → ℕ → ℕ → Option ℕ
  | .string s, depth, count => if validateText s depth then some count else none
  | .array items, depth, count =>
    if depth > maxJsonDepth then none else validateJsonItems items (depth + 1) count
  | .object members, depth, count =>
    if depth > maxJsonDepth then none else validateJsonMembers members (depth + 1) count
  | _, depth, count => if depth > maxJsonDepth then none else some count

def validateJsonItems : List Tree → ℕ → ℕ → Option ℕ
  | [], _, count => some count
  | item :: items, depth, count =>
    (validateJsonValue item depth count).bind fun count => validateJsonItems items depth count

def validateJsonMembers : List (CodePoints × Tree) → ℕ → ℕ → Option ℕ
  | [], _, count => some count
  | (key, item) :: members, depth, count =>
    if count + 1 > maxJsonKeys then none
    else if !validateText key depth then none
    else
      (validateJsonValue item depth (count + 1)).bind fun count =>
        validateJsonMembers members depth count

end

/-- The integer `1`, as a JSON number. -/
def isOne : Tree → Bool
  | .number token => token.text == [49]
  | _ => false

/-- `"protocol_version"` -/
def protocolVersionKey : CodePoints :=
  [112, 114, 111, 116, 111, 99, 111, 108, 95, 118, 101, 114, 115, 105, 111, 110]

/-- `_decode_json` -/
def decodeJson (payload : Bytes) : Except AbwsError (List (CodePoints × Tree)) :=
  if payload.length > 4096 then .error .control
  else
    match (decodeUtf8 0 payload).bind loads with
    | some (.object members) =>
      if !hooksAccept (.object members) then .error .control
      else if (validateJsonValue (.object members) 0 0).isNone then .error .control
      else if !((members.lookup protocolVersionKey).any isOne) then .error .control
      else .ok members
    | _ => .error .control

/-! ## Frames -/

/-- The header fields, `struct.Struct("!4sBBHIQI")`. -/
structure AbwsHeader where
  magic : Bytes
  version : ℕ
  rawType : ℕ
  flags : ℕ
  payloadLength : ℕ
  hopSequence : ℕ
  reserved : ℕ

def unpackHeader (raw : Bytes) : AbwsHeader where
  magic := raw.slice 0 4
  version := raw.field 4 1
  rawType := raw.field 5 1
  flags := raw.field 6 2
  payloadLength := raw.field 8 4
  hopSequence := raw.field 12 8
  reserved := raw.field 20 4

/-- `HEADER_SIZE` -/
def headerSize : ℕ := 24

/-- `MAX_PAYLOAD` -/
def maxPayload : ℕ := 65512

/-- `_validate_header` -/
def validateHeader (header : AbwsHeader) : Except AbwsError Unit :=
  if header.version ≠ 1 then .error (.header "unsupported ABWS version")
  else if header.flags ≠ 0 then .error (.header "ABWS flags are reserved and must be zero")
  else if header.reserved ≠ 0 then .error (.header "ABWS reserved field must be zero")
  else if header.payloadLength > maxPayload then .error (.header "ABWS payload exceeds parser limit")
  else .ok ()

/-- `ABWSFrame` -/
structure AbwsFrame where
  frameType : FrameType
  hopSequence : ℕ
  payload : Bytes
  jsonPayload : Option (List (CodePoints × Tree))

/-- `decode_frame` without an expected sequence: exactly one complete frame. -/
def decodeFrame (raw : Bytes) : Except AbwsError AbwsFrame := do
  if raw.length < headerSize then throw (.incomplete "ABWS header is incomplete")
  let header := unpackHeader raw
  if header.magic ≠ [65, 66, 87, 83] then throw (.header "invalid ABWS magic")
  validateHeader header
  match FrameType.ofValue header.rawType with
  | none => throw (.header "unknown ABWS frame type")
  | some kind =>
    if raw.length < headerSize + header.payloadLength then
      throw (.incomplete "ABWS payload is incomplete")
    if headerSize + header.payloadLength < raw.length then throw .trailing
    if header.hopSequence < 1 then throw (.header "hop_sequence must be a non-zero uint64")
    let payload := raw.drop headerSize
    if kind.isOpaque then return ⟨kind, header.hopSequence, payload, none⟩
    let members ← decodeJson payload
    return ⟨kind, header.hopSequence, payload, some members⟩

end AgentBox.Wire
