import AgentBox.Common.Bytes
import AgentBox.Common.Method
import Mathlib.Algebra.Order.Ring.Int

/-!
# The encrypted record envelope

Reference: `agentbox_protocol/awce.py`.

An AWCE envelope is a 44-byte header followed by ciphertext. `AwceEnvelope` is a frozen dataclass
whose constructor checks its fields, so a value is its fields together with the fact that the check
passed. Ciphertext and context identifiers stay opaque here.
-/

namespace AgentBox.Wire

/-- `AWCEError` and its subclasses. -/
inductive AwceError
  | invalid (message : String)
  /-- `IncompleteAWCE` -/
  | incomplete (message : String)
  /-- `TrailingAWCEBytes` -/
  | trailing (message : String)
deriving DecidableEq, Repr

namespace Awce

def headerSize : ℕ := 44

/-- `MIN_CIPHERTEXT_SIZE`: one byte of plaintext and its tag. -/
def minCiphertextSize : ℕ := 17

def maxCiphertextSize : ℕ := 49168

def maxEnvelopeSize : ℕ := headerSize + maxCiphertextSize

/-- `MAX_TERMINAL_SEQUENCE`, which is also `MAX_OUTPUT_CURSOR`. -/
def maxTerminalSequence : ℕ := 2 ^ 64 - 2

/-- `_require_exact_uint` on an integer. -/
def requireExactUint (value : ℕ) (name : String) (minimum maximum : ℕ) : Except AwceError Unit :=
  if value < minimum ∨ maximum < value then .error (.invalid (name ++ " is invalid")) else .ok ()

end Awce

/-- The fields of an envelope. -/
structure AwceFields where
  cryptoEnvelopeVersion : ℕ
  directionId : ℕ
  flags : ℕ
  cryptoSequence : ℕ
  streamCursor : ℕ
  contextId : Bytes
  ciphertext : Bytes
deriving DecidableEq

/-- `_validate_fields`, the constructor's check. -/
def AwceFields.validate (e : AwceFields) : Except AwceError Unit := do
  if e.cryptoEnvelopeVersion ≠ 1 then throw (.invalid "unsupported AWCE version")
  Awce.requireExactUint e.directionId "AWCE direction" 0 0xFF
  if e.directionId ≠ 1 ∧ e.directionId ≠ 2 then throw (.invalid "unknown AWCE direction")
  Awce.requireExactUint e.flags "AWCE flags" 0 0xFFFF
  if e.flags ≠ 0 then throw (.invalid "AWCE flags are reserved and must be zero")
  Awce.requireExactUint e.cryptoSequence "AWCE crypto_sequence" 1 Awce.maxTerminalSequence
  Awce.requireExactUint e.streamCursor "AWCE stream_cursor" 0 Awce.maxTerminalSequence
  if (e.directionId = 1 ∧ e.streamCursor ≠ 0) ∨ (e.directionId = 2 ∧ e.streamCursor < 1) then
    throw (.invalid "AWCE stream_cursor is invalid for its direction")
  if e.contextId.length ≠ 16 then throw (.invalid "AWCE context_id is invalid")
  Awce.requireExactUint e.ciphertext.length "AWCE ciphertext length" 0 Awce.maxCiphertextSize
  if e.ciphertext.length < Awce.minCiphertextSize then
    throw (.invalid "AWCE ciphertext length is outside the v1 limit")

/-- `AWCEEnvelope` -/
structure AwceEnvelope extends AwceFields where
  accepted : toAwceFields.validate.isOk = true
deriving DecidableEq

/-- Run the constructor's check. -/
def AwceFields.accept (e : AwceFields) : Except AwceError AwceEnvelope :=
  match h : e.validate with
  | .ok () => .ok ⟨e, by rw [h]; rfl⟩
  | .error err => .error err

/-- The fields of an encoded envelope, `struct.Struct("!4sBBHQQI16s")`. -/
def unpackAwce (data : Bytes) : AwceFields where
  cryptoEnvelopeVersion := data.field 4 1
  directionId := data.field 5 1
  flags := data.field 6 2
  cryptoSequence := data.field 8 8
  streamCursor := data.field 16 8
  contextId := data.slice 28 16
  ciphertext := data.drop Awce.headerSize

/-- `decode_awce`: exactly one envelope, neither cut short nor followed by further bytes. -/
def decodeAwce (data : Bytes) : Except AwceError AwceEnvelope := do
  if data.length < Awce.headerSize then throw (.incomplete "AWCE header is incomplete")
  if Awce.maxEnvelopeSize < data.length then throw (.invalid "AWCE envelope exceeds the v1 limit")
  if data.slice 0 4 ≠ [65, 87, 67, 69] then throw (.invalid "invalid AWCE magic")
  let ciphertextLength := data.field 24 4
  if ciphertextLength < Awce.minCiphertextSize ∨ Awce.maxCiphertextSize < ciphertextLength then
    throw (.invalid "AWCE ciphertext length is outside the v1 limit")
  if data.length < Awce.headerSize + ciphertextLength then
    throw (.incomplete "AWCE ciphertext is incomplete")
  if Awce.headerSize + ciphertextLength < data.length then
    throw (.trailing "AWCE single-envelope decode has trailing bytes")
  (unpackAwce data).accept

end AgentBox.Wire
