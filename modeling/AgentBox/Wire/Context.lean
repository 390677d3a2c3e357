import AgentBox.Common.Dict
import AgentBox.Common.Method
import AgentBox.Common.Text
import Mathlib.Algebra.Order.Ring.Int

/-!
# Records, admission tuples and handshake contexts

Reference: `agentbox_protocol/waw_crypto_context.py`.

A record is what a validated JSON payload holds: scalars under distinct names. The admission tuple
and the handshake context are records with a fixed set of names.
-/

namespace AgentBox.Wire

/-- A JSON scalar as Python holds it. -/
inductive Scalar
  | null
  | bool (b : Bool)
  | int (n : ℤ)
  | str (s : List Char)
deriving DecidableEq, Repr

/-- A text given by a literal. -/
def Scalar.text (s : String) : Scalar := .str s.toList

/-- A dictionary of scalars. -/
abbrev Record := Dict String Scalar

/-- `WAWContextError` -/
structure ContextError where
  message : String
deriving DecidableEq, Repr

variable (r : Record) (names : List String)

/-- `record.keys() == names` -/
def Record.hasExactly : Bool :=
  r.keys.all (names.contains ·) && names.all fun k => decide (k ∈ r)

/-- `ADMISSION_KEYS` -/
def admissionKeys : List String :=
  ["attachment_id", "workspace_id", "project_id", "agent_type", "runtime_host_installation_id",
   "runtime_host_installation_revision", "auth_epoch", "api_authority_epoch", "lease_number",
   "generation", "binding_revision", "mode", "binding_digest"]

/-- `CONTEXT_KEYS` -/
def contextKeys : List String :=
  admissionKeys.filter (· ≠ "mode") ++ ["protocol_id", "crypto_envelope_version", "runtime_epoch"]

/-- `U64_KEYS` -/
def u64Keys : List String :=
  ["runtime_host_installation_revision", "auth_epoch", "api_authority_epoch", "lease_number",
   "generation", "binding_revision"]

/-- `_IDS` -/
def idKinds : List (String × String) :=
  [("attachment_id", "att"), ("workspace_id", "aws"), ("project_id", "prj"),
   ("runtime_host_installation_id", "wri")]

/-- `[1-9][0-9]{0,19}` -/
def matchesPositiveDecimal (s : List Char) : Bool :=
  match s with
  | [] => false
  | c :: rest => decide ('1' ≤ c) && decide (c ≤ '9') && rest.length ≤ 19 && rest.all isDigit

/-- The number a string of digits denotes. -/
def decimalValue (s : List Char) : ℕ := Nat.ofDigitChars 10 s 0

/-- `[a-f0-9]{n}` -/
def matchesHex (n : ℕ) (s : List Char) : Bool := s.length == n && s.all isLowerHex

/-- A kind, an underscore and 32 hexadecimal digits. -/
def matchesId (kind : String) (s : List Char) : Bool :=
  let opening := kind.toList ++ ['_']
  opening.isPrefixOf s && matchesHex 32 (s.drop opening.length)

/-- `MAX_U64` -/
def maxU64 : ℕ := 2 ^ 64 - 1

/-- `validate_u64`: one positive canonical uint64 JSON string without coercion. -/
def validateU64 (value : Scalar) : Except ContextError (List Char) :=
  match value with
  | .str s =>
    if matchesPositiveDecimal s && decide (decimalValue s ≤ maxU64) then .ok s
    else .error ⟨"invalid positive uint64 string"⟩
  | _ => .error ⟨"invalid positive uint64 string"⟩

/-- `validate_hex32` -/
def validateHex32 (value : Scalar) : Except ContextError (List Char) :=
  match value with
  | .str s =>
    if matchesHex 64 s then .ok s
    else .error ⟨"invalid lowercase 32-byte hexadecimal string"⟩
  | _ => .error ⟨"invalid lowercase 32-byte hexadecimal string"⟩

/-- The loop body of `validate_admission` for one name. -/
def validateAdmissionItem (key : String) (item : Option Scalar) : Except ContextError Unit :=
  match item with
  | some (.str s) =>
    if u64Keys.contains key then (validateU64 (.str s)).map fun _ => ()
    else
      match idKinds.lookup key with
      | some kind =>
        if matchesId kind s then .ok ()
        else .error ⟨"invalid AdmissionTuple identifier"⟩
      | none =>
        if key = "binding_digest" then (validateHex32 (.str s)).map fun _ => ()
        else if key = "mode" ∧ s ≠ "writer".toList then .error ⟨"invalid AdmissionTuple mode"⟩
        else if key = "agent_type" ∧ s ≠ "claude".toList ∧ s ≠ "codex".toList then
          .error ⟨"invalid AdmissionTuple agent type"⟩
        else .ok ()
  | _ => .error ⟨"invalid AdmissionTuple scalar type"⟩

/-- `validate_admission`: all 13 members. The source walks a set, so which of several bad members is
reported is not determined there; here it is the first of `admissionKeys`. -/
def validateAdmission (value : Record) : Except ContextError Record := do
  if !value.hasExactly admissionKeys then throw ⟨"invalid AdmissionTuple fields"⟩
  admissionKeys.forM fun key => validateAdmissionItem key (value.get? key)
  return value

/-- `derive_context`: omit validated writer mode and bind the already-known Runtime epoch. -/
def deriveContext (admission : Record) (runtimeEpoch : Scalar) : Except ContextError Record := do
  let bound ← validateAdmission admission
  let epoch ← validateU64 runtimeEpoch
  return (((bound.erase "mode").set "protocol_id" (.text "agentbox-waw/v1")).set
    "crypto_envelope_version" (.int 1)).set "runtime_epoch" (.str epoch)

/-- `{key: record[key] for key in names}` for names the record has. -/
def Record.restrict : Record :=
  r.keys.foldl (fun d k => if names.contains k then d else d.erase k) r

/-- `validate_context`: exactly 15 context members; no missing wire field is defaulted. Mode is not a
member of the context; setting it reconstructs the fixed derivation domain. -/
def validateContext (value : Record) : Except ContextError Record := do
  if !value.hasExactly contextKeys then throw ⟨"invalid HandshakeContext fields"⟩
  if value.get? "protocol_id" ≠ some (.text "agentbox-waw/v1") ∨
      value.get? "crypto_envelope_version" ≠ some (.int 1) then
    throw ⟨"unsupported application crypto profile"⟩
  match value.get? "runtime_epoch" with
  | none => throw ⟨"invalid HandshakeContext fields"⟩
  | some epoch => deriveContext ((value.restrict admissionKeys).set "mode" (.text "writer")) epoch

end AgentBox.Wire
