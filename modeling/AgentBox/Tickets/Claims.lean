import AgentBox.Common.Dict
import AgentBox.Common.Method
import AgentBox.Common.Sha256
import AgentBox.Common.Text
import Mathlib.Algebra.Order.Ring.Int

/-!
# Attachment claims and contexts

Reference: `agentbox_core/waw.py` (identifiers) and the value classes of `agentbox_core/waw_tickets.py`.

`AttachmentTuple` and `AuthenticatedAttachmentContext` are frozen dataclasses whose `__post_init__`
raises on malformed input, so an instance is its fields together with the fact that the check passed.
The comparisons `sameTuple` and `sameContext` run `hmac.compare_digest` over the printed fields; on
accepted claims they decide equality, on contexts they may raise because those admit non-ASCII text.
-/

namespace AgentBox.Tickets

/-- Stable bounded ticket/lease rejection classes. -/
inductive TicketErrorCode
  | invalid | expired | replayed | stale | writerBusy | capacity | sequenceExhausted
  | leaseExpired | leaseMismatch | randomnessUnavailable | deliveryFailed
deriving DecidableEq, Repr

/-- The public spelling of a rejection class, which is also its default message. -/
def TicketErrorCode.value : TicketErrorCode → String
  | .invalid => "ATTACHMENT_TICKET_INVALID"
  | .expired => "ATTACHMENT_TICKET_EXPIRED"
  | .replayed => "ATTACHMENT_TICKET_REPLAYED"
  | .stale => "ATTACHMENT_STALE"
  | .writerBusy => "WORKSPACE_WRITER_BUSY"
  | .capacity => "ATTACHMENT_TICKET_UNAVAILABLE"
  | .sequenceExhausted => "SEQUENCE_EXHAUSTED"
  | .leaseExpired => "ATTACHMENT_LEASE_EXPIRED"
  | .leaseMismatch => "ATTACHMENT_LEASE_MISMATCH"
  | .randomnessUnavailable => "RANDOMNESS_UNAVAILABLE"
  | .deliveryFailed => "ADMITTED_DELIVERY_FAILED"

/-- What a method of the authority may raise. -/
inductive Raised
  /-- `TicketAuthorityError(code, message)` -/
  | ticket (code : TicketErrorCode) (message : String)
  /-- `WAWDomainError(message)` -/
  | domain (message : String)
  /-- `TypeError` from comparing non-ASCII text -/
  | typeError
  /-- `OverflowError` from calendar arithmetic -/
  | overflow
  /-- whatever a publication callback raised -/
  | callback
deriving DecidableEq, Repr

/-- `TicketAuthorityError(code)`, whose message is the code itself. -/
def Raised.code (c : TicketErrorCode) : Raised := .ticket c c.value

/-- Closed WAW V1 agent set. -/
inductive AgentType
  | claude | codex
deriving DecidableEq, Repr

def AgentType.value : AgentType → String
  | .claude => "claude"
  | .codex => "codex"

/-- `AgentType(value)`; `none` is its `ValueError`. -/
def AgentType.ofValue (s : String) : Option AgentType :=
  if s = "claude" then some .claude else if s = "codex" then some .codex else none

/-- `_MAX_U64` -/
def maxU64 : ℕ := 2 ^ 64 - 1

/-! ## Identifiers -/

/-- `_validate_id`: a fixed three-letter kind, an underscore and 32 hexadecimal digits. -/
def validateId (opening kind value : String) : Except Raised Unit :=
  if matchesHexAfter opening 32 value then .ok ()
  else .error (.domain ("invalid " ++ kind ++ " identifier"))

def validateWorkspaceId : String → Except Raised Unit := validateId "aws_" "workspace"

def validateProjectId : String → Except Raised Unit := validateId "prj_" "project"

def validateAttachmentId : String → Except Raised Unit := validateId "att_" "attachment"

def validateRuntimeHostInstallationId : String → Except Raised Unit :=
  validateId "wri_" "runtime_host"

def validateBindingDigest (value : String) : Except Raised Unit :=
  if matchesHexAfter "" 64 value then .ok ()
  else .error (.domain "binding_digest must be 64 lowercase hexadecimal characters")

/-- `validate_positive_u64`; a negative integer is rejected as `0` is. -/
def validatePositiveU64 (field : String) (value : ℕ) : Except Raised Unit :=
  if 1 ≤ value ∧ value ≤ maxU64 then .ok ()
  else .error (.domain (field ++ " must be an unsigned integer in 1..2^64-1"))

/-- `workspace_id`: the deterministic WAW identity for one Project/AgentType pair. The Project
identifier has been validated by every caller. -/
def workspaceIdOf (projectId : String) (agent : AgentType) : String :=
  "aws_" ++ String.ofList ((hexBytes (sha256
    (utf8 "agentbox-waw-v1" ++ [0] ++ utf8 projectId ++ [0] ++ utf8 agent.value))).toList.take 32)

/-! ## Claims -/

/-- The fields of the non-secret tuple that binds a ticket and lease to one generation. -/
structure AttachmentFields where
  workspaceId : String
  projectId : String
  agentType : AgentType
  attachmentId : String
  leaseNumber : ℕ
  generation : ℕ
  authEpoch : ℕ
  apiAuthorityEpoch : ℕ
  runtimeHostInstallationId : String
  runtimeHostInstallationRevision : ℕ
  bindingRevision : ℕ
  bindingDigest : String
  mode : String
deriving DecidableEq, Repr

variable (c : AttachmentFields)

/-- `AttachmentTuple.__post_init__` on an agent type that is already an enumeration member. -/
def AttachmentFields.postInit : Except Raised Unit := do
  validateWorkspaceId c.workspaceId
  validateProjectId c.projectId
  validateAttachmentId c.attachmentId
  if c.workspaceId ≠ workspaceIdOf c.projectId c.agentType then
    throw (.ticket .stale "workspace identity does not match")
  validatePositiveU64 "lease_number" c.leaseNumber
  validatePositiveU64 "generation" c.generation
  validatePositiveU64 "auth_epoch" c.authEpoch
  validatePositiveU64 "api_authority_epoch" c.apiAuthorityEpoch
  validateRuntimeHostInstallationId c.runtimeHostInstallationId
  validatePositiveU64 "runtime_host_installation_revision" c.runtimeHostInstallationRevision
  validatePositiveU64 "binding_revision" c.bindingRevision
  validateBindingDigest c.bindingDigest
  if c.mode ≠ "writer" then
    throw (.ticket .invalid "mode must be writer")

/-- Accepted claims. -/
structure AttachmentTuple extends AttachmentFields where
  accepted : toAttachmentFields.postInit.isOk = true
deriving DecidableEq

/-- Run the constructor's check. -/
def AttachmentFields.accept : Except Raised AttachmentTuple :=
  match h : c.postInit with
  | .ok () => .ok ⟨c, by rw [h]; rfl⟩
  | .error e => .error e

theorem AttachmentFields.accept_eq_ok {c : AttachmentFields} {t : AttachmentTuple}
    (h : c.accept = .ok t) : t.toAttachmentFields = c := by
  unfold accept at h
  split at h
  · cases h; rfl
  · cases h

@[ext] theorem AttachmentTuple.ext {s t : AttachmentTuple}
    (h : s.toAttachmentFields = t.toAttachmentFields) : s = t := by
  cases s; cases t; congr

/-- The claims by attribute name, printed with `str`. -/
def AttachmentFields.attributes : List (String × String) :=
  [("workspace_id", c.workspaceId),
   ("project_id", c.projectId),
   ("agent_type", c.agentType.value),
   ("attachment_id", c.attachmentId),
   ("lease_number", toString c.leaseNumber),
   ("generation", toString c.generation),
   ("auth_epoch", toString c.authEpoch),
   ("api_authority_epoch", toString c.apiAuthorityEpoch),
   ("runtime_host_installation_id", c.runtimeHostInstallationId),
   ("runtime_host_installation_revision", toString c.runtimeHostInstallationRevision),
   ("binding_revision", toString c.bindingRevision),
   ("binding_digest", c.bindingDigest),
   ("mode", c.mode)]

/-- `_same_tuple`: compare every immutable claim, including authority epoch and mode. -/
def sameTuple (left right : AttachmentTuple) : Option Bool :=
  allCompareDigest
    ((left.attributes.map Prod.snd).zip (right.attributes.map Prod.snd))

/-- `_same_presented_tuple`: compare a parsed wire tuple by its names and printed values. -/
def samePresentedTuple (claims : AttachmentTuple) (presented : Dict String String) : Bool :=
  decide ((∀ k ∈ presented.keys, k ∈ claims.attributes.map Prod.fst) ∧
    ∀ a ∈ claims.attributes, presented.get? a.1 = some a.2)

/-! ## Contexts -/

/-- The fields of the API-only identity bound to a ticket/lease, never sent to Runtime. -/
structure ContextFields where
  sessionId : String
  userId : String
  authorizationScope : String
  origin : String
  runtimeEpoch : String
  authEpoch : ℕ
deriving DecidableEq, Repr

/-- One text field: non-empty, bounded and free of control characters. -/
def validateContextText (name value : String) (maximum : ℕ) : Except Raised Unit :=
  if value.toList = [] ∨ value.toList.length > maximum ∨
      value.toList.any (fun c => c.toNat < 0x20 || (0x7F ≤ c.toNat && c.toNat ≤ 0x9F)) then
    .error (.ticket .invalid (name ++ " is invalid"))
  else .ok ()

/-- `_DECIMAL_U64`, `[1-9][0-9]{0,19}`. -/
def matchesDecimalU64 (s : String) : Bool :=
  match s.toList with
  | [] => false
  | c :: rest => decide ('1' ≤ c) && decide (c ≤ '9') && rest.length ≤ 19 && rest.all isDigit

/-- `AuthenticatedAttachmentContext.__post_init__` -/
def ContextFields.postInit (c : ContextFields) : Except Raised Unit := do
  validateContextText "session_id" c.sessionId 128
  validateContextText "user_id" c.userId 128
  validateContextText "authorization_scope" c.authorizationScope 128
  validateContextText "origin" c.origin 256
  if !matchesDecimalU64 c.runtimeEpoch || decimal c.runtimeEpoch > maxU64 then
    throw (.ticket .invalid "runtime_epoch is invalid")
  if (validatePositiveU64 "auth_epoch" c.authEpoch).isOk = false then
    throw (.ticket .invalid "auth_epoch is invalid")

/-- An accepted context. -/
structure AuthenticatedAttachmentContext extends ContextFields where
  accepted : toContextFields.postInit.isOk = true
deriving DecidableEq

@[ext] theorem AuthenticatedAttachmentContext.ext {c d : AuthenticatedAttachmentContext}
    (h : c.toContextFields = d.toContextFields) : c = d := by
  cases c; cases d; congr

/-- An accepted context names a session and a valid epoch. -/
theorem AuthenticatedAttachmentContext.session_accepted (c : AuthenticatedAttachmentContext) :
    c.sessionId ≠ "" ∧ (validatePositiveU64 "auth_epoch" c.authEpoch).isOk = true := by
  obtain ⟨u, hu⟩ : ∃ u, c.postInit = .ok u := by
    have h := c.accepted
    cases hp : c.postInit with
    | error e => rw [hp] at h; cases h
    | ok u => exact ⟨u, rfl⟩
  unfold ContextFields.postInit at hu
  obtain ⟨_, hsession, hu⟩ := bind_eq_ok_iff.mp hu
  obtain ⟨_, -, hu⟩ := bind_eq_ok_iff.mp hu
  obtain ⟨_, -, hu⟩ := bind_eq_ok_iff.mp hu
  obtain ⟨_, -, hu⟩ := bind_eq_ok_iff.mp hu
  constructor
  · intro hempty
    rw [hempty] at hsession
    cases hsession
  · split at hu
    · split at hu <;> cases hu
    · next h => simpa using h

/-- The context fields in declaration order, printed with `str`. -/
def ContextFields.printed (c : ContextFields) : List String :=
  [c.sessionId, c.userId, c.authorizationScope, c.origin, c.runtimeEpoch, toString c.authEpoch]

/-- `_same_context`: compare API-only session context; an absent context equals only itself. -/
def sameContext : Option AuthenticatedAttachmentContext → Option AuthenticatedAttachmentContext →
    Option Bool
  | some left, some right => allCompareDigest (left.printed.zip right.printed)
  | none, none => some true
  | _, _ => some false

/-! ## What the comparisons decide -/

theorem AgentType.value_injective {a b : AgentType} (h : a.value = b.value) : a = b := by
  cases a <;> cases b <;> first | rfl | (revert h; decide)

/-- Claims that print alike are equal. -/
theorem eq_of_sameTuple {s t : AttachmentTuple} (h : sameTuple s t = some true) : s = t := by
  have hall := eq_of_allCompareDigest h
  apply AttachmentTuple.ext
  obtain ⟨⟨_, _, _, _, _, _, _, _, _, _, _, _, _⟩, _⟩ := s
  obtain ⟨⟨_, _, _, _, _, _, _, _, _, _, _, _, _⟩, _⟩ := t
  simp only [AttachmentFields.attributes, List.map_cons, List.map_nil, List.zip_cons_cons,
    List.zip_nil_right, List.forall_mem_cons] at hall
  obtain ⟨h1, h2, h3, h4, h5, h6, h7, h8, h9, h10, h11, h12, h13, -⟩ := hall
  simp only [AttachmentFields.mk.injEq]
  exact ⟨h1, h2, AgentType.value_injective h3, h4, toString_nat_injective h5,
    toString_nat_injective h6, toString_nat_injective h7, toString_nat_injective h8, h9,
    toString_nat_injective h10, toString_nat_injective h11, h12, h13⟩

/-- Contexts that print alike are equal. -/
theorem eq_of_sameContext {c d : Option AuthenticatedAttachmentContext}
    (h : sameContext c d = some true) : c = d := by
  match c, d with
  | none, none => rfl
  | none, some _ => cases h
  | some _, none => cases h
  | some c, some d =>
    have hall := eq_of_allCompareDigest (show allCompareDigest _ = some true from h)
    obtain ⟨⟨_, _, _, _, _, _⟩, _⟩ := c
    obtain ⟨⟨_, _, _, _, _, _⟩, _⟩ := d
    simp only [ContextFields.printed, List.zip_cons_cons, List.zip_nil_right, List.forall_mem_cons] at hall
    obtain ⟨h1, h2, h3, h4, h5, h6, -⟩ := hall
    have h6' := toString_nat_injective h6
    subst h1 h2 h3 h4 h5 h6'
    rfl

end AgentBox.Tickets
