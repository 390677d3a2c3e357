import AgentBox.Common.Dict
import Mathlib.Data.List.Sort

/-!
# The durable stores of the workspace lifecycle

Two directories survive the Runtime. One holds a record per workspace with the generation below which
nothing may start again. The other holds a record per generation about its control group, which goes from
`LIVE` over `FENCED` to `EMPTY_DURABLE` and never back.

A store is a dictionary in which every record lies under its own key. An operation that raises is `none`
here; the formats of identifiers, which the control codec has checked before, are not checked again.

Reference: `waw_workspace_attestation.py` and `waw_cgroup_attestation_store.py`.
-/

namespace AgentBox.Lifecycle

structure Identity where
  workspaceId : String
  projectId : String
  agentType : String
  /-- a canonical decimal on the wire -/
  generation : ℕ
  bindingRevision : String
  bindingDigest : String
  hostId : String
  hostRevision : String
deriving DecidableEq

/-! ## Generation floors -/

/-- `WAWWorkspaceAttestation` -/
structure Attestation where
  workspaceId : String
  minGeneration : ℕ
  bindingRevision : String
  bindingDigest : String
  hostId : String
  hostRevision : String
  runtimeEpoch : ℕ
deriving DecidableEq

/-- The directory of attestations: each lies under its workspace. -/
structure Attestations where
  files : Dict String Attestation
  keyed : ∀ {w a}, files.get? w = some a → a.workspaceId = w

namespace Attestations

def empty : Attestations := ⟨.empty, fun h => absurd h.symm (Option.some_ne_none _)⟩

instance : DecidableEq Attestations := fun s t =>
  decidable_of_iff (s.files = t.files) ⟨fun h => by cases s; cases t; congr, fun h => h ▸ rfl⟩

variable (s : Attestations)

def get? (w : String) : Option Attestation := s.files.get? w

/-- `_write_locked(record)` -/
def put (a : Attestation) : Attestations where
  files := s.files.set a.workspaceId a
  keyed := by
    intro w b h
    rw [Dict.get?_set] at h
    split at h
    · next hw => cases h; exact hw.symm
    · exact s.keyed h

theorem get?_put (a : Attestation) (w : String) :
    (s.put a).get? w = if w = a.workspaceId then some a else s.get? w :=
  Dict.get?_set _ _ _ _

end Attestations

/-- The record of a generation that is about to start. -/
def Identity.attested (i : Identity) (epoch : ℕ) : Attestation where
  workspaceId := i.workspaceId
  minGeneration := i.generation
  bindingRevision := i.bindingRevision
  bindingDigest := i.bindingDigest
  hostId := i.hostId
  hostRevision := i.hostRevision
  runtimeEpoch := epoch

/-- A later generation has the provenance of the earlier one. -/
def Attestation.sameProvenance (a b : Attestation) : Bool :=
  b.bindingRevision == a.bindingRevision && b.bindingDigest == a.bindingDigest &&
    b.hostId == a.hostId && b.hostRevision == a.hostRevision && b.runtimeEpoch == a.runtimeEpoch

/-- `advance(...)`: the record it writes. -/
def advance (s : Attestations) (i : Identity) (epoch : ℕ) : Option Attestation :=
  match s.get? i.workspaceId with
  | some current =>
    if i.generation ≤ current.minGeneration then none
    else if current.sameProvenance (i.attested epoch) then some (i.attested epoch) else none
  | none => if i.generation = 1 then some (i.attested epoch) else none

/-! ## Control group records -/

inductive CleanupState
  | live | fenced | emptyDurable
deriving DecidableEq, Repr

/-- The order in which the state of a record may change. -/
def CleanupState.rank : CleanupState → ℕ
  | .live => 0
  | .fenced => 1
  | .emptyDurable => 2

/-- `WAWCgroupAttestation`. Fields that are only ever compared together are one text here. -/
structure CgroupRecord where
  workspaceId : String
  projectId : String
  agentType : String
  generation : ℕ
  runtimeEpoch : ℕ
  /-- service unit, subgroup and relative paths -/
  layout : String
  /-- controller configuration digest and the three limits -/
  limits : String
  /-- `service_invocation_id` -/
  invocation : String
  /-- devices, inodes and mounts of the service and its subgroup -/
  anchors : String
  /-- devices and inodes of the workspace and its workload -/
  physical : String
  /-- `attachment_leaves` is not empty -/
  hasLeaves : Bool
  frozen : Bool
  populated : Bool
  cleanup : CleanupState
  /-- `workspace_presence == "present"` -/
  present : Bool
deriving DecidableEq

/-- The directory of records: each lies under its workspace and generation. -/
structure Records where
  files : Dict (String × ℕ) CgroupRecord
  keyed : ∀ {k r}, files.get? k = some r → (r.workspaceId, r.generation) = k

namespace Records

def empty : Records := ⟨.empty, fun h => absurd h.symm (Option.some_ne_none _)⟩

instance : DecidableEq Records := fun s t =>
  decidable_of_iff (s.files = t.files) ⟨fun h => by cases s; cases t; congr, fun h => h ▸ rfl⟩

variable (s : Records)

def get? (w : String) (g : ℕ) : Option CgroupRecord := s.files.get? (w, g)

/-- `_replace_locked(record)` -/
def put (r : CgroupRecord) : Records where
  files := s.files.set (r.workspaceId, r.generation) r
  keyed := by
    intro k q h
    rw [Dict.get?_set] at h
    split at h
    · next hk => cases h; exact hk.symm
    · exact s.keyed h

theorem get?_put (r : CgroupRecord) (w : String) (g : ℕ) :
    (s.put r).get? w g = if (w, g) = (r.workspaceId, r.generation) then some r else s.get? w g :=
  Dict.get?_set _ _ _ _

/-- `_records_for_workspace_locked(workspace_id)`, in the order of the generations. -/
def ofWorkspace (w : String) : Option (List CgroupRecord) :=
  let found := s.files.values.filter fun r => r.workspaceId == w
  if 256 < found.length then none
  else some (found.insertionSort fun a b => a.generation ≤ b.generation)

/-- The records of a workspace are those that lie under it. -/
theorem mem_ofWorkspace {s : Records} {w : String} {records : List CgroupRecord} {r : CgroupRecord}
    (h : s.ofWorkspace w = some records) :
    r ∈ records ↔ r.workspaceId = w ∧ s.get? r.workspaceId r.generation = some r := by
  simp only [ofWorkspace] at h
  split at h
  · cases h
  · cases h
    rw [(List.perm_insertionSort _ _).mem_iff, List.mem_filter, beq_iff_eq, and_comm]
    refine and_congr_right fun _ => ⟨fun hmem => ?_, fun hget => ?_⟩
    · obtain ⟨⟨k, q⟩, hk, rfl⟩ := List.mem_map.mp hmem
      have hget := Dict.get?_eq_some_iff.mpr hk
      rw [get?, s.keyed hget]
      exact hget
    · exact List.mem_map.mpr ⟨_, Dict.get?_eq_some_iff.mp hget, rfl⟩

end Records

/-- `WAWCgroupAttestationSnapshot` -/
structure Snapshot where
  latestGeneration : Option ℕ
  unresolvedGenerations : List ℕ
  latestUnresolved : Option CgroupRecord

def unresolved (records : List CgroupRecord) : List CgroupRecord :=
  records.filter fun r => r.cleanup != .emptyDurable

def Records.snapshot (s : Records) (w : String) : Option Snapshot :=
  (s.ofWorkspace w).map fun records =>
    { latestGeneration := records.getLast?.map CgroupRecord.generation
      unresolvedGenerations := (unresolved records).map CgroupRecord.generation
      latestUnresolved := (unresolved records).getLast? }

/-- `_validate_update(current, updated)` passes. -/
def allowsUpdate (current updated : CgroupRecord) : Bool :=
  updated.workspaceId == current.workspaceId && updated.projectId == current.projectId &&
    updated.agentType == current.agentType && updated.generation == current.generation &&
    updated.runtimeEpoch == current.runtimeEpoch && updated.layout == current.layout &&
    updated.limits == current.limits && updated.invocation == current.invocation &&
    updated.anchors == current.anchors && updated.physical == current.physical && updated.present == current.present &&
    decide (current.cleanup.rank ≤ updated.cleanup.rank) &&
    (current.cleanup != .emptyDurable || updated == current) &&
    (current.populated || !updated.populated) &&
    (updated.cleanup != .emptyDurable || (!updated.hasLeaves && !updated.populated))

/-- What a write does to the directory. -/
inductive Write
  | unchanged | replaced
deriving DecidableEq

section
variable (encodes : CgroupRecord → Bool) (s : Records) (r : CgroupRecord)

/-- A new generation follows an empty one of the same workspace. -/
def allowsNext : Bool :=
  r.generation == 1 ||
    match (s.ofWorkspace r.workspaceId).bind List.getLast? with
    | none => false
    | some previous =>
      r.generation == previous.generation + 1 && r.projectId == previous.projectId &&
        r.agentType == previous.agentType && r.runtimeEpoch == previous.runtimeEpoch &&
        previous.cleanup == .emptyDurable

/-- `write(record)`; `encodes` says which records the codec accepts. -/
def write : Option Write :=
  if !r.present || !encodes r then none
  else
    match s.get? r.workspaceId r.generation with
    | some current =>
      if allowsUpdate current r then some (if current = r then .unchanged else .replaced) else none
    | none => if allowsNext s r then some .replaced else none

variable (expected observed : CgroupRecord)

/-- The observed record takes the place of the expected one in the same invocation. -/
def sameEpochRemoval : Bool :=
  observed.runtimeEpoch == expected.runtimeEpoch && observed.invocation == expected.invocation &&
    expected.cleanup == .emptyDurable && expected.present && !observed.present &&
    observed.anchors == expected.anchors

/-- `recover_empty(expected, observed)`, which returns `True` unless it raises. -/
def recoverEmpty : Option Write :=
  if !encodes expected || !encodes observed then none
  else if !(observed.workspaceId == expected.workspaceId &&
      observed.projectId == expected.projectId && observed.agentType == expected.agentType &&
      observed.generation == expected.generation && observed.layout == expected.layout &&
      observed.limits == expected.limits) then none
  else if !sameEpochRemoval expected observed &&
      (decide (observed.runtimeEpoch ≤ expected.runtimeEpoch) ||
        observed.invocation == expected.invocation) then none
  else if observed.cleanup != .emptyDurable || observed.populated || observed.hasLeaves then none
  else
    match s.ofWorkspace expected.workspaceId with
    | none => none
    | some records =>
      match records.getLast? with
      | none => none
      | some current =>
        if current.generation ≠ expected.generation then none
        else if !(unresolved records.dropLast).isEmpty then none
        else if current = observed then some .unchanged
        else if current = expected then some .replaced
        else none

/-- A recovery without a write finds the observed record in its place. -/
theorem of_recoverEmpty_unchanged {encodes : CgroupRecord → Bool} {s : Records}
    {expected observed : CgroupRecord} (h : recoverEmpty encodes s expected observed = some .unchanged) :
    s.get? observed.workspaceId observed.generation = some observed := by
  unfold recoverEmpty at h
  repeat' split at h
  all_goals first
    | contradiction
    | skip
  next _ records hrecords _ current hlast _ _ heq =>
    have hmem := List.mem_of_mem_getLast? hlast
    exact heq ▸ ((Records.mem_ofWorkspace hrecords).mp hmem).2

/-- `acknowledge_empty(record)` up to the write. -/
def acknowledgeEmpty : Option Unit :=
  if r.cleanup != .emptyDurable || r.populated || r.hasLeaves || !encodes r then none
  else
    match (s.ofWorkspace r.workspaceId).bind fun records => (unresolved records).getLast? with
    | none => none
    | some last =>
      if r.generation ≠ last.generation then none
      else
        match s.get? r.workspaceId r.generation with
        | none => none
        | some current => if allowsUpdate current r then some () else none

end

end AgentBox.Lifecycle
