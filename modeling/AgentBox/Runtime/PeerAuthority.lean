import AgentBox.Common.Bytes
import AgentBox.Common.Method
import AgentBox.Common.Text
import Mathlib.Data.Finset.Card

/-!
# The peer authority

`WAWPeerAuthority` retains the one API process that may control the Runtime. A caller is observed as a
candidate, or as a lease if it is the retained process. A bind is prepared as a plan and committed; a plan
that replaces an authority whose process has died demands that the old authority be revoked first, and if
it fails, the authority is poisoned.

A descriptor is here the process it refers to; a process dies between two calls. Peers and plans that were
handed out are kept in lists and named by their place. The identity of a retained authority is compared as
an object in the source; since every commit uses a new generation, comparing the values is the same.
`commits` is the history of the binds that made a process the authority.

Reference: `waw_peer_authority.py`.
-/

namespace AgentBox.Peer

open Method

/-- A process of the host, from its start to its end. -/
abbrev Process := ℕ

/-- `WAWPeerAuthorityError` -/
inductive Code
  | peerInvalid | peerNotCurrent | peerClosed | peerCloseFailed | epochInvalid | nonceDigestInvalid
  | transferInProgress | transferStale | authorityConflict | epochRetired | retiredEpochsFull
  | authorityClosed | authorityPoisoned
deriving DecidableEq, Repr

inductive BindStatus
  | bound | alreadyBound
deriving DecidableEq, Repr

structure ProcessIdentity where
  pid : ℤ
  device : ℕ
  inode : ℕ
deriving DecidableEq

structure RuntimePeerIdentity where
  process : ProcessIdentity
  generation : ℕ
deriving DecidableEq

/-- `WAWPeerCandidate`, or `WAWPeerLease` if it carries an identity. -/
structure ObservedPeer where
  identity : ProcessIdentity
  /-- `none` once it was closed or taken -/
  pidfd : Option Process
  lease : Option (RuntimePeerIdentity × String)
deriving DecidableEq

structure TransferPlan where
  identity : ProcessIdentity
  pidfd : Option Process
  apiAuthorityEpoch : String
  nonceDigest : Bytes
  status : BindStatus
  authorityVersion : ℕ
  expectedGeneration : Option ℕ
  revocationRequired : Bool
  replacesGeneration : Option ℕ
  replacesIdentity : Option RuntimePeerIdentity
deriving DecidableEq

structure CurrentAuthority where
  identity : RuntimePeerIdentity
  pidfd : Process
  apiAuthorityEpoch : String
  nonceDigest : Bytes
deriving DecidableEq

/-- A commit that made a process the authority. -/
structure Commit where
  authority : CurrentAuthority
  plan : TransferPlan
deriving DecidableEq

structure Config where
  expectedUid : ℕ
  expectedGid : ℕ
  maxRetired : ℕ
  /-- device and inode of the descriptors of a process -/
  fstat : Process → ℕ × ℕ

structure Authority where
  retired : Finset String
  current : Option CurrentAuthority
  /-- the place of the pending plan -/
  pending : Option ℕ
  plans : List TransferPlan
  peers : List ObservedPeer
  nextGeneration : ℕ
  version : ℕ
  closed : Bool
  poisoned : Bool
  closeFailure : Bool
  /-- the processes that have ended -/
  dead : Finset Process
  commits : List Commit

def Authority.initial : Authority where
  retired := ∅
  current := none
  pending := none
  plans := []
  peers := []
  nextGeneration := 1
  version := 0
  closed := false
  poisoned := false
  closeFailure := false
  dead := ∅
  commits := []

/-! ## Queries -/

variable (s : Authority)

/-- `_pidfd_current` -/
def Authority.alive (p : Process) : Bool := p ∉ s.dead

/-- `current()` of an owner of a descriptor -/
def Authority.ownerCurrent (pidfd : Option Process) : Bool := pidfd.any s.alive

/-- `_runtime_peer_current(identity)` -/
def Authority.runtimePeerCurrent (identity : RuntimePeerIdentity) : Bool :=
  !s.closed && !s.poisoned && s.current.any fun c => c.identity == identity && s.alive c.pidfd

/-- `current()` of a candidate or a lease -/
def Authority.peerCurrent (peer : ObservedPeer) : Bool :=
  match peer.lease with
  | none => s.ownerCurrent peer.pidfd
  | some (identity, _) => s.runtimePeerCurrent identity && s.ownerCurrent peer.pidfd

/-- `_POSITIVE_U64` and the bound of `_validate_epoch` -/
def isEpoch (epoch : String) : Bool :=
  match epoch.toList with
  | [] => false
  | c :: rest => isDigit c && c != '0' && rest.all isDigit && decide (rest.length ≤ 19) &&
      decide (decimal epoch ≤ 0xFFFFFFFFFFFFFFFF)

/-! ## Methods -/

abbrev Op := Method Code Authority

/-- `_require_open` -/
def requireOpen : Op Unit := do
  let s ← get
  raiseIf s.closed .authorityClosed
  raiseIf s.poisoned .authorityPoisoned

/-- `raise self._record_close_failure()` where closing a descriptor fails -/
def closeDescriptor (fails : Bool) : Op Unit :=
  onlyIf fails do
    modify fun s => { s with poisoned := true, closeFailure := true }
    throw .peerCloseFailed

def requirePeer (peer : ℕ) : Op ObservedPeer := do
  match (← get).peers[peer]? with
  | none => throw .peerInvalid
  | some p => pure p

def requirePlan (plan : ℕ) : Op TransferPlan := do
  match (← get).plans[plan]? with
  | none => throw .peerInvalid
  | some p => pure p

/-- The plan gives up its descriptor. -/
def emptyPlan (plan : ℕ) : Op Unit :=
  modify fun s => { s with plans := s.plans.modify plan fun p => { p with pidfd := none } }

/-- `plan.close()` inside the authority -/
def closePlan (plan : ℕ) (fails : Bool) : Op Unit := do
  let p ← requirePlan plan
  emptyPlan plan
  onlyIf p.pidfd.isSome (closeDescriptor fails)

/-- `_borrow_locked` -/
def borrowLocked (current : CurrentAuthority) (dupFails : Bool) : Op (Option ObservedPeer) := do
  raiseIf dupFails .peerInvalid
  pure (some ⟨current.identity.process, some current.pidfd,
    some (current.identity, current.apiAuthorityEpoch)⟩)

/-- A descriptor's outcome at the kernel: what the caller's process is, and which calls fail. -/
structure Observed where
  pid : ℤ
  uid : ℕ
  gid : ℕ
  process : Process
  statFails : Bool
  dupFails : Bool
  /-- the process ends while it is observed -/
  ends : Bool
  closeFails : Bool

section
variable (cfg : Config)

def Observed.identity (o : Observed) : ProcessIdentity :=
  ⟨o.pid, (cfg.fstat o.process).1, (cfg.fstat o.process).2⟩

/-- The rest of `observe_control`, with the lock. -/
def observeLocked (o : Observed) : Op (Option ObservedPeer) := do
  requireOpen
  let s ← get
  match s.current.filter fun c => s.alive c.pidfd && c.identity.process == o.identity cfg with
  | some c => borrowLocked c o.dupFails
  | none =>
    raiseIf o.dupFails .peerInvalid
    onlyIf o.ends (modify fun s => { s with dead := insert o.process s.dead })
    if (← get).alive o.process then pure (some ⟨o.identity cfg, some o.process, none⟩)
    else do
      closeDescriptor o.closeFails
      throw .peerNotCurrent

/-- The observed peer is handed out. -/
def handOut (peer : Option ObservedPeer) : Op (Option ℕ) := do
  match peer with
  | none => pure none
  | some p =>
    let s ← get
    modify fun s => { s with peers := s.peers ++ [p] }
    pure (some s.peers.length)

/-- `observe_control` -/
def observeControl (o : Observed) : Op (Option ℕ) := do
  raiseIf (o.pid ≤ 0) .peerInvalid
  requireOpen
  if o.uid ≠ cfg.expectedUid ∨ o.gid ≠ cfg.expectedGid then pure none
  else do
    raiseIf o.statFails .peerInvalid
    raiseIf (¬(← get).alive o.process) .peerNotCurrent
    let peer ← observeLocked cfg o
    handOut peer

/-- `borrow` -/
def borrow (dupFails : Bool) : Op (Option ℕ) := do
  requireOpen
  let s ← get
  match s.current.filter fun c => s.alive c.pidfd with
  | none => pure none
  | some c => do
      let peer ← borrowLocked c dupFails
      handOut peer

/-- `_detach_terminal_current_locked` -/
def detach (current : CurrentAuthority) : Op Unit := do
  let s ← get
  raiseIf (current.apiAuthorityEpoch ∉ s.retired ∧ cfg.maxRetired ≤ s.retired.card) .retiredEpochsFull
  modify fun s =>
    { s with
      retired := insert current.apiAuthorityEpoch s.retired
      current := none
      version := s.version + 1 }

/-- What `prepare_bind` decides about the plan. -/
structure Terms where
  status : BindStatus
  expectedGeneration : Option ℕ
  replaces : Option RuntimePeerIdentity

/-- The plan takes the peer's descriptor and becomes the pending one. -/
def enterPlan (peer : ℕ) (p : ObservedPeer) (epoch : String) (nonce : Bytes) (terms : Terms) : Op ℕ := do
  let s ← get
  modify fun s =>
    { s with
      peers := s.peers.modify peer fun p => { p with pidfd := none }
      plans := s.plans ++ [{
        identity := p.identity
        pidfd := p.pidfd
        apiAuthorityEpoch := epoch
        nonceDigest := nonce
        status := terms.status
        authorityVersion := s.version
        expectedGeneration := terms.expectedGeneration
        revocationRequired := terms.replaces.isSome
        replacesGeneration := terms.replaces.map RuntimePeerIdentity.generation
        replacesIdentity := terms.replaces }]
      pending := some s.plans.length }
  pure s.plans.length

/-- The terms of a bind: the live authority's again, or a new one. -/
def settleTerms (p : ObservedPeer) (epoch : String) (nonce : Bytes) (closeFails : Bool) : Op Terms := do
  let s ← get
  match s.current.filter fun c => s.alive c.pidfd with
  | some c => do
      raiseIf (c.identity.process ≠ p.identity) .authorityConflict
      raiseIf (c.apiAuthorityEpoch ≠ epoch ∨ c.nonceDigest ≠ nonce) .authorityConflict
      pure ⟨.alreadyBound, some c.identity.generation, none⟩
  | none => do
      raiseIf (epoch ∈ s.retired) .epochRetired
      match s.current with
      | none => pure ⟨.bound, none, none⟩
      | some c => do
          raiseIf (epoch = c.apiAuthorityEpoch) .epochRetired
          detach cfg c
          closeDescriptor closeFails
          pure ⟨.bound, none, some c.identity⟩

/-- `prepare_bind` -/
def prepareBind (peer : ℕ) (epoch : String) (nonce : Bytes) (closeFails : Bool) : Op ℕ := do
  raiseIf (¬isEpoch epoch) .epochInvalid
  raiseIf (nonce.length ≠ 32) .nonceDigestInvalid
  let p ← requirePeer peer
  requireOpen
  let s ← get
  raiseIf s.pending.isSome .transferInProgress
  raiseIf (¬s.peerCurrent p) .peerNotCurrent
  let terms ← settleTerms cfg p epoch nonce closeFails
  enterPlan peer p epoch nonce terms

end

variable (plan : ℕ)

/-- `_fail_pending_locked` -/
def failPending (poison closeFails : Bool) : Op Unit := do
  modify fun s =>
    { s with pending := none, version := s.version + 1, poisoned := s.poisoned || poison }
  closePlan plan closeFails

variable (p : TransferPlan) (closeFails : Bool)

/-- The commit of a plan for the live authority. -/
def commitAgain : Op BindStatus := do
  let s ← get
  if s.current.any fun c => some c.identity.generation == p.expectedGeneration &&
      c.identity.process == p.identity && s.alive c.pidfd then do
    modify fun s => { s with pending := none, version := s.version + 1 }
    closePlan plan closeFails
    pure .alreadyBound
  else do
    failPending plan false closeFails
    throw .transferStale

/-- The commit of a plan for a new authority. -/
def commitNew : Op BindStatus := do
  let s ← get
  if s.current.isSome ∨ p.apiAuthorityEpoch ∈ s.retired then do
    failPending plan p.revocationRequired closeFails
    throw .transferStale
  else
    match p.pidfd with
    | none => do
        failPending plan p.revocationRequired closeFails
        throw .peerClosed
    | some process => do
        let authority : CurrentAuthority :=
          ⟨⟨p.identity, s.nextGeneration⟩, process, p.apiAuthorityEpoch, p.nonceDigest⟩
        emptyPlan plan
        modify fun s =>
          { s with
            nextGeneration := s.nextGeneration + 1
            current := some authority
            pending := none
            version := s.version + 1
            commits := s.commits ++ [⟨authority, p⟩] }
        pure .bound

variable (closeFails : Bool)

/-- `commit_bind` -/
def commitBind : Op BindStatus := do
  let p ← requirePlan plan
  requireOpen
  let s ← get
  if s.pending ≠ some plan ∨ p.authorityVersion ≠ s.version then do
    onlyIf (s.pending = some plan ∧ p.revocationRequired) (modify fun s => { s with poisoned := true })
    throw .transferStale
  else if ¬s.ownerCurrent p.pidfd then do
    failPending plan p.revocationRequired closeFails
    throw .peerNotCurrent
  else
    match p.status with
    | .alreadyBound => commitAgain plan p closeFails
    | .bound => commitNew plan p closeFails

/-- `fail_bind` -/
def failBind : Op Unit := do
  let p ← requirePlan plan
  requireOpen
  raiseIf ((← get).pending ≠ some plan) .transferStale
  failPending plan p.revocationRequired closeFails

/-- `close` of a candidate or a lease -/
def closePeer (peer : ℕ) (closeFails : Bool) : Op Unit := do
  let p ← requirePeer peer
  modify fun s => { s with peers := s.peers.modify peer fun p => { p with pidfd := none } }
  onlyIf p.pidfd.isSome (closeDescriptor closeFails)

/-- The pending plan or the current authority still has a descriptor. -/
def Authority.holds (s : Authority) : Bool :=
  s.current.isSome || (s.pending.bind (s.plans[·]?)).any fun p => p.pidfd.isSome

def closePending (pending : Option ℕ) : Op Unit :=
  match pending with
  | none => pure ()
  | some plan => emptyPlan plan

/-- `close` of the authority; closing a descriptor that it holds fails or not. -/
def close : Op Unit := do
  let s ← get
  if s.closed then raiseIf s.closeFailure .peerCloseFailed
  else do
    modify fun s => { s with closed := true, pending := none, current := none, version := s.version + 1 }
    closePending s.pending
    onlyIf (closeFails ∧ s.holds) (modify fun s => { s with poisoned := true, closeFailure := true })
    raiseIf ((← get).closeFailure) .peerCloseFailed

/-! ## Runs -/

inductive Call
  | observeControl (o : Observed)
  | borrow (dupFails : Bool)
  | prepareBind (peer : ℕ) (epoch : String) (nonce : Bytes) (closeFails : Bool)
  | commitBind (plan : ℕ) (closeFails : Bool)
  | failBind (plan : ℕ) (closeFails : Bool)
  | closePeer (peer : ℕ) (closeFails : Bool)
  | close (closeFails : Bool)
  /-- a process ends -/
  | ends (process : Process)

def Authority.step (cfg : Config) (s : Authority) : Call → Authority
  | .observeControl o => ((Peer.observeControl cfg o).call s).2
  | .borrow dupFails => ((Peer.borrow dupFails).call s).2
  | .prepareBind peer epoch nonce closeFails => ((Peer.prepareBind cfg peer epoch nonce closeFails).call s).2
  | .commitBind plan closeFails => ((Peer.commitBind plan closeFails).call s).2
  | .failBind plan closeFails => ((Peer.failBind plan closeFails).call s).2
  | .closePeer peer closeFails => ((Peer.closePeer peer closeFails).call s).2
  | .close closeFails => ((Peer.close closeFails).call s).2
  | .ends process => { s with dead := insert process s.dead }

end AgentBox.Peer
