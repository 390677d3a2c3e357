import AgentBox.Tickets.Authority

/-!
# Workspace slots

What the four workspace maps of the authority are for: every workspace is one `Slot`, a small state
machine in which a writer lease, a cleanup obligation and a staged reservation cannot contradict each
other. `Slot.row` says which entries of the four maps represent a slot and `Shows s σ` that the maps
of `s` represent the slots `σ`.

A slot that loses its writer is `closed`: a lease turns into a cleanup obligation and a reservation is
fenced, with claims and context unchanged. A step that gives nobody anything keeps or closes each slot
(`Slot.Fades`).
-/

namespace AgentBox.Tickets

open Method

variable {τ : Type}

/-! ## Slots and their rows -/

/-- The stages before activation, in order. -/
def AdmissionStage.ofPhase : Fin 8 → AdmissionStage
  | 0 => .reserved
  | 1 => .runtimePrepared
  | 2 => .verified
  | 3 => .preparedAudited
  | 4 => .ready
  | 5 => .quarantined
  | 6 => .committed
  | 7 => .admittedAudited

@[simp] theorem AdmissionStage.index_ofPhase (k : Fin 8) : (ofPhase k).index = k := by
  revert k; decide

theorem AdmissionStage.index_injective {a b : AdmissionStage} (h : a.index = b.index) : a = b := by
  cases a <;> cases b <;> first | rfl | cases h

@[simp] theorem AdmissionStage.ofPhase_ne_active (k : Fin 8) : ofPhase k ≠ .active := by
  revert k; decide

@[simp] theorem AdmissionStage.ofPhase_ne_fenced (k : Fin 8) : ofPhase k ≠ .fenced := by
  revert k; decide

theorem AdmissionStage.ofPhase_injective {j k : Fin 8} (h : ofPhase j = ofPhase k) : j = k := by
  have := congrArg AdmissionStage.index h
  rw [index_ofPhase, index_ofPhase] at this
  exact Fin.ext this

/-- The times of a lease that a staged handle activated. -/
structure LeaseTimes (τ : Type) where
  openedAt : τ
  lastHeartbeat : τ
  leaseExpiresAt : τ
  absoluteExpiresAt : τ

/-- The lease of a handle; claims and context are the handle's own. -/
def LeaseTimes.lease (times : LeaseTimes τ) (handle : StagedAttachment τ) : ActiveAttachment τ where
  claims := handle.claims
  openedAtMonotonic := times.openedAt
  lastHeartbeatMonotonic := times.lastHeartbeat
  leaseExpiresAtMonotonic := times.leaseExpiresAt
  absoluteExpiresAtMonotonic := times.absoluteExpiresAt
  context := some handle.context

/-- A lease with other times. -/
def ActiveAttachment.withTimes (lease : ActiveAttachment τ) (times : LeaseTimes τ) :
    ActiveAttachment τ where
  claims := lease.claims
  openedAtMonotonic := times.openedAt
  lastHeartbeatMonotonic := times.lastHeartbeat
  leaseExpiresAtMonotonic := times.leaseExpiresAt
  absoluteExpiresAtMonotonic := times.absoluteExpiresAt
  context := lease.context

/-- The state of one workspace. -/
inductive Slot (τ : Type)
  /-- nobody holds the workspace -/
  | free
  /-- a writer admitted by `consume` -/
  | leased (lease : ActiveAttachment τ)
  /-- a lapsed writer whose cleanup is outstanding -/
  | owed (claims : AttachmentTuple) (context : Option AuthenticatedAttachmentContext)
  /-- a reservation on its way to activation -/
  | staged (handle : StagedAttachment τ) (phase : Fin 8)
  /-- an activated reservation with its lease -/
  | live (handle : StagedAttachment τ) (times : LeaseTimes τ)
  /-- a closed reservation whose cleanup is outstanding -/
  | fenced (handle : StagedAttachment τ)

/-- The entries of one workspace in the four maps. -/
@[ext] structure Row (τ : Type) where
  active : Option (ActiveAttachment τ)
  cleanup : Option AttachmentTuple
  context : Option (Option AuthenticatedAttachmentContext)
  staged : Option (StagedRecord τ)

namespace Slot

variable {sl a b : Slot τ} {h : StagedAttachment τ}

/-- The entries that represent a slot. -/
def row : Slot τ → Row τ
  | .free => ⟨none, none, none, none⟩
  | .leased lease => ⟨some lease, none, none, none⟩
  | .owed claims context => ⟨none, some claims, some context, none⟩
  | .staged handle phase => ⟨none, none, none, some ⟨handle, .ofPhase phase⟩⟩
  | .live handle times => ⟨some (times.lease handle), none, none, some ⟨handle, .active⟩⟩
  | .fenced handle =>
    ⟨none, some handle.claims, some (some handle.context), some ⟨handle, .fenced⟩⟩

/-- The claims that hold the workspace. -/
def claims : Slot τ → Option AttachmentTuple
  | .free => none
  | .leased lease => some lease.claims
  | .owed claims _ => some claims
  | .staged handle _ => some handle.claims
  | .live handle _ => some handle.claims
  | .fenced handle => some handle.claims

/-- The context on whose behalf the workspace is held. -/
def context : Slot τ → Option AuthenticatedAttachmentContext
  | .free => none
  | .leased lease => lease.context
  | .owed _ context => context
  | .staged handle _ => some handle.context
  | .live handle _ => some handle.context
  | .fenced handle => some handle.context

/-- The reservation in the slot, if any. -/
def handle : Slot τ → Option (StagedAttachment τ)
  | .free => none
  | .leased _ => none
  | .owed _ _ => none
  | .staged handle _ => some handle
  | .live handle _ => some handle
  | .fenced handle => some handle

theorem claims_eq_none_iff : sl.claims = none ↔ sl = .free := by
  cases sl <;> simp [claims]

theorem claims_of_handle (hh : sl.handle = some h) : sl.claims = some h.claims := by
  cases sl <;> simp_all [claims, handle]

theorem handle_eq_row (sl : Slot τ) : sl.handle = sl.row.staged.map StagedRecord.handle := by
  cases sl <;> rfl

/-- The slot after its writer lost it: a lease turns into a cleanup obligation and a reservation is
fenced. -/
def closed : Slot τ → Slot τ
  | .free => .free
  | .leased lease => .owed lease.claims lease.context
  | .owed claims context => .owed claims context
  | .staged handle _ => .fenced handle
  | .live handle _ => .fenced handle
  | .fenced handle => .fenced handle

@[simp] theorem closed_closed (sl : Slot τ) : sl.closed.closed = sl.closed := by cases sl <;> rfl

@[simp] theorem closed_claims (sl : Slot τ) : sl.closed.claims = sl.claims := by cases sl <;> rfl

@[simp] theorem closed_context (sl : Slot τ) : sl.closed.context = sl.context := by cases sl <;> rfl

@[simp] theorem closed_handle (sl : Slot τ) : sl.closed.handle = sl.handle := by cases sl <;> rfl

theorem closed_of_handle (hh : sl.handle = some h) : sl.closed = .fenced h := by
  cases sl <;> simp_all [closed, handle]

/-- The slot after a renewal of its lease. -/
def renewed (times : LeaseTimes τ) : Slot τ → Slot τ
  | .leased lease => .leased (lease.withTimes times)
  | .live handle _ => .live handle times
  | sl => sl

@[simp] theorem renewed_claims (times : LeaseTimes τ) (sl : Slot τ) :
    (sl.renewed times).claims = sl.claims := by cases sl <;> rfl

@[simp] theorem renewed_context (times : LeaseTimes τ) (sl : Slot τ) :
    (sl.renewed times).context = sl.context := by cases sl <;> rfl

@[simp] theorem renewed_handle (times : LeaseTimes τ) (sl : Slot τ) :
    (sl.renewed times).handle = sl.handle := by cases sl <;> rfl

/-- Renewing rewrites the lease and nothing else. -/
theorem row_renewed {lease : ActiveAttachment τ} (h : sl.row.active = some lease) (times : LeaseTimes τ) :
    (sl.renewed times).row = { sl.row with active := some (lease.withTimes times) } := by
  cases sl <;> cases h <;> rfl

/-- What a step that gives nobody anything may do to a slot. -/
def Fades (a b : Slot τ) : Prop := b = a ∨ b = a.closed

theorem Fades.refl (sl : Slot τ) : Fades sl sl := .inl rfl

theorem Fades.trans {c : Slot τ} (h : Fades a b) (h' : Fades b c) : Fades a c := by
  rcases h with rfl | rfl <;> rcases h' with rfl | rfl
  · exact .inl rfl
  · exact .inr rfl
  · exact .inr rfl
  · exact .inr (closed_closed a)

theorem Fades.claims_eq (h : Fades a b) : b.claims = a.claims := by
  rcases h with rfl | rfl <;> simp

theorem Fades.context_eq (h : Fades a b) : b.context = a.context := by
  rcases h with rfl | rfl <;> simp

theorem Fades.handle_eq (h : Fades a b) : b.handle = a.handle := by
  rcases h with rfl | rfl <;> simp

end Slot

/-- The entries of a workspace in the maps of `s`. -/
def Authority.row (s : Authority τ) (workspace : String) : Row τ where
  active := s.active.get? workspace
  cleanup := s.cleanupPending.get? workspace
  context := s.cleanupContexts.get? workspace
  staged := s.staged.get? workspace

variable [PyNumber τ]

/-- The maps of `s` represent the slots `σ`. Every holder is filed under its own workspace, and the
deadline of a reservation is a proper number. -/
structure Shows (s : Authority τ) (σ : String → Slot τ) : Prop where
  row : ∀ ws, s.row ws = (σ ws).row
  keyed : ∀ ws t, (σ ws).claims = some t → t.workspaceId = ws
  timed : ∀ ws h, (σ ws).handle = some h → h.deadlineMonotonic ≤ h.deadlineMonotonic

namespace Shows

variable {s t : Authority τ} {σ : String → Slot τ} {ws : String} {h : StagedAttachment τ}

theorem active (hs : Shows s σ) (ws : String) : s.active.get? ws = (σ ws).row.active :=
  congrArg Row.active (hs.row ws)

theorem cleanup (hs : Shows s σ) (ws : String) : s.cleanupPending.get? ws = (σ ws).row.cleanup :=
  congrArg Row.cleanup (hs.row ws)

theorem context (hs : Shows s σ) (ws : String) : s.cleanupContexts.get? ws = (σ ws).row.context :=
  congrArg Row.context (hs.row ws)

theorem staged (hs : Shows s σ) (ws : String) : s.staged.get? ws = (σ ws).row.staged :=
  congrArg Row.staged (hs.row ws)

/-- The initial maps show free slots. -/
theorem initial (cfg : Config τ) : Shows (Authority.initial cfg) fun _ => .free where
  row _ := rfl
  keyed _ _ h := by cases h
  timed _ _ h := by cases h

section
variable (hs : Shows s σ)
include hs

/-- Rewriting the row of one workspace updates its slot. -/
theorem update {sl : Slot τ} (hrow : t.row ws = sl.row) (hframe : ∀ w, w ≠ ws → t.row w = s.row w)
    (hkeyed : ∀ c, sl.claims = some c → c.workspaceId = ws)
    (htimed : ∀ h, sl.handle = some h → h.deadlineMonotonic ≤ h.deadlineMonotonic) :
    Shows t (Function.update σ ws sl) where
  row w := by
    by_cases h : w = ws
    · subst h; rw [Function.update_self, hrow]
    · rw [Function.update_of_ne h, hframe w h, hs.row w]
  keyed w c hc := by
    by_cases h : w = ws
    · subst h; rw [Function.update_self] at hc; exact hkeyed c hc
    · rw [Function.update_of_ne h] at hc; exact hs.keyed w c hc
  timed w h' hh := by
    by_cases h : w = ws
    · subst h; rw [Function.update_self] at hh; exact htimed h' hh
    · rw [Function.update_of_ne h] at hh; exact hs.timed w h' hh

/-- Rewriting the row of one workspace to its closed slot closes the slot. -/
theorem close (hrow : t.row ws = (σ ws).closed.row)
    (hframe : ∀ w, w ≠ ws → t.row w = s.row w) : Shows t (Function.update σ ws (σ ws).closed) :=
  hs.update hrow hframe (fun c hc => hs.keyed ws c (by simpa using hc))
    (fun h hh => hs.timed ws h (by simpa using hh))

/-- Emptying the row of one workspace frees its slot. -/
theorem release (hrow : t.row ws = Slot.free.row)
    (hframe : ∀ w, w ≠ ws → t.row w = s.row w) : Shows t (Function.update σ ws .free) :=
  hs.update hrow hframe nofun nofun

/-- Maps with the same rows show the same slots. -/
theorem congr (h : ∀ ws, t.row ws = s.row ws) : Shows t σ where
  row ws := (h ws).trans (hs.row ws)
  keyed := hs.keyed
  timed := hs.timed

/-- A handle is staged under its own workspace exactly when it is the slot's handle. -/
theorem handle_iff : (σ h.claims.workspaceId).handle = some h ↔
      ∃ record, s.staged.get? h.claims.workspaceId = some record ∧ record.handle = h := by
  rw [hs.staged, Slot.handle_eq_row, Option.map_eq_some_iff]

/-- A lease is a plain writer's or that of an activated reservation. -/
theorem lease_cases {lease : ActiveAttachment τ} (hl : s.active.get? ws = some lease) :
    σ ws = .leased lease ∨ ∃ h times, σ ws = .live h times ∧ lease = times.lease h := by
  rw [hs.active] at hl
  cases hσ : σ ws <;> rw [hσ] at hl <;> cases hl
  · exact .inl rfl
  · exact .inr ⟨_, _, rfl, rfl⟩

/-- A record is on its way to activation, activated or fenced, as its stage says. -/
theorem record_cases {r : StagedRecord τ} (hr : s.staged.get? ws = some r) :
    (∃ k, σ ws = .staged r.handle k ∧ r.stage = .ofPhase k) ∨
      (∃ times, σ ws = .live r.handle times ∧ r.stage = .active) ∨
      σ ws = .fenced r.handle ∧ r.stage = .fenced := by
  rw [hs.staged] at hr
  cases hσ : σ ws <;> rw [hσ] at hr <;> cases hr
  · exact .inl ⟨_, rfl, rfl⟩
  · exact .inr (.inl ⟨_, rfl, rfl⟩)
  · exact .inr (.inr ⟨rfl, rfl⟩)

/-- A record in some phase before activation belongs to a staged slot. -/
theorem eq_staged {k : Fin 8} (hr : s.staged.get? ws = some ⟨h, .ofPhase k⟩) : σ ws = .staged h k := by
  obtain ⟨k', hσ, hk⟩ | ⟨times, -, hk⟩ | ⟨-, hk⟩ := hs.record_cases hr
  · rw [hσ, AdmissionStage.ofPhase_injective hk]
  · exact absurd hk (AdmissionStage.ofPhase_ne_active k)
  · exact absurd hk (AdmissionStage.ofPhase_ne_fenced k)

/-- A fenced record belongs to a fenced slot. -/
theorem eq_fenced (hr : s.staged.get? ws = some ⟨h, .fenced⟩) : σ ws = .fenced h := by
  obtain ⟨k, -, hk⟩ | ⟨times, -, hk⟩ | ⟨hσ, -⟩ := hs.record_cases hr
  · exact absurd hk.symm (AdmissionStage.ofPhase_ne_fenced k)
  · cases hk
  · exact hσ

end

end Shows

end AgentBox.Tickets
