import AgentBox.Tickets.Slots
import AgentBox.Tickets.Calls

/-!
# Methods that only close slots

`Quiet s σ t σ'` is what a step does that gives nobody anything: tickets are only burned, each slot is
kept or closed, no counter moves and nothing published is read. Fencing, expiring, sweeping, revoking
and shutting down are all quiet; the lemmas here give each of these methods as such a step, with what
it closes for certain.
-/

namespace AgentBox.Tickets

open List Method

set_option linter.unusedSectionVars false

variable {τ : Type} [PyNumber τ]

/-- A step that writes only the four workspace maps. -/
structure SameBooks (s t : Authority τ) : Prop where
  pending : t.pending = s.pending
  leaseNumber : t.nextLeaseNumber = s.nextLeaseNumber
  shutdown : t.shutdownStarted = s.shutdownStarted
  taken : t.taken = s.taken

namespace SameBooks

variable (s : Authority τ)

theorem refl : SameBooks s s := ⟨rfl, rfl, rfl, rfl⟩

theorem trans {s t u : Authority τ} (h : SameBooks s t) (h' : SameBooks t u) : SameBooks s u :=
  ⟨h'.pending.trans h.pending, h'.leaseNumber.trans h.leaseNumber, h'.shutdown.trans h.shutdown,
    h'.taken.trans h.taken⟩

theorem lapse (ws : String) (lease : ActiveAttachment τ) :
    SameBooks s (s.lapse ws lease) := ⟨rfl, rfl, rfl, rfl⟩

theorem fenceRecord (record : StagedRecord τ) :
    SameBooks s (s.fenceRecord record) := ⟨rfl, rfl, rfl, rfl⟩

end SameBooks

/-- From the slots `σ` of `s`, a step to `t` with slots `σ'` that gives nobody anything. -/
structure Quiet (s : Authority τ) (σ : String → Slot τ) (t : Authority τ) (σ' : String → Slot τ) :
    Prop where
  shows : Shows t σ'
  fades : ∀ ws, (σ ws).Fades (σ' ws)
  pending : t.pending.items.Sublist s.pending.items
  leaseNumber : t.nextLeaseNumber = s.nextLeaseNumber
  shutdown : t.shutdownStarted = s.shutdownStarted
  taken : t.taken = s.taken

namespace Quiet

variable {s t u : Authority τ} {σ σ' σ'' : String → Slot τ}

theorem refl (hs : Shows s σ) : Quiet s σ s σ :=
  ⟨hs, fun _ => .refl _, List.Sublist.refl _, rfl, rfl, rfl⟩

theorem trans (h : Quiet s σ t σ') (h' : Quiet t σ' u σ'') : Quiet s σ u σ'' where
  shows := h'.shows
  fades ws := (h.fades ws).trans (h'.fades ws)
  pending := h'.pending.trans h.pending
  leaseNumber := h'.leaseNumber.trans h.leaseNumber
  shutdown := h'.shutdown.trans h.shutdown
  taken := h'.taken.trans h.taken

/-- Burning a ticket touches no slot. -/
theorem burn (hs : Shows s σ) (cfg : Config τ) (digest : Digest) : Quiet s σ (s.burn cfg digest) σ where
  shows := hs.congr fun _ => rfl
  fades _ := .refl _
  pending := filter_sublist
  leaseNumber := rfl
  shutdown := rfl
  taken := rfl

/-- A step that only keeps or closes slots. -/
theorem of_sameBooks (ht : Shows t σ') (hfades : ∀ ws, (σ ws).Fades (σ' ws)) (h : SameBooks s t) :
    Quiet s σ t σ' where
  shows := ht
  fades := hfades
  pending := h.pending ▸ List.Sublist.refl _
  leaseNumber := h.leaseNumber
  shutdown := h.shutdown
  taken := h.taken

theorem fades_update_closed (σ : String → Slot τ) (ws w : String) :
    (σ w).Fades (Function.update σ ws (σ ws).closed w) := by
  by_cases h : w = ws
  · subst h; rw [Function.update_self]; exact .inr rfl
  · rw [Function.update_of_ne h]; exact .refl _

/-- Closing the slot of one workspace. -/
theorem close (hs : Shows s σ) {ws : String} (hrow : t.row ws = (σ ws).closed.row)
    (hframe : ∀ w, w ≠ ws → t.row w = s.row w) (hbooks : SameBooks s t) :
    Quiet s σ t (Function.update σ ws (σ ws).closed) :=
  of_sameBooks (hs.close hrow hframe) (fades_update_closed σ ws) hbooks

end Quiet

/-! ## The rows the primitive writes leave behind -/

section Rows

variable (s : Authority τ) {w : String}

theorem Authority.row_lapse_self (ws : String) (lease : ActiveAttachment τ) : (s.lapse ws lease).row ws =
      ⟨none, some lease.claims, some lease.context, (s.row ws).staged⟩ := by
  simp [row, lapse]

theorem Authority.row_lapse_of_ne {ws : String} (lease : ActiveAttachment τ) (h : w ≠ ws) :
    (s.lapse ws lease).row w = s.row w := by
  simp [row, lapse, Dict.get?_erase_of_ne _ h, Dict.get?_set_of_ne _ h]

theorem Authority.row_fenceRecord_self (record : StagedRecord τ) :
    (s.fenceRecord record).row record.handle.claims.workspaceId = (Slot.fenced record.handle).row := by
  simp [row, fenceRecord, Slot.row]

theorem Authority.row_fenceRecord_of_ne (record : StagedRecord τ)
    (h : w ≠ record.handle.claims.workspaceId) : (s.fenceRecord record).row w = s.row w := by
  simp [row, fenceRecord, Dict.get?_erase_of_ne _ h, Dict.get?_set_of_ne _ h]

end Rows

/-! ## Single slots -/

section Methods

variable [DecidableEq τ] {s : Authority τ} {σ : String → Slot τ}
variable {E : Raised → Authority τ → Prop} {record : StagedRecord τ} {Q : Unit → Authority τ → Prop}
    {t : Authority τ}

variable {h : StagedAttachment τ} {ws w sessionId : String} {lease : ActiveAttachment τ}
    {e : String × ActiveAttachment τ} {rest : List (String × ActiveAttachment τ)} {u : Authority τ}
    {β : Type} {limbo : String → Prop} {authEpoch : ℕ}

@[simp] theorem wp_compared {x : Option Bool} {Q : Bool → Authority τ → Prop} :
    (compared x : AuthorityM τ Bool).wp s Q E ↔ (∀ b, x = some b → Q b s) ∧ (x = none → E .typeError s) := by
  cases x <;> simp [compared]

theorem wp_exactStaged {Q : StagedRecord τ → Authority τ → Prop}
    (hQ : ∀ record, s.staged.get? h.claims.workspaceId = some record → record.handle = h → Q record s)
    (hE : E (.code .stale) s) : (exactStaged h).wp s Q E := by
  unfold exactStaged
  rw [wp_bind, wp_get]
  cases hr : s.staged.get? h.claims.workspaceId with
  | none => simpa using hE
  | some record =>
    rw [wp_ite]
    exact ⟨fun heq => hQ record hr heq, fun _ => hE⟩

/-- Fencing a staged handle closes its slot. -/
theorem quiet_fenceRecord (hs : Shows s σ)
    (hr : s.staged.get? record.handle.claims.workspaceId = some record) :
    Quiet s σ (s.fenceRecord record) (Function.update σ record.handle.claims.workspaceId
      (σ record.handle.claims.workspaceId).closed) := by
  have hh : (σ record.handle.claims.workspaceId).handle = some record.handle :=
    hs.handle_iff.mpr ⟨record, hr, rfl⟩
  refine Quiet.close hs ?_ (fun w hw => s.row_fenceRecord_of_ne record hw) (.fenceRecord s record)
  rw [s.row_fenceRecord_self, Slot.closed_of_handle hh]

/-- A lapsed lease without a reservation closes its slot. -/
theorem quiet_lapse (hs : Shows s σ) (hσ : σ ws = .leased lease) :
    Quiet s σ (s.lapse ws lease) (Function.update σ ws (σ ws).closed) := by
  refine Quiet.close hs ?_ (fun w hw => s.row_lapse_of_ne _ hw) (.lapse s ws _)
  rw [s.row_lapse_self, hs.row, hσ]
  rfl

theorem wp_fence (hs : Shows s σ) (hQ : (σ h.claims.workspaceId).handle = some h → ∀ t,
      Quiet s σ t (Function.update σ h.claims.workspaceId (σ h.claims.workspaceId).closed) → Q () t)
    (hE : (σ h.claims.workspaceId).handle ≠ some h → E (.code .stale) s) : (fence h).wp s Q E := by
  unfold fence exactStaged
  rw [wp_bind, wp_bind, wp_get]
  cases hr : s.staged.get? h.claims.workspaceId with
  | none =>
    refine hE fun hh => ?_
    obtain ⟨record, hrec, -⟩ := hs.handle_iff.mp hh
    rw [hr] at hrec
    cases hrec
  | some record =>
    rw [wp_ite]
    constructor
    · rintro rfl
      exact hQ (hs.handle_iff.mpr ⟨record, hr, rfl⟩) _ (quiet_fenceRecord hs hr)
    · intro hne
      refine hE fun hh => ?_
      obtain ⟨record', hrec, heq⟩ := hs.handle_iff.mp hh
      rw [hr] at hrec
      cases hrec
      exact hne heq

/-- A reservation passes its check only while it is staged and before its deadline; otherwise the
check has closed it or left it as it was. -/
theorem wp_checkReservedAt (hs : Shows s σ) {now : τ} {Q : StagedRecord τ → Authority τ → Prop}
    (hQ : ∀ k, σ h.claims.workspaceId = .staged h k → now < h.deadlineMonotonic → Q ⟨h, .ofPhase k⟩ s)
    (hE : ∀ t σ', Quiet s σ t σ' → E (.code .stale) t) : (checkReservedAt h now).wp s Q E := by
  unfold checkReservedAt
  rw [wp_bind]
  refine wp_exactStaged (fun record hr hh => ?_) (hE s σ (.refl hs))
  simp only [wp_ite, wp_bind, wp_throw, wp_pure]
  constructor
  · intro _
    refine ⟨fun _ => ?_, fun _ => hE s σ (.refl hs)⟩
    exact wp_fence hs (fun _ t hq => hE t _ hq) (fun _ => hE s σ (.refl hs))
  · intro hcond
    simp only [not_or, Bool.not_eq_false] at hcond
    obtain ⟨hfinite, -, hdeadline, hnotFenced, hnotActive⟩ := hcond
    have hnum := hs.timed _ h (hs.handle_iff.mpr ⟨record, hr, hh⟩)
    have hlt := PyNumber.lt_of_not_le hfinite hnum (not_le_of_not_pyMin_le hdeadline)
    -- an unfenced, inactive record belongs to a staged slot
    obtain ⟨handle, stage⟩ := record
    obtain rfl : handle = h := hh
    obtain ⟨k, hσ, rfl⟩ | ⟨times, -, hk⟩ | ⟨-, hk⟩ := hs.record_cases hr
    · exact hQ k hσ hlt
    · exact absurd hk hnotActive
    · exact absurd hk hnotFenced

/-- An expired lease closes its slot. -/
theorem wp_expireLease (hs : Shows s σ) (hlease : s.active.get? ws = some lease)
    (hQ : ∀ t, Quiet s σ t (Function.update σ ws (σ ws).closed) → Q () t) :
    (expireLease ws lease).wp s Q E := by
  unfold expireLease
  rw [wp_bind, wp_modify, wp_bind, wp_get]
  have hstaged : (s.lapse ws lease).staged.get? ws = (σ ws).row.staged := hs.staged ws
  rw [hstaged]
  obtain hσ | ⟨h, times, hσ, rfl⟩ := hs.lease_cases hlease
  · rw [hσ]
    exact hQ _ (quiet_lapse hs hσ)
  · obtain rfl : h.claims.workspaceId = ws := hs.keyed ws _ (by rw [hσ]; rfl)
    have hr : (s.lapse h.claims.workspaceId (times.lease h)).staged.get? h.claims.workspaceId =
        some ⟨h, .active⟩ := by
      change s.staged.get? _ = _
      rw [hs.staged, hσ]
      rfl
    rw [hσ]
    change (fence h).wp _ Q E
    unfold fence exactStaged
    rw [wp_bind, wp_bind, wp_get, hr, wp_ite]
    refine ⟨fun _ => ?_, fun hne => absurd rfl hne⟩
    refine hQ _ (Quiet.close hs ?_ (fun w hw => ?_) ((SameBooks.lapse s _ _).trans (.fenceRecord _ _)))
    · rw [hσ]
      exact Authority.row_fenceRecord_self _ ⟨h, .active⟩
    · exact (Authority.row_fenceRecord_of_ne _ ⟨h, .active⟩ hw).trans (s.row_lapse_of_ne _ hw)

theorem wp_exactActive {expected : AttachmentTuple} {context : Option AuthenticatedAttachmentContext}
    {Q : Option (ActiveAttachment τ) → Authority τ → Prop}
    (hSome : ∀ lease, s.active.get? expected.workspaceId = some lease → lease.claims = expected →
      lease.context = context → Q (some lease) s)
    (hNone : Q none s) (hE : E .typeError s) : (exactActive expected context).wp s Q E := by
  unfold exactActive
  rw [wp_bind, wp_get]
  cases hl : s.active.get? expected.workspaceId with
  | none => exact hNone
  | some lease =>
    simp only [wp_bind, wp_compared, wp_ite, wp_pure]
    refine ⟨fun b hb => ⟨fun _ => hNone, fun hne => ⟨fun b' hb' => ⟨fun _ => hNone, fun hne' => ?_⟩,
      fun _ => hE⟩⟩, fun _ => hE⟩
    simp only [Bool.not_eq_true, Bool.not_eq_false'] at hne hne'
    subst hne hne'
    exact hSome lease hl (eq_of_sameTuple hb) (eq_of_sameContext hb')

/-! ## Bulk operations -/

/-- The leases that a loop over a snapshot of the active map has not reached yet are current. -/
structure Ahead (rest : List (String × ActiveAttachment τ)) (t : Authority τ) : Prop where
  nodup : (rest.map Prod.fst).Nodup
  current : ∀ e ∈ rest, t.active.get? e.1 = some e.2

theorem Ahead.items (t : Authority τ) : Ahead t.active.items t where
  nodup := t.active.nodup
  current _ he := Dict.get?_eq_some_iff.mpr he

theorem Ahead.head (h : Ahead (e :: rest) t) : t.active.get? e.1 = some e.2 :=
  h.current e (by simp)

/-- A turn that touches only its own workspace leaves the leases ahead current. -/
theorem Ahead.tail (h : Ahead (e :: rest) t)
    (hframe : ∀ w, w ≠ e.1 → u.active.get? w = t.active.get? w) : Ahead rest u where
  nodup := (nodup_cons.mp h.nodup).2
  current x hx := by
    have hne : x.1 ≠ e.1 := by
      intro heq
      exact (nodup_cons.mp h.nodup).1 (mem_map.mpr ⟨x, hx, heq⟩)
    rw [hframe x.1 hne]
    exact h.current x (by simp [hx])

theorem Shows.active_of_ne {sl : Slot τ} (hs : Shows s σ) (ht : Shows t (Function.update σ ws sl))
    (h : w ≠ ws) : t.active.get? w = s.active.get? w := by
  rw [hs.active, ht.active, Function.update_of_ne h]

/-- A loop over the pending tickets that burns every ticket it selects. -/
theorem wp_ticketLoop (cfg : Config τ) (hs : Shows s σ)
    {body : β → Digest × PendingTicket τ → AuthorityM τ β} (p : PendingTicket τ → Prop)
    (hbody : ∀ acc digest ticket t, (body acc (digest, ticket)).wp t
      (fun _ u => (¬ p ticket ∧ u = t) ∨ u = t.burn cfg digest) E) (b : β) :
    (s.pending.items.foldlM body b).wp s (fun _ t => Quiet s σ t σ ∧
      ∀ digest ticket, t.pending.get? digest = some ticket → ¬ p ticket) E := by
  refine wp_imp (wp_foldlM (E := E) (fun rest _ t => Quiet s σ t σ ∧
    ∀ digest ticket, t.pending.get? digest = some ticket → p ticket → (digest, ticket) ∈ rest)
      ?_ _ b ⟨.refl hs, fun _ _ h _ => Dict.get?_eq_some_iff.mp h⟩) ?_
  · rintro ⟨digest, ticket⟩ rest acc t ⟨hq, hsel⟩
    refine wp_imp (hbody acc digest ticket t) ?_
    rintro _ u (⟨hnp, rfl⟩ | rfl)
    · refine ⟨hq, fun d x hget hp => (mem_cons.mp (hsel d x hget hp)).resolve_left ?_⟩
      intro heq
      cases heq
      exact hnp hp
    · refine ⟨hq.trans (.burn hq.shows cfg digest), fun d x hget hp => ?_⟩
      change (t.pending.erase digest).get? d = some x at hget
      rw [Dict.get?_erase] at hget
      split at hget
      · cases hget
      · next hne =>
        exact (mem_cons.mp (hsel d x hget hp)).resolve_left fun heq => hne (Prod.mk.inj heq).1
  · rintro _ t ⟨hq, hsel⟩
    exact ⟨hq, fun d x hget hp => by simpa using hsel d x hget hp⟩

/-- A loop over the active leases that closes every slot whose lease it selects. -/
theorem wp_leaseLoop (hs : Shows s σ) {body : β → String × ActiveAttachment τ → AuthorityM τ β}
    (p : ActiveAttachment τ → Prop) (hbody : ∀ acc ws lease t σ', Shows t σ' → t.active.get? ws = some lease →
      (body acc (ws, lease)).wp t (fun _ u => (¬ p lease ∧ u = t) ∨
        Quiet t σ' u (Function.update σ' ws (σ' ws).closed)) E) (b : β) :
    (s.active.items.foldlM body b).wp s (fun _ t => ∃ σ', Quiet s σ t σ' ∧
      ∀ ws lease, t.active.get? ws = some lease → ¬ p lease) E := by
  -- the invariant: a lease that is still active and selected is still ahead of the loop
  refine wp_imp (wp_foldlM (E := E) (fun rest _ t => ∃ σ', Quiet s σ t σ' ∧ Ahead rest t ∧
    ∀ ws lease, t.active.get? ws = some lease → p lease → (ws, lease) ∈ rest) ?_ _ b
      ⟨σ, .refl hs, Ahead.items s, fun ws lease h _ => Dict.get?_eq_some_iff.mp h⟩) ?_
  · rintro ⟨ws, lease⟩ rest acc t ⟨σ', hq, hahead, hsel⟩
    refine wp_imp (hbody acc ws lease t σ' hq.shows hahead.head) ?_
    rintro _ u (⟨hnp, rfl⟩ | hq')
    · refine ⟨σ', hq, hahead.tail fun _ _ => rfl, fun w l hl hp => ?_⟩
      rcases mem_cons.mp (hsel w l hl hp) with heq | hmem
      · cases heq; exact absurd hp hnp
      · exact hmem
    · have hframe := fun w (hw : w ≠ ws) => hq.shows.active_of_ne hq'.shows hw
      refine ⟨_, hq.trans hq', hahead.tail hframe, fun w l hl hp => ?_⟩
      by_cases hw : w = ws
      · -- a closed slot has no lease
        subst hw
        rw [hq'.shows.active, Function.update_self] at hl
        cases hσ : σ' w <;> rw [hσ] at hl <;> cases hl
      · rw [hframe w hw] at hl
        exact (mem_cons.mp (hsel w l hl hp)).resolve_left fun heq => hw (Prod.mk.inj heq).1
  · rintro _ t ⟨σ', hq, -, hsel⟩
    exact ⟨σ', hq, fun ws lease hl hp => by simpa using hsel ws lease hl hp⟩

/-- The maps of `s` show `σ`, but some workspaces in `limbo` have lost a lease while their record,
about to be fenced, still says that it is active. -/
structure Nearly (limbo : String → Prop) (s : Authority τ) (σ : String → Slot τ) : Prop where
  row : ∀ ws, s.row ws = (σ ws).row ∨
    limbo ws ∧ ∃ h, σ ws = .fenced h ∧ s.row ws = { (σ ws).row with staged := some ⟨h, .active⟩ }
  keyed : ∀ ws t, (σ ws).claims = some t → t.workspaceId = ws
  timed : ∀ ws h, (σ ws).handle = some h → h.deadlineMonotonic ≤ h.deadlineMonotonic

namespace Nearly

variable {limbo : String → Prop} {ws : String} {limbo' : String → Prop}

theorem of_shows (hs : Shows s σ) : Nearly limbo s σ :=
  ⟨fun ws => .inl (hs.row ws), hs.keyed, hs.timed⟩

theorem nowhere (hs : Shows s σ) : Nearly (fun _ => False) s σ := of_shows hs

section
variable (hs : Nearly limbo s σ)
include hs

theorem shows (hnone : ∀ ws, ¬ limbo ws) : Shows s σ :=
  ⟨fun ws => (hs.row ws).resolve_right fun h => hnone ws h.1, hs.keyed, hs.timed⟩

theorem mono (h : ∀ ws, limbo ws → s.row ws ≠ (σ ws).row → limbo' ws) : Nearly limbo' s σ where
  row ws := by
    by_cases hrow : s.row ws = (σ ws).row
    · exact .inl hrow
    · obtain ⟨hl, hrest⟩ := (hs.row ws).resolve_left hrow
      exact .inr ⟨h ws hl hrow, hrest⟩
  keyed := hs.keyed
  timed := hs.timed

/-- In either case a staged record carries the slot's handle. -/
theorem handle_of_staged {record : StagedRecord τ}
    (hr : s.staged.get? ws = some record) : (σ ws).handle = some record.handle := by
  have hrow : (s.row ws).staged = some record := hr
  rcases hs.row ws with h | ⟨-, h', hσ, h⟩
  · rw [Slot.handle_eq_row, ← h, hrow]; rfl
  · rw [h] at hrow
    cases hrow
    rw [hσ]
    rfl

theorem workspace_of_staged {record : StagedRecord τ}
    (hr : s.staged.get? ws = some record) : record.handle.claims.workspaceId = ws :=
  hs.keyed ws _ (Slot.claims_of_handle (hs.handle_of_staged hr))

/-- Rewriting the row of one workspace so that it nearly shows the closed slot. -/
theorem close {t : Authority τ}
    (hrow : t.row ws = (σ ws).closed.row ∨ limbo' ws ∧ ∃ h, (σ ws).closed = .fenced h ∧
      t.row ws = { (σ ws).closed.row with staged := some ⟨h, .active⟩ })
    (hframe : ∀ w, w ≠ ws → t.row w = s.row w) (hlimbo : ∀ w, w ≠ ws → limbo w → limbo' w) :
    Nearly limbo' t (Function.update σ ws (σ ws).closed) where
  row w := by
    by_cases hw : w = ws
    · subst hw
      simpa only [Function.update_self] using hrow
    · rw [Function.update_of_ne hw, hframe w hw]
      exact (hs.row w).imp_right fun h => ⟨hlimbo w hw h.1, h.2⟩
  keyed w c hc := by
    by_cases hw : w = ws
    · subst hw
      rw [Function.update_self, Slot.closed_claims] at hc
      exact hs.keyed w c hc
    · rw [Function.update_of_ne hw] at hc
      exact hs.keyed w c hc
  timed w h hh := by
    by_cases hw : w = ws
    · subst hw
      rw [Function.update_self, Slot.closed_handle] at hh
      exact hs.timed w h hh
    · rw [Function.update_of_ne hw] at hh
      exact hs.timed w h hh

/-- Fencing the record of a workspace closes its slot and takes it out of limbo. -/
theorem fenceRecord {record : StagedRecord τ}
    (hr : s.staged.get? record.handle.claims.workspaceId = some record) :
    Nearly (fun w => limbo w ∧ w ≠ record.handle.claims.workspaceId) (s.fenceRecord record)
      (Function.update σ record.handle.claims.workspaceId (σ record.handle.claims.workspaceId).closed) := by
  refine hs.close (.inl ?_) (fun w hw => s.row_fenceRecord_of_ne record hw) (fun w hw hl => ⟨hl, hw⟩)
  rw [s.row_fenceRecord_self, Slot.closed_of_handle (hs.handle_of_staged hr)]

/-- Lapsing a lease alone closes its slot, up to limbo when the workspace is staged. -/
theorem lapse {lease : ActiveAttachment τ} (hl : s.active.get? ws = some lease)
    (hlimbo : ∀ h, lease.context = some h.context → (σ ws).handle = some h → limbo ws) :
    Nearly limbo (s.lapse ws lease) (Function.update σ ws (σ ws).closed) := by
  refine hs.close ?_ (fun w hw => s.row_lapse_of_ne _ hw) (fun _ _ h => h)
  have hactive : (s.row ws).active = some lease := hl
  rw [s.row_lapse_self]
  rcases hs.row ws with hrow | ⟨-, h, hσ, hrow⟩
  · rw [hrow] at hactive ⊢
    cases hσ : σ ws with
    | leased l => rw [hσ] at hactive; cases hactive; exact .inl rfl
    | live h times =>
      rw [hσ] at hactive
      cases hactive
      exact .inr ⟨hlimbo h rfl (by rw [hσ]; rfl), h, rfl, rfl⟩
    | free | owed | staged | fenced => rw [hσ] at hactive; cases hactive
  · rw [hrow, hσ] at hactive
    cases hactive

end

end Nearly

/-- The records that a loop over a snapshot of the staged map has not reached yet are current. -/
structure RecordsAhead (rest : List (StagedRecord τ)) (t : Authority τ) : Prop where
  nodup : (rest.map fun r => r.handle.claims.workspaceId).Nodup
  current : ∀ r ∈ rest, t.staged.get? r.handle.claims.workspaceId = some r

theorem RecordsAhead.values (hs : Nearly limbo s σ) : RecordsAhead s.staged.values s where
  nodup := by
    have hkeys : s.staged.values.map (fun r => r.handle.claims.workspaceId) = s.staged.keys := by
      rw [Dict.values, Dict.keys, map_map]
      refine map_congr_left fun e he => ?_
      have hget : s.staged.get? e.1 = some e.2 := Dict.get?_eq_some_iff.mpr he
      exact hs.workspace_of_staged hget
    rw [hkeys]
    exact s.staged.keys_nodup
  current r hr := by
    obtain ⟨e, he, rfl⟩ := mem_map.mp hr
    have hget : s.staged.get? e.1 = some e.2 := Dict.get?_eq_some_iff.mpr he
    rwa [← hs.workspace_of_staged hget] at hget

theorem RecordsAhead.tail {r : StagedRecord τ} {rest : List (StagedRecord τ)} (h : RecordsAhead (r :: rest) t)
    (hframe : ∀ w, w ≠ r.handle.claims.workspaceId → u.staged.get? w = t.staged.get? w) :
    RecordsAhead rest u where
  nodup := (nodup_cons.mp h.nodup).2
  current x hx := by
    rw [hframe _ fun heq => (nodup_cons.mp h.nodup).1 (mem_map.mpr ⟨x, hx, heq⟩)]
    exact h.current x (by simp [hx])

theorem Authority.staged_fenceRecord_of_ne (hw : w ≠ record.handle.claims.workspaceId) :
    (t.fenceRecord record).staged.get? w = t.staged.get? w :=
  congrArg Row.staged (t.row_fenceRecord_of_ne record hw)

theorem Authority.active_of_fenceRecord (h : (t.fenceRecord record).active.get? w = some lease) :
    t.active.get? w = some lease := by
  by_cases hw : w = record.handle.claims.workspaceId
  · subst hw
    have := congrArg Row.active (t.row_fenceRecord_self record)
    change (t.fenceRecord record).active.get? _ = none at this
    rw [this] at h
    cases h
  · rw [← h]
    exact (congrArg Row.active (t.row_fenceRecord_of_ne record hw)).symm

theorem wp_fence_of_staged (hr : s.staged.get? record.handle.claims.workspaceId = some record) :
    (fence record.handle).wp s Q E ↔ Q () (s.fenceRecord record) := by
  unfold fence exactStaged
  rw [wp_bind, wp_bind, wp_get, hr, wp_ite]
  exact ⟨fun h => h.1 rfl, fun h => ⟨fun _ => h, fun hne => absurd rfl hne⟩⟩

/-- A loop over the staged records that fences every record it selects. -/
theorem wp_recordLoop (hs : Nearly limbo s σ) {body : β → StagedRecord τ → AuthorityM τ β}
    (p : StagedRecord τ → Prop)
    (hbody : ∀ acc record t, t.staged.get? record.handle.claims.workspaceId = some record →
      (body acc record).wp t (fun _ u => (¬ p record ∧ u = t) ∨ u = t.fenceRecord record) E)
    (hlimbo : ∀ ws record, limbo ws → s.staged.get? ws = some record → p record) (b : β) :
    (s.staged.values.foldlM body b).wp s (fun _ t => ∃ σ', Shows t σ' ∧
      (∀ ws, (σ ws).Fades (σ' ws)) ∧ SameBooks s t ∧
      (∀ ws lease, t.active.get? ws = some lease → s.active.get? ws = some lease) ∧
      ∀ ws record, t.staged.get? ws = some record → record.stage ≠ .fenced → ¬ p record) E := by
  have hahead := RecordsAhead.values hs
  -- the invariant: limbo and selected unfenced records are still ahead of the loop
  refine wp_imp (wp_foldlM (E := E) (fun rest _ t => ∃ σ',
    Nearly (fun ws => limbo ws ∧ ∃ r ∈ rest, r.handle.claims.workspaceId = ws) t σ' ∧
    (∀ ws, (σ ws).Fades (σ' ws)) ∧ SameBooks s t ∧
    (∀ ws lease, t.active.get? ws = some lease → s.active.get? ws = some lease) ∧
    RecordsAhead rest t ∧ (∀ r ∈ rest, limbo r.handle.claims.workspaceId → p r) ∧
    ∀ ws r, t.staged.get? ws = some r → r.stage ≠ .fenced → p r → r ∈ rest) ?_ _ b
      ⟨σ, ?_, fun _ => .refl _, .refl s, fun _ _ h => h, hahead, ?_, ?_⟩) ?_
  · rintro record rest acc t ⟨σ', hn, hfades, hbooks, hactive, hahead, hsel, hdone⟩
    have hr := hahead.current record (by simp)
    refine wp_imp (hbody acc record t hr) ?_
    rintro _ u (⟨hnp, rfl⟩ | rfl)
    · refine ⟨σ', hn.mono ?_, hfades, hbooks, hactive, hahead.tail fun _ _ => rfl,
        fun r h => hsel r (by simp [h]), fun ws r hget hne hp => ?_⟩
      · rintro ws ⟨hl, r, hmem, rfl⟩ -
        rcases mem_cons.mp hmem with rfl | hmem
        · exact absurd (hsel r (by simp) hl) hnp
        · exact ⟨hl, r, hmem, rfl⟩
      · rcases mem_cons.mp (hdone ws r hget hne hp) with rfl | hmem
        · exact absurd hp hnp
        · exact hmem
    · refine ⟨_, (hn.fenceRecord hr).mono ?_, fun ws => (hfades ws).trans (Quiet.fades_update_closed σ' _ ws),
        hbooks.trans (.fenceRecord t record),
        fun ws lease h => hactive ws lease (Authority.active_of_fenceRecord h),
        hahead.tail fun w hw => Authority.staged_fenceRecord_of_ne hw,
        fun r h => hsel r (by simp [h]), fun ws r hget hne hp => ?_⟩
      · rintro ws ⟨⟨hl, r, hmem, rfl⟩, hne⟩ -
        rcases mem_cons.mp hmem with rfl | hmem
        · exact absurd rfl hne
        · exact ⟨hl, r, hmem, rfl⟩
      · by_cases hw : ws = record.handle.claims.workspaceId
        · subst hw
          have hfenced := congrArg Row.staged (t.row_fenceRecord_self record)
          change (t.fenceRecord record).staged.get? _ = _ at hfenced
          rw [hget] at hfenced
          cases hfenced
          exact absurd rfl hne
        · rw [Authority.staged_fenceRecord_of_ne hw] at hget
          refine (mem_cons.mp (hdone ws r hget hne hp)).resolve_left ?_
          rintro rfl
          exact hw (hn.workspace_of_staged hget).symm
  · refine hs.mono fun ws hl hrow => ⟨hl, ?_⟩
    obtain ⟨-, h, hσ, hrow⟩ := (hs.row ws).resolve_left hrow
    have hget : s.staged.get? ws = some ⟨h, .active⟩ := congrArg Row.staged hrow
    exact ⟨_, mem_map.mpr ⟨(ws, ⟨h, .active⟩), Dict.get?_eq_some_iff.mp hget, rfl⟩,
      hs.workspace_of_staged hget⟩
  · exact fun r hr hl => hlimbo _ r hl (hahead.current r hr)
  · exact fun ws r hget _ _ => mem_map.mpr ⟨(ws, r), Dict.get?_eq_some_iff.mp hget, rfl⟩
  · rintro _ t ⟨σ', hn, hfades, hbooks, hactive, -, -, hdone⟩
    exact ⟨σ', hn.shows (by simp), hfades, hbooks, hactive,
      fun ws r hget hne hp => by simpa using hdone ws r hget hne hp⟩

variable (cfg : Config τ)

/-- A sweep only burns tickets and closes slots. -/
theorem wp_sweep (hs : Shows s σ) {now : Option τ} {clock : τ}
    {Q : List String → Authority τ → Prop} (hQ : ∀ ids t σ', Quiet s σ t σ' → Q ids t) :
    (sweep cfg now clock).wp s Q E := by
  unfold sweep
  simp only [wp_bind, wp_get]
  refine wp_imp (wp_ticketLoop cfg hs (fun x => x.expiresAtMonotonic ≤ now.getD clock)
    (fun acc digest ticket t => ?_) []) ?_
  · rw [wp_ite]
    exact ⟨fun _ => .inr rfl, fun hnp => .inl ⟨hnp, rfl⟩⟩
  rintro ids t ⟨hq, -⟩
  refine wp_imp (wp_leaseLoop hq.shows (fun l => ¬ l.activeAt (now.getD clock))
    (fun acc ws lease u σ' hu hlease => ?_) ids) ?_
  · rw [wp_ite, wp_bind]
    exact ⟨fun _ => wp_expireLease hu hlease fun v hv => .inr hv, fun hnp => .inl ⟨hnp, rfl⟩⟩
  rintro ids' u ⟨σ', hq', -⟩
  refine wp_imp (wp_recordLoop (Nearly.nowhere hq'.shows)
    (fun r => r.stage ≠ .active ∧ r.stage ≠ .fenced ∧ r.handle.deadlineMonotonic ≤ now.getD clock)
    (fun acc record v hr => ?_) (fun _ _ h _ => h.elim) ids') ?_
  · rw [wp_ite, wp_bind, wp_fence_of_staged hr]
    exact ⟨fun _ => .inr rfl, fun hnp => .inl ⟨hnp, rfl⟩⟩
  rintro ids'' v ⟨σ'', hv, hfades, hbooks, -, -⟩
  exact hQ ids'' v σ'' (hq.trans (hq'.trans (.of_sameBooks hv hfades hbooks)))

/-- Burning everything pending and fencing everything live leaves no ticket and no open slot. -/
theorem wp_burnPendingAndFenceLiveRecords (hs : Shows s σ)
    (hQ : ∀ t σ', Quiet s σ t σ' → t.pending = .empty → (∀ ws, (σ' ws).closed = σ' ws) → Q () t) :
    (burnPendingAndFenceLiveRecords cfg).wp s Q E := by
  unfold burnPendingAndFenceLiveRecords
  simp only [wp_bind, wp_modify, wp_get]
  have hburnt : ∀ replayed, Quiet s σ { s with replayed := replayed, pending := .empty } σ :=
    fun _ => ⟨hs.congr fun _ => rfl, fun _ => .refl _, nil_sublist _, rfl, rfl, rfl⟩
  generalize hreplayed : List.foldl _ s.replayed s.pending.keys = replayed
  refine wp_imp (wp_leaseLoop (hburnt replayed).shows (fun _ => True)
    (fun acc ws lease u σ' hu hlease => ?_) ()) ?_
  · rw [wp_bind, wp_get]
    dsimp only
    rw [hu.staged]
    obtain hσ | ⟨h, times, hσ, rfl⟩ := hu.lease_cases hlease
    · have hquiet := quiet_lapse hu hσ
      rw [hσ] at hquiet ⊢
      exact .inr hquiet
    · obtain rfl : h.claims.workspaceId = ws := hu.keyed ws _ (by rw [hσ]; rfl)
      rw [hσ]
      refine wp_fence hu (fun _ v hv => .inr (hσ ▸ hv)) (fun hne => absurd ?_ hne)
      rw [hσ]
      rfl
  rintro _ t ⟨σ', hq, hnone⟩
  have hactive : ∀ ws, t.active.get? ws = none := fun ws => by
    cases h : t.active.get? ws with
    | none => rfl
    | some lease => exact absurd trivial (hnone ws lease h)
  refine wp_imp (wp_recordLoop (Nearly.nowhere hq.shows)
    (fun r => r.stage ≠ .fenced) (fun acc record v hr => ?_) (fun _ _ h _ => h.elim) ()) ?_
  · rw [wp_ite, wp_fence_of_staged hr]
    exact ⟨fun _ => .inr rfl, fun hnp => .inl ⟨hnp, rfl⟩⟩
  rintro _ u ⟨σ'', hu, hfades, hbooks, hkeep, hdone⟩
  refine hQ u σ'' ((hburnt replayed).trans (hq.trans (.of_sameBooks hu hfades hbooks))) ?_ ?_
  · rw [hbooks.pending]
    exact Dict.ext (sublist_nil.mp hq.pending)
  · -- a slot that is not closed has a lease or an unfenced record
    intro ws
    cases hσ : σ'' ws with
    | free | owed | fenced => rfl
    | leased lease =>
      have := hkeep ws lease (by rw [hu.active, hσ]; rfl)
      rw [hactive ws] at this
      cases this
    | live h times =>
      have := hkeep ws (times.lease h) (by rw [hu.active, hσ]; rfl)
      rw [hactive ws] at this
      cases this
    | staged h k =>
      have hk : u.staged.get? ws = some ⟨h, .ofPhase k⟩ := by rw [hu.staged, hσ]; rfl
      have hne := AdmissionStage.ofPhase_ne_fenced k
      exact absurd hne (hdone ws _ hk hne)

/-- The first shutdown burns and fences everything; a further one does nothing. -/
theorem wp_beginShutdown (hs : Shows s σ)
    (hQ : ∀ t σ', Quiet { s with shutdownStarted := true } σ t σ' → t.pending = .empty →
      (∀ ws, (σ' ws).closed = σ' ws) → Q () t)
    (hAgain : s.shutdownStarted = true → Q () s) : (beginShutdown cfg).wp s Q E := by
  unfold beginShutdown
  simp only [wp_bind, wp_get, wp_ite, wp_pure, wp_modify]
  have hshut : Shows { s with shutdownStarted := true } σ := hs.congr fun _ => rfl
  exact ⟨hAgain, fun _ => wp_burnPendingAndFenceLiveRecords cfg hshut hQ⟩

/-- The second loop of a revocation lapses the leases of the session. Their staged records follow only
in the third loop, so in between the maps show the slots up to limbo. -/
theorem wp_revokeLeases (hs : Shows s σ) (b : List String) : (s.active.items.foldlM
      (fun revoked (workspace, active) => if active.context.any (inSession sessionId authEpoch) then do
          modify (Authority.lapse workspace active) return revoked ++ [active.claims.attachmentId]
        else return revoked) b : AuthorityM τ (List String)).wp s
      (fun _ t => ∃ σ', Nearly (fun ws => ∀ h, (σ' ws).handle = some h →
          inSession sessionId authEpoch h.context) t σ' ∧ (∀ ws, (σ ws).Fades (σ' ws)) ∧ SameBooks s t ∧
        ∀ ws lease, t.active.get? ws = some lease →
          ¬ lease.context.any (inSession sessionId authEpoch)) E := by
  -- fading keeps handles, so being in limbo can be said of the slots before the loop
  have hlimbo : ∀ {t : Authority τ} {σ' : String → Slot τ}, (∀ ws, (σ ws).Fades (σ' ws)) →
      Nearly (fun ws => ∀ h, (σ ws).handle = some h → inSession sessionId authEpoch h.context) t σ' →
      Nearly (fun ws => ∀ h, (σ' ws).handle = some h → inSession sessionId authEpoch h.context)
        t σ' := fun hfades hn => hn.mono fun ws hl _ h hh => hl h ((hfades ws).handle_eq ▸ hh)
  refine wp_imp (wp_foldlM (E := E) (fun rest _ t => ∃ σ',
    Nearly (fun ws => ∀ h, (σ ws).handle = some h → inSession sessionId authEpoch h.context) t σ' ∧
    (∀ ws, (σ ws).Fades (σ' ws)) ∧ SameBooks s t ∧ Ahead rest t ∧
    ∀ ws lease, t.active.get? ws = some lease →
      lease.context.any (inSession sessionId authEpoch) → (ws, lease) ∈ rest) ?_ _ b
      ⟨σ, .of_shows hs, fun _ => .refl _, .refl s, Ahead.items s,
        fun ws lease h _ => Dict.get?_eq_some_iff.mp h⟩) ?_
  · rintro ⟨ws, lease⟩ rest acc t ⟨σ', hn, hfades, hbooks, hahead, hsel⟩
    rw [wp_ite]
    constructor
    · intro hin
      rw [wp_bind, wp_modify, wp_pure]
      have hframe : ∀ w, w ≠ ws → (t.lapse ws lease).active.get? w = t.active.get? w :=
        fun w hw => congrArg Row.active (t.row_lapse_of_ne lease hw)
      refine ⟨_, hn.lapse hahead.head ?_, fun w => (hfades w).trans (Quiet.fades_update_closed σ' ws w),
        hbooks.trans (.lapse t ws lease), hahead.tail hframe, fun w l hl hp => ?_⟩
      · intro h hctx hh h' hh'
        rw [(hfades ws).handle_eq, hh'] at hh
        cases hh
        rw [hctx] at hin
        exact hin
      · by_cases hw : w = ws
        · subst hw
          have : (t.lapse w lease).active.get? w = none := Dict.get?_erase_self _ _
          rw [this] at hl
          cases hl
        · rw [hframe w hw] at hl
          exact (mem_cons.mp (hsel w l hl hp)).resolve_left fun heq => hw (Prod.mk.inj heq).1
    · intro hnp
      refine ⟨σ', hn, hfades, hbooks, hahead.tail fun _ _ => rfl, fun w l hl hp => ?_⟩
      refine (mem_cons.mp (hsel w l hl hp)).resolve_left fun heq => ?_
      cases heq
      exact hnp hp
  · rintro _ t ⟨σ', hn, hfades, hbooks, -, hsel⟩
    exact ⟨σ', hlimbo hfades hn, hfades, hbooks, fun ws lease hl hp => by simpa using hsel ws lease hl hp⟩

/-- Revoking a session leaves it no ticket, no lease and no unfenced reservation. -/
theorem wp_revokeSession (hs : Shows s σ) {Q : List String → Authority τ → Prop}
    (hQ : ∀ ids t σ', Quiet s σ t σ' → (∀ digest ticket, t.pending.get? digest = some ticket →
        ¬ ticket.context.any (inSession sessionId authEpoch)) → (∀ ws lease, t.active.get? ws = some lease →
        ¬ lease.context.any (inSession sessionId authEpoch)) →
      (∀ ws record, t.staged.get? ws = some record → record.stage ≠ .fenced →
        ¬ inSession sessionId authEpoch record.handle.context) → Q ids t)
    (hE : sessionId = "" ∨ (validatePositiveU64 "auth_epoch" authEpoch).isOk = false → ∀ e, E e s) :
    (revokeSession cfg sessionId authEpoch).wp s Q E := by
  unfold revokeSession
  simp only [wp_bind, wp_get, wp_raiseIf]
  refine ⟨fun h => hE (.inl h) _, fun _ => ⟨fun h => hE (.inr h) _, fun _ => ?_⟩⟩
  refine wp_imp (wp_ticketLoop cfg hs (fun x => x.context.any (inSession sessionId authEpoch))
    (fun acc digest ticket t => ?_) []) ?_
  · rw [wp_ite]
    exact ⟨fun _ => .inr rfl, fun hnp => .inl ⟨hnp, rfl⟩⟩
  rintro ids t ⟨hq, htickets⟩
  refine wp_imp (wp_revokeLeases hq.shows ids) ?_
  rintro ids' u ⟨σ', hn, hfades, hbooks, hactive⟩
  refine wp_imp (wp_recordLoop hn (fun r => inSession sessionId authEpoch r.handle.context)
    (fun acc record v hr => ?_) ?_ ids') ?_
  · rw [wp_ite, wp_bind, wp_fence_of_staged hr]
    exact ⟨fun _ => .inr rfl, fun hnp => .inl ⟨hnp, rfl⟩⟩
  · exact fun ws record hl hr => hl _ (hn.handle_of_staged hr)
  rintro ids'' v ⟨σ'', hv, hfades', hbooks', hkeep, hdone⟩
  refine hQ ids'' v σ'' (hq.trans ?_) ?_ ?_ hdone
  · exact .of_sameBooks hv (fun ws => (hfades ws).trans (hfades' ws)) (hbooks.trans hbooks')
  · rw [hbooks'.pending, hbooks.pending]
    exact htickets
  · exact fun ws lease hl => hactive ws lease (hkeep ws lease hl)

end Methods

end AgentBox.Tickets
