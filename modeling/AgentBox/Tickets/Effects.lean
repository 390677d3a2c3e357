import AgentBox.Tickets.Quiet

/-!
# What the methods that grant something do

One lemma per method: it either ends in a `Quiet` step, or it has passed all its checks and moves one
slot along. The postconditions are continuations, so that a property of calls is read off by applying
the lemma at the property.
-/

namespace AgentBox.Tickets

open Method

variable {expected claims : AttachmentTuple} {context : Option AuthenticatedAttachmentContext}
    {cleanupState ticket : String} {expiresAt : Option Timestamp} {a : IssueArguments}
    {draws : Fin 3 → TicketDraw}

set_option linter.unusedSectionVars false

variable {τ : Type} [PyNumber τ] [DecidableEq τ] {s : Authority τ} {σ : String → Slot τ}
  {E : Raised → Authority τ → Prop}

variable {h : StagedAttachment τ} {now : Option τ} {clock : τ} {σ' : String → Slot τ}

/-- A row written for one workspace by a step that leaves the books alone. -/
theorem Authority.row_setStage_self (s : Authority τ) (record : StagedRecord τ) (stage : AdmissionStage) :
    (setStage record stage s).row record.handle.claims.workspaceId =
      { s.row record.handle.claims.workspaceId with staged := some { record with stage := stage } } := by
  simp [row, setStage]

theorem Authority.row_setStage_of_ne (s : Authority τ) (record : StagedRecord τ)
    (stage : AdmissionStage) {w : String} (h : w ≠ record.handle.claims.workspaceId) :
    (setStage record stage s).row w = s.row w := by
  simp [row, setStage, Dict.get?_set_of_ne _ h]

variable {Q : Unit → Authority τ → Prop}

theorem wp_rejectShutdown (hQ : s.shutdownStarted = false → Q () s)
    (hE : s.shutdownStarted = true → ∀ e, E e s) : (rejectShutdown : AuthorityM τ Unit).wp s Q E := by
  unfold rejectShutdown
  rw [wp_bind, wp_get, wp_raiseIf]
  exact ⟨fun h => hE h _, fun h => hQ (by simpa using h)⟩

/-! ## The admission protocol -/

/-- An advance that returns moved the reservation by one phase, before its deadline. -/
theorem wp_advance (hs : Shows s σ) {stage : Option AdmissionStage}
    (hQ : ∀ (k : Fin 7) t, s.shutdownStarted = false →
      σ h.claims.workspaceId = .staged h k.castSucc → stage = some (.ofPhase k.succ) →
      now.getD clock < h.deadlineMonotonic →
      Shows t (Function.update σ h.claims.workspaceId (.staged h k.succ)) → SameBooks s t → Q () t)
    (hE : ∀ e t σ', Quiet s σ t σ' → E e t) : (advance h stage now clock).wp s Q E := by
  unfold advance
  rw [wp_bind]
  refine wp_rejectShutdown (fun hopen => ?_) (fun _ e => hE e s σ (.refl hs))
  rw [wp_bind]
  refine wp_checkReservedAt hs (fun k hσ hlt => ?_) (fun t σ' hq => hE _ t σ' hq)
  have hfence : ∀ Q' : Unit → Authority τ → Prop, (∀ t σ', Quiet s σ t σ' → Q' () t) →
      (fence h).wp s Q' E := fun Q' hQ' =>
    wp_fence hs (fun _ t hq => hQ' t _ hq) (fun _ => hE _ s σ (.refl hs))
  cases stage with
  | none =>
    rw [wp_bind]
    exact hfence _ fun t σ' hq => hE _ t σ' hq
  | some stage =>
    simp only [wp_ite, wp_bind, wp_throw]
    refine ⟨fun _ => hfence _ fun t σ' hq => hE _ t σ' hq, fun hok => ?_⟩
    simp only [not_or, not_not, AdmissionStage.index_ofPhase] at hok
    obtain ⟨hna, hnf, hindex⟩ := hok
    have hk : k.val < 7 := by
      by_contra hge
      obtain rfl : k = 7 := Fin.ext (by omega)
      exact hna (AdmissionStage.index_injective hindex)
    have hstage : stage = .ofPhase (Fin.succ ⟨k.val, hk⟩) := by
      apply AdmissionStage.index_injective
      rw [hindex, AdmissionStage.index_ofPhase]
      rfl
    refine hQ ⟨k.val, hk⟩ _ hopen hσ (by rw [hstage]) hlt ?_ ⟨rfl, rfl, rfl, rfl⟩
    refine hs.update ?_ (fun w hw => s.row_setStage_of_ne ⟨h, _⟩ stage hw)
      (fun c hc => by cases hc; rfl) (fun h' hh' => ?_)
    · rw [s.row_setStage_self ⟨h, _⟩ stage, hs.row, hσ, hstage]
      rfl
    · cases hh'
      exact hs.timed _ h (by rw [hσ]; rfl)

/-- Logging a release or a discard is a quiet step. -/
theorem quiet_log (hs : Shows s σ) {c : PublicationCall τ} (hc : ∀ h, c ≠ .take h) :
    Quiet s σ { s with callbacks := s.callbacks ++ [c] } σ := by
  refine .of_sameBooks (hs.congr fun _ => rfl) (fun _ => .refl _) ⟨rfl, rfl, rfl, ?_⟩
  cases c with
  | take h => exact absurd rfl (hc h)
  | release | discard => simp [Authority.taken]

/-- An activation that returns gives a fully audited reservation its lease. -/
theorem wp_activateWithPublication (hs : Shows s σ) {publication : PublicationOutcome}
    {clockAfter : τ} {Q : ActiveAttachment τ → Authority τ → Prop}
    (hQ : ∀ times t, s.shutdownStarted = false → σ h.claims.workspaceId = .staged h 7 →
      Shows t (Function.update σ h.claims.workspaceId (.live h times)) → SameBooks s t → Q (times.lease h) t)
    (hE : ∀ e t σ', Quiet s σ t σ' → E e t) :
    (activateWithPublication h publication now clock clockAfter).wp s Q E := by
  unfold activateWithPublication
  rw [wp_bind]
  refine wp_rejectShutdown (fun hopen => ?_) (fun _ e => hE e s σ (.refl hs))
  dsimp only
  rw [wp_bind]
  refine wp_checkReservedAt hs (fun k hσ _ => ?_) (fun t σ' hq => hE _ t σ' hq)
  -- whatever goes wrong ends in a fence and, after the release, a discard
  have hfence : ∀ {t σ'} {Q' : Unit → Authority τ → Prop}, Quiet s σ t σ' →
      (∀ u σ'', Quiet s σ u σ'' → Q' () u) → (fence h).wp t Q' E := fun hq hQ' =>
    wp_fence hq.shows (fun _ u hq' => hQ' u _ (hq.trans hq')) (fun _ => hE _ _ _ hq)
  have hhandler : ∀ {t σ'} {Q' : Unit → Authority τ → Prop}, Quiet s σ t σ' →
      (discardReserved h publication).wp t Q' E := by
    intro t σ' Q' hq
    unfold discardReserved
    rw [wp_bind]
    refine hfence hq fun u σ'' hq' => ?_
    have hlog := hq'.trans (quiet_log hq'.shows (c := .discard h) (by simp))
    simp only [logCall, wp_bind, wp_modify, wp_raiseIf, wp_throw]
    exact ⟨fun _ => hE _ _ _ hlog, fun _ => hE _ _ _ hlog⟩
  simp only [wp_ite, wp_bind, wp_throw]
  refine ⟨fun _ => hfence (.refl hs) fun u σ' hq => hE _ u σ' hq, fun hk => ?_⟩
  obtain rfl : k = 7 := AdmissionStage.ofPhase_injective (not_not.mp hk)
  have hlog := quiet_log hs (c := .release h) (by simp)
  rw [wp_tryCatch]
  simp only [releaseReserved, logCall, wp_bind, wp_modify, wp_raiseIf]
  refine ⟨fun _ => hhandler hlog, fun _ => ?_⟩
  refine wp_checkReservedAt hlog.shows (fun k' hσ' _ => ?_) (fun t σ' hq => hhandler (hlog.trans hq))
  obtain rfl : 7 = k' := by
    rw [hσ] at hσ'
    exact (Slot.staged.inj hσ').2
  refine ⟨fun hne => absurd rfl hne, fun _ => ?_⟩
  rw [wp_pure]
  refine hQ ⟨now.getD clock, now.getD clock, h.leaseExpiresAtMonotonic,
    h.absoluteExpiresAtMonotonic⟩ _ hopen hσ ?_ ⟨rfl, rfl, rfl, hlog.taken⟩
  refine hlog.shows.update ?_ (fun w hw => ?_) (fun c hc => by cases hc; rfl) (fun h' hh' => ?_)
  · have hrow := hs.row h.claims.workspaceId
    rw [hσ] at hrow
    have hcleanup : s.cleanupPending.get? h.claims.workspaceId = none := congrArg Row.cleanup hrow
    have hcontext : s.cleanupContexts.get? h.claims.workspaceId = none := congrArg Row.context hrow
    simp [Authority.row, setStage, Slot.row, hcleanup, hcontext, LeaseTimes.lease]
  · simp [Authority.row, setStage, Dict.get?_set_of_ne _ hw]
  · cases hh'
    exact hs.timed _ h (by rw [hσ]; rfl)

/-! ## Writer leases -/

/-- A heartbeat that returns has renewed the exact lease. -/
theorem wp_heartbeat (cfg : Config τ) (hs : Shows s σ) {Q : ActiveAttachment τ → Authority τ → Prop}
    (hQ : ∀ lease times t, s.shutdownStarted = false → s.active.get? expected.workspaceId = some lease →
      Shows t (Function.update σ expected.workspaceId
        ((σ expected.workspaceId).renewed times)) → SameBooks s t → Q (lease.withTimes times) t)
    (hE : ∀ e t σ', Quiet s σ t σ' → E e t) : (heartbeat cfg expected now clock context).wp s Q E := by
  unfold heartbeat
  rw [wp_bind]
  refine wp_rejectShutdown (fun hopen => ?_) (fun _ e => hE e s σ (.refl hs))
  dsimp only
  rw [wp_bind]
  refine wp_exactActive (fun lease hlease _ _ => ?_) (hE _ s σ (.refl hs)) (hE _ s σ (.refl hs))
  simp only [wp_ite, wp_bind, wp_throw, wp_modify, wp_pure]
  refine ⟨fun _ => wp_expireLease hs hlease fun t hq => hE _ t _ hq, fun _ => ?_⟩
  refine hQ lease ⟨lease.openedAtMonotonic, now.getD clock,
    pyMin (now.getD clock + cfg.leaseTtl) lease.absoluteExpiresAtMonotonic,
    lease.absoluteExpiresAtMonotonic⟩ _ hopen hlease ?_ ⟨rfl, rfl, rfl, rfl⟩
  have hactive := hlease
  rw [hs.active] at hactive
  refine hs.update ?_ (fun w hw => ?_)
    (fun c hc => hs.keyed _ c (by simpa only [Slot.renewed_claims] using hc))
    (fun h hh => hs.timed _ h (by simpa only [Slot.renewed_handle] using hh))
  · rw [Slot.row_renewed hactive, ← hs.row]
    simp [Authority.row, ActiveAttachment.withTimes]
  · simp [Authority.row, Dict.get?_set_of_ne _ hw]

/-- A lease is active only if it is the exact lease and unexpired, and then asking changes nothing. -/
theorem wp_isActive (hs : Shows s σ) {Q : Bool → Authority τ → Prop}
    (hTrue : ∀ lease, s.active.get? expected.workspaceId = some lease →
      lease.activeAt (now.getD clock) → Q true s)
    (hFalse : ∀ t σ', Quiet s σ t σ' → Q false t) (hE : ∀ e, E e s) :
    (isActive expected now clock context).wp s Q E := by
  unfold isActive
  rw [wp_bind]
  refine wp_exactActive (fun lease hlease _ _ => ?_) (hFalse s σ (.refl hs)) (hE _)
  simp only [wp_ite, wp_bind, wp_pure]
  exact ⟨fun _ => wp_expireLease hs hlease fun t hq => hFalse t _ hq,
    fun hactive => hTrue lease hlease (not_not.mp hactive)⟩

/-- A detach frees the workspace only of an exact unexpired lease without a reservation. -/
theorem wp_detach (hs : Shows s σ) {Q : ActiveAttachment τ → Authority τ → Prop}
    (hFree : ∀ lease t, σ expected.workspaceId = .leased lease → lease.claims = expected →
      lease.context = context → lease.activeAt (now.getD clock) →
      Shows t (Function.update σ expected.workspaceId .free) → SameBooks s t → Q lease t)
    (hFence : ∀ lease t σ', Quiet s σ t σ' → Q lease t) (hE : ∀ e t σ', Quiet s σ t σ' → E e t) :
    (detach expected now clock context).wp s Q E := by
  unfold detach
  rw [wp_bind]
  refine wp_exactActive (fun lease hlease hclaims hcontext => ?_) (hE _ s σ (.refl hs)) (hE _ s σ (.refl hs))
  simp only [wp_ite, wp_bind, wp_throw, wp_get]
  refine ⟨fun _ => wp_expireLease hs hlease fun t hq => hE _ t _ hq, fun hactive => ?_⟩
  rw [hs.staged]
  obtain hσ | ⟨h, times, hσ, rfl⟩ := hs.lease_cases hlease
  · rw [hσ]
    refine hFree lease _ hσ hclaims hcontext (not_not.mp hactive) ?_ ⟨rfl, rfl, rfl, rfl⟩
    refine hs.release ?_ fun w hw => ?_
    · have hrow := hs.row expected.workspaceId
      rw [hσ] at hrow
      simp only [Authority.row, Slot.row, Row.mk.injEq] at hrow
      simp [Authority.row, Slot.row, hrow.2]
    · simp [Authority.row, Dict.get?_erase_of_ne _ hw]
  · rw [hσ]
    change (fence h >>= fun _ => pure (times.lease h)).wp s Q E
    rw [wp_bind]
    exact wp_fence hs (fun _ t hq => hFence _ t _ hq) (fun _ => hE _ s σ (.refl hs))

/-- A publication is read only for an active record with an unexpired lease. -/
theorem wp_readPublished (hs : Shows s σ) {taken : Option (Option (List UInt8))}
    {Q : Option (List UInt8) → Authority τ → Prop}
    (hTake : ∀ lease, s.staged.get? h.claims.workspaceId = some ⟨h, .active⟩ →
      s.active.get? h.claims.workspaceId = some lease → lease.activeAt clock →
      (∀ frame, Q frame { s with callbacks := s.callbacks ++ [.take h] }) ∧
        ∀ e, E e { s with callbacks := s.callbacks ++ [.take h] })
    (hNone : ∀ t σ', Quiet s σ t σ' → Q none t) (hE : ∀ e, E e s) :
    (readPublished h taken clock).wp s Q E := by
  unfold readPublished
  rw [wp_bind]
  refine wp_exactStaged (fun record hr hh => ?_) (hE _)
  simp only [wp_ite, wp_bind, wp_pure]
  refine ⟨fun _ => hNone s σ (.refl hs), fun hactive => ?_⟩
  obtain rfl : record = ⟨h, .active⟩ := by
    obtain ⟨handle, stage⟩ := record
    rw [StagedRecord.mk.injEq]
    exact ⟨hh, not_not.mp hactive⟩
  refine wp_isActive hs (fun lease hlease hat => ?_) (fun t σ' hq => ?_) hE
  · obtain ⟨hQ', hE'⟩ := hTake lease hr hlease hat
    refine ⟨fun hf => by simp at hf, fun _ => ?_⟩
    rw [logCall, wp_modify]
    cases taken with
    | none => exact hE' _
    | some frame => exact hQ' frame
  · exact ⟨fun _ => hNone t σ' hq, fun hf => by simp at hf⟩

/-! ## Cleanup -/

/-- A staged cleanup is accepted only with exact proof for a fenced reservation. -/
theorem wp_acknowledgeStagedCleanup (hs : Shows s σ) {connectionId : Option ObjectId} {failureAudited : Bool}
    (hQ : ∀ t, σ h.claims.workspaceId = .fenced h → connectionId = some h.connectionId →
      cleanupState = "ATTACH_PTY_CLOSED" → failureAudited = true →
      Shows t (Function.update σ h.claims.workspaceId .free) → SameBooks s t → Q () t) (hE : ∀ e, E e s) :
    (acknowledgeStagedCleanup h connectionId cleanupState failureAudited).wp s Q E := by
  unfold acknowledgeStagedCleanup
  rw [wp_bind]
  refine wp_exactStaged (fun record hr hh => ?_) (hE _)
  simp only [wp_bind, wp_raiseIf, wp_modify]
  refine ⟨fun _ => hE _, fun hok => ?_⟩
  simp only [not_or, not_not, Bool.not_eq_false] at hok
  obtain ⟨hstage, hconn, hclosed, haudit⟩ := hok
  have hσ : σ h.claims.workspaceId = .fenced h := by
    obtain ⟨handle, stage⟩ := record
    obtain rfl : handle = h := hh
    obtain rfl : stage = .fenced := hstage
    exact hs.eq_fenced hr
  refine hQ _ hσ hconn hclosed haudit ?_ ⟨rfl, rfl, rfl, rfl⟩
  refine hs.release ?_ fun w hw => ?_
  · have hactive : s.active.get? h.claims.workspaceId = none := by rw [hs.active, hσ]; rfl
    simp [Authority.row, Slot.row, hactive]
  · simp [Authority.row, Dict.get?_erase_of_ne _ hw]

/-- A cleanup is accepted only with exact proof for an obligation without a reservation. -/
theorem wp_acknowledgeCleanup (hs : Shows s σ)
    (hQ : ∀ context t, σ expected.workspaceId = .owed expected context → cleanupState = "ATTACH_PTY_CLOSED" →
      Shows t (Function.update σ expected.workspaceId .free) → SameBooks s t → Q () t)
    (hE : ∀ e, E e s) : (acknowledgeCleanup expected cleanupState).wp s Q E := by
  unfold acknowledgeCleanup
  simp only [wp_bind, wp_get, wp_raiseIf]
  refine ⟨fun _ => hE _, fun hstaged => ?_⟩
  rw [Dict.not_mem_iff, hs.staged] at hstaged
  cases hclaims : s.cleanupPending.get? expected.workspaceId with
  | none => exact hE _
  | some claims =>
    simp only [wp_bind, wp_compared, wp_ite, wp_throw, wp_raiseIf, wp_modify]
    refine ⟨fun b hb => ⟨fun _ => hE _, fun hne => ⟨fun _ => hE _, fun hclosed => ?_⟩⟩, fun _ => hE _⟩
    simp only [Bool.not_eq_true, Bool.not_eq_false'] at hne
    subst hne
    obtain rfl := eq_of_sameTuple hb
    rw [hs.cleanup] at hclaims
    cases hσ : σ claims.workspaceId with
    | owed c context =>
      rw [hσ] at hclaims
      cases hclaims
      refine hQ context _ hσ (not_not.mp hclosed) ?_ ⟨rfl, rfl, rfl, rfl⟩
      refine hs.release ?_ fun w hw => ?_
      · have hactive : s.active.get? claims.workspaceId = none := by rw [hs.active, hσ]; rfl
        have hstaged' : s.staged.get? claims.workspaceId = none := by rw [hs.staged, hσ]; rfl
        simp [Authority.row, Slot.row, hactive, hstaged']
      · simp [Authority.row, Dict.get?_erase_of_ne _ hw]
    | fenced => rw [hσ] at hstaged; cases hstaged
    | free | leased | staged | live => rw [hσ] at hclaims; cases hclaims

/-! ## Tickets -/

theorem Shows.eq_free_iff (hs : Shows s σ) {ws : String} :
    σ ws = .free ↔ ws ∉ s.active ∧ ws ∉ s.cleanupPending ∧ ws ∉ s.staged := by
  rw [Dict.not_mem_iff, Dict.not_mem_iff, Dict.not_mem_iff, hs.active, hs.cleanup, hs.staged]
  cases σ ws <;> simp [Slot.row]

variable {t : Authority τ}

theorem Quiet.pending_none (h : Quiet s σ t σ') {digest : Digest}
    (hnone : s.pending.get? digest = none) : t.pending.get? digest = none := by
  cases hget : t.pending.get? digest with
  | none => rfl
  | some ticket =>
    have := Dict.get?_eq_some_iff.mpr (h.pending.subset (Dict.get?_eq_some_iff.mp hget))
    rw [hnone] at this
    cases this

/-- After a call that presents a ticket, its digest is not pending unless it was turned away at the
door. -/
def Redeemed (ticket : String) (s t : Authority τ) : Prop :=
  ∀ digest, ticketDigest ticket = .ok digest → s.shutdownStarted = false →
    t.pending.get? digest = none

theorem redeemed_of_none {digest : Digest} (hd : ticketDigest ticket = .ok digest)
    (hnone : t.pending.get? digest = none) : Redeemed ticket s t := by
  intro d hd' _
  rw [hd] at hd'
  cases hd'
  exact hnone

variable (cfg : Config τ)

theorem redeemed_of_burn {digest : Digest} (hd : ticketDigest ticket = .ok digest)
    (hq : Quiet (s.burn cfg digest) σ t σ') : Redeemed ticket s t :=
  redeemed_of_none hd (hq.pending_none (Dict.get?_erase_self _ _))

/-- A ticket with a digest is pending no more once it is burned, whatever happens then. -/
theorem wp_presentTicket (hs : Shows s σ) {α : Type} {k : Digest → AuthorityM τ α}
    {Q : α → Authority τ → Prop} (hE : ∀ e t σ', Quiet s σ t σ' → Redeemed ticket s t → E e t)
    (hk : ∀ digest, s.shutdownStarted = false → ticketDigest ticket = .ok digest →
      (∀ {e t σ'}, Quiet (s.burn cfg digest) σ t σ' → E e t) → (k digest).wp s Q E) :
    (rejectShutdown >>= fun _ => Method.liftExcept (ticketDigest ticket) >>= k).wp s Q E := by
  rw [wp_bind]
  refine wp_rejectShutdown (fun hopen => ?_)
    (fun hshut e => hE e s σ (.refl hs) fun _ _ ho => by rw [hshut] at ho; cases ho)
  refine wp_lift (fun digest hd => hk digest hopen hd fun hq => ?_) fun e he =>
    hE e s σ (.refl hs) fun d hd _ => by rw [he] at hd; cases hd
  exact hE _ _ _ ((Quiet.burn hs cfg digest).trans hq) (redeemed_of_burn cfg hd hq)

/-- A `consume` that returns has turned its ticket into the lease of a free workspace. -/
theorem wp_consume (hs : Shows s σ) {Q : ActiveAttachment τ → Authority τ → Prop}
    (hQ : ∀ digest pending lease t, s.shutdownStarted = false →
      ticketDigest ticket = .ok digest → s.pending.get? digest = some pending →
      σ expected.workspaceId = .free → s.occupied.card < cfg.maxWriters →
      lease.claims = expected → lease.context = pending.context →
      Shows t (Function.update σ expected.workspaceId (.leased lease)) →
      SameBooks (s.burn cfg digest) t → Q lease t)
    (hE : ∀ e t σ', Quiet s σ t σ' → Redeemed ticket s t → E e t) :
    (consume cfg ticket expected now clock context).wp s Q E := by
  unfold consume
  dsimp only
  refine wp_presentTicket cfg hs hE fun digest hopen hd hfail => ?_
  rw [wp_bind, wp_get]
  cases hp : s.pending.get? digest with
  | none =>
    have hnone : Redeemed ticket s s := redeemed_of_none hd hp
    simp only [wp_bind, wp_raiseIf, wp_throw]
    exact ⟨fun _ => hE _ s σ (.refl hs) hnone, fun _ => hE _ s σ (.refl hs) hnone⟩
  | some pending =>
    have hburn : Quiet s σ (s.burn cfg digest) σ := .burn hs cfg digest
    have hstay : ∀ {e}, E e (s.burn cfg digest) := hfail (.refl hburn.shows)
    simp only [wp_bind, wp_modify, wp_raiseIf, wp_compared, wp_ite, wp_throw, wp_get]
    refine ⟨fun _ => hstay, fun _ => ⟨fun b hb => ⟨fun _ => hstay, fun hne => ⟨fun b' hb' =>
      ⟨fun _ => hstay, fun hne' => ?_⟩, fun _ => hstay⟩⟩, fun _ => hstay⟩⟩
    cases hactive : (s.burn cfg digest).active.get? expected.workspaceId with
    | some lease =>
      simp only [wp_bind, wp_raiseIf, wp_throw]
      exact ⟨fun _ => hstay, fun _ => wp_expireLease hburn.shows hactive fun t hq => hfail hq⟩
    | none =>
      simp only [wp_bind, wp_raiseIf, wp_modify, wp_pure]
      refine ⟨fun _ => hstay, fun hcleanup => ⟨fun _ => hstay, fun hstaged => ?_⟩⟩
      rw [not_or, not_le] at hstaged
      have hfree : σ expected.workspaceId = .free := hburn.shows.eq_free_iff.mpr
        ⟨Dict.not_mem_iff.mpr hactive, hcleanup, hstaged.1⟩
      refine hQ digest pending _ _ hopen hd hp hfree hstaged.2 rfl rfl ?_ ⟨rfl, rfl, rfl, rfl⟩
      refine hburn.shows.update ?_ (fun w hw => ?_) (fun c hc => by cases hc; rfl)
        (fun h hh => by cases hh)
      · have hrow := hburn.shows.row expected.workspaceId
        rw [hfree] at hrow
        simp only [Authority.row, Slot.row, Row.mk.injEq] at hrow
        simp [Authority.row, Slot.row, hrow.2]
      · simp [Authority.row, Dict.get?_set_of_ne _ hw]

/-- A `reserve` that returns has turned its ticket into the reservation of a workspace that is free
after a sweep. -/
theorem wp_reserve (hs : Shows s σ) {a : ReserveArguments τ} {Q : StagedAttachment τ → Authority τ → Prop}
    (hQ : ∀ digest pending h u σ' t, s.shutdownStarted = false →
      ticketDigest ticket = .ok digest → s.pending.get? digest = some pending →
      Quiet (s.burn cfg digest) σ u σ' → σ' expected.workspaceId = .free →
      u.occupied.card < cfg.maxWriters → u.adminCount h.context.userId < cfg.maxPerAdmin →
      h.claims = expected →
      Shows t (Function.update σ' expected.workspaceId (.staged h 0)) → SameBooks u t → Q h t)
    (hE : ∀ e t σ', Quiet s σ t σ' → Redeemed ticket s t → E e t) :
    (reserve cfg ticket expected a clock).wp s Q E := by
  unfold reserve
  dsimp only
  refine wp_presentTicket cfg hs hE fun digest hopen hd hfail => ?_
  rw [wp_bind, wp_get]
  cases hp : s.pending.get? digest with
  | none => exact hE _ s σ (.refl hs) (redeemed_of_none hd hp)
  | some pending =>
    have hburn : Quiet s σ (s.burn cfg digest) σ := .burn hs cfg digest
    have hstay : ∀ {e}, E e (s.burn cfg digest) := hfail (.refl hburn.shows)
    simp only [wp_bind, wp_modify, wp_raiseIf]
    refine ⟨fun _ => hstay, fun hnumbers => ?_⟩
    simp only [not_or, Bool.not_eq_false] at hnumbers
    cases a.connectionId with
    | none => exact hstay
    | some connectionId =>
    cases a.context with
    | none => exact hstay
    | some context =>
      simp only [wp_bind, wp_raiseIf, wp_compared, wp_ite, wp_throw]
      refine ⟨fun _ => hstay, fun _ => ⟨fun _ => hstay, fun _ => ⟨fun b hb => ⟨fun _ => hstay,
        fun _ => ⟨fun b' hb' => ⟨fun _ => hstay, fun _ => ⟨fun _ => hstay, fun _ => ?_⟩⟩,
          fun _ => hstay⟩⟩, fun _ => hstay⟩⟩⟩
      refine wp_sweep cfg hburn.shows fun ids u σ' hq => ?_
      simp only [wp_get, wp_modify, wp_pure]
      refine ⟨fun _ => hfail hq, fun hfree => ⟨fun _ => hfail hq, fun hwriters =>
        ⟨fun _ => hfail hq, fun hadmin => ?_⟩⟩⟩
      rw [not_or, not_or] at hfree
      have hσ' : σ' expected.workspaceId = .free := hq.shows.eq_free_iff.mpr hfree
      refine hQ digest pending _ u σ' _ hopen hd hp hq hσ' (not_le.mp hwriters)
        (not_le.mp hadmin) rfl ?_ ⟨rfl, rfl, rfl, rfl⟩
      refine hq.shows.update ?_ (fun w hw => ?_) (fun c hc => by cases hc; rfl)
        (fun h hh => ?_)
      · have hrow := hq.shows.row expected.workspaceId
        rw [hσ'] at hrow
        simp only [Authority.row, Slot.row, Row.mk.injEq] at hrow
        simp [Authority.row, Slot.row, hrow, AdmissionStage.ofPhase]
      · simp [Authority.row, Dict.get?_set_of_ne _ hw]
      · cases hh
        exact pyMin_le_self (PyNumber.add_literal_le_self hnumbers.2.2.2.1)

theorem claims_of_drawTicket {cfg : Config τ} {now : τ} {draw : TicketDraw}
    {issued : IssuedAttachmentTicket τ} (h : drawTicket cfg claims now expiresAt draw = .ok issued) :
    issued.claims = claims := by
  unfold drawTicket at h
  obtain ⟨token, -, h⟩ := bind_eq_ok_iff.mp h
  obtain ⟨utc, -, h⟩ := bind_eq_ok_iff.mp h
  split at h
  · cases h
  · cases h; rfl

theorem leaseNumber_of_claims {number epoch : ℕ} (h : a.claims number epoch = .ok claims) :
    claims.leaseNumber = number := by
  unfold IssueArguments.claims at h
  obtain ⟨_, -, h⟩ := bind_eq_ok_iff.mp h
  obtain ⟨_, -, h⟩ := bind_eq_ok_iff.mp h
  obtain ⟨agent, -, h⟩ := bind_eq_ok_iff.mp h
  rw [AttachmentFields.accept_eq_ok h]

theorem wp_allocateLeaseNumber {Q : ℕ → Authority τ → Prop}
    (hQ : ∀ number, s.nextLeaseNumber ≤ number → 1 ≤ number → number ≤ maxU64 →
      Q number { s with nextLeaseNumber := number + 1 })
    (hE : ∀ e, E e s) : (allocateLeaseNumber : AuthorityM τ ℕ).wp s Q E := by
  unfold allocateLeaseNumber
  simp only [wp_bind, wp_get, wp_raiseIf, wp_modify, wp_pure]
  refine ⟨fun _ => hE _, fun hmax => hQ _ ?_ ?_ (not_lt.mp hmax)⟩
  · split
    · omega
    · exact le_rfl
  · split
    · exact le_rfl
    · omega

/-- The bounded search finds a ticket for the claims whose digest is not pending. -/
theorem wp_searchTicket {now : τ} {Q : IssuedAttachmentTicket τ × Digest → Authority τ → Prop}
    (hQ : ∀ issued digest, issued.claims = claims → ticketDigest issued.ticket = .ok digest →
      digest ∉ s.pending → Q (issued, digest) s) (hE : ∀ e, E e s) (draws : List TicketDraw) :
    (searchTicket cfg claims now expiresAt draws).wp s Q E := by
  induction draws with
  | nil => exact hE _
  | cons draw draws ih =>
    unfold searchTicket
    simp only [wp_bind, wp_liftExcept, wp_get, wp_ite]
    refine ⟨fun issued hissued => ⟨fun digest hd => ⟨fun hfresh => ?_, fun _ => ih⟩,
      fun e _ => hE e⟩, fun e _ => hE e⟩
    exact hQ issued digest (claims_of_drawTicket hissued) hd hfresh.1

/-- A ticket is entered under the allocated lease number. -/
theorem wp_enterTicket {now : τ} {Q : IssuedAttachmentTicket τ → Authority τ → Prop}
    (hQ : ∀ issued digest ticket, s.nextLeaseNumber ≤ issued.claims.leaseNumber →
      1 ≤ issued.claims.leaseNumber → issued.claims.leaseNumber ≤ maxU64 →
      ticketDigest issued.ticket = .ok digest → digest ∉ s.pending → ticket.context = a.context →
      Q issued { s with
        nextLeaseNumber := issued.claims.leaseNumber + 1
        pending := s.pending.set digest ticket })
    (hE : ∀ e n, s.nextLeaseNumber ≤ n → E e { s with nextLeaseNumber := n }) :
    (enterTicket cfg a now draws).wp s Q E := by
  unfold enterTicket
  rw [wp_bind]
  refine wp_allocateLeaseNumber (fun number hge h1 hmax => ?_) (fun e => hE e _ le_rfl)
  have hlater : ∀ e, E e { s with nextLeaseNumber := number + 1 } := fun e => hE e _ (by omega)
  refine wp_lift (fun claims hclaims => ?_) fun e _ => hlater e
  rw [wp_bind]
  refine wp_searchTicket cfg (fun issued digest hissued hd hfresh => ?_) hlater _
  obtain rfl : issued.claims.leaseNumber = number := by
    rw [hissued]
    exact leaseNumber_of_claims hclaims
  exact hQ issued digest _ hge h1 hmax hd hfresh rfl

/-- An `issue` that returns has found room and added one ticket under a fresh lease number. -/
theorem wp_issue (hs : Shows s σ) {Q : IssuedAttachmentTicket τ → Authority τ → Prop}
    (hQ : ∀ u σ' issued digest ticket, s.shutdownStarted = false → Quiet s σ u σ' →
      u.recordCount < cfg.maxRecords → (∀ c, a.context = some c → u.adminCount c.userId < cfg.maxPerAdmin) →
      u.nextLeaseNumber ≤ issued.claims.leaseNumber → 1 ≤ issued.claims.leaseNumber →
      issued.claims.leaseNumber ≤ maxU64 → ticketDigest issued.ticket = .ok digest →
      digest ∉ u.pending → ticket.context = a.context → Q issued { u with
        nextLeaseNumber := issued.claims.leaseNumber + 1
        pending := u.pending.set digest ticket })
    (hE : ∀ e u σ' n, Quiet s σ u σ' → u.nextLeaseNumber ≤ n → E e { u with nextLeaseNumber := n }) :
    (issue cfg a clock draws).wp s Q E := by
  unfold issue
  rw [wp_bind]
  refine wp_rejectShutdown (fun hopen => ?_) (fun _ e => hE e s σ _ (.refl hs) le_rfl)
  dsimp only
  rw [wp_bind]
  refine wp_sweep cfg hs fun ids u σ' hq => ?_
  have hstay : ∀ {e}, E e u := hE _ u σ' _ hq le_rfl
  simp only [wp_bind, wp_get, wp_raiseIf]
  refine ⟨fun _ => hstay, fun _ => ⟨fun _ => hstay, fun hrecords => ⟨fun _ => hstay, fun hadmin =>
    ⟨fun _ => hstay, fun _ => ?_⟩⟩⟩⟩
  have hcontext : ∀ c, a.context = some c → u.adminCount c.userId < cfg.maxPerAdmin := by
    intro c hc
    simpa [hc] using hadmin
  have henter : (enterTicket cfg a clock draws).wp u Q E :=
    wp_enterTicket cfg (fun issued digest ticket hge h1 hmax hd hfresh hctx =>
      hQ u σ' issued digest ticket hopen hq (not_le.mp hrecords) hcontext hge h1 hmax hd hfresh hctx)
      (fun e n hn => hE e u σ' n hq hn)
  -- the origin check runs only against a context
  cases a.context with
  | none => exact henter
  | some context =>
    simp only [wp_bind, wp_compared, wp_ite, wp_throw]
    exact ⟨fun _ _ => ⟨fun _ => hstay, fun _ => henter⟩, fun _ => hstay⟩

end AgentBox.Tickets
