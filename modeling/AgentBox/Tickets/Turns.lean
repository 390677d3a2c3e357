import AgentBox.Tickets.Effects

/-!
# What one call can do

`Turn` lists everything that one call of the authority can do to one slot, with what the call must
have been, and `Growth` everything it can do to the tables of tickets and slots as a whole, with the
capacity checks it has passed. `step_effect` shows that this is all; every invariant and every
temporal property of the authority is derived from it without looking at a method again.
-/

namespace AgentBox.Tickets

open Method

set_option linter.unusedSectionVars false

variable {τ : Type} [PyNumber τ] [DecidableEq τ]

/-- What a call with outcome `r` can do to one slot. -/
inductive Turn (s : Authority τ) (c : Call τ) (r : Except Raised (Reply τ)) :
    Slot τ → Slot τ → Prop
  | fade {a b : Slot τ} (h : a.Fades b) : Turn s c r a b
  | renew (a : Slot τ) (times : LeaseTimes τ) : Turn s c r a (a.renewed times)
  | lease (lease : ActiveAttachment τ) (hopen : s.shutdownStarted = false) :
      Turn s c r .free (.leased lease)
  | enlist (h : StagedAttachment τ) (hopen : s.shutdownStarted = false) :
      Turn s c r .free (.staged h 0)
  | promote (h : StagedAttachment τ) (k : Fin 7) (now : Option τ) (clock : τ)
      (hc : c = .advance h (some (.ofPhase k.succ)) now clock) (hr : r = .ok .unit)
      (htime : now.getD clock < h.deadlineMonotonic) :
      Turn s c r (.staged h k.castSucc) (.staged h k.succ)
  | activate (h : StagedAttachment τ) (times : LeaseTimes τ) : Turn s c r (.staged h 7) (.live h times)
  | detach (lease : ActiveAttachment τ) (now : Option τ) (clock : τ)
      (hc : c = .detach lease.claims now clock lease.context)
      (hactive : lease.activeAt (now.getD clock)) : Turn s c r (.leased lease) .free
  | acknowledge (claims : AttachmentTuple) (context : Option AuthenticatedAttachmentContext)
      (hc : c = .acknowledgeCleanup claims "ATTACH_PTY_CLOSED") :
      Turn s c r (.owed claims context) .free
  | acknowledgeStaged (h : StagedAttachment τ)
      (hc : c = .acknowledgeStagedCleanup h (some h.connectionId) "ATTACH_PTY_CLOSED" true) :
      Turn s c r (.fenced h) .free

/-- Whether a call hands out a ticket, or something for one. -/
def Call.grants : Call τ → Except Raised (Reply τ) → Bool
  | .issue _ _ _, .ok _ => true
  | .consume _ _ _ _ _, .ok _ => true
  | .reserve _ _ _ _, .ok _ => true
  | _, _ => false

/-- What a call with outcome `r` can do to the tables. -/
inductive Growth (cfg : Config τ) (c : Call τ) (r : Except Raised (Reply τ)) (s : Authority τ)
    (σ : String → Slot τ) (t : Authority τ) (σ' : String → Slot τ) : Prop
  /-- no ticket and no slot is added -/
  | shrinks (hgrants : c.grants r = false)
      (hpending : t.pending.items.Sublist s.pending.items)
      (hslots : ∀ ws, σ' ws = .free ∨ σ ws ≠ .free ∧ (σ' ws).context = (σ ws).context)
      (hnumber : s.nextLeaseNumber ≤ t.nextLeaseNumber)
  /-- a ticket is added, within the limits on records and on the tickets of its user -/
  | issues {a : IssueArguments} {clock : τ} {draws : Fin 3 → TicketDraw}
      {issued : IssuedAttachmentTicket τ} {digest : Digest} {ticket : PendingTicket τ}
      {u : Authority τ} (hc : c = .issue a clock draws) (hr : r = .ok (.ticket issued))
      (hopen : s.shutdownStarted = false) (hquiet : Quiet s σ u σ')
      (hrecords : u.recordCount < cfg.maxRecords)
      (hadmin : ∀ x, a.context = some x → u.adminCount x.userId < cfg.maxPerAdmin)
      (hdigest : ticketDigest issued.ticket = .ok digest) (hfresh : digest ∉ u.pending)
      (hcontext : ticket.context = a.context)
      (hpending : t.pending = u.pending.set digest ticket)
      (hoccupied : t.occupied = u.occupied)
      (hge : s.nextLeaseNumber ≤ issued.claims.leaseNumber) (hpos : 1 ≤ issued.claims.leaseNumber)
      (hmax : issued.claims.leaseNumber ≤ maxU64)
      (hnumber : t.nextLeaseNumber = issued.claims.leaseNumber + 1)
  /-- a ticket becomes a lease, within the limit on writers -/
  | consumes {ticket : String} {expected : AttachmentTuple} {now : Option τ} {clock : τ}
      {context : Option AuthenticatedAttachmentContext} {lease : ActiveAttachment τ}
      {digest : Digest} {pending : PendingTicket τ}
      (hc : c = .consume ticket expected now clock context) (hr : r = .ok (.lease lease))
      (hopen : s.shutdownStarted = false) (hdigest : ticketDigest ticket = .ok digest)
      (hfound : s.pending.get? digest = some pending)
      (hwriters : s.occupied.card < cfg.maxWriters)
      (hcontext : lease.context = pending.context)
      (hpending : t.pending = s.pending.erase digest)
      (hfree : σ expected.workspaceId = .free)
      (hslots : σ' = Function.update σ expected.workspaceId (.leased lease))
      (hnumber : t.nextLeaseNumber = s.nextLeaseNumber)
  /-- a ticket becomes a reservation, within the limits on writers and on the records of its user -/
  | reserves {ticket : String} {expected : AttachmentTuple} {a : ReserveArguments τ} {clock : τ}
      {h : StagedAttachment τ} {digest : Digest} {pending : PendingTicket τ} {u : Authority τ}
      {σu : String → Slot τ} (hc : c = .reserve ticket expected a clock)
      (hr : r = .ok (.handle h)) (hopen : s.shutdownStarted = false)
      (hdigest : ticketDigest ticket = .ok digest) (hfound : s.pending.get? digest = some pending)
      (hquiet : Quiet (s.burn cfg digest) σ u σu) (hwriters : u.occupied.card < cfg.maxWriters)
      (hadmin : u.adminCount h.context.userId < cfg.maxPerAdmin)
      (hpending : t.pending = u.pending) (hfree : σu expected.workspaceId = .free)
      (hslots : σ' = Function.update σu expected.workspaceId (.staged h 0))
      (hnumber : t.nextLeaseNumber = s.nextLeaseNumber)

/-- What a call with outcome `r` does, from the slots `σ` to the slots `σ'`. -/
structure Effect (cfg : Config τ) (c : Call τ) (r : Except Raised (Reply τ)) (s : Authority τ)
    (σ : String → Slot τ) (t : Authority τ) (σ' : String → Slot τ) : Prop where
  shows : Shows t σ'
  turns : ∀ ws, Turn s c r (σ ws) (σ' ws)
  growth : Growth cfg c r s σ t σ'
  shutdown : t.shutdownStarted = s.shutdownStarted ∨ c = .beginShutdown
  taken : t.taken = s.taken ∨ ∃ h bytes clock lease, c = .readPublished h bytes clock ∧
    t.taken = s.taken ++ [h] ∧ s.staged.get? h.claims.workspaceId = some ⟨h, .active⟩ ∧
    s.active.get? h.claims.workspaceId = some lease ∧ lease.activeAt clock

section
variable {cfg : Config τ} {c : Call τ} {r : Except Raised (Reply τ)} {s t : Authority τ}
  {σ σ' : String → Slot τ}

theorem Slot.Fades.free_or {a b : Slot τ} (h : a.Fades b) :
    b = .free ∨ a ≠ .free ∧ b.context = a.context := by
  by_cases ha : a = .free
  · subst ha
    rcases h with rfl | rfl <;> exact .inl rfl
  · exact .inr ⟨ha, h.context_eq⟩

/-- A quiet step is an effect of any call that grants nothing. -/
theorem Effect.of_quiet (hgrants : c.grants r = false) (hq : Quiet s σ t σ') : Effect cfg c r s σ t σ' where
  shows := hq.shows
  turns ws := .fade (hq.fades ws)
  growth := .shrinks hgrants hq.pending (fun ws => (hq.fades ws).free_or) hq.leaseNumber.ge
  shutdown := .inl hq.shutdown
  taken := .inl hq.taken

/-- Moving one slot on, with the books left alone. -/
theorem Effect.of_update (hgrants : c.grants r = false) {ws : String} {sl : Slot τ}
    (hturn : Turn s c r (σ ws) sl) (hslot : sl = .free ∨ σ ws ≠ .free ∧ sl.context = (σ ws).context)
    (ht : Shows t (Function.update σ ws sl)) (hbooks : SameBooks s t) :
    Effect cfg c r s σ t (Function.update σ ws sl) where
  shows := ht
  turns w := by
    by_cases h : w = ws
    · subst h; rw [Function.update_self]; exact hturn
    · rw [Function.update_of_ne h]; exact .fade (.refl _)
  growth := by
    refine .shrinks hgrants (hbooks.pending ▸ List.Sublist.refl _) (fun w => ?_)
      hbooks.leaseNumber.ge
    by_cases h : w = ws
    · subst h; rw [Function.update_self]; exact hslot
    · rw [Function.update_of_ne h]; exact (Slot.Fades.refl _).free_or
  shutdown := .inl hbooks.shutdown
  taken := .inl hbooks.taken

/-- An `issue` that raises may have used up a lease number and nothing else. -/
theorem Effect.of_allocate (hgrants : c.grants r = false) (hq : Quiet s σ t σ') {n : ℕ}
    (hn : t.nextLeaseNumber ≤ n) : Effect cfg c r s σ { t with nextLeaseNumber := n } σ' where
  shows := hq.shows.congr fun _ => rfl
  turns ws := .fade (hq.fades ws)
  growth := .shrinks hgrants hq.pending (fun ws => (hq.fades ws).free_or)
    (hq.leaseNumber ▸ hn)
  shutdown := .inl hq.shutdown
  taken := .inl hq.taken

end

section
variable {s : Authority τ} {σ : String → Slot τ}

/-- Every call has one of the listed effects, whether it returns or raises. -/
theorem step_effect (cfg : Config τ) (hs : Shows s σ) (c : Call τ) :
    ∃ σ', Effect cfg c (outcome cfg s c) s σ (step cfg s c) σ' := by
  refine call_of_wp (P := fun r t => ∃ σ', Effect cfg c r s σ t σ') ?_
  cases c <;> rw [Call.body, wp_bind]
  case issue a clock draws =>
    refine wp_issue cfg hs ?_ (fun e u σ' n hq hn => ⟨σ', .of_allocate rfl hq hn⟩)
    intro u σ' issued digest ticket hopen hq hrecords hadmin hge hpos hmax hd hfresh hctx
    refine ⟨σ', hq.shows.congr fun _ => rfl, fun ws => .fade (hq.fades ws),
      .issues rfl rfl hopen hq hrecords hadmin hd hfresh hctx rfl rfl (hq.leaseNumber ▸ hge) hpos
        hmax rfl, .inl hq.shutdown, .inl hq.taken⟩
  case consume ticket expected now clock context =>
    refine wp_consume cfg hs ?_ (fun e t σ' hq _ => ⟨σ', .of_quiet rfl hq⟩)
    intro digest pending lease t hopen hd hp hfree hwriters hclaims hctx ht hbooks
    refine ⟨_, ht, fun ws => ?_, .consumes rfl rfl hopen hd hp hwriters hctx hbooks.pending hfree
      rfl hbooks.leaseNumber, .inl hbooks.shutdown, .inl hbooks.taken⟩
    by_cases hw : ws = expected.workspaceId
    · subst hw
      rw [Function.update_self, hfree]
      exact .lease lease hopen
    · rw [Function.update_of_ne hw]
      exact .fade (.refl _)
  case reserve ticket expected a clock =>
    refine wp_reserve cfg hs ?_ (fun e t σ' hq _ => ⟨σ', .of_quiet rfl hq⟩)
    intro digest pending h u σu t hopen hd hp hq hfree hwriters hadmin hclaims ht hbooks
    refine ⟨_, ht, fun ws => ?_, .reserves rfl rfl hopen hd hp hq hwriters hadmin hbooks.pending
      hfree rfl (hbooks.leaseNumber.trans hq.leaseNumber),
      .inl (hbooks.shutdown.trans hq.shutdown), .inl (hbooks.taken.trans hq.taken)⟩
    by_cases hw : ws = expected.workspaceId
    · subst hw
      have hold : σ expected.workspaceId = .free := by
        rw [← Slot.claims_eq_none_iff, ← (hq.fades _).claims_eq, hfree]
        rfl
      rw [Function.update_self, hold]
      exact .enlist h hopen
    · rw [Function.update_of_ne hw]
      exact .fade (hq.fades ws)
  case stage h =>
    exact wp_exactStaged (fun _ _ _ => ⟨σ, .of_quiet rfl (.refl hs)⟩) ⟨σ, .of_quiet rfl (.refl hs)⟩
  case checkReserved h now clock =>
    rw [checkReserved, wp_bind]
    exact wp_checkReservedAt hs (fun _ _ _ => ⟨σ, .of_quiet rfl (.refl hs)⟩)
      (fun t σ' hq => ⟨σ', .of_quiet rfl hq⟩)
  case advance h stage now clock =>
    refine wp_advance hs ?_ (fun e t σ' hq => ⟨σ', .of_quiet rfl hq⟩)
    rintro k t - hσ rfl htime ht hbooks
    refine ⟨_, .of_update rfl ?_ (.inr ?_) ht hbooks⟩
    · rw [hσ]
      exact .promote h k now clock rfl rfl htime
    · rw [hσ]
      exact ⟨by simp, rfl⟩
  case activateWithPublication h publication now clock clockAfter =>
    refine wp_activateWithPublication hs ?_ (fun e t σ' hq => ⟨σ', .of_quiet rfl hq⟩)
    rintro times t - hσ ht hbooks
    refine ⟨_, .of_update rfl ?_ (.inr ?_) ht hbooks⟩
    · rw [hσ]
      exact .activate h times
    · rw [hσ]
      exact ⟨by simp, rfl⟩
  case fence h =>
    exact wp_fence hs (fun _ t hq => ⟨_, .of_quiet rfl hq⟩) (fun _ => ⟨σ, .of_quiet rfl (.refl hs)⟩)
  case readPublished h bytes clock =>
    refine wp_readPublished hs (fun lease hr hl hat => ?_) (fun t σ' hq => ⟨σ', .of_quiet rfl hq⟩)
      (fun e => ⟨σ, .of_quiet rfl (.refl hs)⟩)
    have htake : ∀ r, Call.grants (.readPublished h bytes clock) r = false →
        Effect cfg (.readPublished h bytes clock) r s σ
          { s with callbacks := s.callbacks ++ [.take h] } σ := fun r hg =>
      { shows := hs.congr fun _ => rfl
        turns := fun _ => .fade (.refl _)
        growth := .shrinks hg (List.Sublist.refl _) (fun _ => (Slot.Fades.refl _).free_or) le_rfl
        shutdown := .inl rfl
        taken := .inr ⟨h, bytes, clock, lease, rfl, by simp [Authority.taken], hr, hl, hat⟩ }
    exact ⟨fun frame => ⟨σ, htake _ rfl⟩, fun e => ⟨σ, htake _ rfl⟩⟩
  case acknowledgeStagedCleanup h connectionId cleanupState failureAudited =>
    refine wp_acknowledgeStagedCleanup hs ?_ (fun e => ⟨σ, .of_quiet rfl (.refl hs)⟩)
    rintro t hσ rfl rfl rfl ht hbooks
    refine ⟨_, .of_update rfl ?_ (.inl rfl) ht hbooks⟩
    rw [hσ]
    exact .acknowledgeStaged h rfl
  case heartbeat expected now clock context =>
    refine wp_heartbeat cfg hs ?_ (fun e t σ' hq => ⟨σ', .of_quiet rfl hq⟩)
    rintro lease times t - hl ht hbooks
    refine ⟨_, .of_update rfl (.renew _ times) (.inr ⟨?_, Slot.renewed_context _ _⟩) ht hbooks⟩
    intro hfree
    rw [hs.active, hfree] at hl
    cases hl
  case isActive expected now clock context =>
    exact wp_isActive hs (fun _ _ _ => ⟨σ, .of_quiet rfl (.refl hs)⟩)
      (fun t σ' hq => ⟨σ', .of_quiet rfl hq⟩) (fun e => ⟨σ, .of_quiet rfl (.refl hs)⟩)
  case detach expected now clock context =>
    refine wp_detach hs ?_ (fun _ t σ' hq => ⟨σ', .of_quiet rfl hq⟩)
      (fun e t σ' hq => ⟨σ', .of_quiet rfl hq⟩)
    rintro lease t hσ rfl rfl hactive ht hbooks
    refine ⟨_, .of_update rfl ?_ (.inl rfl) ht hbooks⟩
    rw [hσ]
    exact .detach lease now clock rfl hactive
  case acknowledgeCleanup expected cleanupState =>
    refine wp_acknowledgeCleanup hs ?_ (fun e => ⟨σ, .of_quiet rfl (.refl hs)⟩)
    rintro context t hσ rfl ht hbooks
    refine ⟨_, .of_update rfl ?_ (.inl rfl) ht hbooks⟩
    rw [hσ]
    exact .acknowledge expected context rfl
  case revokeSession sessionId authEpoch =>
    exact wp_revokeSession cfg hs (fun ids t σ' hq _ _ _ => ⟨σ', .of_quiet rfl hq⟩)
      (fun _ e => ⟨σ, .of_quiet rfl (.refl hs)⟩)
  case invalidateAll =>
    rw [invalidateAll]
    exact wp_burnPendingAndFenceLiveRecords cfg hs fun t σ' hq _ _ => ⟨σ', .of_quiet rfl hq⟩
  case sweep now clock =>
    exact wp_sweep cfg hs fun ids t σ' hq => ⟨σ', .of_quiet rfl hq⟩
  case beginShutdown =>
    refine wp_beginShutdown cfg hs (fun t σ' hq _ _ => ⟨σ', ?_⟩)
      (fun _ => ⟨σ, .of_quiet rfl (.refl hs)⟩)
    exact
      { shows := hq.shows
        turns := fun ws => .fade (hq.fades ws)
        growth := .shrinks rfl hq.pending (fun ws => (hq.fades ws).free_or) hq.leaseNumber.ge
        shutdown := .inr rfl
        taken := .inl hq.taken }

end

end AgentBox.Tickets
