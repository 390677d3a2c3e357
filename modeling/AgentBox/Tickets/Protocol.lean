import AgentBox.Tickets.Invariants
import Mathlib.Order.Fin.Basic

/-!
# The life of a workspace slot

Temporal properties of the attachment authority over whole runs. A held workspace stays with the same
claims until one of three acknowledged releases (`held_until_released`). A lease is only ever given to
a reservation that has been advanced through all seven stages in time, fencing is final, publications
are read only under a live lease, and a shutdown or a revocation leaves nothing behind
(`admission_protocol`).
-/

namespace AgentBox.Tickets

open Method

variable {i : ℕ}

set_option linter.unusedSectionVars false

variable {τ : Type} [PyNumber τ] [DecidableEq τ]

theorem reached_succ {cfg : Config τ} {calls : List (Call τ)} {c : Call τ} (h : calls[i]? = some c) :
    reached cfg calls (i + 1) = step cfg (reached cfg calls i) c :=
  stateAt_succ h

/-- What the next call of a run does, if there is one. -/
theorem reached_cases (cfg : Config τ) (calls : List (Call τ)) (i : ℕ) :
    reached cfg calls (i + 1) = reached cfg calls i ∨ ∃ c σ σ', calls[i]? = some c ∧
      Shows (reached cfg calls i) σ ∧ Effect cfg c (outcome cfg (reached cfg calls i) c)
        (reached cfg calls i) σ (reached cfg calls (i + 1)) σ' := by
  cases hc : calls[i]? with
  | none => exact .inl (stateAt_of_none hc)
  | some c =>
    obtain ⟨σ, hs⟩ := exists_shows cfg calls i
    obtain ⟨σ', he⟩ := step_effect cfg hs c
    exact .inr ⟨c, σ, σ', rfl, hs, reached_succ hc ▸ he⟩

/-! ## Holding a workspace -/

/-- The workspace is present in some map, and wherever it is present it carries these claims. -/
structure Holds (s : Authority τ) (ws : String) (t : AttachmentTuple) : Prop where
  present : ws ∈ s.active ∨ ws ∈ s.cleanupPending ∨ ws ∈ s.staged
  active : ∀ lease, s.active.get? ws = some lease → lease.claims = t
  cleanup : ∀ claims, s.cleanupPending.get? ws = some claims → claims = t
  staged : ∀ record, s.staged.get? ws = some record → record.handle.claims = t

/-- The three calls that release a workspace held with claims `t`. -/
inductive Releases (s : Authority τ) (c : Call τ) (ws : String) (t : AttachmentTuple) : Prop
  | acknowledge (hc : c = .acknowledgeCleanup t "ATTACH_PTY_CLOSED")
      (hcleanup : s.cleanupPending.get? ws = some t) (hstaged : ws ∉ s.staged)
  | acknowledgeStaged (h : StagedAttachment τ) (hclaims : h.claims = t)
      (hc : c = .acknowledgeStagedCleanup h (some h.connectionId) "ATTACH_PTY_CLOSED" true)
      (hfenced : s.staged.get? ws = some ⟨h, .fenced⟩)
  | detach (lease : ActiveAttachment τ) (now : Option τ) (clock : τ) (hclaims : lease.claims = t)
      (hc : c = .detach t now clock lease.context) (hlease : s.active.get? ws = some lease)
      (hactive : lease.activeAt (now.getD clock)) (hstaged : ws ∉ s.staged)

section
variable {s t : Authority τ} {σ σ' : String → Slot τ} {ws : String} {x : AttachmentTuple}

theorem Shows.holds_iff (hs : Shows s σ) : Holds s ws x ↔ (σ ws).claims = some x := by
  constructor
  · rintro ⟨hpresent, hactive, hcleanup, hstaged⟩
    rw [Dict.mem_def, Dict.mem_def, Dict.mem_def, hs.active, hs.cleanup, hs.staged] at hpresent
    rw [hs.active] at hactive
    rw [hs.cleanup] at hcleanup
    rw [hs.staged] at hstaged
    cases hσ : σ ws with
    | free => rw [hσ] at hpresent; simp [Slot.row] at hpresent
    | leased lease => rw [hσ] at hactive; exact congrArg some (hactive _ rfl)
    | owed claims context => rw [hσ] at hcleanup; exact congrArg some (hcleanup _ rfl)
    | staged | live | fenced => rw [hσ] at hstaged; exact congrArg some (hstaged _ rfl)
  · intro hclaims
    refine ⟨?_, ?_, ?_, ?_⟩
    · rw [Dict.mem_def, Dict.mem_def, Dict.mem_def, hs.active, hs.cleanup, hs.staged]
      cases hσ : σ ws <;> rw [hσ] at hclaims <;> cases hclaims <;> simp [Slot.row]
    all_goals
      simp only [hs.active, hs.cleanup, hs.staged]
      cases hσ : σ ws <;> rw [hσ] at hclaims <;> cases hclaims <;> rintro _ ⟨⟩ <;> rfl

/-- A turn keeps the claims of a held slot, unless it is one of the three releases. -/
theorem Turn.claims_or_releases (hs : Shows s σ) {c : Call τ} {r : Except Raised (Reply τ)}
    {b : Slot τ} (hturn : Turn s c r (σ ws) b) (hx : (σ ws).claims = some x) :
    b.claims = some x ∨ Releases s c ws x := by
  generalize ha : σ ws = a at hturn hx
  have hactive := hs.active ws
  have hcleanup := hs.cleanup ws
  have hstaged := hs.staged ws
  rw [ha] at hactive hcleanup hstaged
  cases hturn with
  | fade h => exact .inl (h.claims_eq ▸ hx)
  | renew times => exact .inl (by rw [Slot.renewed_claims]; exact hx)
  | lease => cases hx
  | enlist => cases hx
  | promote => exact .inl hx
  | activate => exact .inl hx
  | detach lease now clock hc hat =>
    cases hx
    exact .inr (.detach lease now clock rfl hc hactive hat (Dict.not_mem_iff.mpr hstaged))
  | acknowledge claims context hc =>
    cases hx
    exact .inr (.acknowledge hc hcleanup (Dict.not_mem_iff.mpr hstaged))
  | acknowledgeStaged h hc =>
    cases hx
    exact .inr (.acknowledgeStaged h rfl hc hstaged)

end

/-- A workspace that is occupied has one tuple of claims and keeps it, in every later state, until a
call that acknowledges its cleanup or detaches its exact unexpired lease. -/
theorem held_until_released (cfg : Config τ) (calls : List (Call τ)) (i : ℕ) (ws : String)
    (hws : ws ∈ (reached cfg calls i).occupied) : ∃ t, Holds (reached cfg calls i) ws t ∧ ∀ j, i ≤ j →
      (∀ m, i ≤ m → m ≤ j → Holds (reached cfg calls m) ws t) ∨ ∃ k c, i ≤ k ∧ k < j ∧ calls[k]? = some c ∧
        (∀ m, i ≤ m → m ≤ k → Holds (reached cfg calls m) ws t) ∧ Releases (reached cfg calls k) c ws t := by
  obtain ⟨σ, hs⟩ := exists_shows cfg calls i
  obtain ⟨t, ht⟩ : ∃ t, (σ ws).claims = some t := by
    rw [hs.mem_occupied, Ne, ← Slot.claims_eq_none_iff] at hws
    exact Option.ne_none_iff_exists'.mp hws
  refine ⟨t, hs.holds_iff.mpr ht, fun j hij => ?_⟩
  refine persists_until (P := fun s => Holds s ws t) (G := fun s c => Releases s c ws t) hij
    (fun k c hc hholds => ?_) (hs.holds_iff.mpr ht)
  obtain ⟨σk, hk⟩ := exists_shows cfg calls k
  obtain ⟨σk', he⟩ := step_effect cfg hk c
  exact ((he.turns ws).claims_or_releases hk (hk.holds_iff.mp hholds)).imp_left he.shows.holds_iff.mpr

/-- A workspace whose ticket has been redeemed is held in this sense. -/
theorem held_until_released_sample :
    sampleClaims.workspaceId ∈ (reached sampleConfig sampleCalls 2).occupied ∧
      ∃ t, Holds (reached sampleConfig sampleCalls 2) sampleClaims.workspaceId t := by
  have hws : sampleClaims.workspaceId ∈ (reached sampleConfig sampleCalls 2).occupied := by
    decide +kernel
  obtain ⟨t, ht, -⟩ := held_until_released sampleConfig sampleCalls 2 _ hws
  exact ⟨hws, t, ht⟩

/-! ## The admission protocol -/

/-- The stages a reservation has to be advanced to before it can be activated, in order. -/
def requiredStage : Fin 7 → AdmissionStage
  | 0 => .runtimePrepared
  | 1 => .verified
  | 2 => .preparedAudited
  | 3 => .ready
  | 4 => .quarantined
  | 5 => .committed
  | 6 => .admittedAudited

theorem requiredStage_eq (k : Fin 7) : requiredStage k = .ofPhase k.succ := by
  revert k; decide

section
variable {s t : Authority τ} {σ σ' : String → Slot τ}
variable {c : Call τ} {r : Except Raised (Reply τ)} {a b : Slot τ} {h : StagedAttachment τ}

/-- A turn that ends in a staged slot kept it there, created it, or advanced it by one phase. -/
theorem Turn.staged_inv {k : Fin 8} (hturn : Turn s c r a (.staged h k)) :
    a = .staged h k ∨ k = 0 ∨ ∃ (j : Fin 7) (now : Option τ) (clock : τ), k = j.succ ∧
      a = .staged h j.castSucc ∧ c = .advance h (some (requiredStage j)) now clock ∧
      r = .ok .unit ∧ now.getD clock < h.deadlineMonotonic := by
  generalize hb : Slot.staged h k = b at hturn
  cases hturn with
  | fade hfade =>
    rcases hfade with hkeep | hclose
    · exact .inl hkeep.symm
    · rw [hclose] at hb
      cases a <;> cases hb
  | renew times => cases a <;> cases hb; exact .inl rfl
  | lease => cases hb
  | enlist => cases hb; exact .inr (.inl rfl)
  | promote h' j now clock hc hr htime =>
    cases hb
    exact .inr (.inr ⟨j, now, clock, rfl, rfl, requiredStage_eq j ▸ hc, hr, htime⟩)
  | activate | detach | acknowledge | acknowledgeStaged => cases hb

/-- A turn from a fenced slot keeps it fenced or frees it. -/
theorem Turn.fenced_inv (hturn : Turn s c r (.fenced h) b) : b = .fenced h ∨ b = .free := by
  cases hturn with
  | fade hfade => rcases hfade with rfl | rfl <;> exact .inl rfl
  | renew times => exact .inl rfl
  | acknowledgeStaged => exact .inr rfl

/-- Once shut down, a closed slot stays closed. -/
theorem Turn.closed_inv (hturn : Turn s c r a b) (hshut : s.shutdownStarted = true)
    (ha : a.closed = a) : b.closed = b := by
  cases hturn with
  | fade hfade =>
    rcases hfade with rfl | rfl
    · exact ha
    · exact Slot.closed_closed a
  | renew times => cases a <;> first | rfl | cases ha
  | lease _ hopen | enlist _ hopen => rw [hshut] at hopen; cases hopen
  | promote => cases ha
  | activate => cases ha
  | detach => rfl
  | acknowledge => rfl
  | acknowledgeStaged => rfl

variable (cfg : Config τ)

/-- An activation returns only for a reservation in its last phase. -/
theorem staged_of_activate_ok (hs : Shows s σ) {publication : PublicationOutcome}
    {now : Option τ} {clock clockAfter : τ} {r : Reply τ}
    (hr : outcome cfg s (.activateWithPublication h publication now clock clockAfter) = .ok r) :
    σ h.claims.workspaceId = .staged h 7 := by
  refine ok_of_wp (m := Call.body cfg (.activateWithPublication h publication now clock clockAfter))
    (Q := fun _ _ => σ h.claims.workspaceId = .staged h 7) (E := fun _ _ => True) ?_ hr
  rw [Call.body, wp_bind]
  exact wp_activateWithPublication hs (fun _ _ _ hσ _ _ => hσ) (fun _ _ _ _ => trivial)

/-- Contexts belong only to sessions that `revoke_session` accepts. -/
theorem session_valid {sessionId : String} {authEpoch : ℕ} {x : AuthenticatedAttachmentContext}
    (h : inSession sessionId authEpoch x = true) :
    ¬ (sessionId = "" ∨ (validatePositiveU64 "auth_epoch" authEpoch).isOk = false) := by
  simp only [inSession, Bool.and_eq_true, beq_iff_eq] at h
  obtain ⟨rfl, rfl⟩ := h
  obtain ⟨hsession, hepoch⟩ := x.session_accepted
  rintro (h | h)
  · exact hsession h
  · rw [hepoch] at h
    cases h

/-- What a revocation leaves behind has nothing of the session. -/
theorem revoked_step (hs : Shows s σ) (sessionId : String) (authEpoch : ℕ) :
    (∀ digest ticket, (step cfg s (.revokeSession sessionId authEpoch)).pending.get? digest =
        some ticket → ¬ ticket.context.any (inSession sessionId authEpoch)) ∧
      (∀ ws lease, (step cfg s (.revokeSession sessionId authEpoch)).active.get? ws = some lease →
        ¬ lease.context.any (inSession sessionId authEpoch)) ∧
      ∀ ws record, (step cfg s (.revokeSession sessionId authEpoch)).staged.get? ws = some record →
        record.stage ≠ .fenced → ¬ inSession sessionId authEpoch record.handle.context := by
  refine state_of_wp (m := Call.body cfg (.revokeSession sessionId authEpoch)) (P := fun t =>
    (∀ digest ticket, t.pending.get? digest = some ticket →
        ¬ ticket.context.any (inSession sessionId authEpoch)) ∧
      (∀ ws lease, t.active.get? ws = some lease →
        ¬ lease.context.any (inSession sessionId authEpoch)) ∧
      ∀ ws record, t.staged.get? ws = some record →
        record.stage ≠ .fenced → ¬ inSession sessionId authEpoch record.handle.context) ?_
  rw [Call.body, wp_bind]
  refine wp_revokeSession cfg hs (fun ids t σ' _ hpending hactive hstaged =>
    ⟨hpending, hactive, hstaged⟩) (fun hinvalid e => ?_)
  -- an argument that is turned away belongs to no context
  have hnone : ∀ x, ¬ inSession sessionId authEpoch x := fun x hx => session_valid hx hinvalid
  have hnone' : ∀ x : Option AuthenticatedAttachmentContext,
      ¬ x.any (inSession sessionId authEpoch) := fun x hx => by
    cases x with
    | none => cases hx
    | some y => exact hnone y hx
  exact ⟨fun _ _ _ => hnone' _, fun _ _ _ => hnone' _, fun _ _ _ _ => hnone _⟩

/-- The flag of a shutdown is up only when no ticket is pending and every slot is closed. -/
def ShutClean (s : Authority τ) : Prop :=
  ∃ σ, Shows s σ ∧ (s.shutdownStarted = true → s.pending = .empty ∧ ∀ ws, (σ ws).closed = σ ws)

theorem shutClean_step (hs : ShutClean s) (c : Call τ) : ShutClean (step cfg s c) := by
  obtain ⟨σ, hs, hclean⟩ := hs
  obtain ⟨σ', he⟩ := step_effect cfg hs c
  rcases he.shutdown with hsame | rfl
  · refine ⟨σ', he.shows, fun hshut => ?_⟩
    rw [hsame] at hshut
    obtain ⟨hpending, hclosed⟩ := hclean hshut
    refine ⟨?_, fun ws => (he.turns ws).closed_inv hshut (hclosed ws)⟩
    cases he.growth with
    | shrinks _ hsub _ _ =>
      rw [hpending] at hsub
      exact Dict.ext (List.sublist_nil.mp hsub)
    | issues _ _ hopen | consumes _ _ hopen | reserves _ _ hopen => rw [hshut] at hopen; cases hopen
  · refine state_of_wp (m := Call.body cfg .beginShutdown) (P := ShutClean) ?_
    rw [Call.body, wp_bind]
    exact wp_beginShutdown cfg hs
      (fun t σ' hq hpending hclosed => ⟨σ', hq.shows, fun _ => ⟨hpending, hclosed⟩⟩)
      (fun _ => ⟨σ, hs, hclean⟩)

theorem shutdown_started_step (hs : Shows s σ) (c : Call τ)
    (h : s.shutdownStarted = true ∨ c = .beginShutdown) : (step cfg s c).shutdownStarted = true := by
  obtain ⟨σ', he⟩ := step_effect cfg hs c
  have hbegin : c = .beginShutdown → (step cfg s c).shutdownStarted = true := by
    rintro rfl
    refine state_of_wp (m := Call.body cfg .beginShutdown)
      (P := fun t => t.shutdownStarted = true) ?_
    rw [Call.body, wp_bind]
    exact wp_beginShutdown cfg hs (fun t σ' hq _ _ => hq.shutdown) (fun h => h)
  rcases h with hshut | hc
  · rcases he.shutdown with hsame | hc
    · exact hsame.trans hshut
    · exact hbegin hc
  · exact hbegin hc

end

variable (cfg : Config τ) (calls : List (Call τ))

/-- The record of a reservation in some state of a run. -/
def recordOf (h : StagedAttachment τ) (m : ℕ) :
    Option (StagedRecord τ) :=
  (reached cfg calls m).staged.get? h.claims.workspaceId

/-- A reservation in phase `k` has been advanced to each of the first `k` required stages. -/
theorem advanced_before (h : StagedAttachment τ)
    {k : Fin 8} (hk : recordOf cfg calls h i = some ⟨h, .ofPhase k⟩) :
    ∃ js : ℕ → ℕ, (∀ a b, a < b → b < k.val → js a < js b) ∧ ∀ a (ha : a < 7), a < k.val → js a < i ∧
      (∃ now clock, calls[js a]? = some (.advance h (some (requiredStage ⟨a, ha⟩)) now clock) ∧
        outcome cfg (reached cfg calls (js a))
          (.advance h (some (requiredStage ⟨a, ha⟩)) now clock) = .ok .unit ∧
        now.getD clock < h.deadlineMonotonic) ∧
      ∀ m, js a < m → m ≤ i → ∃ record, recordOf cfg calls h m = some record ∧
        record.handle = h ∧ record.stage ≠ .fenced := by
  -- the rungs are the phases, and an event is a successful advance to the next one
  let At (m k : ℕ) : Prop := ∃ hk : k < 8, recordOf cfg calls h m = some ⟨h, .ofPhase ⟨k, hk⟩⟩
  let Event (m k : ℕ) : Prop := ∃ (hk : k < 7) (now : Option τ) (clock : τ),
    calls[m]? = some (.advance h (some (requiredStage ⟨k, hk⟩)) now clock) ∧
      outcome cfg (reached cfg calls m) (.advance h (some (requiredStage ⟨k, hk⟩)) now clock) =
        .ok .unit ∧ now.getD clock < h.deadlineMonotonic
  have hstart : ∀ k, At 0 k → k = 0 := by
    rintro k ⟨_, hrecord⟩
    cases hrecord
  have hstep : ∀ m k, At (m + 1) k → At m k ∨ k = 0 ∨ ∃ k', k = k' + 1 ∧ At m k' ∧ Event m k' := by
    rintro m k ⟨hk, hrecord⟩
    obtain hsame | ⟨c, σ, σ', hc, hs, he⟩ := reached_cases cfg calls m
    · rw [recordOf, hsame] at hrecord
      exact .inl ⟨hk, hrecord⟩
    have hturn := he.turns h.claims.workspaceId
    rw [he.shows.eq_staged hrecord] at hturn
    have hget : ∀ j, σ h.claims.workspaceId = .staged h j →
        recordOf cfg calls h m = some ⟨h, .ofPhase j⟩ := fun j hj => by
      rw [recordOf, hs.staged, hj]
      rfl
    rcases hturn.staged_inv with hkeep | hzero | ⟨j, now, clock, hj, hbefore, rfl, hr, htime⟩
    · exact .inl ⟨hk, hget _ hkeep⟩
    · exact .inr (.inl (congrArg Fin.val hzero))
    · exact .inr (.inr ⟨j, congrArg Fin.val hj, ⟨by omega, hget _ hbefore⟩,
        j.isLt, now, clock, hc, hr, htime⟩)
  have hnow : At i k.val := ⟨k.isLt, hk⟩
  obtain ⟨js, hmono, hjs⟩ := climbed hstart hstep hnow
  refine ⟨js, hmono, fun a ha hak => ?_⟩
  obtain ⟨hlt, ⟨_, hevent⟩, hsince⟩ := hjs a hak
  refine ⟨hlt, hevent, fun m hm hmi => ?_⟩
  obtain ⟨b, -, hb, hrecord⟩ := hsince m hm hmi
  exact ⟨_, hrecord, rfl, AdmissionStage.ofPhase_ne_fenced _⟩

/-- The rules of admission, over every state of a run. -/
structure AdmissionRules (cfg : Config τ) (calls : List (Call τ)) : Prop where
  /-- An activation that returns was preceded by successful advances through all required stages, in
  order and before the deadline, and since the first of them the record was never fenced. -/
  activated_after_all_stages : ∀ i h publication now clock clockAfter r,
    calls[i]? = some (.activateWithPublication h publication now clock clockAfter) →
    outcome cfg (reached cfg calls i)
      (.activateWithPublication h publication now clock clockAfter) = .ok r →
    ∃ js : Fin 7 → ℕ, StrictMono js ∧ ∀ k, js k < i ∧
      (∃ now clock, calls[js k]? = some (.advance h (some (requiredStage k)) now clock) ∧
        outcome cfg (reached cfg calls (js k))
          (.advance h (some (requiredStage k)) now clock) = .ok .unit ∧
        now.getD clock < h.deadlineMonotonic) ∧
      ∀ m, js k < m → m ≤ i → ∃ record, recordOf cfg calls h m = some record ∧
        record.handle = h ∧ record.stage ≠ .fenced
  /-- A fenced record stays fenced or is removed. -/
  fenced_is_final : ∀ i ws h, (reached cfg calls i).staged.get? ws = some ⟨h, .fenced⟩ →
    (reached cfg calls (i + 1)).staged.get? ws = some ⟨h, .fenced⟩ ∨
      ws ∉ (reached cfg calls (i + 1)).staged
  /-- A publication is read only by `read_published`, for an active record whose lease has not
  expired. -/
  taken_while_active : ∀ i, (reached cfg calls (i + 1)).taken = (reached cfg calls i).taken ∨
    ∃ h bytes clock lease, calls[i]? = some (.readPublished h bytes clock) ∧
      (reached cfg calls (i + 1)).taken = (reached cfg calls i).taken ++ [h] ∧
      recordOf cfg calls h i = some ⟨h, .active⟩ ∧
      (reached cfg calls i).active.get? h.claims.workspaceId = some lease ∧
      lease.claims = h.claims ∧ lease.activeAt clock
  /-- After a shutdown nothing is pending or active, and every staged record is fenced. -/
  shutdown_is_final : ∀ i j, calls[i]? = some .beginShutdown → i < j →
    (reached cfg calls j).pending = .empty ∧ (reached cfg calls j).active = .empty ∧
      ∀ ws record, (reached cfg calls j).staged.get? ws = some record → record.stage = .fenced
  /-- Right after a revocation the session has no ticket, no lease and no unfenced record. -/
  revoked_is_gone : ∀ i sessionId authEpoch, calls[i]? = some (.revokeSession sessionId authEpoch) →
    (∀ digest ticket, (reached cfg calls (i + 1)).pending.get? digest = some ticket →
      ¬ ticket.context.any (inSession sessionId authEpoch)) ∧
    (∀ ws lease, (reached cfg calls (i + 1)).active.get? ws = some lease →
      ¬ lease.context.any (inSession sessionId authEpoch)) ∧
    ∀ ws record, (reached cfg calls (i + 1)).staged.get? ws = some record →
      record.stage ≠ .fenced → ¬ inSession sessionId authEpoch record.handle.context

/-- Every run of the authority keeps the rules of admission. -/
theorem admission_rules : AdmissionRules cfg calls where
  activated_after_all_stages i h publication now clock clockAfter r _ hr := by
    obtain ⟨σ, hs⟩ := exists_shows cfg calls i
    have hσ := staged_of_activate_ok cfg hs hr
    have hrecord : recordOf cfg calls h i = some ⟨h, .ofPhase 7⟩ := by
      rw [recordOf, hs.staged, hσ]
      rfl
    obtain ⟨js, hmono, hjs⟩ := advanced_before cfg calls h hrecord
    exact ⟨fun k => js k.val, fun a b hab => hmono a.val b.val hab b.isLt,
      fun k => hjs k.val k.isLt k.isLt⟩
  fenced_is_final i ws h hfenced := by
    obtain hsame | ⟨c, σ, σ', -, hs, he⟩ := reached_cases cfg calls i
    · rw [hsame]
      exact .inl hfenced
    have hturn := he.turns ws
    rw [hs.eq_fenced hfenced] at hturn
    rw [Dict.not_mem_iff, he.shows.staged]
    rcases hturn.fenced_inv with hσ' | hσ' <;> rw [hσ']
    · exact .inl rfl
    · exact .inr rfl
  taken_while_active i := by
    obtain hsame | ⟨c, σ, σ', hc, hs, he⟩ := reached_cases cfg calls i
    · exact .inl (congrArg Authority.taken hsame)
    refine he.taken.imp_right ?_
    rintro ⟨h, bytes, clock, lease, rfl, htaken, hrecord, hlease, hactive⟩
    obtain ⟨lease', hlease', hclaims⟩ := (hs.coherent.active_iff _ _ hrecord).mp rfl
    rw [hlease] at hlease'
    cases hlease'
    exact ⟨h, bytes, clock, lease, hc, htaken, hrecord, hlease, hclaims, hactive⟩
  shutdown_is_final i j hc hij := by
    -- from the call on the flag is up, and then nothing is pending and every slot is closed
    have hflag : (reached cfg calls j).shutdownStarted = true := by
      refine persists_run (I := fun s : Authority τ => s.shutdownStarted = true) hij ?_ fun k _ c _ hk => ?_
      · obtain ⟨σ, hs⟩ := exists_shows cfg calls i
        rw [stateAt_succ hc]
        exact shutdown_started_step cfg hs _ (.inr rfl)
      · obtain ⟨σ, hs⟩ := exists_shows cfg calls k
        exact shutdown_started_step cfg hs c (.inl hk)
    have hclean : ShutClean (reached cfg calls j) := invariant_stateAt (I := ShutClean)
      ⟨_, Shows.initial cfg, nofun⟩ (fun _ c hs => shutClean_step cfg hs c) j
    obtain ⟨σ, hs, hclosed⟩ := hclean
    obtain ⟨hpending, hclosed⟩ := hclosed hflag
    refine ⟨hpending, Dict.eq_empty_of_forall_not_mem fun ws => ?_, fun ws record hrecord => ?_⟩
    · rw [Dict.not_mem_iff, hs.active, ← hclosed ws]
      cases σ ws <;> rfl
    · have hslot := hclosed ws
      obtain ⟨k, hσ, -⟩ | ⟨times, hσ, -⟩ | ⟨-, hstage⟩ := hs.record_cases hrecord
      · rw [hσ] at hslot
        cases hslot
      · rw [hσ] at hslot
        cases hslot
      · exact hstage
  revoked_is_gone i sessionId authEpoch hc := by
    obtain ⟨σ, hs⟩ := exists_shows cfg calls i
    rw [reached_succ hc]
    exact revoked_step cfg hs sessionId authEpoch

end AgentBox.Tickets
