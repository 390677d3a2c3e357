import AgentBox.Tickets.Protocol

/-!
# Tickets are redeemed at most once

The replay cache is bounded and forgets, so single use does not rest on it: a ticket is redeemed only
while its digest is pending, redeeming takes the digest out of the pending table, and only `issue`
puts one in. `accounting_step` is this balance for one call and `accounting` for a run. The balance is
kept per digest; it is one per ticket string because no ticket redeemed in the run collides under
SHA-256 with another ticket issued in it.
-/

namespace AgentBox.Tickets

open Method

variable {n : ℕ}

set_option linter.unusedSectionVars false

variable {τ : Type} [PyNumber τ] [DecidableEq τ]
variable {cfg : Config τ}

/-- The ticket that a call returned, if it issued one. -/
def Call.issued : Call τ → Except Raised (Reply τ) → Option String
  | .issue _ _ _, .ok (.ticket issued) => some issued.ticket
  | _, _ => none

/-- The ticket for which a redeeming call returned. -/
def Call.redeemed : Call τ → Except Raised (Reply τ) → Option String
  | .consume ticket _ _ _ _, .ok _ => some ticket
  | .reserve ticket _ _ _, .ok _ => some ticket
  | _, _ => none

/-- What a view of calls and outcomes sees in the first `n` calls. -/
def observed (cfg : Config τ) (calls : List (Call τ))
    (view : Call τ → Except Raised (Reply τ) → Option String) (n : ℕ) : List String :=
  (List.range n).filterMap fun i =>
    (calls[i]?).bind fun c => view c (outcome cfg (reached cfg calls i) c)

/-- The tickets returned by the `issue` calls among the first `n` calls. -/
def issuedTickets (cfg : Config τ) (calls : List (Call τ)) : ℕ → List String :=
  observed cfg calls Call.issued

/-- The tickets of the `consume` and `reserve` calls among the first `n` calls that returned. -/
def redeemedTickets (cfg : Config τ) (calls : List (Call τ)) : ℕ → List String :=
  observed cfg calls Call.redeemed

variable {view : Call τ → Except Raised (Reply τ) → Option String}

theorem observed_succ {calls : List (Call τ)} {c : Call τ} (hc : calls[n]? = some c) :
    observed cfg calls view (n + 1) =
      observed cfg calls view n ++ (view c (outcome cfg (reached cfg calls n) c)).toList := by
  unfold observed
  rw [List.range_succ, List.filterMap_append]
  cases hview : view c (outcome cfg (reached cfg calls n) c) <;> simp [hc, hview]

theorem observed_of_none {calls : List (Call τ)} (hc : calls[n]? = none) :
    observed cfg calls view (n + 1) = observed cfg calls view n := by
  unfold observed
  rw [List.range_succ, List.filterMap_append]
  simp [hc]

/-- Whether a ticket has the digest. -/
def hasDigest (digest : Digest) (ticket : String) : Bool :=
  match ticketDigest ticket with
  | .ok d => d == digest
  | .error _ => false

theorem hasDigest_iff {digest : Digest} {ticket : String} :
    hasDigest digest ticket = true ↔ ticketDigest ticket = .ok digest := by
  unfold hasDigest
  cases h : ticketDigest ticket <;> simp

/-- Whether the digest is pending, as a number. -/
def pendingCount (digest : Digest) (s : Authority τ) : ℕ := if digest ∈ s.pending then 1 else 0

section
variable {s : Authority τ} {σ : String → Slot τ}
  {t : Authority τ} {c : Call τ} {ticket : String} {d : Digest} {pending : PendingTicket τ}

theorem pendingCount_mono (h : t.pending.items.Sublist s.pending.items) (digest : Digest) :
    pendingCount digest t ≤ pendingCount digest s := by
  unfold pendingCount
  by_cases ht : digest ∈ t.pending
  · obtain ⟨ticket, hget⟩ := Dict.mem_iff_exists.mp ht
    have hs : digest ∈ s.pending :=
      Dict.mem_of_get? (Dict.get?_eq_some_iff.mpr (h.subset (Dict.get?_eq_some_iff.mp hget)))
    rw [if_pos ht, if_pos hs]
  · rw [if_neg ht]
    exact Nat.zero_le _

theorem issued_redeemed_of_not_grants {r : Except Raised (Reply τ)} (h : c.grants r = false) :
    c.issued r = none ∧ c.redeemed r = none := by
  cases c <;> cases r <;> first | exact ⟨rfl, rfl⟩ | cases h

/-- A redeemed ticket was pending and is not any more. -/
theorem redeemed_balance (hdigest : ticketDigest ticket = .ok d)
    (hfound : s.pending.get? d = some pending) (hgone : t.pending.get? d = none)
    (hsub : t.pending.items.Sublist s.pending.items) {digest : Digest} :
    [ticket].countP (hasDigest digest) + pendingCount digest t ≤ pendingCount digest s + 0 := by
  rw [List.countP_singleton]
  split
  · next hd =>
    obtain rfl : d = digest := by
      rw [hasDigest_iff, hdigest] at hd
      exact Except.ok.inj hd
    rw [pendingCount, pendingCount, if_neg (Dict.not_mem_iff.mpr hgone), if_pos (Dict.mem_of_get? hfound)]
  · have := pendingCount_mono hsub digest
    omega

/-- A digest becomes pending only for a ticket that has it. -/
theorem issued_balance {u : Authority τ} (hdigest : ticketDigest ticket = .ok d)
    (hpending : t.pending = u.pending.set d pending)
    (hsub : u.pending.items.Sublist s.pending.items) {digest : Digest} :
    0 + pendingCount digest t ≤ pendingCount digest s + [ticket].countP (hasDigest digest) := by
  have hmono := pendingCount_mono hsub digest
  rw [List.countP_singleton]
  by_cases hd : d = digest
  · subst hd
    rw [if_pos (hasDigest_iff.mpr hdigest), pendingCount]
    split <;> omega
  · have hsame : pendingCount digest t = pendingCount digest u := by
      have hne : digest ≠ d := fun h => hd h.symm
      simp [pendingCount, hpending, hne]
    omega

/-- One call keeps the balance: a redeemed digest was pending and is not any more, and a digest
becomes pending only for an issued ticket. -/
theorem accounting_step (cfg : Config τ) (hs : Shows s σ) (c : Call τ) (digest : Digest) :
    (c.redeemed (outcome cfg s c)).toList.countP (hasDigest digest) + pendingCount digest (step cfg s c) ≤
      pendingCount digest s + (c.issued (outcome cfg s c)).toList.countP (hasDigest digest) := by
  obtain ⟨σ', he⟩ := step_effect cfg hs c
  cases he.growth with
  | shrinks hgrants hpending _ _ =>
    obtain ⟨hissued, hredeemed⟩ := issued_redeemed_of_not_grants hgrants
    rw [hissued, hredeemed]
    have := pendingCount_mono hpending digest
    simpa using this
  | issues hc hr _ hquiet _ _ hdigest _ _ hpending =>
    rw [hr, hc]
    exact issued_balance hdigest (hc ▸ hpending) hquiet.pending
  | consumes hc hr _ hdigest hfound _ _ hpending =>
    rw [hr, hc]
    exact redeemed_balance hdigest hfound (by rw [← hc, hpending]; exact Dict.get?_erase_self _ _)
      (by rw [← hc, hpending]; exact List.filter_sublist)
  | reserves hc hr _ hdigest hfound hquiet _ _ hpending =>
    rw [hr, hc]
    refine redeemed_balance hdigest hfound ?_ ?_
    · rw [← hc, hpending]
      exact hquiet.pending_none (Dict.get?_erase_self _ _)
    · rw [← hc, hpending]
      exact hquiet.pending.trans List.filter_sublist

/-- A ticket presented before the shutdown is not pending afterwards, however the call ends. -/
theorem presented_step (cfg : Config τ) (hs : Shows s σ)
    (hc : (∃ expected now clock context, c = .consume ticket expected now clock context) ∨
      ∃ expected a clock, c = .reserve ticket expected a clock) : Redeemed ticket s (step cfg s c) := by
  refine state_of_wp (m := c.body cfg) (P := Redeemed ticket s) ?_
  rcases hc with ⟨expected, now, clock, context, rfl⟩ | ⟨expected, a, clock, rfl⟩
  · rw [Call.body, wp_bind]
    refine wp_consume cfg hs ?_ (fun _ _ _ _ h => h)
    intro digest pending lease t _ hd _ _ _ _ _ ht hbooks
    exact redeemed_of_none hd (by rw [hbooks.pending]; exact Dict.get?_erase_self _ _)
  · rw [Call.body, wp_bind]
    refine wp_reserve cfg hs ?_ (fun _ _ _ _ h => h)
    intro digest pending h u σ' t _ hd _ hq _ _ _ _ _ hbooks
    refine redeemed_of_none hd ?_
    rw [hbooks.pending]
    exact hq.pending_none (Dict.get?_erase_self _ _)

end

variable (cfg : Config τ) (calls : List (Call τ)) (n : ℕ)

/-- The balance of a run. -/
theorem accounting (digest : Digest) :
    (redeemedTickets cfg calls n).countP (hasDigest digest) + pendingCount digest (reached cfg calls n) ≤
      (issuedTickets cfg calls n).countP (hasDigest digest) := by
  induction n with
  | zero => exact Nat.le_refl 0
  | succ n ih =>
    cases hc : calls[n]? with
    | none =>
      have hsame : reached cfg calls (n + 1) = reached cfg calls n := stateAt_of_none hc
      simp only [redeemedTickets, issuedTickets, observed_of_none hc, hsame] at ih ⊢
      exact ih
    | some c =>
      obtain ⟨σ, hs⟩ := exists_shows cfg calls n
      have hstep := accounting_step cfg hs c digest
      simp only [redeemedTickets, issuedTickets, observed_succ hc, List.countP_append,
        reached_succ hc] at ih ⊢
      omega

/-- No ticket redeemed in the first `n` calls collides under SHA-256 with another ticket issued in
them. -/
def CollisionFree : Prop :=
  ∀ t ∈ redeemedTickets cfg calls n, ∀ t' ∈ issuedTickets cfg calls n,
    sha256 (utf8 t') = sha256 (utf8 t) → t' = t

instance (cfg : Config τ) (calls : List (Call τ)) (n : ℕ) :
    Decidable (CollisionFree cfg calls n) :=
  inferInstanceAs (Decidable (∀ t ∈ redeemedTickets cfg calls n,
    ∀ t' ∈ issuedTickets cfg calls n, sha256 (utf8 t') = sha256 (utf8 t) → t' = t))

/-- Call `i` of the run is an `issue` that returned this ticket. -/
def IssuedAt (cfg : Config τ) (calls : List (Call τ)) (i : ℕ) (issued : IssuedAttachmentTicket τ) :
    Prop :=
  ∃ a clock draws, calls[i]? = some (.issue a clock draws) ∧
    outcome cfg (reached cfg calls i) (.issue a clock draws) = .ok (.ticket issued)

section
variable {cfg : Config τ} {calls : List (Call τ)}
variable {ticket : String} {n i : ℕ}

theorem sha256_of_ticketDigest {digest : Digest} (h : ticketDigest ticket = .ok digest) :
    sha256 (utf8 ticket) = digest := by
  unfold ticketDigest at h
  split at h
  · exact Except.ok.inj h
  · cases h

/-- A ticket that a call redeemed has a digest. -/
theorem digest_of_redeemed (h : ticket ∈ redeemedTickets cfg calls n) :
    ∃ digest, ticketDigest ticket = .ok digest := by
  obtain ⟨i, -, hi⟩ := List.mem_filterMap.mp h
  obtain ⟨c, hc, hview⟩ := Option.bind_eq_some_iff.mp hi
  obtain ⟨σ, hs⟩ := exists_shows cfg calls i
  obtain ⟨σ', he⟩ := step_effect cfg hs c
  cases he.growth with
  | shrinks hgrants => rw [(issued_redeemed_of_not_grants hgrants).2] at hview; cases hview
  | issues hc hr => rw [hr, hc] at hview; cases hview
  | consumes hc hr _ hdigest | reserves hc hr _ hdigest =>
    rw [hr, hc] at hview; cases hview; exact ⟨_, hdigest⟩

/-- A ticket string is redeemed at most as often as it was issued. -/
theorem redeemed_le_issued (hsha : CollisionFree cfg calls n) (ticket : String) :
    (redeemedTickets cfg calls n).count ticket ≤ (issuedTickets cfg calls n).count ticket := by
  by_cases hmem : ticket ∈ redeemedTickets cfg calls n
  · obtain ⟨digest, hdigest⟩ := digest_of_redeemed hmem
    have hbalance := accounting cfg calls n digest
    have hredeemed : (redeemedTickets cfg calls n).count ticket ≤
        (redeemedTickets cfg calls n).countP (hasDigest digest) := by
      refine List.countP_mono_left fun t _ ht => ?_
      rw [beq_iff_eq] at ht
      exact hasDigest_iff.mpr (ht ▸ hdigest)
    have hissued : (issuedTickets cfg calls n).countP (hasDigest digest) ≤
        (issuedTickets cfg calls n).count ticket := by
      refine List.countP_mono_left fun t ht hd => ?_
      rw [beq_iff_eq]
      refine hsha ticket hmem t ht ?_
      rw [sha256_of_ticketDigest (hasDigest_iff.mp hd), sha256_of_ticketDigest hdigest]
    omega
  · rw [List.count_eq_zero_of_not_mem hmem]
    exact Nat.zero_le _

/-- An issued ticket carries a lease number between the counter before and the counter after. -/
theorem leaseNumber_bounds {issued : IssuedAttachmentTicket τ} (h : IssuedAt cfg calls i issued) :
    (reached cfg calls i).nextLeaseNumber ≤ issued.claims.leaseNumber ∧
      1 ≤ issued.claims.leaseNumber ∧ issued.claims.leaseNumber ≤ maxU64 ∧
      issued.claims.leaseNumber < (reached cfg calls (i + 1)).nextLeaseNumber := by
  obtain ⟨a, clock, draws, hc, hr⟩ := h
  obtain ⟨σ, hs⟩ := exists_shows cfg calls i
  obtain ⟨σ', he⟩ := step_effect cfg hs (.issue a clock draws)
  rw [reached_succ hc]
  rw [hr] at he
  cases he.growth with
  | shrinks hgrants => cases hgrants
  | issues _ hr' _ _ _ _ _ _ _ _ _ hge hpos hmax hnumber =>
    cases hr'
    exact ⟨hge, hpos, hmax, by omega⟩
  | consumes hc' => cases hc'
  | reserves hc' => cases hc'

/-- The counter of lease numbers never goes back. -/
theorem nextLeaseNumber_mono (cfg : Config τ) (calls : List (Call τ)) {j : ℕ} (hij : i ≤ j) :
    (reached cfg calls i).nextLeaseNumber ≤ (reached cfg calls j).nextLeaseNumber := by
  refine persists_run (I := fun s : Authority τ => _ ≤ s.nextLeaseNumber) hij (Nat.le_refl _)
    fun k _ c _ hk => ?_
  obtain ⟨σ, hs⟩ := exists_shows cfg calls k
  obtain ⟨σ', he⟩ := step_effect cfg hs c
  refine hk.trans ?_
  rw [← reached]
  cases he.growth with
  | shrinks _ _ _ hnumber => exact hnumber
  | issues | consumes | reserves => omega

end

/-- The rules of tickets and lease numbers over a run. -/
structure TicketRules (cfg : Config τ) (calls : List (Call τ)) (n : ℕ) : Prop where
  /-- Among the first `n` calls no ticket is redeemed more often than it was issued. -/
  redeemed_at_most_issued : ∀ ticket,
    (redeemedTickets cfg calls n).count ticket ≤ (issuedTickets cfg calls n).count ticket
  /-- A redeeming call made before the shutdown takes the ticket out of the pending table, also when
  it raises. -/
  presented_is_removed : ∀ i c ticket digest, calls[i]? = some c →
    (∃ expected now clock context, c = .consume ticket expected now clock context) ∨
      (∃ expected a clock, c = .reserve ticket expected a clock) →
    (reached cfg calls i).shutdownStarted = false → ticketDigest ticket = .ok digest →
    digest ∉ (reached cfg calls (i + 1)).pending
  /-- Issued lease numbers strictly increase, -/
  numbers_increase : ∀ i j issued issued', i < j → IssuedAt cfg calls i issued →
    IssuedAt cfg calls j issued' → issued.claims.leaseNumber < issued'.claims.leaseNumber
  /-- are positive 64-bit numbers, -/
  numbers_in_range : ∀ i issued, IssuedAt cfg calls i issued →
    1 ≤ issued.claims.leaseNumber ∧ issued.claims.leaseNumber ≤ 2 ^ 64 - 1
  /-- and run out: once the counter has passed the last number no `issue` returns, -/
  exhausted_never_issues : ∀ i issued, 2 ^ 64 - 1 < (reached cfg calls i).nextLeaseNumber →
    ¬ IssuedAt cfg calls i issued
  /-- because the allocation raises and leaves the counter where it is. -/
  exhausted_raises : ∀ s : Authority τ, 2 ^ 64 - 1 < s.nextLeaseNumber →
    allocateLeaseNumber.call s = (.error (.code .sequenceExhausted), s)

/-- Every run of the authority keeps the rules of tickets, as long as SHA-256 does not collide on its
tickets. -/
theorem ticket_rules (cfg : Config τ) (calls : List (Call τ)) (n : ℕ)
    (hsha : CollisionFree cfg calls n) : TicketRules cfg calls n where
  redeemed_at_most_issued := redeemed_le_issued hsha
  presented_is_removed i c ticket digest hc hpresents hopen hd := by
    obtain ⟨σ, hs⟩ := exists_shows cfg calls i
    rw [reached_succ hc, Dict.not_mem_iff]
    exact presented_step cfg hs hpresents digest hd hopen
  numbers_increase i j issued issued' hij hi hj := by
    have hmono := nextLeaseNumber_mono cfg calls (Nat.succ_le_of_lt hij)
    exact (leaseNumber_bounds hi).2.2.2.trans_le (hmono.trans (leaseNumber_bounds hj).1)
  numbers_in_range i issued hi := ⟨(leaseNumber_bounds hi).2.1, (leaseNumber_bounds hi).2.2.1⟩
  exhausted_never_issues i issued hexhausted hi := by
    have hle := (leaseNumber_bounds hi).1.trans (leaseNumber_bounds hi).2.2.1
    exact absurd hle (not_le.mpr hexhausted)
  exhausted_raises s hexhausted := by
    refine call_eq_error ?_
    have hne : s.nextLeaseNumber ≠ 0 := by omega
    simp only [allocateLeaseNumber, wp_bind, wp_get, wp_raiseIf, if_neg hne]
    exact ⟨fun _ => ⟨trivial, trivial⟩, fun hle => absurd hexhausted hle⟩

/-- A run that issues one ticket and redeems it meets the assumption. -/
theorem ticket_rules_sample : CollisionFree sampleConfig sampleCalls 2 ∧
    redeemedTickets sampleConfig sampleCalls 2 = ["wat_" ++ sampleToken.val] ∧
    TicketRules sampleConfig sampleCalls 2 := by
  have hrun : CollisionFree sampleConfig sampleCalls 2 ∧
      redeemedTickets sampleConfig sampleCalls 2 = ["wat_" ++ sampleToken.val] := by
    decide +kernel
  exact ⟨hrun.1, hrun.2, ticket_rules sampleConfig sampleCalls 2 hrun.1⟩

end AgentBox.Tickets
