import AgentBox.Common.Run
import AgentBox.Tickets.Turns

/-!
# Invariants of the attachment authority

Every state that a sequence of calls can reach shows well-formed slots (`exists_shows`), so the four
workspace maps agree with each other. The three capacity limits are tested only where something is
granted; `bounded_step` shows that no call moves a count past its limit, because every other effect
only closes slots and burns tickets.
-/

namespace AgentBox.Tickets

open List

set_option linter.unusedSectionVars false

variable {τ : Type} [PyNumber τ] [DecidableEq τ]

variable (cfg : Config τ) (calls : List (Call τ)) (i : ℕ)

/-- The state that the first `i` of a list of calls lead to. -/
def reached : Authority τ :=
  stateAt (step cfg) (Authority.initial cfg) calls i

/-- Every reachable state shows slots. -/
theorem exists_shows : ∃ σ, Shows (reached cfg calls i) σ :=
  invariant_stateAt (I := fun s => ∃ σ, Shows s σ) ⟨_, Shows.initial cfg⟩
    (fun _ c ⟨_, hs⟩ => (step_effect cfg hs c).imp fun _ h => h.shows) i

/-! ## Agreement of the workspace maps -/

/-- The four workspace maps of the authority agree. -/
structure Coherent (s : Authority τ) : Prop where
  active_cleanup_disjoint : ∀ ws, ¬ (ws ∈ s.active ∧ ws ∈ s.cleanupPending)
  contexts_iff_cleanup : ∀ ws, ws ∈ s.cleanupContexts ↔ ws ∈ s.cleanupPending
  staged_under_workspace : ∀ ws record, s.staged.get? ws = some record →
    record.handle.claims.workspaceId = ws
  active_iff : ∀ ws record, s.staged.get? ws = some record → (record.stage = .active ↔
    ∃ lease, s.active.get? ws = some lease ∧ lease.claims = record.handle.claims)
  fenced_iff : ∀ ws record, s.staged.get? ws = some record → (record.stage = .fenced ↔
    s.cleanupPending.get? ws = some record.handle.claims)
  otherwise_neither : ∀ ws record, s.staged.get? ws = some record → record.stage ≠ .active →
    record.stage ≠ .fenced → ws ∉ s.active ∧ ws ∉ s.cleanupPending

/-- Maps that show slots agree. -/
theorem Shows.coherent {s : Authority τ} {σ : String → Slot τ} (hs : Shows s σ) : Coherent s where
  active_cleanup_disjoint ws := by
    rw [Dict.mem_def, Dict.mem_def, hs.active, hs.cleanup]
    cases σ ws <;> simp [Slot.row]
  contexts_iff_cleanup ws := by
    rw [Dict.mem_def, Dict.mem_def, hs.context, hs.cleanup]
    cases σ ws <;> simp [Slot.row]
  staged_under_workspace ws record hr := (Nearly.nowhere hs).workspace_of_staged hr
  active_iff ws record hr := by
    rw [hs.staged] at hr
    rw [hs.active]
    cases hσ : σ ws <;> rw [hσ] at hr <;> cases hr <;> simp [Slot.row, LeaseTimes.lease]
  fenced_iff ws record hr := by
    rw [hs.staged] at hr
    rw [hs.cleanup]
    cases hσ : σ ws <;> rw [hσ] at hr <;> cases hr <;> simp [Slot.row]
  otherwise_neither ws record hr hna hnf := by
    rw [hs.staged] at hr
    rw [Dict.not_mem_iff, Dict.not_mem_iff, hs.active, hs.cleanup]
    cases hσ : σ ws <;> rw [hσ] at hr <;> cases hr <;> simp_all [Slot.row]

/-- After any sequence of calls, returning or raising, the workspace maps agree. -/
theorem coherent_reached : Coherent (reached cfg calls i) := by
  obtain ⟨σ, hs⟩ := exists_shows cfg calls i
  exact hs.coherent

/-! ## Capacity -/

variable (s : Authority τ) (userId : String)

/-- Whether some record of the workspace, in any of the maps, names the user. -/
def Authority.heldFor (ws : String) : Bool :=
  (s.active.get? ws).any (fun lease => names userId lease.context) ||
    (s.cleanupContexts.get? ws).any (names userId) ||
    (s.staged.get? ws).any fun record => names userId (some record.handle.context)

/-- The pending tickets and the occupied workspaces of a user, each workspace counted once. -/
def Authority.userLoad : ℕ :=
  s.pending.values.countP (fun ticket => names userId ticket.context) +
    (s.occupied.filter fun ws => s.heldFor userId ws).card

/-- The three limits of the authority. -/
structure Bounded (cfg : Config τ) (s : Authority τ) : Prop where
  records : s.recordCount ≤ cfg.maxRecords
  writers : s.occupied.card ≤ cfg.maxWriters
  users : ∀ userId, s.userLoad userId ≤ cfg.maxPerAdmin

section
variable {s t u : Authority τ} {σ σ' : String → Slot τ} {digest : Digest}
  {ws : String} {sl : Slot τ} {ticket : PendingTicket τ} {cfg : Config τ}

theorem Shows.mem_occupied (hs : Shows s σ) : ws ∈ s.occupied ↔ σ ws ≠ .free := by
  rw [Ne, hs.eq_free_iff, Authority.occupied]
  simp only [Finset.mem_union, mem_toFinset, ← Dict.mem_iff_mem_keys]
  tauto

/-- A workspace is held for the user its slot's context names. -/
theorem Shows.heldFor (hs : Shows s σ) (userId ws : String) :
    s.heldFor userId ws = Authority.names userId (σ ws).context := by
  unfold Authority.heldFor
  rw [hs.active, hs.context, hs.staged]
  cases σ ws <;> simp [Slot.row, Slot.context, Authority.names, LeaseTimes.lease]

/-- The workspaces held for a user. -/
def heldSet (s : Authority τ) (σ : String → Slot τ) (userId : String) : Finset String :=
  s.occupied.filter fun ws => Authority.names userId (σ ws).context

theorem Shows.userLoad (hs : Shows s σ) (userId : String) :
    s.userLoad userId = s.pending.values.countP (fun ticket => Authority.names userId ticket.context) +
      (heldSet s σ userId).card := by
  simp only [Authority.userLoad, heldSet, hs.heldFor]

/-- What `_admin_count` counts is at least the load. -/
theorem Shows.userLoad_le_adminCount (hs : Shows s σ) (userId : String) :
    s.userLoad userId ≤ s.adminCount userId := by
  -- the workspaces that the last three parts of the count run over
  let leased := (s.active.items.filter fun e => Authority.names userId e.2.context).map Prod.fst
  let owed := (s.cleanupContexts.items.filter fun e => Authority.names userId e.2).map Prod.fst
  let open' := ((s.staged.items.filter fun e => e.1 ∉ s.active ∧ e.1 ∉ s.cleanupPending).filter
    fun e => Authority.names userId (some e.2.handle.context)).map Prod.fst
  have hcount : s.adminCount userId =
      s.pending.values.countP (fun ticket => Authority.names userId ticket.context) +
        (leased ++ owed ++ open').length := by
    simp only [Authority.adminCount, Dict.values, map_map, countP_append, countP_map,
      length_append, length_map, leased, owed, open', ← countP_eq_length_filter]
    simp only [Function.comp_def, Nat.add_assoc]
  have hsubset : heldSet s σ userId ⊆ (leased ++ owed ++ open').toFinset := by
    intro ws hws
    obtain ⟨-, hname⟩ := Finset.mem_filter.mp hws
    simp only [mem_toFinset, mem_append, mem_map, mem_filter, leased, owed, open']
    cases hσ : σ ws with
    | free => rw [hσ] at hname; cases hname
    | leased lease =>
      have hget : s.active.get? ws = some lease := by rw [hs.active, hσ]; rfl
      rw [hσ] at hname
      exact .inl (.inl ⟨(ws, lease), ⟨Dict.get?_eq_some_iff.mp hget, hname⟩, rfl⟩)
    | live h times =>
      have hget : s.active.get? ws = some (times.lease h) := by rw [hs.active, hσ]; rfl
      rw [hσ] at hname
      exact .inl (.inl ⟨(ws, times.lease h), ⟨Dict.get?_eq_some_iff.mp hget, hname⟩, rfl⟩)
    | owed claims context =>
      have hget : s.cleanupContexts.get? ws = some context := by rw [hs.context, hσ]; rfl
      rw [hσ] at hname
      exact .inl (.inr ⟨(ws, context), ⟨Dict.get?_eq_some_iff.mp hget, hname⟩, rfl⟩)
    | fenced h =>
      have hget : s.cleanupContexts.get? ws = some (some h.context) := by rw [hs.context, hσ]; rfl
      rw [hσ] at hname
      exact .inl (.inr ⟨(ws, some h.context), ⟨Dict.get?_eq_some_iff.mp hget, hname⟩, rfl⟩)
    | staged h k =>
      have hget : s.staged.get? ws = some ⟨h, .ofPhase k⟩ := by rw [hs.staged, hσ]; rfl
      have hneither := hs.coherent.otherwise_neither ws _ hget (by simp) (by simp)
      rw [hσ] at hname
      exact .inr ⟨(ws, ⟨h, .ofPhase k⟩), ⟨⟨Dict.get?_eq_some_iff.mp hget, by simpa using hneither⟩,
        hname⟩, rfl⟩
  rw [hs.userLoad, hcount]
  exact Nat.add_le_add_left ((Finset.card_le_card hsubset).trans (toFinset_card_le _)) _

/-- No count grows when tickets are only burned and slots only kept, closed or freed. -/
theorem counts_mono (hs : Shows s σ) (ht : Shows t σ') (hpending : t.pending.items.Sublist s.pending.items)
    (hslots : ∀ ws, σ' ws = .free ∨ σ ws ≠ .free ∧ (σ' ws).context = (σ ws).context) :
    t.recordCount ≤ s.recordCount ∧ t.occupied ⊆ s.occupied ∧
      ∀ userId, t.userLoad userId ≤ s.userLoad userId := by
  have hoccupied : t.occupied ⊆ s.occupied := by
    intro ws hws
    rw [ht.mem_occupied] at hws
    exact hs.mem_occupied.mpr ((hslots ws).resolve_left hws).1
  refine ⟨Nat.add_le_add hpending.length_le (Finset.card_le_card hoccupied), hoccupied, fun userId => ?_⟩
  rw [hs.userLoad, ht.userLoad]
  refine Nat.add_le_add ((hpending.map Prod.snd).countP_le) (Finset.card_le_card fun ws hws => ?_)
  obtain ⟨hmem, hname⟩ := Finset.mem_filter.mp hws
  have hkeep := (hslots ws).resolve_left (ht.mem_occupied.mp hmem)
  exact Finset.mem_filter.mpr ⟨hoccupied hmem, hkeep.2 ▸ hname⟩

theorem Quiet.counts (hs : Shows s σ) (hq : Quiet s σ t σ') :
    t.recordCount ≤ s.recordCount ∧ t.occupied ⊆ s.occupied ∧
      ∀ userId, t.userLoad userId ≤ s.userLoad userId :=
  counts_mono hs hq.shows hq.pending fun ws => (hq.fades ws).free_or

/-- Filling one slot adds at most one workspace, and only for the user it is filled for. -/
theorem fill_counts (hs : Shows s σ) (ht : Shows t (Function.update σ ws sl)) :
    t.occupied.card ≤ s.occupied.card + 1 ∧ ∀ userId, (heldSet t (Function.update σ ws sl) userId).card ≤
        (heldSet s σ userId).card + if Authority.names userId sl.context then 1 else 0 := by
  have hother : ∀ w ∈ t.occupied, w ≠ ws → w ∈ s.occupied := by
    intro w hw hne
    rw [ht.mem_occupied, Function.update_of_ne hne] at hw
    exact hs.mem_occupied.mpr hw
  have hcard : ∀ {a b : Finset String}, (∀ w ∈ a, w ≠ ws → w ∈ b) → a.card ≤ b.card + 1 := by
    intro a b hab
    refine (Finset.card_le_card (t := insert ws b) fun w hw => ?_).trans (Finset.card_insert_le _ _)
    exact Finset.mem_insert.mpr (or_iff_not_imp_left.mpr (hab w hw))
  constructor
  · exact hcard hother
  · intro userId
    have hheld : ∀ w ∈ heldSet t (Function.update σ ws sl) userId, w ≠ ws →
        w ∈ heldSet s σ userId := by
      intro w hw hne
      obtain ⟨hmem, hname⟩ := Finset.mem_filter.mp hw
      rw [Function.update_of_ne hne] at hname
      exact Finset.mem_filter.mpr ⟨hother w hmem hne, hname⟩
    split
    · exact hcard hheld
    · next hname =>
      refine Finset.card_le_card fun w hw => hheld w hw ?_
      rintro rfl
      have := (Finset.mem_filter.mp hw).2
      rw [Function.update_self] at this
      exact hname this

/-- Redeeming a ticket takes one off the pending tickets, and off those of its user. -/
theorem burn_counts (h : s.pending.get? digest = some ticket) :
    (s.pending.erase digest).length + 1 = s.pending.length ∧ ∀ userId,
      (s.pending.erase digest).values.countP (fun x => Authority.names userId x.context) +
        (if Authority.names userId ticket.context then 1 else 0) =
      s.pending.values.countP (fun x => Authority.names userId x.context) := by
  have hperm := Dict.items_perm_of_get? h
  constructor
  · have := hperm.length_eq
    simpa [Dict.length] using this.symm
  · intro userId
    have := (hperm.map Prod.snd).countP_eq (fun x => Authority.names userId x.context)
    rw [map_cons, countP_cons] at this
    exact this.symm

/-- A fresh ticket is one more pending ticket, and one more of its user. -/
theorem issue_counts (ticket : PendingTicket τ) (h : digest ∉ s.pending) :
    (s.pending.set digest ticket).length = s.pending.length + 1 ∧ ∀ userId,
      (s.pending.set digest ticket).values.countP (fun x => Authority.names userId x.context) =
      s.pending.values.countP (fun x => Authority.names userId x.context) +
        (if Authority.names userId ticket.context then 1 else 0) := by
  have hitems := Dict.items_set_of_not_mem h ticket
  constructor
  · simp [Dict.length, hitems]
  · intro userId
    simp [Dict.values, hitems, countP_append, countP_cons]

theorem names_iff {userId : String} {context : Option AuthenticatedAttachmentContext} :
    Authority.names userId context = true ↔ ∃ x, context = some x ∧ x.userId = userId := by
  cases context <;> simp [Authority.names]

/-- A new ticket stays within the limits that `issue` has tested. -/
theorem bounded_issue (hs : Shows s σ) (hb : Bounded cfg s) (hq : Quiet s σ u σ') (ht : Shows t σ')
    (hrecords : u.recordCount < cfg.maxRecords)
    (hadmin : ∀ x, ticket.context = some x → u.adminCount x.userId < cfg.maxPerAdmin)
    (hfresh : digest ∉ u.pending) (hpending : t.pending = u.pending.set digest ticket)
    (hoccupied : t.occupied = u.occupied) : Bounded cfg t := by
  obtain ⟨-, hocc, husers⟩ := hq.counts hs
  obtain ⟨hlength, hcount⟩ := issue_counts ticket hfresh
  refine ⟨?_, ?_, fun userId => ?_⟩
  · rw [Authority.recordCount, hpending, hlength, hoccupied]
    rw [Authority.recordCount] at hrecords
    omega
  · rw [hoccupied]
    exact (Finset.card_le_card hocc).trans hb.writers
  · have hload : t.userLoad userId = u.userLoad userId +
        if Authority.names userId ticket.context then 1 else 0 := by
      rw [ht.userLoad, hq.shows.userLoad, hpending, hcount, heldSet, heldSet, hoccupied]
      omega
    rw [hload]
    split
    · next hname =>
      obtain ⟨x, hx, rfl⟩ := names_iff.mp hname
      have := hq.shows.userLoad_le_adminCount x.userId
      have := hadmin x hx
      omega
    · exact (husers userId).trans (hb.users userId)

/-- A ticket that turns into the holder of a free workspace, after a quiet step, keeps the number of
records and the load of every user but the one whose count has been tested. -/
theorem bounded_redeem (hs : Shows s σ) (hb : Bounded cfg s) {pending : PendingTicket τ}
    (hfound : s.pending.get? digest = some pending) (hq : Quiet (s.burn cfg digest) σ u σ')
    (ht : Shows t (Function.update σ' ws sl)) (hwriters : u.occupied.card < cfg.maxWriters)
    (hpending : t.pending = u.pending) (huser : ∀ userId, Authority.names userId sl.context →
      Authority.names userId pending.context ∨ u.adminCount userId < cfg.maxPerAdmin) : Bounded cfg t := by
  have hburn : Shows (s.burn cfg digest) σ := (Quiet.burn hs cfg digest).shows
  obtain ⟨hrecords, -, hload⟩ := hq.counts hburn
  obtain ⟨hlength, hcount⟩ := burn_counts hfound
  obtain ⟨hcard, hheld⟩ := fill_counts hq.shows ht
  refine ⟨?_, by omega, fun userId => ?_⟩
  · have hs' : (s.burn cfg digest).recordCount + 1 = s.recordCount := by
      have : (s.burn cfg digest).recordCount = (s.pending.erase digest).length + s.occupied.card := rfl
      rw [this, Authority.recordCount]
      omega
    have hb' := hb.records
    rw [Authority.recordCount] at hrecords ⊢
    rw [hpending]
    omega
  · have hstart : (s.burn cfg digest).userLoad userId +
        (if Authority.names userId pending.context then 1 else 0) = s.userLoad userId := by
      rw [hburn.userLoad, hs.userLoad, ← hcount userId]
      change _ + (heldSet s σ userId).card + _ = _
      change (s.pending.erase digest).values.countP _ + _ + _ = _
      omega
    have hend : t.userLoad userId ≤
        u.userLoad userId + if Authority.names userId sl.context then 1 else 0 := by
      rw [ht.userLoad, hq.shows.userLoad, hpending]
      have := hheld userId
      omega
    have hbound := hb.users userId
    have hmid := hload userId
    by_cases hname : Authority.names userId sl.context
    · rw [if_pos hname] at hend
      rcases huser userId hname with hpend | hadmin
      · rw [if_pos hpend] at hstart
        omega
      · have := hq.shows.userLoad_le_adminCount userId
        omega
    · rw [if_neg hname] at hend
      omega

variable (cfg : Config τ)

/-- No call moves a count past its limit. -/
theorem bounded_step (hs : Shows s σ) (hb : Bounded cfg s) (c : Call τ) :
    Bounded cfg (step cfg s c) := by
  obtain ⟨σ', he⟩ := step_effect cfg hs c
  have ht := he.shows
  cases he.growth with
  | shrinks _ hpending hslots _ =>
    obtain ⟨hrec, hocc, husers⟩ := counts_mono hs ht hpending hslots
    exact ⟨hrec.trans hb.records, (Finset.card_le_card hocc).trans hb.writers,
      fun userId => (husers userId).trans (hb.users userId)⟩
  | issues _ _ _ hquiet hrecords hadmin _ hfresh hcontext hpending hoccupied =>
    exact bounded_issue hs hb hquiet ht hrecords (hcontext ▸ hadmin) hfresh hpending hoccupied
  | consumes _ _ _ _ hfound hwriters hcontext hpending _ hslots =>
    have hburn := Quiet.burn hs cfg
    exact bounded_redeem hs hb hfound (.refl (hburn _).shows) (hslots ▸ ht) hwriters hpending
      fun userId hname => .inl (by rw [← hcontext]; exact hname)
  | reserves _ _ _ _ hfound hquiet hwriters hadmin hpending _ hslots =>
    refine bounded_redeem hs hb hfound hquiet (hslots ▸ ht) hwriters hpending fun userId hname => .inr ?_
    obtain ⟨x, hx, rfl⟩ := names_iff.mp hname
    cases hx
    exact hadmin

theorem bounded_initial : Bounded cfg (Authority.initial cfg) where
  records := Nat.zero_le _
  writers := Nat.zero_le _
  users _ := Nat.zero_le _

/-- After any sequence of calls, returning or raising, the limits hold. -/
theorem bounded_reached (calls : List (Call τ)) (i : ℕ) :
    Bounded cfg (reached cfg calls i) := by
  have hinv : (∃ σ, Shows (reached cfg calls i) σ) ∧ Bounded cfg (reached cfg calls i) :=
    invariant_stateAt (I := fun s => (∃ σ, Shows s σ) ∧ Bounded cfg s)
      ⟨⟨_, Shows.initial cfg⟩, bounded_initial cfg⟩
      (fun s c ⟨⟨σ, hs⟩, hb⟩ =>
        ⟨(step_effect cfg hs c).imp fun _ h => h.shows, bounded_step cfg hs hb c⟩) i
  exact hinv.2

end

end AgentBox.Tickets
