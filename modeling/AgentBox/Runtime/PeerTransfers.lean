import AgentBox.Common.Run
import AgentBox.Runtime.PeerAuthority
import Mathlib.Data.List.Chain

/-!
# Transfers of the peer authority

Over every series of calls, with processes ending in between: the generations of the commits increase, an
epoch is used by one commit only, every commit but the first comes from a plan that demands the revocation
of the authority before it, and a lease is current only if it is of the last commit and that process is
alive. A poisoned or closed authority stays so, has no current lease and binds nothing
(`authority_lawful`).

The invariant `Sound` says besides that an authority that was taken away is being replaced: the pending plan
is the one that revokes it, or the authority is poisoned.
-/

namespace AgentBox.Peer

open List Method

variable {plan : ℕ} {p : TransferPlan} {cfg : Config}

def Commit.epoch (c : Commit) : String := c.authority.apiAuthorityEpoch

def Commit.generation (c : Commit) : ℕ := c.authority.identity.generation

/-- The commit comes from a plan that demands the revocation of the authority before. -/
def Commit.Revokes (earlier later : Commit) : Prop :=
  later.plan.revocationRequired = true ∧ later.plan.replacesIdentity = some earlier.authority.identity

/-- The identity of the last authority. -/
def Authority.last (s : Authority) : Option RuntimePeerIdentity :=
  s.commits.getLast?.map fun c => c.authority.identity

/-- What a pending plan says about the authority it was made for. -/
structure Fits (s : Authority) (p : TransferPlan) : Prop where
  revokes : p.revocationRequired = p.replacesIdentity.isSome
  bound : p.status = .bound → s.current = none ∧ p.replacesIdentity = s.last
  again : p.status = .alreadyBound → s.current ≠ none ∧ p.replacesIdentity = none

/-- The invariant of the authority. -/
structure Sound (s : Authority) : Prop where
  increasing : (s.commits.map Commit.generation).Pairwise (· < ·)
  below : ∀ c ∈ s.commits, c.generation < s.nextGeneration
  latest : ∀ c, s.current = some c → ∃ commit, s.commits.getLast? = some commit ∧ commit.authority = c
  retired : s.closed = false → ∀ c ∈ s.commits, s.current = some c.authority ∨ c.epoch ∈ s.retired
  distinct : (s.commits.map Commit.epoch).Nodup
  chain : s.commits.IsChain Commit.Revokes
  pending : s.closed = false → s.poisoned = false → ∀ plan, s.pending = some plan →
    ∃ p, s.plans[plan]? = some p ∧ Fits s p
  vacant : s.closed = false → s.poisoned = false → s.current = none → s.pending = none → s.commits = []

theorem sound_initial : Sound .initial where
  increasing := .nil
  below := nofun
  latest := nofun
  retired := nofun
  distinct := .nil
  chain := .nil
  pending := nofun
  vacant := fun _ _ _ _ => rfl

/-! ## Changes that the invariant does not see -/

variable {s : Authority} {t : Authority}

/-- Giving up a plan's descriptor leaves its terms alone. -/
theorem Sound.emptyPlan (h : Sound s) (plan : ℕ) :
    Sound { s with plans := s.plans.modify plan fun p => { p with pidfd := none } } := by
  refine { h with pending := fun hclosed hpoisoned k hk => ?_ }
  obtain ⟨p, hp, hfits⟩ := h.pending hclosed hpoisoned k hk
  refine ⟨if plan = k then { p with pidfd := none } else p, ?_, ?_⟩
  · rw [List.getElem?_modify, hp]
    rfl
  · split
    · exact ⟨hfits.revokes, hfits.bound, hfits.again⟩
    · exact ⟨hfits.revokes, hfits.bound, hfits.again⟩

/-- Nothing opens a closed authority or cures a poisoned one. -/
structure Hardens (s t : Authority) : Prop where
  closed : s.closed = true → t.closed = true
  poisoned : s.poisoned = true → t.poisoned = true

theorem Hardens.trans {u : Authority} (h : Hardens s t) (k : Hardens t u) : Hardens s u :=
  ⟨k.closed ∘ h.closed, k.poisoned ∘ h.poisoned⟩

/-- A change that besides keeps the invariant. -/
structure Evolves (s t : Authority) : Prop extends Hardens s t where
  sound : Sound s → Sound t

instance : Std.Refl Evolves := ⟨fun _ => ⟨⟨id, id⟩, id⟩⟩

instance : IsTrans Authority Evolves :=
  ⟨fun _ _ _ h k => ⟨h.toHardens.trans k.toHardens, k.sound ∘ h.sound⟩⟩

/-- What a call makes of a sound authority. -/
structure Follows (s t : Authority) : Prop extends Hardens s t where
  sound : Sound t

theorem Sound.follows (h : Sound s) : Follows s s := ⟨⟨id, id⟩, h⟩

theorem Follows.evolves {u : Authority} (h : Follows s t) (k : Evolves t u) : Follows s u :=
  ⟨h.toHardens.trans k.toHardens, k.sound h.sound⟩

/-- A change that the invariant does not see: peers, versions and ended processes do not matter, and a
poisoned authority binds nothing. -/
theorem Evolves.of_eq (hpoisoned : s.poisoned = true → t.poisoned = true)
    (heq : (t.commits, t.nextGeneration, t.current, t.retired, t.closed, t.pending, t.plans) =
      (s.commits, s.nextGeneration, s.current, s.retired, s.closed, s.pending, s.plans)) : Evolves s t := by
  simp only [Prod.mk.injEq] at heq
  obtain ⟨hcommits, hnext, hcurrent, hretired, hclosed, hpending, hplans⟩ := heq
  have hopen : t.poisoned = false → s.poisoned = false := by
    intro hfalse
    by_contra htrue
    rw [hpoisoned (Bool.not_eq_false _ ▸ htrue)] at hfalse
    cases hfalse
  refine ⟨⟨fun h => hclosed ▸ h, hpoisoned⟩, fun h => ?_⟩
  refine ⟨hcommits ▸ h.increasing, hcommits ▸ hnext ▸ h.below, hcommits ▸ hcurrent ▸ h.latest, ?_,
    hcommits ▸ h.distinct, hcommits ▸ h.chain, fun hc hp plan hplan => ?_, fun hc hp hnone hpend => ?_⟩
  · rw [hclosed, hcommits, hcurrent, hretired]
    exact h.retired
  · obtain ⟨p, hp, hfits⟩ := h.pending (hclosed ▸ hc) (hopen hp) plan (hpending ▸ hplan)
    refine ⟨p, hplans ▸ hp, hfits.revokes, fun hb => ?_, fun ha => ?_⟩
    · rw [hcurrent, Authority.last, hcommits]
      exact hfits.bound hb
    · rw [hcurrent]
      exact hfits.again ha
  · rw [hcommits]
    exact h.vacant (hclosed ▸ hc) (hopen hp) (hcurrent ▸ hnone) (hpending ▸ hpend)

theorem always_requireOpen : requireOpen.Always Evolves :=
  always_read fun _ => always_unless fun _ => always_raiseIf _ _

theorem always_requirePeer (peer : ℕ) : (requirePeer peer).Always Evolves := by
  refine always_read fun s => ?_
  split
  · exact always_throw _
  · exact always_pure _

theorem always_requirePlan (plan : ℕ) : (requirePlan plan).Always Evolves := by
  refine always_read fun s => ?_
  split
  · exact always_throw _
  · exact always_pure _

theorem always_closeDescriptor (fails : Bool) : (closeDescriptor fails).Always Evolves := by
  refine always_onlyIf fun _ => always_bind (always_modify fun s => ?_) fun _ => always_throw _
  exact .of_eq (fun _ => rfl) rfl

theorem always_emptyPlan (plan : ℕ) : (emptyPlan plan).Always Evolves :=
  always_modify fun _ => ⟨⟨id, id⟩, fun h => h.emptyPlan plan⟩

theorem always_closePending (pending : Option ℕ) : (closePending pending).Always Evolves := by
  cases pending with
  | none => exact always_pure _
  | some plan => exact always_emptyPlan plan

theorem always_closePlan (plan : ℕ) (fails : Bool) : (closePlan plan fails).Always Evolves :=
  always_bind (always_requirePlan plan) fun _ => always_bind (always_emptyPlan plan) fun _ =>
    always_onlyIf fun _ => always_closeDescriptor fails

theorem always_handOut (peer : Option ObservedPeer) : (handOut peer).Always Evolves := by
  cases peer with
  | none => exact always_pure _
  | some p =>
    refine always_read fun s => always_return (always_modify fun s => ?_)
    exact .of_eq id rfl

theorem always_borrowLocked (current : CurrentAuthority) (dupFails : Bool) :
    (borrowLocked current dupFails).Always Evolves :=
  always_unless fun _ => always_pure _

theorem always_ends (process : Process) :
    (modify fun s => { s with dead := insert process s.dead } : Op Unit).Always Evolves :=
  always_modify fun _ => .of_eq id rfl

theorem always_observeControl (o : Observed) : (observeControl cfg o).Always Evolves := by
  refine always_unless fun _ => always_bind always_requireOpen fun _ =>
    always_ite (fun _ => always_pure _) fun _ => always_unless fun _ =>
    always_read fun _ => always_unless fun _ =>
    always_bind ?_ fun peer => always_handOut peer
  refine always_bind always_requireOpen fun _ => always_read fun s => ?_
  split
  · exact always_borrowLocked _ _
  · refine always_unless fun _ =>
      always_bind (always_onlyIf fun _ => always_ends o.process) fun _ => always_read fun t => ?_
    exact always_ite (fun _ => always_pure _) fun _ =>
      always_bind (always_closeDescriptor _) fun _ => always_throw _

theorem always_borrow (dupFails : Bool) : (borrow dupFails).Always Evolves := by
  refine always_bind always_requireOpen fun _ => always_read fun s => ?_
  split
  · exact always_pure _
  · exact always_bind (always_borrowLocked _ _) fun peer => always_handOut peer

theorem always_closePeer (peer : ℕ) (fails : Bool) : (closePeer peer fails).Always Evolves := by
  refine always_bind (always_requirePeer peer) fun _ => always_bind (always_modify fun s => ?_) fun _ =>
    always_onlyIf fun _ => always_closeDescriptor fails
  exact .of_eq id rfl

/-! ## Preparing a plan -/

/-- The terms fit the authority, which may have lost its current process to them. -/
structure Opening (s : Authority) (terms : Terms) : Prop where
  sound : Sound { s with poisoned := true }
  bound : terms.status = .bound → s.current = none ∧ terms.replaces = s.last
  again : terms.status = .alreadyBound → s.current ≠ none ∧ terms.replaces = none

theorem Sound.poison (h : Sound s) : Sound { s with poisoned := true } :=
  Evolves.sound (s := s) (.of_eq (fun _ => rfl) rfl) h

theorem Sound.detach (h : Sound s) {c : CurrentAuthority} (hc : s.current = some c) : Sound { s with
        retired := insert c.apiAuthorityEpoch s.retired
        current := none
        version := s.version + 1
        poisoned := true } := by
  refine { h with latest := nofun, retired := fun hclosed commit hcommit => ?_, pending := nofun, vacant := nofun }
  refine .inr ?_
  rcases h.retired hclosed commit hcommit with heq | hmem
  · rw [hc] at heq
    rw [Option.some.inj heq]
    exact Finset.mem_insert_self _ _
  · exact Finset.mem_insert_of_mem hmem

theorem settleTerms_wp (h : Sound s) (hclosed : s.closed = false) (hpoisoned : s.poisoned = false)
    (hpending : s.pending = none) (p : ObservedPeer) (epoch : String) (nonce : Bytes) (closeFails : Bool) :
    (settleTerms cfg p epoch nonce closeFails).wp s (fun terms t => Opening t terms ∧ Hardens s t)
      (fun _ => Follows s) := by
  have hs := h.follows
  rw [settleTerms, wp_bind, wp_get]
  split
  · next c hlive =>
    have hc : s.current = some c := (Option.filter_eq_some_iff.mp hlive).1
    refine wp_unless (fun _ => hs) fun _ => ?_
    refine wp_unless (fun _ => hs) fun _ => ⟨⟨h.poison, nofun, fun _ => ⟨?_, rfl⟩⟩, id, id⟩
    rw [hc]
    exact Option.some_ne_none c
  · refine wp_unless (fun _ => hs) fun _ => ?_
    split
    · next hnone =>
      have hempty := h.vacant hclosed hpoisoned hnone hpending
      refine ⟨⟨h.poison, fun _ => ⟨hnone, ?_⟩, nofun⟩, id, id⟩
      rw [Authority.last, hempty]
      rfl
    · next c hc =>
      refine wp_unless (fun _ => hs) fun _ => ?_
      rw [wp_bind, detach, wp_bind, wp_get]
      refine wp_unless (fun _ => hs) fun _ => ?_
      rw [wp_modify, wp_bind, closeDescriptor, wp_onlyIf, wp_bind, wp_modify]
      have hdetached := h.detach hc
      refine ⟨fun _ => ⟨⟨id, fun _ => rfl⟩, ?_⟩, fun _ => ⟨⟨hdetached, fun _ => ⟨rfl, ?_⟩, nofun⟩, id, id⟩⟩
      · exact Evolves.sound (.of_eq (fun _ => rfl) (by exact rfl)) hdetached
      · obtain ⟨commit, hlast, hauthority⟩ := h.latest c hc
        change some c.identity = (s.commits.getLast?).map _
        rw [hlast, ← hauthority]
        rfl

theorem enterPlan_wp {terms : Terms} (h : Opening t terms) (hst : Hardens s t) (peer : ℕ)
    (p : ObservedPeer) (epoch : String) (nonce : Bytes) (E : Code → Authority → Prop) :
    (enterPlan peer p epoch nonce terms).wp t (fun _ => Follows s) E := by
  rw [enterPlan, wp_bind, wp_get, wp_bind, wp_modify]
  refine ⟨⟨hst.closed, hst.poisoned⟩, { h.sound with pending := fun _ _ plan hplan => ?_, vacant := nofun }⟩
  cases hplan
  refine ⟨_, List.getElem?_concat_length, rfl, h.bound, h.again⟩

theorem requireOpen_wp {Q : Unit → Authority → Prop} {E : Code → Authority → Prop} (hE : ∀ e, E e s)
    (hQ : s.closed = false → s.poisoned = false → Q () s) : requireOpen.wp s Q E := by
  rw [requireOpen, wp_bind, wp_get]
  refine wp_unless (fun _ => hE _) fun hclosed => ?_
  rw [wp_raiseIf]
  exact ⟨fun _ => hE _, fun hpoisoned =>
    hQ (Bool.eq_false_iff.mpr hclosed) (Bool.eq_false_iff.mpr hpoisoned)⟩

theorem requirePlan_wp {Q : TransferPlan → Authority → Prop} {E : Code → Authority → Prop}
    (hE : ∀ e, E e s) (hQ : ∀ p, s.plans[plan]? = some p → Q p s) : (requirePlan plan).wp s Q E := by
  rw [requirePlan, wp_bind, wp_get]
  split
  · exact hE _
  · next p hp => exact hQ p hp

theorem prepareBind_follows (h : Sound s) (peer : ℕ) (epoch : String) (nonce : Bytes)
    (closeFails : Bool) : (prepareBind cfg peer epoch nonce closeFails).Ends s (Follows s) := by
  have hs := h.follows
  unfold Ends prepareBind
  refine wp_unless (fun _ => hs) fun _ => ?_
  refine wp_unless (fun _ => hs) fun _ => ?_
  rw [wp_bind, requirePeer, wp_bind, wp_get]
  split
  · exact hs
  · next p _ =>
    rw [wp_pure, wp_bind]
    refine requireOpen_wp (fun _ => hs) fun hclosed hpoisoned => ?_
    rw [wp_bind, wp_get]
    refine wp_unless (fun _ => hs) fun hpending => ?_
    refine wp_unless (fun _ => hs) fun _ => ?_
    refine wp_seq (settleTerms_wp h hclosed hpoisoned (Option.not_isSome_iff_eq_none.mp hpending) p epoch
      nonce closeFails) fun terms t ht => ?_
    exact enterPlan_wp ht.1 ht.2 peer p epoch nonce _

/-! ## Committing and failing a plan -/

/-- The plan's process becomes the authority. -/
theorem Sound.commit (h : Sound s) (hclosed : s.closed = false) (hfits : Fits s p)
    (hbound : p.status = .bound) (hfresh : p.apiAuthorityEpoch ∉ s.retired) (process : Process)
    (plans : List TransferPlan) : Sound { s with
        plans := plans
        nextGeneration := s.nextGeneration + 1
        current := some ⟨⟨p.identity, s.nextGeneration⟩, process, p.apiAuthorityEpoch, p.nonceDigest⟩
        pending := none
        version := s.version + 1
        commits := s.commits ++
          [⟨⟨⟨p.identity, s.nextGeneration⟩, process, p.apiAuthorityEpoch, p.nonceDigest⟩, p⟩] } := by
  obtain ⟨hnone, hlast⟩ := hfits.bound hbound
  -- every earlier epoch is retired, since no authority is current
  have hretired : ∀ c ∈ s.commits, c.epoch ∈ s.retired := by
    intro c hc
    refine (h.retired hclosed c hc).resolve_left fun hcurrent => ?_
    rw [hnone] at hcurrent
    cases hcurrent
  constructor
  · rw [map_append, pairwise_append]
    refine ⟨h.increasing, pairwise_singleton _ _, fun g hg g' hg' => ?_⟩
    obtain ⟨c, hc, rfl⟩ := mem_map.mp hg
    obtain rfl := mem_singleton.mp hg'
    exact h.below c hc
  · intro c hc
    rcases mem_append.mp hc with hc | hc
    · exact Nat.lt_succ_of_lt (h.below c hc)
    · obtain rfl := mem_singleton.mp hc
      exact Nat.lt_succ_self _
  · intro c hc
    exact ⟨_, List.getLast?_concat, Option.some.inj hc⟩
  · intro _ c hc
    rcases mem_append.mp hc with hc | hc
    · exact .inr (hretired c hc)
    · obtain rfl := mem_singleton.mp hc
      exact .inl rfl
  · rw [map_append, nodup_append]
    refine ⟨h.distinct, nodup_singleton _, fun e he e' he' heq => ?_⟩
    obtain ⟨c, hc, rfl⟩ := mem_map.mp he
    obtain rfl := mem_singleton.mp he'
    have hmem := hretired c hc
    rw [heq] at hmem
    exact hfresh hmem
  · rw [isChain_append]
    refine ⟨h.chain, isChain_singleton _, fun c hc c' hc' => ?_⟩
    obtain rfl := Option.some.inj hc'
    have hreplaces : p.replacesIdentity = some c.authority.identity := by
      rw [hlast, Authority.last, hc]
      rfl
    exact ⟨by rw [hfits.revokes, hreplaces]; rfl, hreplaces⟩
  · exact nofun
  · exact nofun

section
variable {s : Authority} {plan : ℕ} {p : TransferPlan} (h : Sound s) (hclosed : s.closed = false)
  (hpoisoned : s.poisoned = false) (hpending : s.pending = some plan) (hp : s.plans[plan]? = some p)
include h hclosed hpoisoned hpending hp

theorem pending_fits : Fits s p := by
  obtain ⟨q, hq, hfits⟩ := h.pending hclosed hpoisoned plan hpending
  cases hp.symm.trans hq
  exact hfits

/-- A pending plan that fails leaves the authority vacant only if there never was one. -/
theorem Sound.fail (poison : Bool) (hpoison : poison = false → p.replacesIdentity = none) :
    Follows s { s with pending := none, version := s.version + 1, poisoned := s.poisoned || poison } := by
  refine ⟨⟨id, fun h => Bool.or_eq_true_iff.mpr (.inl h)⟩, { h with pending := nofun, vacant := ?_ }⟩
  intro _ hopen hcurrent _
  have hfits := pending_fits h hclosed hpoisoned hpending hp
  have hreplaces := hpoison (Bool.or_eq_false_iff.mp hopen).2
  cases hstatus : p.status with
  | alreadyBound => exact absurd hcurrent (hfits.again hstatus).1
  | bound =>
    have hlast := (hfits.bound hstatus).2
    rw [hreplaces, Authority.last] at hlast
    have hnone := Option.map_eq_none_iff.mp hlast.symm
    exact List.getLast?_eq_none_iff.mp hnone

theorem failPending_wp {poison : Bool} (hpoison : poison = false → p.replacesIdentity = none)
    (closeFails : Bool) : (failPending plan poison closeFails).Ends s (Follows s) := by
  have hfailed := Sound.fail h hclosed hpoisoned hpending hp poison hpoison
  unfold Ends failPending
  rw [wp_bind, wp_modify]
  exact (always_closePlan plan closeFails).ends fun _ => hfailed.evolves

/-- A plan that fails with the poison it demands. -/
theorem failPending_revocation (closeFails : Bool) :
    (failPending plan p.revocationRequired closeFails).Ends s (Follows s) := by
  refine failPending_wp h hclosed hpoisoned hpending hp (fun hpoison => ?_) closeFails
  rw [(pending_fits h hclosed hpoisoned hpending hp).revokes] at hpoison
  exact Option.not_isSome_iff_eq_none.mp (Bool.eq_false_iff.mp hpoison)

theorem commitAgain_follows (hstatus : p.status = .alreadyBound) (closeFails : Bool) :
    (commitAgain plan p closeFails).Ends s (Follows s) := by
  have hfits := pending_fits h hclosed hpoisoned hpending hp
  have hreplaces := (hfits.again hstatus).2
  unfold Ends commitAgain
  rw [wp_bind, wp_get, wp_ite]
  refine ⟨fun _ => ?_, fun _ => ?_⟩
  · have hfailed := Sound.fail h hclosed hpoisoned hpending hp false fun _ => hreplaces
    rw [Bool.or_false] at hfailed
    rw [wp_bind, wp_modify]
    exact wp_seq ((always_closePlan plan closeFails).ends fun _ => hfailed.evolves) fun _ _ ht => ht
  · exact wp_seq (failPending_wp h hclosed hpoisoned hpending hp (fun _ => hreplaces) closeFails)
      fun _ _ ht => ht

theorem commitNew_follows (hstatus : p.status = .bound) (closeFails : Bool) :
    (commitNew plan p closeFails).Ends s (Follows s) := by
  have hfailed := failPending_revocation h hclosed hpoisoned hpending hp closeFails
  unfold Ends commitNew
  rw [wp_bind, wp_get, wp_ite]
  refine ⟨fun _ => ?_, fun hfree => ?_⟩
  · exact wp_seq hfailed fun _ _ ht => ht
  · split
    · exact wp_seq hfailed fun _ _ ht => ht
    · next process _ =>
      rw [wp_bind, emptyPlan, wp_modify, wp_bind, wp_modify]
      exact ⟨⟨id, id⟩, h.commit hclosed (pending_fits h hclosed hpoisoned hpending hp) hstatus
        (fun hmem => hfree (.inr hmem)) process _⟩

end

theorem commitBind_follows (h : Sound s) (plan : ℕ) (closeFails : Bool) :
    (commitBind plan closeFails).Ends s (Follows s) := by
  have hs := h.follows
  unfold Ends commitBind
  rw [wp_bind]
  refine requirePlan_wp (fun _ => hs) fun p hp => ?_
  rw [wp_bind]
  refine requireOpen_wp (fun _ => hs) fun hclosed hpoisoned => ?_
  rw [wp_bind, wp_get, wp_ite]
  refine ⟨fun _ => ?_, fun hcurrent => ?_⟩
  · rw [wp_bind, wp_onlyIf, wp_modify]
    exact ⟨fun _ => ⟨⟨id, fun _ => rfl⟩, h.poison⟩, fun _ => hs⟩
  · obtain ⟨hpending, -⟩ := not_or.mp hcurrent
    have hpending := not_not.mp hpending
    rw [wp_ite]
    refine ⟨fun _ => ?_, fun _ => ?_⟩
    · exact wp_seq (failPending_revocation h hclosed hpoisoned hpending hp closeFails) fun _ _ ht => ht
    · split
      · next hstatus => exact commitAgain_follows h hclosed hpoisoned hpending hp hstatus closeFails
      · next hstatus => exact commitNew_follows h hclosed hpoisoned hpending hp hstatus closeFails

theorem failBind_follows (h : Sound s) (plan : ℕ) (closeFails : Bool) :
    (failBind plan closeFails).Ends s (Follows s) := by
  have hs := h.follows
  unfold Ends failBind
  rw [wp_bind]
  refine requirePlan_wp (fun _ => hs) fun p hp => ?_
  rw [wp_bind]
  refine requireOpen_wp (fun _ => hs) fun hclosed hpoisoned => ?_
  rw [wp_bind, wp_get]
  refine wp_unless (fun _ => hs) fun hpending => ?_
  exact failPending_revocation h hclosed hpoisoned (not_not.mp hpending) hp closeFails

theorem close_follows (h : Sound s) (closeFails : Bool) : (Peer.close closeFails).Ends s (Follows s) := by
  have hs := h.follows
  unfold Ends Peer.close
  rw [wp_bind, wp_get, wp_ite]
  refine ⟨fun _ => ?_, fun _ => ?_⟩
  · rw [wp_raiseIf]
    exact ⟨fun _ => hs, fun _ => hs⟩
  · rw [wp_bind, wp_modify]
    have hclosed : Follows s
        { s with closed := true, pending := none, current := none, version := s.version + 1 } :=
      ⟨⟨fun _ => rfl, id⟩, { h with latest := nofun, retired := nofun, pending := nofun, vacant := nofun }⟩
    have hrest : (do
        closePending s.pending
        onlyIf (closeFails ∧ s.holds) (modify fun s => { s with poisoned := true, closeFailure := true })
        raiseIf ((← get).closeFailure) .peerCloseFailed : Op Unit).Always Evolves :=
      always_bind (always_closePending _) fun _ =>
        always_bind (always_onlyIf fun _ => always_modify fun _ => .of_eq (fun _ => rfl) rfl) fun _ =>
        always_read fun _ => always_raiseIf _ _
    exact hrest.ends fun _ => hclosed.evolves

theorem Sound.step (h : Sound s) (call : Call) : Follows s (s.step cfg call) := by
  have hs := h.follows
  cases call with
  | observeControl o => exact hs.evolves ((always_observeControl o).state s)
  | borrow dupFails => exact hs.evolves ((always_borrow dupFails).state s)
  | prepareBind peer epoch nonce closeFails =>
    exact state_of_wp (prepareBind_follows h peer epoch nonce closeFails)
  | commitBind plan closeFails => exact state_of_wp (commitBind_follows h plan closeFails)
  | failBind plan closeFails => exact state_of_wp (failBind_follows h plan closeFails)
  | closePeer peer closeFails => exact hs.evolves ((always_closePeer peer closeFails).state s)
  | close closeFails => exact state_of_wp (close_follows h closeFails)
  | ends process => exact hs.evolves (.of_eq id rfl)

/-! ## Poisoned and closed authorities -/

/-- No lease is current, and no bind is prepared or committed. -/
structure Fenced (cfg : Config) (s : Authority) : Prop where
  leases : ∀ peer ∈ s.peers, peer.lease.isSome = true → s.peerCurrent peer = false
  prepares : ∀ peer epoch nonce closeFails plan,
    ((prepareBind cfg peer epoch nonce closeFails).call s).1 ≠ .ok plan
  commits : ∀ plan closeFails status, ((commitBind plan closeFails).call s).1 ≠ .ok status

theorem fenced_of (h : s.closed = true ∨ s.poisoned = true) : Fenced cfg s where
  leases := by
    intro peer _ hlease
    unfold Authority.peerCurrent
    split
    · next hnone =>
      rw [hnone] at hlease
      cases hlease
    · unfold Authority.runtimePeerCurrent
      rcases h with hclosed | hpoisoned
      · rw [hclosed]
        rfl
      · rw [hpoisoned]
        cases s.closed <;> rfl
  prepares := by
    intro peer epoch nonce closeFails plan hok
    have hwp : (prepareBind cfg peer epoch nonce closeFails).wp s (fun _ _ => False)
        (fun _ _ => True) := by
      rw [prepareBind]
      refine wp_unless (fun _ => trivial) fun _ => ?_
      refine wp_unless (fun _ => trivial) fun _ => ?_
      rw [wp_bind, requirePeer, wp_bind, wp_get]
      split
      · trivial
      · rw [wp_pure, wp_bind]
        exact requireOpen_wp (fun _ => trivial) fun hclosed hpoisoned => by simp [hclosed, hpoisoned] at h
    exact ok_of_wp hwp hok
  commits := by
    intro plan closeFails status hok
    have hwp : (commitBind plan closeFails).wp s (fun _ _ => False) (fun _ _ => True) := by
      rw [commitBind, wp_bind]
      refine requirePlan_wp (fun _ => trivial) fun p _ => ?_
      rw [wp_bind]
      exact requireOpen_wp (fun _ => trivial) fun hclosed hpoisoned => by simp [hclosed, hpoisoned] at h
    exact ok_of_wp hwp hok

/-! ## Runs -/

/-- What holds of the authority between any two calls. -/
structure Lawful (s : Authority) : Prop where
  /-- a current lease is of the last commit, and its process is alive -/
  leases : ∀ peer ∈ s.peers, ∀ identity epoch, peer.lease = some (identity, epoch) →
    s.peerCurrent peer = true → ∃ commit, s.commits.getLast? = some commit ∧
      s.current = some commit.authority ∧ commit.authority.identity = identity ∧
      commit.authority.pidfd ∉ s.dead ∧ s.ownerCurrent peer.pidfd = true
  increasing : (s.commits.map Commit.generation).Pairwise (· < ·)
  distinct : (s.commits.map Commit.epoch).Nodup
  revokes : s.commits.IsChain Commit.Revokes

/-- Two current leases are of the same authority. -/
theorem Lawful.lease_unique (h : Lawful s) {a b : ObservedPeer}
    {i j : RuntimePeerIdentity × String} (ha : a ∈ s.peers) (hb : b ∈ s.peers)
    (hi : a.lease = some i) (hj : b.lease = some j) (hac : s.peerCurrent a = true)
    (hbc : s.peerCurrent b = true) : i.1 = j.1 := by
  obtain ⟨c, hc, -, hci, -⟩ := h.leases a ha i.1 i.2 hi hac
  obtain ⟨d, hd, -, hdj, -⟩ := h.leases b hb j.1 j.2 hj hbc
  cases hc.symm.trans hd
  exact hci.symm.trans hdj

theorem Sound.lawful (h : Sound s) : Lawful s where
  leases := by
    intro peer _ identity epoch hlease hcurrent
    unfold Authority.peerCurrent at hcurrent
    rw [hlease] at hcurrent
    simp only [Authority.runtimePeerCurrent, Bool.and_eq_true] at hcurrent
    obtain ⟨⟨-, hauthority⟩, howner⟩ := hcurrent
    cases hc : s.current with
    | none =>
      rw [hc] at hauthority
      cases hauthority
    | some c =>
      rw [hc] at hauthority
      have hmatch : (c.identity == identity && s.alive c.pidfd) = true := hauthority
      obtain ⟨commit, hlast, hcommit⟩ := h.latest c hc
      rw [Bool.and_eq_true, beq_iff_eq] at hmatch
      refine ⟨commit, hlast, hcommit ▸ rfl, hcommit ▸ hmatch.1, ?_, howner⟩
      rw [hcommit]
      exact of_decide_eq_true hmatch.2
  increasing := h.increasing
  distinct := h.distinct
  revokes := h.chain

/-- In every run the authority is lawful, two current leases are of one authority, and once it is closed or
poisoned it is fenced for good. -/
theorem authority_lawful (cfg : Config) (calls : List Call) (n : ℕ) :
    Lawful (stateAt (Authority.step cfg) .initial calls n) ∧
      (∀ a ∈ (stateAt (Authority.step cfg) .initial calls n).peers,
        ∀ b ∈ (stateAt (Authority.step cfg) .initial calls n).peers, ∀ i j, a.lease = some i →
        b.lease = some j → (stateAt (Authority.step cfg) .initial calls n).peerCurrent a = true →
        (stateAt (Authority.step cfg) .initial calls n).peerCurrent b = true → i.1 = j.1) ∧
      ∀ m, n ≤ m → (stateAt (Authority.step cfg) .initial calls n).closed = true ∨
        (stateAt (Authority.step cfg) .initial calls n).poisoned = true →
        Fenced cfg (stateAt (Authority.step cfg) .initial calls m) := by
  have hsound : ∀ k, Sound (stateAt (Authority.step cfg) .initial calls k) :=
    invariant_stateAt sound_initial fun _ call h => (h.step call).sound
  refine ⟨(hsound n).lawful, fun a ha b hb i j hi hj => (hsound n).lawful.lease_unique ha hb hi hj,
    fun m hnm hfenced => ?_⟩
  have hharden : Hardens (stateAt (Authority.step cfg) .initial calls n)
      (stateAt (Authority.step cfg) .initial calls m) := by
    refine persists_run (I := Hardens _) hnm ⟨id, id⟩ fun k _ call _ hk => ?_
    exact hk.trans ((hsound k).step call).toHardens
  exact fenced_of (hfenced.imp hharden.closed hharden.poisoned)

namespace Sample

def config : Config := ⟨0, 0, 64, fun process => (0, process)⟩

/-- A process with the expected user is observed; every call succeeds. -/
def observed (process : Process) : Observed := ⟨process + 1, 0, 0, process, false, false, false, false⟩

def nonce : Bytes := List.replicate 32 0

/-- The second process takes over when the first has ended. -/
def takeover : List Call :=
  [.observeControl (observed 0), .prepareBind 0 "1" nonce false, .commitBind 0 false, .ends 0,
    .observeControl (observed 1), .prepareBind 1 "2" nonce false, .commitBind 1 false,
    .observeControl (observed 1), .close false]

end Sample

open Sample

theorem authority_lawful_takeover :
    (stateAt (Authority.step config) .initial takeover 8).commits.map Commit.epoch = ["1", "2"] ∧
      (stateAt (Authority.step config) .initial takeover 8).commits.IsChain Commit.Revokes ∧
      Fenced config (stateAt (Authority.step config) .initial takeover 9) :=
  ⟨by decide +kernel, (authority_lawful config takeover 8).1.revokes,
    (authority_lawful config takeover 9).2.2 9 le_rfl (by decide +kernel)⟩

end AgentBox.Peer
