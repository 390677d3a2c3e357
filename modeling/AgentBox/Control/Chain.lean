import AgentBox.Common.Run
import AgentBox.Control.Ledger
import Mathlib.Logic.Function.Basic
import Mathlib.Tactic.Common

/-!
# The ledger keeps one linked chain per Project

The rows of a Project are read as a function of the revision. `Linked rows h n` is the shape of a
chain: revisions `1..n`, each naming its predecessor, of which the first `h` are attested. The last
attested row is the head and those before it are superseded; a row after the head is the one open
attempt. `Persists` is what the ledger never takes back.

Every effect of a method is a small update of this function, so `linked_of_effect` is one lemma per
update; `ledger_is_linked` is the result for all runs, with the other tables changing arbitrarily.
-/

namespace AgentBox.Control

/-- The rows of one Project by revision. -/
def chain (d : Database) (p : String) (k : ℕ) : Option BindingRow := d.bindings.get? (p, k)

/-- A chain of `n` bindings, the first `h` of them attested. -/
structure Linked (rows : ℕ → Option BindingRow) (h n : ℕ) : Prop where
  last : n = h ∨ n = h + 1
  range : ∀ k, (∃ r, rows k = some r) ↔ 1 ≤ k ∧ k ≤ n
  first : ∀ r, rows 1 = some r → r.previousRevision = none ∧ r.previousDigest = none
  link : ∀ k r, 1 ≤ k → rows (k + 1) = some r → r.previousRevision = some k ∧
    ∃ s, rows k = some s ∧ s.bindingDigest.isSome = true ∧ r.previousDigest = s.bindingDigest
  past : ∀ k r, k < h → rows k = some r → r.bindingDigest.isSome = true ∧ r.status = .superseded
  head : ∀ r, rows h = some r → r.isHead = true
  attempt : ∀ k r, h < k → rows k = some r → r.isOpen = true

/-- A digest is kept and a superseded row stays superseded. -/
def Persists (rows rows' : ℕ → Option BindingRow) : Prop :=
  ∀ k r, rows k = some r → ∃ r', rows' k = some r' ∧
    (∀ x, r.bindingDigest = some x → r'.bindingDigest = some x) ∧
    (r.status = .superseded → r'.status = .superseded)

theorem Persists.refl (rows : ℕ → Option BindingRow) : Persists rows rows :=
  fun _ r hr => ⟨r, hr, fun _ h => h, id⟩

theorem Persists.trans {a b c : ℕ → Option BindingRow} (hab : Persists a b) (hbc : Persists b c) :
    Persists a c := by
  intro k r hr
  obtain ⟨s, hs, hdigest, hstatus⟩ := hab k r hr
  obtain ⟨t, ht, hdigest', hstatus'⟩ := hbc k s hs
  exact ⟨t, ht, fun x hx => hdigest' x (hdigest x hx), fun h => hstatus' (hstatus h)⟩

/-- Writing a row that keeps what the old one had. -/
theorem Persists.update {rows : ℕ → Option BindingRow} {k : ℕ} {new : BindingRow}
    (h : ∀ r, rows k = some r → (∀ x, r.bindingDigest = some x → new.bindingDigest = some x) ∧
      (r.status = .superseded → new.status = .superseded)) :
    Persists rows (Function.update rows k (some new)) := by
  intro j r hr
  by_cases hj : j = k
  · subst hj
    exact ⟨new, Function.update_self .., h r hr⟩
  · exact ⟨r, (Function.update_of_ne hj ..).trans hr, fun _ hx => hx, id⟩

/-! ## Open attempts and heads -/

section
variable {r : BindingRow} {now : ℕ}

theorem isOpen_iff : r.isOpen = true ↔
    r.bindingDigest = none ∧ (r.status = .pending ∨ r.status = .reconciliationRequired) := by
  simp [BindingRow.isOpen]

theorem isHead_iff : r.isHead = true ↔
    r.bindingDigest.isSome = true ∧ (r.status = .current ∨ r.status = .reconciliationRequired) := by
  simp [BindingRow.isHead]

/-- The digest tells a head from an attempt. -/
theorem not_isOpen_of_isSome (h : r.bindingDigest.isSome = true) : r.isOpen = false := by
  simp [BindingRow.isOpen, Option.isSome_iff_ne_none.mp h]

theorem isHead_attested (row : BindingRow) (digest : String) (now : ℕ) :
    (attested row digest now).isHead = true := rfl

theorem isOpen_attempt (q : Reservation) (key : String) (now : ℕ) : (q.attempt key now).isOpen = true :=
  rfl

/-- Doubting a row moves it within its class. -/
theorem isHead_doubted (h : r.isHead = true) : (doubted r now).isHead = true := by
  rw [isHead_iff] at h ⊢
  exact ⟨h.1, .inr rfl⟩

theorem isOpen_doubted (h : r.isOpen = true) : (doubted r now).isOpen = true := by
  rw [isOpen_iff] at h ⊢
  exact ⟨h.1, .inr rfl⟩

end

/-! ## The chain under the effects -/

namespace Linked

variable {rows : ℕ → Option BindingRow} {h n : ℕ} {k : ℕ} {r : BindingRow}
  {rows' : ℕ → Option BindingRow} {row : BindingRow}

section
variable (hl : Linked rows h n)
include hl

theorem mem (hr : rows k = some r) : 1 ≤ k ∧ k ≤ n :=
  (hl.range k).mp ⟨r, hr⟩

theorem zero : rows 0 = none := by
  cases hr : rows 0 with
  | none => rfl
  | some r =>
    have := (hl.mem hr).1
    omega

/-- The attested rows are those up to the head. -/
theorem isSome_iff (hr : rows k = some r) : r.bindingDigest.isSome = true ↔ k ≤ h := by
  constructor
  · intro hsome
    by_contra hk
    have := hl.attempt k r (by omega) hr
    rw [not_isOpen_of_isSome hsome] at this
    contradiction
  · intro hk
    rcases Nat.lt_or_eq_of_le hk with hlt | rfl
    · exact (hl.past k r hlt hr).1
    · exact (isHead_iff.mp (hl.head r hr)).1

theorem eq_of_isHead (hr : rows k = some r) (hhead : r.isHead = true) : k = h := by
  obtain ⟨hsome, hstatus⟩ := isHead_iff.mp hhead
  have hk := (hl.isSome_iff hr).mp hsome
  by_contra hne
  obtain ⟨-, hsuperseded⟩ := hl.past k r (by omega) hr
  rw [hsuperseded] at hstatus
  rcases hstatus with hstatus | hstatus <;> contradiction

theorem eq_of_isOpen (hr : rows k = some r) (hopen : r.isOpen = true) : k = h + 1 ∧ n = h + 1 := by
  have hk : ¬k ≤ h := by
    intro hk
    rw [not_isOpen_of_isSome ((hl.isSome_iff hr).mpr hk)] at hopen
    contradiction
  have := (hl.mem hr).2
  have := hl.last
  omega

/-- Without an open attempt every row is attested. -/
theorem eq_of_no_attempt (hno : ∀ k r, rows k = some r → r.isOpen = false) : n = h := by
  rcases hl.last with hn | hn
  · exact hn
  · obtain ⟨r, hr⟩ := (hl.range n).mpr ⟨by omega, Nat.le_refl n⟩
    have hopen := hl.attempt n r (by omega) hr
    rw [hno n r hr] at hopen
    contradiction

end

theorem empty : Linked (fun _ => none) 0 0 where
  last := .inl rfl
  range := fun k => ⟨fun ⟨_, hr⟩ => absurd hr (by simp), fun hk => by omega⟩
  first := fun _ hr => absurd hr (by simp)
  link := fun _ _ _ hr => absurd hr (by simp)
  past := fun _ _ _ hr => absurd hr (by simp)
  head := fun _ hr => absurd hr (by simp)
  attempt := fun _ _ _ hr => absurd hr (by simp)

/-- An attempt after the head that names the head as its predecessor. -/
theorem reserve (hl : Linked rows h h) {new : BindingRow} (hopen : new.isOpen = true)
    (hfirst : h = 0 → new.previousRevision = none ∧ new.previousDigest = none)
    (hnext : ∀ r, rows h = some r → new.previousRevision = some h ∧ new.previousDigest = r.bindingDigest) :
    Linked (Function.update rows (h + 1) (some new)) h (h + 1) := by
  have hold : ∀ {k : ℕ}, k ≠ h + 1 → Function.update rows (h + 1) (some new) k = rows k :=
    fun hk => Function.update_of_ne hk ..
  have hnew : Function.update rows (h + 1) (some new) (h + 1) = some new := Function.update_self ..
  refine ⟨.inr rfl, fun k => ?_, fun r hr => ?_, fun k r hk hr => ?_, fun k r hk hr => ?_,
    fun r hr => ?_, fun k r hk hr => ?_⟩
  · by_cases hk : k = h + 1
    · subst hk
      exact ⟨fun _ => by omega, fun _ => ⟨new, hnew⟩⟩
    · rw [hold hk, hl.range]
      omega
  · by_cases hh : h = 0
    · subst hh
      cases hnew.symm.trans hr
      exact hfirst rfl
    · rw [hold (by omega)] at hr
      exact hl.first r hr
  · by_cases hkh : k = h
    · subst hkh
      cases hnew.symm.trans hr
      obtain ⟨s, hs⟩ := (hl.range k).mpr ⟨hk, Nat.le_refl k⟩
      obtain ⟨hrev, hdigest⟩ := hnext s hs
      exact ⟨hrev, s, (hold (by omega)).trans hs, (hl.isSome_iff hs).mpr (Nat.le_refl k), hdigest⟩
    · rw [hold (by omega)] at hr
      obtain ⟨hrev, s, hs, hrest⟩ := hl.link k r hk hr
      have := hl.mem hr
      exact ⟨hrev, s, (hold (by omega)).trans hs, hrest⟩
  · rw [hold (by omega)] at hr
    exact hl.past k r hk hr
  · rw [hold (by omega)] at hr
    exact hl.head r hr
  · by_cases hkh : k = h + 1
    · subst hkh
      cases hnew.symm.trans hr
      exact hopen
    · rw [hold hkh] at hr
      have := hl.mem hr
      omega

/-- Rewriting rows without touching their links. The other fields say where the head is now. -/
theorem rewrite {h' : ℕ} (hl : Linked rows h n) (hlast : n = h' ∨ n = h' + 1)
    (hsame : ∀ k r', rows' k = some r' → ∃ r, rows k = some r ∧
      r'.previousRevision = r.previousRevision ∧ r'.previousDigest = r.previousDigest)
    (hkept : Persists rows rows')
    (hpast : ∀ k r', k < h' → rows' k = some r' → r'.bindingDigest.isSome = true ∧ r'.status = .superseded)
    (hhead : ∀ r', rows' h' = some r' → r'.isHead = true)
    (hattempt : ∀ k r', h' < k → rows' k = some r' → r'.isOpen = true) : Linked rows' h' n where
  last := hlast
  range := by
    intro k
    rw [← hl.range]
    constructor
    · rintro ⟨r', hr'⟩
      obtain ⟨r, hr, -⟩ := hsame k r' hr'
      exact ⟨r, hr⟩
    · rintro ⟨r, hr⟩
      obtain ⟨r', hr', -⟩ := hkept k r hr
      exact ⟨r', hr'⟩
  first := by
    intro r' hr'
    obtain ⟨r, hr, hrev, hdigest⟩ := hsame 1 r' hr'
    rw [hrev, hdigest]
    exact hl.first r hr
  link := by
    intro k r' hk hr'
    obtain ⟨r, hr, hrev, hdigest⟩ := hsame (k + 1) r' hr'
    obtain ⟨hlink, s, hs, hsome, hnamed⟩ := hl.link k r hk hr
    obtain ⟨x, hx⟩ := Option.isSome_iff_exists.mp hsome
    -- the predecessor's digest has not changed
    obtain ⟨s', hs', hkeep, -⟩ := hkept k s hs
    refine ⟨hrev.trans hlink, s', hs', ?_, ?_⟩
    · rw [hkeep x hx]
      rfl
    · rw [hdigest, hnamed, hx, hkeep x hx]
  past := hpast
  head := hhead
  attempt := hattempt

/-- The open attempt becomes the head and its predecessor, if it has one, steps down. -/
theorem commit {digest : String} {now : ℕ} (hl : Linked rows h (h + 1))
    (hrow : rows (h + 1) = some row) (hnew : rows' (h + 1) = some (attested row digest now))
    (hpred : ∀ r, rows h = some r → rows' h = some (superseded r now))
    (hrest : ∀ k, k ≠ h → k ≠ h + 1 → rows' k = rows k) (hzero : rows' 0 = none) :
    Linked rows' (h + 1) (h + 1) ∧ Persists rows rows' := by
  have hopen := hl.attempt (h + 1) row (Nat.lt_succ_self h) hrow
  obtain ⟨hnone, hstatus⟩ := isOpen_iff.mp hopen
  have hkept : Persists rows rows' := by
    intro k r hr
    by_cases hk : k = h + 1
    · subst hk
      cases hrow.symm.trans hr
      refine ⟨_, hnew, fun x hx => ?_, fun hs => ?_⟩
      · rw [hnone] at hx
        contradiction
      · rw [hs] at hstatus
        rcases hstatus with hstatus | hstatus <;> contradiction
    · by_cases hkh : k = h
      · subst hkh
        exact ⟨_, hpred r hr, fun _ hx => hx, fun _ => rfl⟩
      · exact ⟨r, (hrest k hkh hk).trans hr, fun _ hx => hx, id⟩
  have hback : ∀ r', rows' h = some r' → ∃ r, rows h = some r ∧ r' = superseded r now := by
    intro r' hr'
    rcases Nat.eq_zero_or_pos h with rfl | hpos
    · rw [hzero] at hr'
      contradiction
    · obtain ⟨r, hr⟩ := (hl.range h).mpr ⟨hpos, by omega⟩
      exact ⟨r, hr, Option.some.inj (hr'.symm.trans (hpred r hr))⟩
  refine ⟨hl.rewrite (.inl rfl) (fun k r' hr' => ?_) hkept (fun k r' hk hr' => ?_) (fun r' hr' => ?_)
    (fun k r' hk hr' => ?_), hkept⟩
  · by_cases hk : k = h + 1
    · subst hk
      cases hnew.symm.trans hr'
      exact ⟨row, hrow, rfl, rfl⟩
    · by_cases hkh : k = h
      · subst hkh
        obtain ⟨r, hr, rfl⟩ := hback r' hr'
        exact ⟨r, hr, rfl, rfl⟩
      · rw [hrest k hkh hk] at hr'
        exact ⟨r', hr', rfl, rfl⟩
  · by_cases hkh : k = h
    · subst hkh
      obtain ⟨r, hr, rfl⟩ := hback r' hr'
      exact ⟨(hl.isSome_iff hr).mpr (Nat.le_refl k), rfl⟩
    · rw [hrest k hkh (by omega)] at hr'
      exact hl.past k r' (by omega) hr'
  · cases hnew.symm.trans hr'
    exact isHead_attested ..
  · rw [hrest k (by omega) (by omega)] at hr'
    have := (hl.mem hr').2
    omega

/-- Doubting the head or the attempt. -/
theorem doubt (hl : Linked rows h n) (now : ℕ) (hrow : rows k = some row)
    (hstatus : row.status = .pending ∨ row.status = .current) :
    Linked (Function.update rows k (some (doubted row now))) h n ∧
      Persists rows (Function.update rows k (some (doubted row now))) := by
  have hkept : Persists rows (Function.update rows k (some (doubted row now))) := by
    apply Persists.update
    intro r hr
    cases hrow.symm.trans hr
    refine ⟨fun _ hx => hx, fun hs => ?_⟩
    rw [hs] at hstatus
    rcases hstatus with hstatus | hstatus <;> contradiction
  -- a row of the new chain is an old one, or the doubted one in its place
  have hcases : ∀ j r', Function.update rows k (some (doubted row now)) j = some r' →
      (j = k ∧ r' = doubted row now) ∨ rows j = some r' := by
    intro j r' hr'
    by_cases hj : j = k
    · subst hj
      rw [Function.update_self] at hr'
      exact .inl ⟨rfl, (Option.some.inj hr').symm⟩
    · rw [Function.update_of_ne hj] at hr'
      exact .inr hr'
  refine ⟨hl.rewrite hl.last (fun j r' hr' => ?_) hkept (fun j r' hj hr' => ?_) (fun r' hr' => ?_)
    (fun j r' hj hr' => ?_), hkept⟩
  · obtain ⟨rfl, rfl⟩ | hr := hcases j r' hr'
    · exact ⟨row, hrow, rfl, rfl⟩
    · exact ⟨r', hr, rfl, rfl⟩
  · obtain ⟨rfl, rfl⟩ | hr := hcases j r' hr'
    · rw [(hl.past j row hj hrow).2] at hstatus
      rcases hstatus with hstatus | hstatus <;> contradiction
    · exact hl.past j r' hj hr
  · obtain ⟨rfl, rfl⟩ | hr := hcases h r' hr'
    · exact isHead_doubted (hl.head row hrow)
    · exact hl.head r' hr
  · obtain ⟨rfl, rfl⟩ | hr := hcases j r' hr'
    · exact isOpen_doubted (hl.attempt j row hj hrow)
    · exact hl.attempt j r' hj hr

end Linked

/-! ## Every step keeps every chain -/

section
variable {u : Unicode} {d d' : Database} {p : String}

variable (bindings : Dict (String × ℕ) BindingRow)

theorem chain_set_self (p : String) (k : ℕ) (r : BindingRow)
    (j : ℕ) : (bindings.set (p, k) r).get? (p, j) =
      Function.update (fun k => bindings.get? (p, k)) k (some r) j := by
  by_cases hj : j = k
  · subst hj
    rw [Dict.get?_set_self, Function.update_self]
  · have hne : (p, j) ≠ (p, k) := fun h => hj (Prod.mk.inj h).2
    rw [Dict.get?_set_of_ne _ hne, Function.update_of_ne hj]

theorem chain_set_of_ne {p' : String} (hp : p' ≠ p)
    (k : ℕ) (r : BindingRow) (j : ℕ) : (bindings.set (p, k) r).get? (p', j) = bindings.get? (p', j) :=
  Dict.get?_set_of_ne _ (fun h => hp (Prod.mk.inj h).1) _

section
variable {q : BindingRow → Bool}

/-- No row of a Project is selected exactly if its chain has none. -/
theorem firstEntry_chain_eq_none_iff :
    (d.bindings.firstEntry fun k r => k.1 == p && q r) = none ↔ ∀ k r, chain d p k = some r → q r = false := by
  rw [Dict.firstEntry_eq_none_iff]
  constructor
  · intro h k r hr
    simpa using h (p, k) r hr
  · rintro h ⟨p', k⟩ r hr
    by_cases hp : p' = p
    · subst hp
      simp [h k r hr]
    · simp [hp]

theorem of_firstEntry_chain {k : String × ℕ} {r : BindingRow}
    (h : (d.bindings.firstEntry fun k r => k.1 == p && q r) = some (k, r)) :
    k.1 = p ∧ chain d p k.2 = some r ∧ q r = true := by
  obtain ⟨hget, hp⟩ := Dict.of_firstEntry h
  simp only [Bool.and_eq_true, beq_iff_eq] at hp
  obtain ⟨rfl, hq⟩ := hp
  exact ⟨rfl, hget, hq⟩

end

theorem openAttempt_eq_none_iff : openAttempt d p = none ↔ ∀ k r, chain d p k = some r → r.isOpen = false :=
  firstEntry_chain_eq_none_iff

theorem head_eq_none_iff : head d p = none ↔ ∀ k r, chain d p k = some r → r.isHead = false :=
  firstEntry_chain_eq_none_iff

/-- Each Project's rows form a chain. -/
def AllLinked (d : Database) : Prop := ∀ p, ∃ h n, Linked (chain d p) h n

/-- What a step makes of the chains. -/
def Grows (d d' : Database) : Prop :=
  ∀ p, (∃ h n, Linked (chain d' p) h n) ∧ Persists (chain d p) (chain d' p)

theorem Grows.of_bindings_eq (hl : AllLinked d) (h : d'.bindings = d.bindings) : Grows d d' := by
  intro p
  have heq : chain d' p = chain d p := by
    funext k
    rw [chain, h, chain]
  rw [heq]
  exact ⟨hl p, .refl _⟩

/-- Only the chain of the Project that is written to has to be looked at. -/
theorem Grows.of_project (hl : AllLinked d)
    (hother : ∀ p' k, p' ≠ p → d'.bindings.get? (p', k) = d.bindings.get? (p', k))
    (h : (∃ h n, Linked (chain d' p) h n) ∧ Persists (chain d p) (chain d' p)) : Grows d d' := by
  intro p'
  by_cases hp : p' = p
  · subst hp
    exact h
  · have heq : chain d' p' = chain d p' := funext fun k => hother p' k hp
    rw [heq]
    exact ⟨hl p', .refl _⟩

/-- Storing a new attempt. -/
theorem grows_of_reserved {q : Reservation} {key : String} {now k : ℕ} (hl : AllLinked d)
    (hopen : openAttempt d q.projectId = none) (hnew : (q.projectId, k + 1) ∉ d.bindings)
    (hfirst : k = 0 → q.expectedHeadRevision = none ∧ q.expectedHeadDigest = none)
    (hnext : ∀ r, chain d q.projectId k = some r → q.expectedHeadRevision = some k ∧
      q.expectedHeadDigest = r.bindingDigest) (hk : ∀ h, Linked (chain d q.projectId) h h → h = k) :
    Grows d { d with bindings := d.bindings.set (q.projectId, k + 1) (q.attempt key now) } := by
  apply Grows.of_project (p := q.projectId) hl fun p' j hp => chain_set_of_ne _ hp ..
  have hchain : chain { d with bindings := d.bindings.set (q.projectId, k + 1) (q.attempt key now) }
      q.projectId = Function.update (chain d q.projectId) (k + 1) (some (q.attempt key now)) :=
    funext fun j => chain_set_self ..
  rw [hchain]
  obtain ⟨h, n, hlinked⟩ := hl q.projectId
  obtain rfl := hlinked.eq_of_no_attempt (openAttempt_eq_none_iff.mp hopen)
  obtain rfl := hk n hlinked
  refine ⟨⟨n, n + 1, hlinked.reserve (isOpen_attempt ..) hfirst hnext⟩, ?_⟩
  apply Persists.update
  intro r hr
  exact absurd (Dict.mem_of_get? hr) hnew

theorem grows_of_effect (he : Effect u d d') (hl : AllLinked d) : Grows d d' := by
  cases he with
  | fenced ws => exact .of_bindings_eq hl rfl
  | reservedFirst now hat hhost hopen hhead hr hd hnew hchecked =>
    refine grows_of_reserved (k := 0) hl hopen hnew (fun _ => ⟨hr, hd⟩) (fun r hr => ?_) fun h hlinked => ?_
    · obtain ⟨h, n, hlinked⟩ := hl _
      have := (hlinked.mem hr).1
      omega
    · by_contra hne
      obtain ⟨r, hr⟩ := (hlinked.range h).mpr ⟨by omega, Nat.le_refl h⟩
      have hhead' := hlinked.head r hr
      rw [head_eq_none_iff.mp hhead h r hr] at hhead'
      contradiction
  | reservedNext now hat hhost hopen hhead hr hd hmax hnew hchecked =>
    obtain ⟨-, hrow, hishead⟩ := of_firstEntry_chain hhead
    refine grows_of_reserved hl hopen hnew (fun hk => ?_) (fun r hr' => ?_) fun h hlinked => ?_
    · obtain ⟨h, n, hlinked⟩ := hl _
      have := (hlinked.mem hrow).1
      omega
    · cases hrow.symm.trans hr'
      exact ⟨hr, hd⟩
    · exact (hlinked.eq_of_isHead hrow hishead).symm
  | committedFirst now hrow hopen hat hdigest hprevious hchecked =>
    rename_i p k row digest
    apply Grows.of_project (p := p) hl fun p' j hp => chain_set_of_ne _ hp ..
    obtain ⟨h, n, hlinked⟩ := hl p
    obtain ⟨rfl, rfl⟩ := hlinked.eq_of_isOpen hrow hopen
    -- a row without predecessor is the first of its chain
    obtain rfl : h = 0 := by
      by_contra hne
      have := (hlinked.link h row (by omega) hrow).1
      rw [hprevious] at this
      contradiction
    have hnew : chain { d with bindings := d.bindings.set (p, 0 + 1) (attested row digest now) } p
        (0 + 1) = some (attested row digest now) := Dict.get?_set_self ..
    have hrest : ∀ k, k ≠ 0 + 1 →
        chain { d with bindings := d.bindings.set (p, 0 + 1) (attested row digest now) } p k = chain d p k :=
      fun k hk => (chain_set_self ..).trans (Function.update_of_ne hk ..)
    have hcommit := hlinked.commit hrow hnew (fun r hr => absurd (hlinked.mem hr).1 (by omega))
      (fun k _ hk => hrest k hk) ((hrest 0 (by omega)).trans hlinked.zero)
    exact ⟨⟨1, 1, hcommit.1⟩, hcommit.2⟩
  | committedNext now hrow hopen hat hdigest hprevious hpred hchecked hchecked' =>
    rename_i p k j row pred digest
    apply Grows.of_project (p := p) hl
    · intro p' i hp
      exact (chain_set_of_ne _ hp ..).trans (chain_set_of_ne _ hp ..)
    obtain ⟨h, n, hlinked⟩ := hl p
    obtain ⟨rfl, rfl⟩ := hlinked.eq_of_isOpen hrow hopen
    have hpos : h ≠ 0 := by
      rintro rfl
      rw [(hlinked.first row hrow).1] at hprevious
      contradiction
    obtain ⟨hlink, -⟩ := hlinked.link h row (by omega) hrow
    obtain rfl : h = j := Option.some.inj (hlink.symm.trans hprevious)
    have hne : ∀ {a b : ℕ}, a ≠ b → (p, a) ≠ (p, b) := fun hab h => hab (Prod.mk.inj h).2
    have hnew : chain { d with bindings :=
        (d.bindings.set (p, h) (superseded pred now)).set (p, h + 1) (attested row digest now) } p
        (h + 1) = some (attested row digest now) := Dict.get?_set_self ..
    have hcommit := hlinked.commit hrow hnew ?_ ?_ ?_
    · exact ⟨⟨h + 1, h + 1, hcommit.1⟩, hcommit.2⟩
    · intro r hr
      cases hpred.symm.trans hr
      exact (Dict.get?_set_of_ne _ (hne (by omega)) _).trans (Dict.get?_set_self ..)
    · intro i hi hi'
      exact (Dict.get?_set_of_ne _ (hne hi') _).trans (Dict.get?_set_of_ne _ (hne hi) _)
    · exact (Dict.get?_set_of_ne _ (hne (by omega)) _).trans
        ((Dict.get?_set_of_ne _ (hne (by omega)) _).trans hlinked.zero)
  | doubted now ws hrow hstatus hchecked =>
    rename_i p k row
    apply Grows.of_project (p := p) hl fun p' j hp => chain_set_of_ne _ hp ..
    obtain ⟨h, n, hlinked⟩ := hl p
    have hdoubt := hlinked.doubt now hrow hstatus
    have hchain : chain { d with
          bindings := d.bindings.set (p, k) (Control.doubted row now)
          workspaces := ws } p =
        Function.update (chain d p) k (some (Control.doubted row now)) :=
      funext fun j => chain_set_self ..
    rw [hchain]
    exact ⟨⟨h, n, hdoubt.1⟩, hdoubt.2⟩

end

/-! ## Runs -/

/-- What happens to the tables: a call of the ledger, or anything else that leaves the bindings alone. -/
inductive LedgerEvent where
  | call (c : LedgerCall)
  | outside (projects : Dict String Project) (hosts : Dict String RuntimeHost)
      (workspaces : Dict String WorkspaceRow) (stops : Dict String StopRow)

def ledgerEvent (u : Unicode) (d : Database) : LedgerEvent → Database
  | .call c => ledgerStep u d c
  | .outside projects hosts workspaces stops => ⟨projects, hosts, workspaces, stops, d.bindings⟩

/-- The tables after the first `i` events. -/
def ledgerAfter (u : Unicode) (d : Database) (events : List LedgerEvent) (i : ℕ) : Database :=
  stateAt (ledgerEvent u) d events i

section
variable {u : Unicode} {d : Database} {events : List LedgerEvent}

theorem grows_of_event (e : LedgerEvent) (hl : AllLinked d) : Grows d (ledgerEvent u d e) := by
  cases e with
  | call c => exact grows_of_effect (effect_of_ledger u d c) hl
  | outside projects hosts workspaces stops => exact .of_bindings_eq hl rfl

theorem allLinked_ledgerAfter (u : Unicode) (hempty : d.bindings = .empty) (events : List LedgerEvent)
    (i : ℕ) : AllLinked (ledgerAfter u d events i) := by
  apply invariant_stateAt (I := AllLinked)
  · intro p
    refine ⟨0, 0, ?_⟩
    have hchain : chain d p = fun _ => none := by
      funext k
      rw [chain, hempty, Dict.get?_empty]
    rw [hchain]
    exact .empty
  · intro t e ht p
    exact (grows_of_event e ht p).1

/-- What a chain has at one point of a run persists to every later one. -/
theorem persists_ledgerAfter (hempty : d.bindings = .empty) (p : String) {i j : ℕ} (hij : i ≤ j) :
    Persists (chain (ledgerAfter u d events i) p) (chain (ledgerAfter u d events j) p) := by
  refine persists_run (I := fun t => Persists _ (chain t p)) hij (.refl _) fun k _ e _ hk => ?_
  exact hk.trans (grows_of_event e (allLinked_ledgerAfter u hempty events k) p).2

end

namespace Sample

/-- The tables on the keys below: letters and digits, no combining characters. -/
def ascii : Unicode := ⟨id, fun c => if c.isAlphanum then "Ll" else "Po", Char.isAlphanum⟩

/-- One ready Project and one host. -/
def registry : Database where
  projects := Dict.empty.set "prj_00000000000000000000000000000000" ⟨"app", .ready, none, 1, none, 0⟩
  hosts := Dict.empty.set "wri_00000000000000000000000000000000" ⟨1, none, 0⟩
  workspaces := .empty
  stops := .empty
  bindings := .empty

def firstReservation : Reservation where
  projectId := "prj_00000000000000000000000000000000"
  expectedProjectRevision := 1
  hostId := "wri_00000000000000000000000000000000"
  hostRevision := 1
  expectedHeadRevision := none
  expectedHeadDigest := none

def digest : String := "0000000000000000000000000000000000000000000000000000000000000000"

/-- A first binding is reserved, committed, and doubted; a second one is reserved. -/
def registration : List LedgerEvent :=
  [.call (.reserve firstReservation 1), .call (.commit firstReservation.projectId 1 1 digest 2),
    .call (.requireReconciliation firstReservation.projectId 1 (some digest) 3),
    .call (.reserve { firstReservation with
      expectedHeadRevision := some 1
      expectedHeadDigest := some digest } 4)]

end Sample

open Sample

/-- In every run of the ledger, whatever happens to the other tables in between: the rows of a Project
are the revisions `1..n`, each after the first names its predecessor with its digest, only the last
may lack a digest, at most one attested row is not superseded and all before it are, and no digest and
no supersession is ever taken back. -/
theorem ledger_is_linked (u : Unicode) (d : Database) (hempty : d.bindings = .empty)
    (events : List LedgerEvent) (i : ℕ) (p : String) :
    ∃ n, (∀ k, (p, k) ∈ (ledgerAfter u d events i).bindings ↔ 1 ≤ k ∧ k ≤ n) ∧
      (∀ k row, 1 < k → (ledgerAfter u d events i).bindings.get? (p, k) = some row →
        row.previousRevision = some (k - 1) ∧
          ∃ pred, (ledgerAfter u d events i).bindings.get? (p, k - 1) = some pred ∧
            pred.bindingDigest.isSome = true ∧ row.previousDigest = pred.bindingDigest) ∧
      (∀ k row, (ledgerAfter u d events i).bindings.get? (p, k) = some row →
        row.bindingDigest = none → k = n) ∧
      (∀ k row, (ledgerAfter u d events i).bindings.get? (p, k) = some row → row.isHead = true →
        ∀ j other, (ledgerAfter u d events i).bindings.get? (p, j) = some other →
          (other.isHead = true → j = k) ∧ (j < k → other.status = .superseded)) ∧
      (∀ j, i ≤ j → ∀ k row, (ledgerAfter u d events i).bindings.get? (p, k) = some row →
        ∃ row', (ledgerAfter u d events j).bindings.get? (p, k) = some row' ∧
          (∀ x, row.bindingDigest = some x → row'.bindingDigest = some x) ∧
          (row.status = .superseded → row'.status = .superseded)) := by
  obtain ⟨h, n, hl⟩ := allLinked_ledgerAfter u hempty events i p
  refine ⟨n, fun k => ?_, fun k row hk hrow => ?_, fun k row hrow hnone => ?_,
    fun k row hrow hhead j other hother => ⟨fun hhead' => ?_, fun hj => ?_⟩, fun j hij => ?_⟩
  · rw [Dict.mem_iff_exists]
    exact hl.range k
  · obtain ⟨m, rfl⟩ : ∃ m, k = m + 1 := ⟨k - 1, by omega⟩
    exact hl.link m row (by omega) hrow
  · have hk := mt (hl.isSome_iff hrow).mpr (by rw [hnone]; exact Bool.false_ne_true)
    have := (hl.mem hrow).2
    have := hl.last
    omega
  · rw [hl.eq_of_isHead hother hhead', hl.eq_of_isHead hrow hhead]
  · exact (hl.past j other (hl.eq_of_isHead hrow hhead ▸ hj) hother).2
  · exact persists_ledgerAfter hempty p hij

/-- The second binding of a Project names the first one, whose digest stays. -/
theorem ledger_is_linked_registration : ∃ row, (ledgerAfter ascii registry registration 4).bindings.get?
        (firstReservation.projectId, 2) = some row ∧ row.previousRevision = some 1 := by
  have hrow : ((ledgerAfter ascii registry registration 4).bindings.get?
      (firstReservation.projectId, 2)).isSome = true := by
    decide +kernel
  obtain ⟨row, hrow⟩ := Option.isSome_iff_exists.mp hrow
  obtain ⟨n, -, hlink, -⟩ := ledger_is_linked ascii registry rfl registration 4 firstReservation.projectId
  exact ⟨row, hrow, (hlink 2 row (by omega) hrow).1⟩

end AgentBox.Control
