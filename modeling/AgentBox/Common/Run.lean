import Mathlib.Data.Nat.Init
import Mathlib.Tactic.Common

/-!
# Runs of a deterministic system

A system is a step function from a state and a call to the next state. `stateAt` is the state a run
has reached after its first `i` calls. `persists_run` is the induction over a run, done once;
`persists_until` is the same induction for a property that holds until some call gives it up, and
`climbed` reads the history of something that can only have risen one rung at a time. `EachAfter`
relates every entry of a log to the entries before it.
-/

namespace AgentBox

open Nat

variable {σ κ : Type*} {α : Type*} {R : List α → α → Prop}

/-- The state reached from `s` after the first `i` calls. -/
def stateAt (step : σ → κ → σ) (s : σ) (calls : List κ) (i : ℕ) : σ := (calls.take i).foldl step s

section
variable {step : σ → κ → σ} {s : σ} {calls : List κ} {i : ℕ} {I : σ → Prop}

@[simp] theorem stateAt_zero : stateAt step s calls 0 = s := by simp [stateAt]

theorem stateAt_succ {c : κ} (h : calls[i]? = some c) :
    stateAt step s calls (i + 1) = step (stateAt step s calls i) c := by
  simp [stateAt, List.take_add_one, h]

theorem stateAt_of_none (h : calls[i]? = none) : stateAt step s calls (i + 1) = stateAt step s calls i := by
  simp [stateAt, List.take_add_one, h]

/-- What holds at some point of a run and is kept by its steps holds at every later one. -/
theorem persists_run {j : ℕ} (hij : i ≤ j) (h : I (stateAt step s calls i))
    (hstep : ∀ k < j, ∀ c, calls[k]? = some c → I (stateAt step s calls k) →
      I (step (stateAt step s calls k) c)) : I (stateAt step s calls j) := by
  induction j, hij using le_induction with
  | base => exact h
  | succ j _ ih =>
    have hj := ih fun k hk => hstep k (lt_succ_of_lt hk)
    cases hc : calls[j]? with
    | none => rw [stateAt_of_none hc]; exact hj
    | some c => rw [stateAt_succ hc]; exact hstep j (lt_succ_self j) c hc hj

/-- What holds initially and is kept by the steps of a run holds throughout the run. -/
theorem invariant_run (h0 : I s) (hstep : ∀ k < i, ∀ c, calls[k]? = some c → I (stateAt step s calls k) →
      I (step (stateAt step s calls k) c)) : I (stateAt step s calls i) :=
  persists_run (zero_le i) (by simpa using h0) hstep

/-- What holds initially and is kept by every step holds throughout every run. -/
theorem invariant_stateAt (h0 : I s) (hstep : ∀ t c, I t → I (step t c)) (i : ℕ) :
    I (stateAt step s calls i) :=
  invariant_run h0 fun _ _ _ _ h => hstep _ _ h

/-- What every step either keeps or gives up with `G` holds until a call that gives it up. -/
theorem persists_until {P : σ → Prop} {G : σ → κ → Prop} {j : ℕ} (hij : i ≤ j)
    (hstep : ∀ k c, calls[k]? = some c → P (stateAt step s calls k) →
      P (step (stateAt step s calls k) c) ∨ G (stateAt step s calls k) c) (h : P (stateAt step s calls i)) :
    (∀ m, i ≤ m → m ≤ j → P (stateAt step s calls m)) ∨ ∃ k c, i ≤ k ∧ k < j ∧ calls[k]? = some c ∧
        (∀ m, i ≤ m → m ≤ k → P (stateAt step s calls m)) ∧ G (stateAt step s calls k) c := by
  induction j, hij using le_induction with
  | base =>
    refine .inl fun m him hmi => ?_
    obtain rfl := Nat.le_antisymm him hmi
    exact h
  | succ j hij ih =>
    rcases ih with hall | ⟨k, c, hik, hkj, hrest⟩
    · have hj := hall j hij (Nat.le_refl j)
      have hnext : P (stateAt step s calls (j + 1)) ∨
          ∃ c, calls[j]? = some c ∧ G (stateAt step s calls j) c := by
        cases hc : calls[j]? with
        | none => rw [stateAt_of_none hc]; exact .inl hj
        | some c =>
          rw [stateAt_succ hc]
          exact (hstep j c hc hj).imp_right fun hG => ⟨c, rfl, hG⟩
      rcases hnext with hP | ⟨c, hc, hG⟩
      · refine .inl fun m him hmj => ?_
        rcases Nat.lt_or_eq_of_le hmj with hlt | rfl
        · exact hall m him (le_of_lt_succ hlt)
        · exact hP
      · exact .inr ⟨j, c, hij, lt_succ_self j, hc, hall, hG⟩
    · exact .inr ⟨k, c, hik, lt_succ_of_lt hkj, hrest⟩

end

/-- A ladder is climbed one rung at a time: something at rung `k` has been through an event for each
lower rung, in order, and has been above that rung ever since. -/
theorem climbed {At Event : ℕ → ℕ → Prop} (hstart : ∀ k, At 0 k → k = 0)
    (hstep : ∀ m k, At (m + 1) k → At m k ∨ k = 0 ∨ ∃ k', k = k' + 1 ∧ At m k' ∧ Event m k')
    {m k : ℕ} (h : At m k) : ∃ js : ℕ → ℕ, (∀ a b, a < b → b < k → js a < js b) ∧
      ∀ a < k, js a < m ∧ Event (js a) a ∧ ∀ l, js a < l → l ≤ m → ∃ b, a < b ∧ At l b := by
  induction m generalizing k with
  | zero =>
    obtain rfl := hstart k h
    exact ⟨id, fun _ _ _ hb => absurd hb (not_lt_zero _), fun _ ha =>
      absurd ha (not_lt_zero _)⟩
  | succ m ih =>
    -- being on a higher rung at the new time extends what is known up to the old one
    have hextend : ∀ {a j : ℕ}, a < k → (∀ l, j < l → l ≤ m → ∃ b, a < b ∧ At l b) →
        ∀ l, j < l → l ≤ m + 1 → ∃ b, a < b ∧ At l b := by
      intro a j ha hold l hjl hl
      rcases Nat.lt_or_eq_of_le hl with hlt | rfl
      · exact hold l hjl (le_of_lt_succ hlt)
      · exact ⟨k, ha, h⟩
    rcases hstep m k h with hsame | rfl | ⟨k', rfl, hbelow, hevent⟩
    · obtain ⟨js, hmono, hjs⟩ := ih hsame
      refine ⟨js, hmono, fun a ha => ?_⟩
      obtain ⟨hlt, hev, hrest⟩ := hjs a ha
      exact ⟨lt_succ_of_lt hlt, hev, hextend ha hrest⟩
    · exact ⟨id, fun _ _ _ hb => absurd hb (not_lt_zero _), fun _ ha =>
        absurd ha (not_lt_zero _)⟩
    · obtain ⟨js, hmono, hjs⟩ := ih hbelow
      refine ⟨fun a => if a = k' then m else js a, fun a b hab hb => ?_, fun a ha => ?_⟩
      · have ha : a ≠ k' := by omega
        by_cases hbk : b = k'
        · simp only [hbk, if_true, if_neg ha]
          exact (hjs a (by omega)).1
        · simp only [if_neg ha, if_neg hbk]
          exact hmono a b hab (by omega)
      · by_cases hak : a = k'
        · subst hak
          simp only [if_true]
          exact ⟨lt_succ_self m, hevent, hextend ha fun l hl hl' => by omega⟩
        · simp only [if_neg hak]
          obtain ⟨hlt, hev, hrest⟩ := hjs a (by omega)
          exact ⟨lt_succ_of_lt hlt, hev, hextend ha hrest⟩

/-- What is read off the selected entries of a log grows with the log. -/
theorem map_filter_concat {β : Type*} (p : α → Bool) (g : α → β) (log : List α) (x : α) :
    ((log ++ [x]).filter p).map g = (log.filter p).map g ++ if p x then [g x] else [] := by
  by_cases h : p x <;> simp [h]

/-- Every entry of a log stands in a relation to the entries before it. -/
def EachAfter {α : Type*} (R : List α → α → Prop) (log : List α) : Prop :=
  ∀ n x, log[n]? = some x → R (log.take n) x

theorem eachAfter_nil : EachAfter R [] := by
  intro n x h
  simp at h

/-- A new entry has to be related to the log as it was. -/
theorem eachAfter_concat {log : List α} {x : α} (h : EachAfter R log) (hx : R log x) :
    EachAfter R (log ++ [x]) := by
  intro n y hy
  rcases Nat.lt_or_ge n log.length with hn | hn
  · rw [List.getElem?_append_left hn] at hy
    rw [List.take_append_of_le_length (Nat.le_of_lt hn)]
    exact h n y hy
  · rw [List.getElem?_append_right hn] at hy
    obtain ⟨hlast, heq⟩ := List.getElem?_eq_some_iff.mp hy
    have hn' : n = log.length := by
      simp only [List.length_singleton] at hlast
      omega
    subst hn'
    simp only [Nat.sub_self, List.getElem_cons_zero] at heq
    rw [List.take_left]
    exact heq ▸ hx

end AgentBox
