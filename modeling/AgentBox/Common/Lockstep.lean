import Mathlib.Tactic.Common

/-!
# Systems in lockstep

Two implementations of one protocol, one that raises and one that returns nothing, are compared step by
step. `Lockstep R x y` says that the computations `x` and `y` fail together or succeed with results
related by `R`; there is one rule per way of composing them. Two systems whose steps answer alike and
keep their states related answer every run of calls alike.
-/

namespace AgentBox

variable {ε α β γ δ : Type}

/-- Both computations fail, or both return, with related results. -/
inductive Lockstep (R : α → β → Prop) : Except ε α → Option β → Prop
  | ok {a : α} {b : β} (h : R a b) : Lockstep R (.ok a) (some b)
  | error {e : ε} : Lockstep R (.error e) none

namespace Lockstep

variable {R : α → β → Prop} {S : γ → δ → Prop} {x x' : Except ε α} {y y' : Option β}

theorem bind {f : α → Except ε γ} {g : β → Option δ} (h : Lockstep R x y)
    (hrest : ∀ a b, R a b → Lockstep S (f a) (g b)) : Lockstep S (x >>= f) (y >>= g) := by
  cases h with
  | ok h => exact hrest _ _ h
  | error => exact .error

theorem ite {p q : Prop} [Decidable p] [Decidable q] (hcond : p ↔ q)
    (hthen : p → q → Lockstep R x y) (helse : ¬p → ¬q → Lockstep R x' y') :
    Lockstep R (if p then x else x') (if q then y else y') := by
  by_cases hp : p
  · rw [if_pos hp, if_pos (hcond.mp hp)]
    exact hthen hp (hcond.mp hp)
  · rw [if_neg hp, if_neg fun hq => hp (hcond.mpr hq)]
    exact helse hp fun hq => hp (hcond.mpr hq)

theorem isOk_eq (h : Lockstep R x y) : x.isOk = y.isSome := by
  cases h <;> rfl

theorem of_isOk_eq (h : x.isOk = y.isSome) (hR : ∀ a b, x = .ok a → y = some b → R a b) : Lockstep R x y := by
  cases x <;> cases y
  case error.none => exact .error
  case ok.some a b => exact .ok (hR a b rfl rfl)
  all_goals cases h

end Lockstep

/-! ## Related options -/

section
variable {R : α → β → Prop} {x : Option α} {y : Option β}

theorem isSome_eq_of_rel (h : Option.Rel R x y) : y.isSome = x.isSome := by
  cases h <;> rfl

theorem bind_eq_of_rel {f : α → Option γ} {g : β → Option γ} (h : Option.Rel R x y)
    (heq : ∀ a b, R a b → g b = f a) : y.bind g = x.bind f := by
  cases h with
  | some h => exact heq _ _ h
  | none => rfl

theorem any_eq_of_rel {p : α → Bool} {q : β → Bool} (h : Option.Rel R x y)
    (heq : ∀ a b, R a b → q b = p a) : y.any q = x.any p := by
  cases h with
  | some h => exact heq _ _ h
  | none => rfl

end

/-! ## Runs -/

section
variable {σ τ κ ω : Type*}

/-- The answers of a system to a run of calls. -/
def answers (step : σ → κ → ω × σ) (s : σ) : List κ → List ω
  | [] => []
  | c :: calls => (step s c).1 :: answers step (step s c).2 calls

/-- Systems whose steps answer alike from related states, and keep them related, answer every run
alike. -/
theorem answers_eq {step : σ → κ → ω × σ} {step' : τ → κ → ω × τ} {R : σ → τ → Prop} {calls : List κ}
    (hstep : ∀ c ∈ calls, ∀ s t, R s t → (step s c).1 = (step' t c).1 ∧ R (step s c).2 (step' t c).2)
    {s : σ} {t : τ} (h : R s t) : answers step s calls = answers step' t calls := by
  induction calls generalizing s t with
  | nil => rfl
  | cons c calls ih =>
    obtain ⟨hanswer, hnext⟩ := hstep c List.mem_cons_self s t h
    rw [answers, answers, hanswer, ih (fun c hc => hstep c (List.mem_cons_of_mem _ hc)) hnext]

end

end AgentBox
