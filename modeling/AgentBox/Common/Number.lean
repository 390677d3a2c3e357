import Mathlib.Tactic.Common
import Mathlib.Algebra.Order.Ring.Int

/-!
# Clock readings

Clock readings are Python numbers: integers, or floats with infinities and a NaN that no comparison
relates to anything. `PyNumber` asks only for the operations that programs apply to them and for the
laws of IEEE 754 comparison that their deadline arithmetic needs, so what is proved over it holds for
every clock. A value is comparable to itself exactly when it is not a NaN. The integers, on which all
of this is exact, are an instance.
-/

namespace AgentBox

variable {τ : Type} {a b : τ}

/-- The values a Python clock may return. -/
class PyNumber (τ : Type) extends LT τ, LE τ, Add τ where
  decLt : ∀ a b : τ, Decidable (a < b)
  decLe : ∀ a b : τ, Decidable (a ≤ b)
  /-- The number written by a literal such as `5.0`. -/
  literal : ℕ → τ
  /-- `math.isfinite`. -/
  isFinite : τ → Bool
  /-- `type(x) in (int, float)`. -/
  isNumber : τ → Bool
  le_of_lt_of_le : ∀ {a b c : τ}, a < b → b ≤ c → a ≤ c
  le_self_of_lt : ∀ {a b : τ}, a < b → a ≤ a
  lt_of_not_le : ∀ {a b : τ}, isFinite a → b ≤ b → ¬ b ≤ a → a < b
  add_literal_le_self : ∀ {a : τ} {n : ℕ}, isFinite a → a + literal n ≤ a + literal n

instance PyNumber.instDecidableLt {τ : Type} [PyNumber τ] (a b : τ) : Decidable (a < b) :=
  PyNumber.decLt a b

instance PyNumber.instDecidableLe {τ : Type} [PyNumber τ] (a b : τ) : Decidable (a ≤ b) :=
  PyNumber.decLe a b

instance : PyNumber ℤ where
  decLt := inferInstance
  decLe := inferInstance
  literal n := n
  isFinite _ := true
  isNumber _ := true
  le_of_lt_of_le h h' := h.le.trans h'
  le_self_of_lt _ := le_rfl
  lt_of_not_le _ _ h := not_le.mp h
  add_literal_le_self _ := le_rfl

/-- Python's `min(a, b)`: the first argument unless the second is smaller. -/
def pyMin {τ : Type} [PyNumber τ] (a b : τ) : τ := if b < a then b else a

/-- What has not reached `min(a, b)` has not reached `a`. -/
theorem not_le_of_not_pyMin_le [PyNumber τ] {t : τ} (h : ¬ pyMin a b ≤ t) : ¬ a ≤ t := by
  unfold pyMin at h
  split at h
  · next hlt => exact fun ha => h (PyNumber.le_of_lt_of_le hlt ha)
  · exact h

/-- A minimum whose first argument is not a NaN is not a NaN. -/
theorem pyMin_le_self [PyNumber τ] (h : a ≤ a) : pyMin a b ≤ pyMin a b := by
  unfold pyMin
  split
  · next hlt => exact PyNumber.le_self_of_lt hlt
  · exact h

end AgentBox
