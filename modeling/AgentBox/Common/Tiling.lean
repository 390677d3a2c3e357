import Mathlib.Data.Nat.Init
import Mathlib.Tactic.Common

/-!
# Tilings

A list of ranges tiles `(a, b]` when the ranges follow one another without a hole: the first starts
right after `a`, each other right after the end of its predecessor, and the last ends at `b`. An empty
list tiles the empty range. Ranges that may reach back into their predecessors only span `(a, b]`: that
is what is left of a tiling when it is read from the middle of a range.
-/

namespace AgentBox

section
variable {α : Type*} (first last : α → ℕ)

/-- The ranges `[first x, last x]` follow one another from `a` to `b`. -/
def Tiles : ℕ → List α → ℕ → Prop
  | a, [], b => a = b
  | a, x :: xs, b => first x = a + 1 ∧ a < last x ∧ Tiles (last x) xs b

/-- The ranges `[first x, last x]` leave no hole from `a` to `b`. -/
def Spans : ℕ → List α → ℕ → Prop
  | a, [], b => a = b
  | a, x :: xs, b => first x ≤ a + 1 ∧ a < last x ∧ Spans (last x) xs b

variable {first last} {a b c : ℕ} {xs ys : List α} {x : α}

namespace Tiles

theorem append_iff : Tiles first last a (xs ++ ys) b ↔
    ∃ m, Tiles first last a xs m ∧ Tiles first last m ys b := by
  induction xs generalizing a with
  | nil => simp [Tiles]
  | cons x xs ih => simp [Tiles, ih, and_assoc]

section
variable (h : Tiles first last a xs b)
include h

theorem append (h' : Tiles first last b ys c) : Tiles first last a (xs ++ ys) c :=
  append_iff.mpr ⟨b, h, h'⟩

theorem concat (hfirst : first x = b + 1) (hlast : b < last x) : Tiles first last a (xs ++ [x]) (last x) :=
  h.append ⟨hfirst, hlast, rfl⟩

theorem le : a ≤ b := by
  induction xs generalizing a with
  | nil => exact Nat.le_of_eq h
  | cons x xs ih =>
    have := ih h.2.2
    have := h.2.1
    omega

/-- The ranges stay within the tiled one. -/
theorem within (hx : x ∈ xs) : a < first x ∧ first x ≤ last x ∧ last x ≤ b := by
  induction xs generalizing a with
  | nil => cases hx
  | cons y xs ih =>
    obtain ⟨hfirst, hlast, hrest⟩ := h
    rcases List.mem_cons.mp hx with rfl | hx
    · exact ⟨by omega, by omega, hrest.le⟩
    · obtain ⟨hlo, hhi⟩ := ih hrest hx
      exact ⟨by omega, hhi⟩

/-- Each range ends before the later ones start. -/
theorem pairwise : xs.Pairwise fun x y => last x < first y := by
  induction xs generalizing a with
  | nil => exact .nil
  | cons x xs ih => exact .cons (fun y hy => (h.2.2.within hy).1) (ih h.2.2)

theorem spans : Spans first last a xs b := by
  induction xs generalizing a with
  | nil => exact h
  | cons x xs ih => exact ⟨Nat.le_of_eq h.1, h.2.1, ih h.2.2⟩

/-- The ranges that reach beyond a position span the rest. -/
theorem filter_beyond (ha : a ≤ c) (hb : c ≤ b) :
    Spans first last c (xs.filter fun x => decide (c < last x)) b := by
  induction xs generalizing a with
  | nil =>
    have hab : a = b := h
    simp only [List.filter_nil, Spans]
    omega
  | cons x xs ih =>
    obtain ⟨hfirst, hlast, hrest⟩ := h
    by_cases hc : c < last x
    · -- from the first range that is kept on, all are
      have hall : xs.filter (fun y => decide (c < last y)) = xs := by
        rw [List.filter_eq_self]
        intro y hy
        have hy' := hrest.within hy
        simp only [decide_eq_true_eq]
        omega
      rw [List.filter_cons_of_pos (by simpa using hc), hall]
      exact ⟨by omega, hc, hrest.spans⟩
    · rw [List.filter_cons_of_neg (by simpa using hc)]
      exact ih hrest (Nat.le_of_not_lt hc)

end

end Tiles

namespace Spans

theorem append (h : Spans first last a xs b) (h' : Spans first last b ys c) :
    Spans first last a (xs ++ ys) c := by
  induction xs generalizing a with
  | nil =>
    have hab : a = b := h
    exact hab ▸ h'
  | cons x xs ih => exact ⟨h.1, h.2.1, ih h.2.2⟩

/-- Every position lies in one of the ranges. -/
theorem exists_mem (h : Spans first last a xs b) {p : ℕ} (hlo : a < p) (hhi : p ≤ b) :
    ∃ x ∈ xs, first x ≤ p ∧ p ≤ last x := by
  induction xs generalizing a with
  | nil =>
    have hab : a = b := h
    omega
  | cons x xs ih =>
    obtain ⟨hfirst, hlast, hrest⟩ := h
    by_cases hp : p ≤ last x
    · exact ⟨x, List.mem_cons_self, by omega, hp⟩
    · obtain ⟨y, hy, hrange⟩ := ih hrest (by omega)
      exact ⟨y, List.mem_cons_of_mem x hy, hrange⟩

/-- The ranges end where the last of them does. -/
theorem end_eq (h : Spans first last a xs b) : (xs.getLast?.map last).getD a = b := by
  induction xs generalizing a with
  | nil => exact h
  | cons x xs ih =>
    have hrest := ih h.2.2
    cases xs with
    | nil => exact hrest
    | cons y ys =>
      rw [List.getLast?_eq_some_getLast (List.cons_ne_nil y ys)] at hrest
      rw [List.getLast?_cons_cons, List.getLast?_eq_some_getLast (List.cons_ne_nil y ys)]
      exact hrest

end Spans

end

end AgentBox
