import Mathlib.Tactic.Common

/-!
# Text as Python handles it

Character classes and patterns over the characters of a string, `str(n)` for naturals, UTF-8 encoding,
and `hmac.compare_digest` on strings, which refuses non-ASCII text instead of comparing it.
-/

namespace AgentBox

/-- A character of the class `[a-f0-9]`. -/
def isLowerHex (c : Char) : Bool := ('0' ≤ c && c ≤ '9') || ('a' ≤ c && c ≤ 'f')

/-- A character of the class `[0-9]`. -/
def isDigit (c : Char) : Bool := '0' ≤ c && c ≤ '9'

/-- Full match of a fixed opening followed by exactly `n` characters of `[a-f0-9]`. -/
def matchesHexAfter (opening : String) (n : ℕ) (s : String) : Bool :=
  let rest := s.toList.drop opening.toList.length
  opening.toList.isPrefixOf s.toList && rest.length == n && rest.all isLowerHex

/-- `str.isascii()`. -/
def isAscii (s : String) : Bool := s.toList.all fun c => decide (c.toNat < 128)

/-- `str.encode("utf-8")`. -/
def utf8 (s : String) : List UInt8 := s.toList.flatMap String.utf8EncodeChar

/-- The number a string of digits denotes. -/
def decimal (s : String) : ℕ := Nat.ofDigitChars 10 s.toList 0

/-- A decimal numeral determines its number. -/
theorem toString_nat_injective {m n : ℕ} (h : toString m = toString n) : m = n := by
  have hd : Nat.toDigits 10 m = Nat.toDigits 10 n := by
    simpa using congrArg String.toList h
  simpa using congrArg (Nat.ofDigitChars 10 · 0) hd

/-- `hmac.compare_digest(a, b)` on strings; `none` is its `TypeError` on non-ASCII text. -/
def compareDigest (a b : String) : Option Bool :=
  if isAscii a && isAscii b then some (decide (a = b)) else none

/-- `all(hmac.compare_digest(a, b) for a, b in pairs)`: the first difference ends the comparison, so
later non-ASCII text raises only when everything before it agrees. -/
def allCompareDigest : List (String × String) → Option Bool
  | [] => some true
  | (a, b) :: rest =>
    match compareDigest a b with
    | none => none
    | some false => some false
    | some true => allCompareDigest rest

theorem compareDigest_eq_some_true {a b : String} (h : compareDigest a b = some true) : a = b := by
  unfold compareDigest at h
  split at h
  · simpa using h
  · cases h

/-- Agreement of all pairs means equality of all pairs. -/
theorem eq_of_allCompareDigest {pairs : List (String × String)}
    (h : allCompareDigest pairs = some true) : ∀ p ∈ pairs, p.1 = p.2 := by
  induction pairs with
  | nil => simp
  | cons p rest ih =>
    obtain ⟨a, b⟩ := p
    unfold allCompareDigest at h
    split at h
    · cases h
    · cases h
    · next heq =>
      intro q hq
      rcases List.mem_cons.mp hq with rfl | hq
      · exact compareDigest_eq_some_true heq
      · exact ih h q hq

end AgentBox
