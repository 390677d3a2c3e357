import Mathlib.Tactic.Common

/-!
# JSON text as Python reads it

`json.loads` over a decoded string: a recursive scanner whose result is the syntax tree, with every
number kept as its spelling and every object as its list of members. A caller's hooks
(`object_pairs_hook`, `parse_int`, `parse_float`, `parse_constant`) are functions over that tree.

A Python string is a sequence of code points, and an escape such as `\ud800` puts a lone surrogate
into one, so texts are lists of code points and not Lean strings.
-/

namespace AgentBox

/-- The code points of a Python string. -/
abbrev CodePoints := List ℕ

/-- A half of a UTF-16 surrogate pair. -/
def isSurrogate (c : ℕ) : Bool := 0xD800 ≤ c && c ≤ 0xDFFF

/-- The characters of a string without surrogates. -/
def CodePoints.chars (s : CodePoints) : List Char := s.map Char.ofNat

/-! ## UTF-8 -/

/-- The value of a continuation byte within `low..high`. -/
def continuation (low high : UInt8) (b : UInt8) : Option ℕ :=
  if low ≤ b ∧ b ≤ high then some (b.toNat % 64) else none

/-- One multi-byte character: the range of its second byte excludes overlong forms, surrogates and
values above U+10FFFF. -/
def decodeMultibyte (b : UInt8) : List UInt8 → Option (ℕ × ℕ)
  | c :: rest =>
    if 0xC2 ≤ b ∧ b ≤ 0xDF then do
      let x ← continuation 0x80 0xBF c
      return ((b.toNat % 32) * 64 + x, 1)
    else if 0xE0 ≤ b ∧ b ≤ 0xEF then do
      let x ← continuation (if b = 0xE0 then 0xA0 else 0x80) (if b = 0xED then 0x9F else 0xBF) c
      let y ← rest.head?.bind (continuation 0x80 0xBF)
      return (((b.toNat % 16) * 64 + x) * 64 + y, 2)
    else if 0xF0 ≤ b ∧ b ≤ 0xF4 then do
      let x ← continuation (if b = 0xF0 then 0x90 else 0x80) (if b = 0xF4 then 0x8F else 0xBF) c
      let y ← rest.head?.bind (continuation 0x80 0xBF)
      let z ← rest.tail.head?.bind (continuation 0x80 0xBF)
      return ((((b.toNat % 8) * 64 + x) * 64 + y) * 64 + z, 3)
    else none
  | [] => none

/-- `bytes.decode("utf-8", "strict")`; the counter skips bytes already read as continuations. -/
def decodeUtf8 : ℕ → List UInt8 → Option CodePoints
  | 0, [] => some []
  | _ + 1, [] => none
  | skip + 1, _ :: rest => decodeUtf8 skip rest
  | 0, b :: rest =>
    if b < 0x80 then (decodeUtf8 0 rest).map (b.toNat :: ·)
    else
      match decodeMultibyte b rest with
      | some (c, n) => (decodeUtf8 n rest).map (c :: ·)
      | none => none

namespace Json

variable {s r : CodePoints}

/-! ## Syntax trees -/

/-- The spelling of a number. -/
structure NumberToken where
  negative : Bool
  whole : CodePoints
  /-- the digits after the point -/
  fraction : Option CodePoints
  /-- the exponent's letter, and its digits with their sign -/
  exponent : Option (ℕ × CodePoints)
deriving DecidableEq, Repr

/-- The characters of the spelling. -/
def NumberToken.text (n : NumberToken) : CodePoints :=
  (if n.negative then [45] else []) ++ n.whole ++ (n.fraction.map (46 :: ·)).getD [] ++
    (n.exponent.map fun e => e.1 :: e.2).getD []

/-- What `json.loads` finds in a text. -/
inductive Tree
  | null
  | bool (b : Bool)
  | number (token : NumberToken)
  /-- `NaN`, `Infinity` or `-Infinity` -/
  | constant (name : CodePoints)
  | string (s : CodePoints)
  | array (items : List Tree)
  | object (members : List (CodePoints × Tree))
deriving Repr

/-! ## Tokens -/

/-- The JSON whitespace characters. -/
def isSpace (c : ℕ) : Bool := c == 32 || c == 9 || c == 10 || c == 13

def skipSpace (s : CodePoints) : CodePoints := s.dropWhile isSpace

def isDigit (c : ℕ) : Bool := 48 ≤ c && c ≤ 57

def hexDigit (c : ℕ) : Option ℕ :=
  if 48 ≤ c ∧ c ≤ 57 then some (c - 48)
  else if 97 ≤ c ∧ c ≤ 102 then some (c - 87)
  else if 65 ≤ c ∧ c ≤ 70 then some (c - 55)
  else none

/-- The four digits of a `\u` escape. -/
def hex4 (s : CodePoints) : Option ℕ :=
  match s with
  | a :: b :: c :: d :: _ => do
    let a ← hexDigit a
    let b ← hexDigit b
    let c ← hexDigit c
    let d ← hexDigit d
    return ((a * 16 + b) * 16 + c) * 16 + d
  | _ => none

/-- The character a one-letter escape stands for. -/
def unescape (c : ℕ) : Option ℕ :=
  if c = 34 ∨ c = 92 ∨ c = 47 then some c
  else if c = 98 then some 8
  else if c = 102 then some 12
  else if c = 110 then some 10
  else if c = 114 then some 13
  else if c = 116 then some 9
  else none

/-- The low surrogate escaped right at the start of `s`. -/
def lowSurrogate (s : CodePoints) : Option ℕ :=
  match s with
  | 92 :: 117 :: s => (hex4 s).filter fun c => 0xDC00 ≤ c && c ≤ 0xDFFF
  | _ => none

/-- The rest of a string after its opening quote, and the text after its closing one. The counter
skips characters that already belong to an escape. -/
def scanString : ℕ → CodePoints → Option (CodePoints × CodePoints)
  | _, [] => none
  | skip + 1, _ :: s => scanString skip s
  | 0, c :: s =>
    let push (c skip : ℕ) := (scanString skip s).map fun r => (c :: r.1, r.2)
    if c = 34 then some ([], s)
    else if c = 92 then
      match s with
      | 117 :: t =>
        match hex4 t with
        | none => none
        | some u =>
          if 0xD800 ≤ u ∧ u ≤ 0xDBFF then
            -- a high surrogate joins an escaped low one that follows it
            match lowSurrogate (t.drop 4) with
            | some v => push (0x10000 + (u - 0xD800) * 0x400 + (v - 0xDC00)) 11
            | none => push u 5
          else push u 5
      | e :: _ =>
        match unescape e with
        | some c => push c 1
        | none => none
      | [] => none
    else if c ≤ 31 then none
    else push c 0

/-- The fraction at the start of `s`: a point followed by a digit. -/
def scanFraction (s : CodePoints) : Option CodePoints × CodePoints :=
  match s with
  | 46 :: s' =>
    if (s'.takeWhile isDigit).isEmpty then (none, s)
    else (some (s'.takeWhile isDigit), s'.dropWhile isDigit)
  | _ => (none, s)

/-- The exponent at the start of `s`: its letter, an optional sign, and at least one digit. -/
def scanExponent (s : CodePoints) : Option (ℕ × CodePoints) × CodePoints :=
  match s with
  | e :: s' =>
    if e = 101 ∨ e = 69 then
      let sign := (s'.take 1).filter fun c => c == 43 || c == 45
      let digits := (s'.drop sign.length).takeWhile isDigit
      if digits.isEmpty then (none, s)
      else (some (e, sign ++ digits), (s'.drop sign.length).dropWhile isDigit)
    else (none, s)
  | [] => (none, s)

/-- The whole part of a number; no digit may follow a leading zero. -/
def scanWhole (s : CodePoints) : CodePoints :=
  if s.head? = some 48 then [48] else s.takeWhile isDigit

/-- The number at the start of `s` after its sign. -/
def scanUnsigned (negative : Bool) (s : CodePoints) : Option (NumberToken × CodePoints) :=
  if (scanWhole s).isEmpty then none
  else
    let fraction := scanFraction (s.drop (scanWhole s).length)
    let exponent := scanExponent fraction.2
    some (⟨negative, scanWhole s, fraction.1, exponent.1⟩, exponent.2)

def scanNumber (s : CodePoints) : Option (NumberToken × CodePoints) :=
  match s with
  | 45 :: s => scanUnsigned true s
  | s => scanUnsigned false s

/-- A fixed word at the start of `s`. -/
def scanWord (word : CodePoints) (tree : Tree) (s : CodePoints) : Option (Tree × CodePoints) :=
  if word.isPrefixOf s then some (tree, s.drop word.length) else none

/-- A word, a constant or a number at the start of `s`. -/
def scanAtom (s : CodePoints) : Option (Tree × CodePoints) :=
  (scanWord [110, 117, 108, 108] .null s).or <|
  (scanWord [116, 114, 117, 101] (.bool true) s).or <|
  (scanWord [102, 97, 108, 115, 101] (.bool false) s).or <|
  (scanWord [78, 97, 78] (.constant [78, 97, 78]) s).or <|
  (scanWord [73, 110, 102, 105, 110, 105, 116, 121]
    (.constant [73, 110, 102, 105, 110, 105, 116, 121]) s).or <|
  (scanWord [45, 73, 110, 102, 105, 110, 105, 116, 121]
    (.constant [45, 73, 110, 102, 105, 110, 105, 116, 121]) s).or <|
  (scanNumber s).map fun r => (.number r.1, r.2)

/-! ## Containers -/

/-- Items separated by commas up to the closing character, at least one. -/
def scanItems {α : Type} (close : ℕ) (item : CodePoints → Option (α × CodePoints)) :
    ℕ → CodePoints → Option (List α × CodePoints)
  | 0, _ => none
  | fuel + 1, s =>
    match item s with
    | none => none
    | some (x, s) =>
      match skipSpace s with
      | [] => none
      | c :: s =>
        if c = close then some ([x], s)
        else if c = 44 then
          (scanItems close item fuel (skipSpace s)).map fun r => (x :: r.1, r.2)
        else none

/-- The items of a container after its opening character. -/
def scanContainer {α : Type} (close : ℕ) (item : CodePoints → Option (α × CodePoints)) (fuel : ℕ)
    (s : CodePoints) : Option (List α × CodePoints) :=
  match skipSpace s with
  | [] => none
  | c :: s => if c = close then some ([], s) else scanItems close item fuel (c :: s)

/-- One member of an object, given how to scan its value. -/
def scanMember (value : CodePoints → Option (Tree × CodePoints)) (s : CodePoints) :
    Option ((CodePoints × Tree) × CodePoints) :=
  match s with
  | 34 :: s =>
    match scanString 0 s with
    | none => none
    | some (key, s) =>
      match skipSpace s with
      | 58 :: s => (value (skipSpace s)).map fun r => ((key, r.1), r.2)
      | _ => none
  | _ => none

/-- The value at the start of `s`. -/
def scanOnce : ℕ → CodePoints → Option (Tree × CodePoints)
  | 0, _ => none
  | fuel + 1, s =>
    match s with
    | 34 :: s => (scanString 0 s).map fun r => (.string r.1, r.2)
    | 123 :: s =>
      (scanContainer 125 (scanMember (scanOnce fuel)) fuel s).map fun r => (.object r.1, r.2)
    | 91 :: s => (scanContainer 93 (scanOnce fuel) fuel s).map fun r => (.array r.1, r.2)
    | s => scanAtom s

/-- `json.loads(text)`: one value with nothing but whitespace around it, and no byte order mark. -/
def loads (text : CodePoints) : Option Tree :=
  if text.head? = some 0xFEFF then none
  else
    match scanOnce (text.length + 1) (skipSpace text) with
    | some (tree, rest) => if (skipSpace rest).isEmpty then some tree else none
    | none => none

/-! ## Fuel

Every scanner consumes at least one character of what it accepts, so fuel above the length of the text
never runs out: `loads` gives the scanner enough. -/

/-- A scanner leaves less than it was given. -/
def Shrinks {α : Type} (scan : CodePoints → Option (α × CodePoints)) : Prop :=
  ∀ {s x r}, scan s = some (x, r) → r.length < s.length

theorem length_skipSpace_le (s : CodePoints) : (skipSpace s).length ≤ s.length :=
  (List.dropWhile_suffix isSpace).length_le

theorem scanString_length_lt {skip : ℕ} {x : CodePoints} (h : scanString skip s = some (x, r)) :
    r.length < s.length := by
  induction s generalizing skip x r with
  | nil => simp [scanString] at h
  | cons c s ih =>
    -- whatever the branch, what is pushed comes from scanning the tail
    have hpush : ∀ {d k : ℕ}, ((scanString k s).map fun r => (d :: r.1, r.2)) = some (x, r) →
        r.length < (c :: s).length := by
      intro d k h
      obtain ⟨⟨y, t⟩, hy, heq⟩ := Option.map_eq_some_iff.mp h
      cases heq
      exact Nat.lt_succ_of_lt (ih hy)
    cases skip with
    | succ skip => exact Nat.lt_succ_of_lt (ih (by simpa [scanString] using h))
    | zero =>
      unfold scanString at h
      repeat' split at h
      all_goals first
        | exact hpush h
        | cases h
      exact Nat.lt_succ_self _

theorem length_scanFraction_le (s : CodePoints) : (scanFraction s).2.length ≤ s.length := by
  unfold scanFraction
  split
  · split
    · exact Nat.le_refl _
    · exact Nat.le_succ_of_le (List.dropWhile_suffix isDigit).length_le
  · exact Nat.le_refl _

theorem length_scanExponent_le (s : CodePoints) : (scanExponent s).2.length ≤ s.length := by
  unfold scanExponent
  split
  · split
    · dsimp only
      split
      · exact Nat.le_refl _
      · exact Nat.le_succ_of_le <|
          ((List.dropWhile_suffix isDigit).trans (List.drop_suffix _ _)).length_le
    · exact Nat.le_refl _
  · exact Nat.le_refl _

variable {t : NumberToken}

theorem scanUnsigned_length_lt {negative : Bool} (h : scanUnsigned negative s = some (t, r)) :
    r.length < s.length := by
  unfold scanUnsigned at h
  split at h
  · cases h
  · next hwhole =>
    cases h
    have hpos : 0 < (scanWhole s).length := List.length_pos_iff.mpr (by simpa using hwhole)
    have hs : 0 < s.length := by
      cases s with
      | nil => simp [scanWhole] at hpos
      | cons c s => simp
    have h1 := length_scanExponent_le (scanFraction (s.drop (scanWhole s).length)).2
    have h2 := length_scanFraction_le (s.drop (scanWhole s).length)
    rw [List.length_drop] at h2
    omega

theorem scanNumber_length_lt (h : scanNumber s = some (t, r)) : r.length < s.length := by
  unfold scanNumber at h
  split at h
  · exact Nat.lt_succ_of_lt (scanUnsigned_length_lt h)
  · exact scanUnsigned_length_lt h

theorem scanWord_length_lt {word : CodePoints} {t t' : Tree} (hw : word ≠ [])
    (h : scanWord word t s = some (t', r)) : r.length < s.length := by
  unfold scanWord at h
  split at h
  · next hp =>
    cases h
    have := (List.isPrefixOf_iff_prefix.mp hp).length_le
    have := List.length_pos_iff.mpr hw
    rw [List.length_drop]
    omega
  · cases h

theorem shrinks_scanAtom : Shrinks scanAtom := by
  intro s x r h
  simp only [scanAtom, Option.or_eq_some_iff, Option.map_eq_some_iff] at h
  rcases h with h | ⟨-, h | ⟨-, h | ⟨-, h | ⟨-, h | ⟨-, h | ⟨-, ⟨t, u⟩, h, heq⟩⟩⟩⟩⟩⟩
  any_goals exact scanWord_length_lt (by simp) h
  cases heq
  exact scanNumber_length_lt h

variable {value : CodePoints → Option (Tree × CodePoints)}

theorem shrinks_scanMember (h : Shrinks value) : Shrinks (scanMember value) := by
  intro s x r hr
  unfold scanMember at hr
  split at hr
  · next s =>
    split at hr
    · cases hr
    · next key t hkey =>
      have hkey := scanString_length_lt hkey
      have hskip := length_skipSpace_le t
      split at hr
      · next u hu =>
        rw [hu, List.length_cons] at hskip
        obtain ⟨⟨v, w⟩, hv, heq⟩ := Option.map_eq_some_iff.mp hr
        cases heq
        have := h hv
        have := length_skipSpace_le u
        dsimp only [List.length_cons]
        omega
      · cases hr
  · cases hr

end Json

end AgentBox
