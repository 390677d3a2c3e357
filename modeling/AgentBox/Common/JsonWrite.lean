import AgentBox.Common.JsonFlat
import AgentBox.Common.Text
import AgentBox.Common.Utf8

/-!
# Writing flat JSON objects

The canonical form of RFC 8785 for an object whose members are strings or `null`: no whitespace, and
inside a literal only what JSON does not allow there is escaped. `decodeUtf8_utf8` says that the decoder
reads back what was encoded and `scanString_escaped` that the scanner does so with a literal.
-/

namespace AgentBox

variable {n v : ℕ}

/-! ## UTF-8 -/

/-- The code points of a Lean string, which holds no surrogates. -/
def codePoints (chars : List Char) : CodePoints := chars.map Char.toNat

theorem toNat_ofNat (h : n < 256) : (UInt8.ofNat n).toNat = n := Nat.mod_eq_of_lt h

theorem continuation_ofNat {low high : UInt8} (hn : n < 256) (hlow : low.toNat ≤ n)
    (hhigh : n ≤ high.toNat) : continuation low high (UInt8.ofNat n) = some (n % 64) := by
  unfold continuation
  rw [if_pos (by simp only [UInt8.le_iff_toNat_le, toNat_ofNat hn]; exact ⟨hlow, hhigh⟩),
    toNat_ofNat hn]

/-- The bound on a second byte, which depends on the first. -/
theorem toNat_bound (h : n < 256) (b x y : UInt8) :
    (if UInt8.ofNat n = b then x else y).toNat = if n = b.toNat then x.toNat else y.toNat := by
  rw [apply_ite UInt8.toNat]
  simp only [← UInt8.toNat_inj, toNat_ofNat h]

/-- A continuation byte without a narrower range. -/
theorem continuation_low (v : ℕ) : continuation 0x80 0xBF (UInt8.ofNat (v % 64 + 128)) = some (v % 64) := by
  have hlow : (0x80 : UInt8).toNat ≤ v % 64 + 128 := by
    change 128 ≤ _
    omega
  have hhigh : v % 64 + 128 ≤ (0xBF : UInt8).toNat := by
    change _ ≤ 191
    omega
  rw [continuation_ofNat (by omega) hlow hhigh]
  congr 1
  omega

/-- A second byte, whose range depends on the first. -/
theorem continuation_second (b₁ b₂ x₁ x₂ : UInt8) {d : ℕ} (hn : n < 256) (hd : d < 64)
    (hlow : (if n = b₁.toNat then x₁.toNat else 0x80) ≤ d + 128)
    (hhigh : d + 128 ≤ if n = b₂.toNat then x₂.toNat else 0xBF) :
    continuation (if UInt8.ofNat n = b₁ then x₁ else 0x80) (if UInt8.ofNat n = b₂ then x₂ else 0xBF)
      (UInt8.ofNat (d + 128)) = some d := by
  rw [continuation_ofNat (by omega) (toNat_bound hn .. ▸ hlow) (toNat_bound hn .. ▸ hhigh)]
  congr 1
  omega

theorem decodeMultibyte_two (hlow : 128 ≤ v) (hhigh : v ≤ 2047) (rest : Bytes) :
    decodeMultibyte (UInt8.ofNat (v / 64 % 32 + 192)) (UInt8.ofNat (v % 64 + 128) :: rest) = some (v, 1) := by
  have hb : v / 64 % 32 + 192 < 256 := by omega
  unfold decodeMultibyte
  simp only [UInt8.le_iff_toNat_le, toNat_ofNat hb, continuation_low, UInt8.reduceToNat]
  rw [if_pos (by omega)]
  simp only [Option.bind_eq_bind, Option.bind_some, Option.pure_def]
  congr 2
  omega

theorem decodeMultibyte_three (hlow : 2048 ≤ v) (hhigh : v ≤ 65535)
    (hvalid : v < 0xD800 ∨ 0xDFFF < v) (rest : Bytes) : decodeMultibyte (UInt8.ofNat (v / 4096 % 16 + 224))
      (UInt8.ofNat (v / 64 % 64 + 128) :: UInt8.ofNat (v % 64 + 128) :: rest) = some (v, 2) := by
  have hb : v / 4096 % 16 + 224 < 256 := by omega
  have hlow' : (if v / 4096 % 16 + 224 = 0xE0 then 0xA0 else 0x80) ≤ v / 64 % 64 + 128 := by
    split <;> omega
  have hhigh' : v / 64 % 64 + 128 ≤ if v / 4096 % 16 + 224 = 0xED then 0x9F else 0xBF := by
    split <;> omega
  unfold decodeMultibyte
  simp only [continuation_second 0xE0 0xED 0xA0 0x9F hb (by omega) hlow' hhigh', UInt8.le_iff_toNat_le,
    toNat_ofNat hb, UInt8.reduceToNat, List.head?_cons, Option.bind_some, continuation_low]
  rw [if_neg (by omega), if_pos (by omega)]
  simp only [Option.bind_eq_bind, Option.bind_some, Option.pure_def]
  congr 2
  omega

theorem decodeMultibyte_four (hlow : 65536 ≤ v) (hhigh : v < 0x110000) (rest : Bytes) :
    decodeMultibyte (UInt8.ofNat (v / 262144 % 8 + 240))
      (UInt8.ofNat (v / 4096 % 64 + 128) :: UInt8.ofNat (v / 64 % 64 + 128) ::
        UInt8.ofNat (v % 64 + 128) :: rest) = some (v, 3) := by
  have hb : v / 262144 % 8 + 240 < 256 := by omega
  have hlow' : (if v / 262144 % 8 + 240 = 0xF0 then 0x90 else 0x80) ≤ v / 4096 % 64 + 128 := by
    split <;> omega
  have hhigh' : v / 4096 % 64 + 128 ≤ if v / 262144 % 8 + 240 = 0xF4 then 0x8F else 0xBF := by
    split <;> omega
  unfold decodeMultibyte
  simp only [continuation_second 0xF0 0xF4 0x90 0x8F hb (by omega) hlow' hhigh', UInt8.le_iff_toNat_le,
    toNat_ofNat hb, UInt8.reduceToNat, List.head?_cons, Option.bind_some, continuation_low, List.tail_cons]
  rw [if_neg (by omega), if_neg (by omega), if_pos (by omega)]
  simp only [Option.bind_eq_bind, Option.bind_some, Option.pure_def]
  congr 2
  omega

/-- Decoding a multi-byte character that the decoder recognises. -/
theorem decodeUtf8_multibyte {w rest : Bytes} (hn : n < 256) (hlead : 128 ≤ n)
    (h : decodeMultibyte (UInt8.ofNat n) (w ++ rest) = some (v, w.length)) :
    decodeUtf8 0 (UInt8.ofNat n :: w ++ rest) = (decodeUtf8 0 rest).map (v :: ·) := by
  rw [List.cons_append, decodeUtf8, if_neg, h]
  · simp only [decodeUtf8_skip]
  · rw [UInt8.lt_iff_toNat_lt, toNat_ofNat hn]
    exact Nat.not_lt.mpr hlead

/-- Decoding reads back one encoded character. -/
theorem decodeUtf8_encodeChar (c : Char) (rest : Bytes) :
    decodeUtf8 0 (String.utf8EncodeChar c ++ rest) = (decodeUtf8 0 rest).map (c.toNat :: ·) := by
  have hvalid : c.toNat < 0xD800 ∨ (0xDFFF < c.toNat ∧ c.toNat < 0x110000) := c.valid
  change c.val.toNat < 0xD800 ∨ (0xDFFF < c.val.toNat ∧ c.val.toNat < 0x110000) at hvalid
  change _ = (decodeUtf8 0 rest).map (c.val.toNat :: ·)
  simp only [String.utf8EncodeChar]
  generalize c.val.toNat = v at hvalid
  split
  · next h =>
    rw [List.singleton_append, decodeUtf8, if_pos, toNat_ofNat (by omega)]
    rw [UInt8.lt_iff_toNat_lt, toNat_ofNat (by omega)]
    exact Nat.lt_succ_of_le h
  · split
    · apply decodeUtf8_multibyte (by omega) (by omega)
      exact decodeMultibyte_two (by omega) (by omega) rest
    · split
      · apply decodeUtf8_multibyte (by omega) (by omega)
        exact decodeMultibyte_three (by omega) (by omega) (by omega) rest
      · apply decodeUtf8_multibyte (by omega) (by omega)
        exact decodeMultibyte_four (by omega) (by omega) rest

/-- Decoding reads back an encoded text. -/
theorem decodeUtf8_utf8 (s : String) : decodeUtf8 0 (utf8 s) = some (codePoints s.toList) := by
  unfold utf8
  induction s.toList with
  | nil => rfl
  | cons c chars ih =>
    rw [List.flatMap_cons, decodeUtf8_encodeChar, ih]
    rfl

/-! ## The writer -/

namespace Json

/-- A character inside a literal. -/
def escapeChar (c : Char) : List Char :=
  if c = '"' then ['\\', '"']
  else if c = '\\' then ['\\', '\\']
  else if c.toNat = 8 then ['\\', 'b']
  else if c.toNat = 9 then ['\\', 't']
  else if c.toNat = 10 then ['\\', 'n']
  else if c.toNat = 12 then ['\\', 'f']
  else if c.toNat = 13 then ['\\', 'r']
  else if c.toNat < 32 then
    ['\\', 'u', '0', '0', Nat.digitChar (c.toNat / 16), Nat.digitChar (c.toNat % 16)]
  else [c]

def dumpString (s : String) : List Char := '"' :: (s.toList.flatMap escapeChar ++ ['"'])

def dumpValue : Option String → List Char
  | none => ['n', 'u', 'l', 'l']
  | some s => dumpString s

def dumpMember (m : String × Option String) : List Char := dumpString m.1 ++ ':' :: dumpValue m.2

def dumpMembers : List (String × Option String) → List Char
  | [] => []
  | [m] => dumpMember m
  | m :: rest => dumpMember m ++ ',' :: dumpMembers rest

/-- The canonical text of an object with these members, which are sorted by key already. -/
def dumps (members : List (String × Option String)) : String :=
  String.ofList ('\x7b' :: (dumpMembers members ++ ['\x7d']))

def valueTree : Option String → Tree
  | none => .null
  | some s => .string (codePoints s.toList)

def memberTree (m : String × Option String) : CodePoints × Tree := (codePoints m.1.toList, valueTree m.2)

theorem hexDigit_digitChar : ∀ n < 16, hexDigit (Nat.digitChar n).toNat = some n := by decide

/-- `'\\u{0:04x}'.format(n)` -/
def escapeUnit (n : ℕ) : List Char :=
  ['\\', 'u', Nat.digitChar (n / 4096), Nat.digitChar (n / 256 % 16), Nat.digitChar (n / 16 % 16),
    Nat.digitChar (n % 16)]

theorem escapeUnit_control : ∀ n < 32,
    escapeUnit n = ['\\', 'u', '0', '0', Nat.digitChar (n / 16), Nat.digitChar (n % 16)] := by decide

theorem hex4_escapeUnit (h : n < 0x10000) (s : CodePoints) :
    hex4 (codePoints ((escapeUnit n).drop 2) ++ s) = some n := by
  simp only [escapeUnit, List.drop_succ_cons, List.drop_zero, codePoints, List.map_cons, List.cons_append,
    hex4, hexDigit_digitChar _ (show n / 4096 < 16 by omega),
    hexDigit_digitChar _ (Nat.mod_lt _ (by decide : 0 < 16)), Option.bind_eq_bind, Option.bind_some,
    Option.pure_def]
  congr 1
  omega

theorem scanString_escapeUnit (h : n < 0x10000) (s : CodePoints) :
    scanString 0 (codePoints (escapeUnit n) ++ s) =
      (scanString 0 (unicodeEscape n s).2).map fun r => ((unicodeEscape n s).1 :: r.1, r.2) := by
  change scanString 0 (92 :: 117 :: (codePoints ((escapeUnit n).drop 2) ++ s)) = _
  rw [scanString_unicode, hex4_escapeUnit h]
  rfl

/-- What the scanner pushes for an escaped character. -/
theorem scanString_escapeChar (c : Char) (s : CodePoints) : scanString 0 (codePoints (escapeChar c) ++ s) =
      (scanString 0 s).map fun r => (c.toNat :: r.1, r.2) := by
  unfold escapeChar
  -- the characters with an escape of their own
  iterate 7
    split
    · next h => rw [h]; exact scanString_escape (by decide) s
  split
  · next h =>
    rw [← escapeUnit_control _ h, scanString_escapeUnit (by omega), unicodeEscape, if_neg (by omega)]
  · next hquote hslash _ _ _ _ _ h =>
    refine (scanString_plain ?_ ?_ _).trans ?_
    · exact fun heq => hquote (Char.toNat_inj.mp heq)
    · exact fun heq => hslash (Char.toNat_inj.mp heq)
    · rw [if_neg (by omega)]
      rfl

/-- A literal is read back if its characters are, however they are escaped. -/
theorem scanString_escaped {escape : Char → List Char} (h : ∀ c s, scanString 0 (codePoints (escape c) ++ s) =
    (scanString 0 s).map fun r => (c.toNat :: r.1, r.2)) (chars : List Char) (s : CodePoints) :
    scanString 0 (codePoints (chars.flatMap escape) ++ 34 :: s) = some (codePoints chars, s) := by
  induction chars with
  | nil => rfl
  | cons c chars ih =>
    rw [List.flatMap_cons, codePoints, List.map_append, List.append_assoc]
    refine (h c _).trans ?_
    rw [← codePoints, ih]
    rfl

theorem codePoints_dumpString (t : String) (s : CodePoints) :
    codePoints (dumpString t) ++ s = 34 :: (codePoints (t.toList.flatMap escapeChar) ++ 34 :: s) := by
  simp [dumpString, codePoints]

theorem skipSpace_of_not_isSpace {c : ℕ} (h : isSpace c = false) (s : CodePoints) :
    skipSpace (c :: s) = c :: s := by
  rw [skipSpace, List.dropWhile_cons_of_neg (by simp [h])]

end Json

end AgentBox
