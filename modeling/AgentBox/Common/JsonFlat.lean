import AgentBox.Common.Json
import Mathlib.Data.List.TakeWhile

/-!
# Flat JSON objects

An object whose members are all scalars can be read off its text without recursion. `Flat` relates such
a text to its members, and `loads_eq_object_iff` says that it is what the scanner finds. Programs that
accept flat objects only can then be compared member by member.

A string literal ends at the first quote that no backslash hides; `scanString_iff` separates finding its
end from decoding what is in between.
-/

namespace AgentBox.Json

open Option List

variable {c n : ℕ} {s r : CodePoints} {w b x word u key text : CodePoints} {k : ℕ}

/-! ## String literals -/

/-- The rest of a literal after its opening quote, up to the closing one, and the text after it. -/
def closing : CodePoints → Option (CodePoints × CodePoints)
  | [] => none
  | 34 :: s => some ([], s)
  | [92] => none
  | 92 :: c :: s => (closing s).map fun r => (92 :: c :: r.1, r.2)
  | c :: s => (closing s).map fun r => (c :: r.1, r.2)

theorem closing_plain (hquote : c ≠ 34) (hslash : c ≠ 92) (s : CodePoints) :
    closing (c :: s) = (closing s).map fun r => (c :: r.1, r.2) := by
  conv_lhs => unfold closing
  split <;> simp_all

theorem closing_eq {body rest : CodePoints} (h : closing s = some (body, rest)) : s = body ++ 34 :: rest := by
  fun_induction closing s generalizing body with
  | case1 => cases h
  | case2 s => cases h; rfl
  | case3 => cases h
  | case4 c s ih =>
    obtain ⟨⟨b, r⟩, hb, heq⟩ := map_eq_some_iff.mp h
    cases heq
    rw [ih hb]
    rfl
  | case5 c s _ _ _ ih =>
    obtain ⟨⟨b, r⟩, hb, heq⟩ := map_eq_some_iff.mp h
    cases heq
    rw [ih hb]
    rfl

/-- Skipping characters is dropping them. -/
theorem scanString_skip (n : ℕ) (s : CodePoints) : scanString n s = scanString 0 (s.drop n) := by
  induction n generalizing s with
  | zero => rfl
  | succ n ih =>
    cases s with
    | nil => rfl
    | cons c s => rw [drop_succ_cons, ← ih, scanString]

theorem scanString_plain (hquote : c ≠ 34) (hslash : c ≠ 92) (s : CodePoints) : scanString 0 (c :: s) =
      if c ≤ 31 then none else (scanString 0 s).map fun r => (c :: r.1, r.2) := by
  conv_lhs => unfold scanString
  simp only [if_neg hquote, if_neg hslash]

theorem scanString_escape {e : ℕ} (he : e ≠ 117) (s : CodePoints) : scanString 0 (92 :: e :: s) =
      (unescape e).bind fun c => (scanString 0 s).map fun r => (c :: r.1, r.2) := by
  conv_lhs => unfold scanString
  simp only [Nat.reduceEqDiff, if_false, if_true, scanString_skip 1, drop_succ_cons, drop_zero]
  split
  · next h => rw [h]; rfl
  · next h => rw [h]; rfl

/-- The character that a `\u` escape of a high surrogate stands for, and where the scan goes on. -/
def unicodeEscape (u : ℕ) (s : CodePoints) : ℕ × CodePoints :=
  if 0xD800 ≤ u ∧ u ≤ 0xDBFF then
    match lowSurrogate s with
    | some v => (0x10000 + (u - 0xD800) * 0x400 + (v - 0xDC00), s.drop 6)
    | none => (u, s)
  else (u, s)

theorem scanString_unicode (s : CodePoints) : scanString 0 (92 :: 117 :: s) = (hex4 s).bind fun u =>
      (scanString 0 (unicodeEscape u (s.drop 4)).2).map fun r =>
        ((unicodeEscape u (s.drop 4)).1 :: r.1, r.2) := by
  conv_lhs => unfold scanString
  simp only [Nat.reduceEqDiff, if_false, if_true]
  cases hex4 s with
  | none => rfl
  | some u =>
    simp only [bind_some, unicodeEscape]
    split
    · cases hlow : lowSurrogate (s.drop 4) with
      | none => simp only [scanString_skip 5, drop_succ_cons]
      | some v => simp only [scanString_skip 11, drop_succ_cons, drop_drop]
    · simp [scanString_skip 5]

theorem hexDigit_quote : hexDigit 34 = none := by decide

theorem hexDigit_plain {d : ℕ} (h : hexDigit c = some d) : c ≠ 34 ∧ c ≠ 92 := by
  constructor
  · rintro rfl
    cases hexDigit_quote.symm.trans h
  · rintro rfl
    cases (by decide : hexDigit 92 = none).symm.trans h

/-- Four digits that spell a number do so whatever follows them. -/
theorem hex4_eq {u : ℕ} (h : hex4 s = some u) :
    ∃ w t, s = w ++ t ∧ w.length = 4 ∧ (∀ c ∈ w, c ≠ 34 ∧ c ≠ 92) ∧ ∀ t', hex4 (w ++ t') = some u := by
  unfold hex4 at h
  split at h
  · next a b c d t =>
    refine ⟨[a, b, c, d], t, rfl, rfl, ?_, fun t' => h⟩
    simp only [bind_eq_bind, bind_eq_some_iff] at h
    obtain ⟨_, ha, _, hb, _, hc, _, hd, -⟩ := h
    simp [hexDigit_plain ha, hexDigit_plain hb, hexDigit_plain hc, hexDigit_plain hd]
  · cases h

theorem lowSurrogate_eq {v : ℕ} (h : lowSurrogate s = some v) :
    ∃ w t, s = 92 :: 117 :: (w ++ t) ∧ w.length = 4 ∧ (∀ c ∈ w, c ≠ 34 ∧ c ≠ 92) ∧
      ∀ t', lowSurrogate (92 :: 117 :: (w ++ t')) = some v := by
  unfold lowSurrogate at h
  split at h
  · next t =>
    obtain ⟨hhex, hrange⟩ := filter_eq_some_iff.mp h
    obtain ⟨w, t, rfl, hlength, hplain, hlocal⟩ := hex4_eq hhex
    refine ⟨w, t, rfl, hlength, hplain, fun t' => ?_⟩
    simp only [lowSurrogate, hlocal t', filter_some, hrange, if_true]
  · cases h

/-- What has no quote and begins a text lies before the first quote of that text. -/
theorem isPrefix_of_append_eq {t : CodePoints} (hplain : 34 ∉ w) (h : w ++ t = b ++ 34 :: r) : w <+: b := by
  rcases append_eq_append_iff.mp h with ⟨a, rfl, -⟩ | ⟨a, rfl, ha⟩
  · exact prefix_append w a
  · cases a with
    | nil => simp
    | cons c a =>
      obtain ⟨rfl, -⟩ := List.cons.inj ha
      exact absurd (by simp) hplain

/-- Whether a low surrogate is escaped at the beginning of a literal does not depend on what follows
it. -/
theorem lowSurrogate_local (h : lowSurrogate (b ++ 34 :: r) = none) (r' : CodePoints) :
    lowSurrogate (b ++ 34 :: r') = none := by
  rw [eq_none_iff_forall_ne_some]
  intro v hv
  obtain ⟨w, t, hsplit, -, hplain, hlocal⟩ := lowSurrogate_eq hv
  have hinside : 92 :: 117 :: w <+: b := by
    refine isPrefix_of_append_eq (t := t) (r := r') ?_ hsplit.symm
    simp only [mem_cons, Nat.reduceEqDiff, false_or]
    exact fun hmem => (hplain 34 hmem).1 rfl
  obtain ⟨b', rfl⟩ := hinside
  have hfound := hlocal (b' ++ 34 :: r)
  simp only [cons_append, append_assoc] at h
  rw [hfound] at h
  cases h

theorem closing_append (hplain : ∀ c ∈ w, c ≠ 34 ∧ c ≠ 92) (s : CodePoints) :
    closing (w ++ s) = (closing s).map fun r => (w ++ r.1, r.2) := by
  induction w with
  | nil => simp
  | cons c w ih =>
    obtain ⟨⟨hquote, hslash⟩, hrest⟩ := forall_mem_cons.mp hplain
    rw [cons_append, closing_plain hquote hslash, ih hrest, Option.map_map]
    rfl

/-- The step of `scanString_closing` for a `\u` escape. -/
theorem scanString_closing_unicode {y : CodePoints} {u : ℕ}
    (ih : ∀ t : CodePoints, t.length < (92 :: 117 :: s).length → ∀ {x}, scanString 0 t = some (x, r) →
      ∃ body, closing t = some (body, r) ∧ ∀ r', scanString 0 (body ++ 34 :: r') = some (x, r'))
    (hu : hex4 s = some u) (hy : scanString 0 (unicodeEscape u (s.drop 4)).2 = some (y, r)) :
    ∃ body, closing (92 :: 117 :: s) = some (body, r) ∧ ∀ r',
      scanString 0 (body ++ 34 :: r') = some ((unicodeEscape u (s.drop 4)).1 :: y, r') := by
  obtain ⟨w, t, rfl, hlength, hplain, hlocal⟩ := hex4_eq hu
  rw [drop_left' hlength] at hy ⊢
  have hshort : t.length < (92 :: 117 :: (w ++ t)).length := by
    simp only [length_cons, length_append]
    omega
  -- the body of the rest, and what the escape reads of it
  obtain ⟨rest, hrest, hread⟩ : ∃ rest, closing t = some (rest, r) ∧ ∀ r',
      (unicodeEscape u (rest ++ 34 :: r')).1 = (unicodeEscape u t).1 ∧
        scanString 0 (unicodeEscape u (rest ++ 34 :: r')).2 = some (y, r') := by
    by_cases hhigh : 0xD800 ≤ u ∧ u ≤ 0xDBFF
    · cases hlow : lowSurrogate t with
      | some v =>
        simp only [unicodeEscape, if_pos hhigh, hlow] at hy ⊢
        obtain ⟨w', t', rfl, hlength', hplain', hlocal'⟩ := lowSurrogate_eq hlow
        have hdrop : ∀ t', (92 :: 117 :: (w' ++ t')).drop 6 = t' := fun t' => by
          rw [drop_succ_cons, drop_succ_cons, drop_left' hlength']
        rw [hdrop] at hy
        obtain ⟨body, hbody, hscan⟩ := ih t' (by simp only [length_cons, length_append]; omega) hy
        refine ⟨92 :: 117 :: (w' ++ body), by simp [closing, closing_append hplain', hbody], fun r' => ?_⟩
        simp [hlocal', hdrop, hscan]
      | none =>
        simp only [unicodeEscape, if_pos hhigh, hlow] at hy ⊢
        obtain ⟨body, hbody, hscan⟩ := ih t hshort hy
        rw [closing_eq hbody] at hlow
        refine ⟨body, hbody, fun r' => ?_⟩
        simp only [lowSurrogate_local hlow r', hscan, and_self]
    · simp only [unicodeEscape, if_neg hhigh] at hy ⊢
      obtain ⟨body, hbody, hscan⟩ := ih t hshort hy
      exact ⟨body, hbody, fun r' => ⟨trivial, hscan r'⟩⟩
  refine ⟨92 :: 117 :: (w ++ rest), by simp [closing, closing_append hplain, hrest], fun r' => ?_⟩
  obtain ⟨hcode, hscan⟩ := hread r'
  rw [cons_append, cons_append, append_assoc, scanString_unicode, hlocal,
    drop_left' hlength, bind_some, hcode, hscan]
  rfl

/-- What a literal says depends on its characters only, and it ends at its closing quote. -/
theorem scanString_closing (h : scanString 0 s = some (x, r)) :
    ∃ body, closing s = some (body, r) ∧ ∀ r', scanString 0 (body ++ 34 :: r') = some (x, r') := by
  induction hn : s.length using Nat.strongRecOn generalizing s x with
  | _ n ih =>
  subst hn
  cases s with
  | nil => cases h
  | cons c s =>
    by_cases hquote : c = 34
    · subst hquote
      cases h
      exact ⟨[], rfl, fun r' => rfl⟩
    by_cases hslash : c = 92
    · subst hslash
      cases s with
      | nil => cases h
      | cons e s =>
        by_cases he : e = 117
        · subst he
          rw [scanString_unicode] at h
          obtain ⟨u, hu, h⟩ := bind_eq_some_iff.mp h
          obtain ⟨⟨y, r'⟩, hy, heq⟩ := map_eq_some_iff.mp h
          cases heq
          exact scanString_closing_unicode (fun t ht _ hx => ih t.length ht hx rfl) hu hy
        · rw [scanString_escape he] at h
          obtain ⟨d, hd, h⟩ := bind_eq_some_iff.mp h
          obtain ⟨⟨y, r'⟩, hy, heq⟩ := map_eq_some_iff.mp h
          cases heq
          obtain ⟨body, hbody, hlocal⟩ := ih _ (by simp only [length_cons]; omega) hy rfl
          refine ⟨92 :: e :: body, by simp [closing, hbody], fun r' => ?_⟩
          rw [cons_append, cons_append, scanString_escape he, hd]
          simp [hlocal r']
    · rw [scanString_plain hquote hslash] at h
      split at h
      · cases h
      · next hcontrol =>
        obtain ⟨⟨y, r'⟩, hy, heq⟩ := map_eq_some_iff.mp h
        cases heq
        obtain ⟨body, hbody, hlocal⟩ := ih _ (by simp only [length_cons]; omega) hy rfl
        refine ⟨c :: body, by simp [closing_plain hquote hslash, hbody], fun r' => ?_⟩
        rw [cons_append, scanString_plain hquote hslash, if_neg hcontrol]
        simp [hlocal r']

/-- Reading a string is finding where its literal ends, and decoding the literal. -/
theorem scanString_iff : scanString 0 s = some (x, r) ↔
    ∃ body, closing s = some (body, r) ∧ scanString 0 (body ++ [34]) = some (x, []) := by
  constructor
  · intro h
    obtain ⟨body, hbody, hlocal⟩ := scanString_closing h
    exact ⟨body, hbody, hlocal []⟩
  · rintro ⟨body, hbody, hscan⟩
    obtain ⟨body', hbody', hlocal⟩ := scanString_closing hscan
    have hsame := append_cancel_right (closing_eq hbody')
    rw [closing_eq hbody, hsame]
    exact hlocal r

/-! ## Scalars -/

def Tree.isScalar : Tree → Bool
  | .array _ => false
  | .object _ => false
  | _ => true

/-- The scalar at the start of `s`. -/
def scanScalar (s : CodePoints) : Option (Tree × CodePoints) :=
  match s with
  | 34 :: s => (scanString 0 s).map fun r => (.string r.1, r.2)
  | 123 :: _ => none
  | 91 :: _ => none
  | s => scanAtom s

variable {t : Tree} {t' : Tree}

theorem isScalar_of_scanWord (ht : t.isScalar = true) (h : scanWord word t s = some (t', r)) :
    t'.isScalar = true := by
  unfold scanWord at h
  split at h
  · cases h; exact ht
  · cases h

theorem isScalar_of_scanAtom (h : scanAtom s = some (t, r)) : t.isScalar = true := by
  simp only [scanAtom, or_eq_some_iff, map_eq_some_iff] at h
  rcases h with h | ⟨-, h | ⟨-, h | ⟨-, h | ⟨-, h | ⟨-, h | ⟨-, _, -, heq⟩⟩⟩⟩⟩⟩
  any_goals exact isScalar_of_scanWord rfl h
  cases heq
  rfl

theorem isScalar_of_scanScalar (h : scanScalar s = some (t, r)) : t.isScalar = true := by
  unfold scanScalar at h
  split at h
  · obtain ⟨_, -, heq⟩ := map_eq_some_iff.mp h
    cases heq
    rfl
  · cases h
  · cases h
  · exact isScalar_of_scanAtom h

/-- A text that opens no literal, object or array is read as an atom. -/
theorem scanScalar_of_plain (hquote : ∀ u, s = 34 :: u → False)
    (hbrace : ∀ u, s = 123 :: u → False) (hbracket : ∀ u, s = 91 :: u → False) :
    scanScalar s = scanAtom s := by
  unfold scanScalar
  split
  · exact (hquote _ rfl).elim
  · exact (hbrace _ rfl).elim
  · exact (hbracket _ rfl).elim
  · rfl

/-- The scanner finds a scalar exactly where there is one. -/
theorem scanOnce_iff_scanScalar (ht : t.isScalar = true) :
    scanOnce (n + 1) s = some (t, r) ↔ scanScalar s = some (t, r) := by
  conv_lhs => unfold scanOnce
  split
  · rfl
  -- an object and an array are no scalars
  iterate 2
    · refine iff_of_false (fun h => ?_) nofun
      obtain ⟨_, -, heq⟩ := map_eq_some_iff.mp h
      cases heq
      cases ht
  · next hquote hbrace hbracket => rw [scanScalar_of_plain hquote hbrace hbracket]

theorem shrinks_scanScalar : Shrinks scanScalar := by
  intro s t r h
  unfold scanScalar at h
  split at h
  · obtain ⟨⟨x, u⟩, hx, heq⟩ := map_eq_some_iff.mp h
    cases heq
    exact Nat.lt_succ_of_lt (scanString_length_lt hx)
  · cases h
  · cases h
  · exact shrinks_scanAtom h

/-! ## What an atom consumes -/

/-- The characters that open or close a string or a container. -/
def delimiters : List ℕ := [34, 91, 93, 123, 125]

/-- The characters of a number. -/
def isNumeric (c : ℕ) : Bool := isDigit c || [43, 45, 46, 69, 101].contains c

theorem not_mem_delimiters_of_isNumeric (h : isNumeric c = true) : c ∉ delimiters := by
  intro hmem
  simp only [delimiters, mem_cons, not_mem_nil, or_false] at hmem
  rcases hmem with rfl | rfl | rfl | rfl | rfl <;> exact absurd h (by decide)

theorem isNumeric_of_mem_takeWhile : ∀ c ∈ s.takeWhile isDigit, isNumeric c = true := by
  intro c hc
  rw [isNumeric, mem_takeWhile_imp hc, Bool.true_or]

theorem scanWhole_eq (s : CodePoints) : scanWhole s ++ s.drop (scanWhole s).length = s ∧
    ∀ c ∈ scanWhole s, isNumeric c = true := by
  unfold scanWhole
  split
  · next h =>
    cases s with
    | nil => cases h
    | cons c s =>
      obtain rfl : c = 48 := by simpa using h
      exact ⟨rfl, by decide⟩
  · refine ⟨?_, isNumeric_of_mem_takeWhile⟩
    exact (prefix_iff_eq_append.mp (List.takeWhile_prefix isDigit))

theorem scanFraction_eq (s : CodePoints) :
    ((scanFraction s).1.map (46 :: ·)).getD [] ++ (scanFraction s).2 = s ∧
      ∀ c ∈ ((scanFraction s).1.map (46 :: ·)).getD [], isNumeric c = true := by
  unfold scanFraction
  split
  · split
    · simp
    · refine ⟨by simp, ?_⟩
      simp only [map_some, getD_some, mem_cons, forall_eq_or_imp]
      exact ⟨rfl, isNumeric_of_mem_takeWhile⟩
  · simp

theorem scanExponent_eq (s : CodePoints) :
    ((scanExponent s).1.map fun e => e.1 :: e.2).getD [] ++ (scanExponent s).2 = s ∧
      ∀ c ∈ ((scanExponent s).1.map fun e => e.1 :: e.2).getD [], isNumeric c = true := by
  unfold scanExponent
  split
  · next e t =>
    split
    · next he =>
      dsimp only
      split
      · simp
      · have hsign : ((t.take 1).filter fun c => c == 43 || c == 45) <+: t := by
          cases t with
          | nil => exact nil_prefix
          | cons c t =>
            rw [take_succ_cons, take_zero, filter_cons, filter_nil]
            split
            · exact prefix_append [c] t
            · exact nil_prefix
        refine ⟨?_, ?_⟩
        · simp only [map_some, getD_some, cons_append, append_assoc, takeWhile_append_dropWhile]
          rw [prefix_iff_eq_append.mp hsign]
        · simp only [map_some, getD_some, mem_cons, mem_append]
          rintro c (rfl | hc | hc)
          · rcases he with rfl | rfl <;> rfl
          · have := (mem_filter.mp hc).2
            simp only [Bool.or_eq_true, beq_iff_eq] at this
            rcases this with rfl | rfl <;> rfl
          · exact isNumeric_of_mem_takeWhile c hc
    · simp
  · simp

theorem scanUnsigned_eq {negative : Bool} {t : NumberToken} (h : scanUnsigned negative s = some (t, r)) :
    (if negative then [45] else []) ++ s = t.text ++ r ∧ ∀ c ∈ t.text, isNumeric c = true := by
  unfold scanUnsigned at h
  split at h
  · cases h
  · cases h
    have hwhole := scanWhole_eq s
    have hfraction := scanFraction_eq (s.drop (scanWhole s).length)
    have hexponent := scanExponent_eq (scanFraction (s.drop (scanWhole s).length)).2
    refine ⟨?_, ?_⟩
    · simp [NumberToken.text, hexponent.1, hfraction.1, hwhole.1]
    · simp only [NumberToken.text, mem_append]
      rintro c (((hc | hc) | hc) | hc)
      · split at hc
        · obtain rfl : c = 45 := by simpa using hc
          rfl
        · cases hc
      · exact hwhole.2 c hc
      · exact hfraction.2 c hc
      · exact hexponent.2 c hc

/-- A number consumes its spelling. -/
theorem scanNumber_eq {t : NumberToken} (h : scanNumber s = some (t, r)) :
    s = t.text ++ r ∧ ∀ c ∈ t.text, isNumeric c = true := by
  unfold scanNumber at h
  split at h
  · exact scanUnsigned_eq h
  · exact scanUnsigned_eq h

theorem scanWord_eq (h : scanWord word t s = some (t', r)) : s = word ++ r := by
  unfold scanWord at h
  split at h
  · next hp =>
    cases h
    exact (prefix_iff_eq_append.mp (List.isPrefixOf_iff_prefix.mp hp)).symm
  · cases h

/-- An atom consumes characters that delimit nothing. -/
theorem scanAtom_eq (h : scanAtom s = some (t, r)) : ∃ w, s = w ++ r ∧ ∀ c ∈ w, c ∉ delimiters := by
  simp only [scanAtom, or_eq_some_iff, map_eq_some_iff] at h
  rcases h with h | ⟨-, h | ⟨-, h | ⟨-, h | ⟨-, h | ⟨-, h | ⟨-, ⟨n, u⟩, h, heq⟩⟩⟩⟩⟩⟩
  any_goals exact ⟨_, scanWord_eq h, by decide⟩
  cases heq
  obtain ⟨hs, hnumeric⟩ := scanNumber_eq h
  exact ⟨_, hs, fun c hc => not_mem_delimiters_of_isNumeric (hnumeric c hc)⟩

/-! ## Members -/

/-- Members separated by commas up to the closing brace, at least one, and the text after them. -/
inductive Listed : CodePoints → List (CodePoints × Tree) → CodePoints → Prop
  | last {s u r : CodePoints} {key : CodePoints} {t : Tree}
      (hmember : scanMember scanScalar s = some ((key, t), u)) (hclose : skipSpace u = 125 :: r) :
      Listed s [(key, t)] r
  | cons {s u v r : CodePoints} {key : CodePoints} {t : Tree} {members : List (CodePoints × Tree)}
      (hmember : scanMember scanScalar s = some ((key, t), u)) (hcomma : skipSpace u = 44 :: v)
      (hrest : Listed (skipSpace v) members r) :
      Listed s ((key, t) :: members) r

/-- The members after an opening brace. -/
inductive Braced : CodePoints → List (CodePoints × Tree) → CodePoints → Prop
  | empty {s r : CodePoints} (hclose : skipSpace s = 125 :: r) : Braced s [] r
  | listed {s r : CodePoints} {members : List (CodePoints × Tree)}
      (hrest : Listed (skipSpace s) members r) : Braced s members r

/-- The text is one flat object with these members. -/
def Flat (text : CodePoints) (members : List (CodePoints × Tree)) : Prop :=
  ∃ s r, skipSpace text = 123 :: s ∧ Braced s members r ∧ skipSpace r = []

theorem scanMember_eq_some_iff {value : CodePoints → Option (Tree × CodePoints)} :
    scanMember value s = some ((key, t), u) ↔
      ∃ s₁ s₂ s₃, s = 34 :: s₁ ∧ scanString 0 s₁ = some (key, s₂) ∧ skipSpace s₂ = 58 :: s₃ ∧
        value (skipSpace s₃) = some (t, u) := by
  constructor
  · intro h
    unfold scanMember at h
    split at h
    · split at h
      · cases h
      · next key' s₂ hkey =>
        split at h
        · next s₃ hcolon =>
          obtain ⟨x, hx, heq⟩ := map_eq_some_iff.mp h
          cases heq
          exact ⟨_, s₂, s₃, rfl, hkey, hcolon, hx⟩
        · cases h
    · cases h
  · rintro ⟨s₁, s₂, s₃, rfl, hkey, hcolon, hvalue⟩
    simp [scanMember, hkey, hcolon, hvalue]

theorem scanMember_iff (ht : t.isScalar = true) : scanMember (scanOnce (n + 1)) s = some ((key, t), u) ↔
      scanMember scanScalar s = some ((key, t), u) := by
  simp only [scanMember_eq_some_iff, scanOnce_iff_scanScalar ht]

theorem isScalar_of_scanMember (h : scanMember scanScalar s = some ((key, t), u)) : t.isScalar = true := by
  obtain ⟨_, _, _, _, _, _, hvalue⟩ := scanMember_eq_some_iff.mp h
  exact isScalar_of_scanScalar hvalue

variable {members : List (CodePoints × Tree)}

theorem Listed.isScalar (h : Listed s members r) : ∀ m ∈ members, m.2.isScalar = true := by
  induction h with
  | last hmember _ => simpa using isScalar_of_scanMember hmember
  | cons hmember _ _ ih =>
    exact forall_mem_cons.mpr ⟨isScalar_of_scanMember hmember, ih⟩

/-- A list of members starts with a quote. -/
theorem Listed.starts (h : Listed s members r) : ∃ t, s = 34 :: t := by
  cases h with
  | last hmember _ =>
    obtain ⟨t, _, _, ht, _⟩ := scanMember_eq_some_iff.mp hmember
    exact ⟨t, ht⟩
  | cons hmember _ _ =>
    obtain ⟨t, _, _, ht, _⟩ := scanMember_eq_some_iff.mp hmember
    exact ⟨t, ht⟩

theorem length_text_le_of_scanScalar {token : NumberToken}
    (h : scanScalar s = some (.number token, r)) : token.text.length ≤ s.length := by
  unfold scanScalar at h
  split at h
  · obtain ⟨_, -, heq⟩ := map_eq_some_iff.mp h
    cases heq
  · cases h
  · cases h
  · simp only [scanAtom, scanWord, or_eq_some_iff, map_eq_some_iff] at h
    rcases h with h | ⟨-, h | ⟨-, h | ⟨-, h | ⟨-, h | ⟨-, h | ⟨-, ⟨n, u⟩, h, heq⟩⟩⟩⟩⟩⟩
    any_goals split at h <;> cases h
    cases heq
    rw [(scanNumber_eq h).1, length_append]
    exact Nat.le_add_right _ _

/-- The number of a member is part of the text. -/
theorem Listed.length_text_le (h : Listed s members r) :
    ∀ m ∈ members, ∀ token, m.2 = .number token → token.text.length ≤ s.length := by
  have hmember : ∀ {s u key t token}, scanMember scanScalar s = some ((key, t), u) →
      t = .number token → token.text.length ≤ s.length := by
    rintro s u key _ token h rfl
    obtain ⟨s₁, s₂, s₃, rfl, hkey, hcolon, hvalue⟩ := scanMember_eq_some_iff.mp h
    have h₁ := length_text_le_of_scanScalar hvalue
    have h₂ := length_skipSpace_le s₃
    have h₃ := length_skipSpace_le s₂
    have h₄ := scanString_length_lt hkey
    rw [hcolon] at h₃
    simp only [length_cons] at h₃ ⊢
    omega
  induction h with
  | last hm _ =>
    intro m hmem token ht
    obtain rfl := mem_singleton.mp hmem
    exact hmember hm ht
  | @cons s u v r key t members hm hcomma _ ih =>
    refine forall_mem_cons.mpr ⟨fun token => hmember hm, fun m hmem token ht => ?_⟩
    have h₁ := ih m hmem token ht
    have h₂ := length_skipSpace_le v
    have h₃ := length_skipSpace_le u
    have h₄ := shrinks_scanMember shrinks_scanScalar hm
    rw [hcomma, length_cons] at h₃
    omega

/-- The numbers of a flat object are parts of its text. -/
theorem Flat.length_text_le (h : Flat text members) :
    ∀ m ∈ members, ∀ token, m.2 = .number token → token.text.length ≤ text.length := by
  obtain ⟨s, r, htext, hbraced, -⟩ := h
  cases hbraced with
  | empty _ => simp
  | listed hlisted =>
    intro m hm token ht
    have h₁ := hlisted.length_text_le m hm token ht
    have h₂ := length_skipSpace_le s
    have h₃ := length_skipSpace_le text
    rw [htext, length_cons] at h₃
    omega

theorem listed_of_scanItems (h : scanItems 125 (scanMember (scanOnce (k + 1))) n s = some (members, r))
    (hscalar : ∀ m ∈ members, m.2.isScalar = true) : Listed s members r := by
  induction n generalizing s members with
  | zero => cases h
  | succ n ih =>
    unfold scanItems at h
    split at h
    · cases h
    · next key u hmember =>
      obtain ⟨key, t⟩ := key
      split at h
      · cases h
      · next c v hskip =>
        split at h
        · next hclose =>
          cases h
          subst hclose
          exact .last ((scanMember_iff (hscalar (key, t) (by simp))).mp hmember) hskip
        · split at h
          · next hcomma =>
            subst hcomma
            obtain ⟨⟨rest, r'⟩, hrest, heq⟩ := map_eq_some_iff.mp h
            cases heq
            obtain ⟨ht, hscalar⟩ := forall_mem_cons.mp hscalar
            exact .cons ((scanMember_iff ht).mp hmember) hskip (ih hrest hscalar)
          · cases h

theorem scanItems_of_listed (h : Listed s members r) (hn : s.length < n) :
    scanItems 125 (scanMember (scanOnce (k + 1))) n s = some (members, r) := by
  induction h generalizing n with
  | last hmember hclose =>
    obtain ⟨n, rfl⟩ : ∃ m, n = m + 1 := ⟨n - 1, by omega⟩
    unfold scanItems
    rw [(scanMember_iff (isScalar_of_scanMember hmember)).mpr hmember]
    simp [hclose]
  | @cons s u v r key t members hmember hcomma _ ih =>
    obtain ⟨n, rfl⟩ : ∃ m, n = m + 1 := ⟨n - 1, by omega⟩
    have hshorter := shrinks_scanMember shrinks_scanScalar hmember
    have hskip := length_skipSpace_le u
    have hskip' := length_skipSpace_le v
    rw [hcomma, length_cons] at hskip
    unfold scanItems
    rw [(scanMember_iff (isScalar_of_scanMember hmember)).mpr hmember]
    simp [hcomma, ih (n := n) (by omega)]

theorem braced_iff (hn : s.length < n) :
    (scanContainer 125 (scanMember (scanOnce (k + 1))) n s = some (members, r) ∧
      ∀ m ∈ members, m.2.isScalar = true) ↔ Braced s members r := by
  constructor
  · rintro ⟨h, hscalar⟩
    unfold scanContainer at h
    split at h
    · cases h
    · next c t hskip =>
      split at h
      · next hclose =>
        cases h
        subst hclose
        exact .empty hskip
      · exact .listed (hskip ▸ listed_of_scanItems h hscalar)
  · intro h
    unfold scanContainer
    cases h with
    | empty hclose => simp [hclose]
    | listed hrest =>
      have hskip := length_skipSpace_le s
      refine ⟨?_, hrest.isScalar⟩
      have hitems := scanItems_of_listed (k := k) hrest (n := n) (by omega)
      obtain ⟨t, ht⟩ := hrest.starts
      rw [ht] at hitems ⊢
      simpa using hitems

/-- The scanner finds an object with scalar members exactly in a flat text. -/
theorem loads_eq_object_iff :
    (loads text = some (.object members) ∧ ∀ m ∈ members, m.2.isScalar = true) ↔ Flat text members := by
  have hlength := length_skipSpace_le text
  constructor
  · rintro ⟨h, hscalar⟩
    unfold loads at h
    split at h
    · cases h
    split at h
    · next tree rest hscan =>
      split at h
      · next hend =>
        cases h
        unfold scanOnce at hscan
        split at hscan
        · obtain ⟨_, -, heq⟩ := map_eq_some_iff.mp hscan
          cases heq
        · next s htext =>
          obtain ⟨⟨members, r⟩, hcontainer, heq⟩ := map_eq_some_iff.mp hscan
          cases heq
          rw [htext, length_cons] at hlength
          obtain ⟨k, hk⟩ : ∃ k, text.length = k + 1 := ⟨text.length - 1, by omega⟩
          rw [hk] at hcontainer
          refine ⟨s, r, htext, (braced_iff (k := k) (n := k + 1) (by omega)).mp
            ⟨hcontainer, hscalar⟩, by simpa using hend⟩
        · obtain ⟨_, -, heq⟩ := map_eq_some_iff.mp hscan
          cases heq
        · cases isScalar_of_scanAtom hscan
      · cases h
    · cases h
  · rintro ⟨s, r, htext, hbraced, hend⟩
    rw [htext, length_cons] at hlength
    obtain ⟨k, hk⟩ : ∃ k, text.length = k + 1 := ⟨text.length - 1, by omega⟩
    obtain ⟨hcontainer, hscalar⟩ := (braced_iff (k := k) (n := k + 1) (by omega)).mpr hbraced
    refine ⟨?_, hscalar⟩
    have hmark : text.head? ≠ some 0xFEFF := by
      intro hhead
      cases text with
      | nil => cases hhead
      | cons c text =>
        obtain rfl : c = 0xFEFF := by simpa using hhead
        simp [skipSpace, isSpace] at htext
    have hscan : scanOnce (k + 1 + 1) (123 :: s) = some (.object members, r) := by
      rw [scanOnce, hcontainer]
      rfl
    unfold loads
    rw [if_neg hmark, htext, hk, hscan]
    simp [hend]

end AgentBox.Json
