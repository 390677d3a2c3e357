import AgentBox.Wire.FlatRecords
import Mathlib.Data.List.DropRight

/-!
# Strict JSON records in the browser

Reference: `apps/web/src/features/workspace/wawWire.ts`, `exactInteger` and `strictJson`.

The browser scans a payload in one pass: the depth, the number of keys, repeated keys, lone surrogates
and the spelling of numbers are checked while the value is built, where the Python decoder runs
`json.loads` between a scan over the bytes and hooks over the result. `strictJson_iff` says that both
accept the same payloads and read the same record from them.

JavaScript indexes a text by UTF-16 units. Every character the scanner looks for is a single unit, so
positions are modelled by the rest of the text in code points.
-/

namespace AgentBox.Web

open List Json Wire

variable {s key text : CodePoints} {m : CodePoints × Tree}

variable {n : ℕ} {ms : List (CodePoints × Tree)}

/-! ## The scanner -/

/-- What the scanner builds. -/
inductive Value
  | null
  | bool (b : Bool)
  | number (n : ℤ)
  | string (s : CodePoints)
  | array (items : List Value)
  | object (members : List (CodePoints × Value))

/-- Where the scanner stands: how many keys it has counted, and the text from `pos` on. -/
structure Cursor where
  keys : ℕ
  rest : CodePoints

/-- `space()` -/
def Cursor.space (c : Cursor) : Cursor := { c with rest := skipSpace c.rest }

/-- `JSON.parse` on a string literal with this body. -/
def parseLiteral (body : CodePoints) : Option CodePoints :=
  match scanString 0 (body ++ [34]) with
  | some (s, []) => some s
  | _ => none

/-- `string()`: the literal up to its closing quote goes to `JSON.parse`. -/
def string (c : Cursor) : Option (CodePoints × Cursor) :=
  match c.rest with
  | 34 :: s => do
    let (body, rest) ← closing s
    let s ← parseLiteral body
    if s.any isSurrogate then none else some (s, { c with rest := rest })
  | _ => none

/-- `exactInteger` -/
def exactInteger (token : NumberToken) : Option ℤ :=
  let fraction := token.fraction.getD []
  let digits := (token.whole ++ fraction).dropWhile (· == 48)
  if digits = [] then some 0
  else
    let shift := exponentValue token.exponent - fraction.length
    let integral :=
      if 0 ≤ shift then
        if digits.length + shift > 5 then none
        else some (digits ++ List.replicate shift.toNat 48)
      else
        let trim := -shift
        if trim ≥ digits.length ∨ trim > 4096 then none
        else if (digits.drop (digits.length - trim.toNat)).all (· == 48) then
          some (digits.take (digits.length - trim.toNat))
        else none
    match integral with
    | none => none
    | some integral =>
      if integral.length > 5 then none
      else
        let result : ℤ := if token.negative then -(digitsValue integral : ℤ) else digitsValue integral
        if result.natAbs > 32768 then none else some result

/-- A number under a key; the version fields have one spelling only. -/
def number (key : Option CodePoints) (c : Cursor) : Option (Value × Cursor) := do
  let (token, rest) ← scanNumber c.rest
  if (key = some protocolVersionKey ∨ key = some cryptoEnvelopeVersionKey) ∧ token.text ≠ [49] then none
  else
    let n ← exactInteger token
    return (.number n, { c with rest := rest })

/-- `text.startsWith(literal, pos)` -/
def literal (word : CodePoints) (value : Value) (c : Cursor) : Option (Value × Cursor) :=
  if word.isPrefixOf c.rest then some (value, { c with rest := c.rest.drop word.length }) else none

/-- A literal or a number. -/
def atom (key : Option CodePoints) (c : Cursor) : Option (Value × Cursor) :=
  (literal [116, 114, 117, 101] (.bool true) c).or <|
  (literal [102, 97, 108, 115, 101] (.bool false) c).or <|
  (literal [110, 117, 108, 108] .null c).or <|
  number key c

/-- A member of an object, after the members `r`: its key, a colon and the value of the key. -/
def member (value : CodePoints → Cursor → Option (Value × Cursor)) (r : List (CodePoints × Value))
    (c : Cursor) : Option ((CodePoints × Value) × Cursor) := do
  let (k, c) ← string c.space
  if c.keys + 1 > 64 ∨ k ∈ r.map Prod.fst then none
  else
    match skipSpace c.rest with
    | 58 :: rest => (value k ⟨c.keys + 1, rest⟩).map fun x => ((k, x.1), x.2)
    | _ => none

/-- The loop over the members of an object. -/
def members (value : CodePoints → Cursor → Option (Value × Cursor)) :
    ℕ → List (CodePoints × Value) → Cursor → Option (List (CodePoints × Value) × Cursor)
  | 0, _, _ => none
  | fuel + 1, r, c => do
    let (m, c) ← member value r c
    match skipSpace c.rest with
    | 125 :: rest => some (r ++ [m], { c with rest := rest })
    | 44 :: rest => members value fuel (r ++ [m]) { c with rest := rest }
    | _ => none

/-- The loop over the items of an array. -/
def items (value : Cursor → Option (Value × Cursor)) :
    ℕ → List Value → Cursor → Option (List Value × Cursor)
  | 0, _, _ => none
  | fuel + 1, a, c => do
    let (v, c) ← value c
    match skipSpace c.rest with
    | 93 :: rest => some (a ++ [v], { c with rest := rest })
    | 44 :: rest => items value fuel (a ++ [v]) { c with rest := rest }
    | _ => none

/-- `value(depth, key)` -/
def value : ℕ → ℕ → Option CodePoints → Cursor → Option (Value × Cursor)
  | 0, _, _, _ => none
  | fuel + 1, depth, key, c =>
    if depth > 16 then none
    else
      match skipSpace c.rest with
      | 34 :: _ => (string c.space).map fun r => (.string r.1, r.2)
      | 123 :: s =>
        if depth = 16 then none
        else
          match skipSpace s with
          | 125 :: rest => some (.object [], { c with rest := rest })
          | s =>
            (members (fun k => value fuel (depth + 1) (some k)) fuel [] { c with rest := s }).map
              fun r => (.object r.1, r.2)
      | 91 :: s =>
        if depth = 16 then none
        else
          match skipSpace s with
          | 93 :: rest => some (.array [], { c with rest := rest })
          | s =>
            (items (value fuel (depth + 1) none) fuel [] { c with rest := s }).map
              fun r => (.array r.1, r.2)
      | _ => atom key c.space

/-- The member as an entry of the record: nested data fails. -/
def Value.scalar : Value → Option Scalar
  | .null => some .null
  | .bool b => some (.bool b)
  | .number n => some (.int n)
  | .string s => some (.str s.chars)
  | _ => none

def recordOf (members : List (CodePoints × Value)) : Option Record :=
  members.foldlM (fun record m => m.2.scalar.map (record.set (String.ofList m.1.chars) ·)) .empty

/-- `strictJson` on the decoded text. -/
def strictText (fuel : ℕ) (text : CodePoints) : Option Record := do
  let (parsed, c) ← value fuel 0 none ⟨0, text⟩
  match parsed with
  | .object members => if skipSpace c.rest = [] then recordOf members else none
  | _ => none

/-- `strictJson` -/
def strictJson (payload : Bytes) : Option Record :=
  if payload.length < 1 ∨ 4096 < payload.length then none
  else (decodeUtf8 0 payload).bind fun text => strictText (text.length + 1) text

/-! ## Scalars -/

/-- Neither an array nor an object. -/
def Value.isScalar (v : Value) : Bool := v.scalar.isSome

/-- The value the scanner builds from a scalar under a key. -/
def convert (key : CodePoints) : Tree → Option Value
  | .null => some .null
  | .bool b => some (.bool b)
  | .number token =>
    if (key = protocolVersionKey ∨ key = cryptoEnvelopeVersionKey) ∧ token.text ≠ [49] then none
    else (exactInteger token).map .number
  | .string s => if s.any isSurrogate then none else some (.string s)
  | _ => none

/-- What becomes of a scalar that the other scanner finds. -/
def read (key : CodePoints) (c : Cursor) (found : Option (Tree × CodePoints)) :
    Option (Value × Cursor) :=
  found.bind fun r => (convert key r.1).map (·, { c with rest := r.2 })

theorem parseLiteral_eq {body r : CodePoints} (h : closing s = some (body, r)) :
    parseLiteral body = (scanString 0 s).map Prod.fst := by
  unfold parseLiteral
  cases hscan : scanString 0 s with
  | none =>
    split
    · next x hx =>
      rw [scanString_iff.mpr ⟨body, h, hx⟩] at hscan
      cases hscan
    · rfl
  | some x =>
    obtain ⟨body', hbody, hx⟩ := scanString_iff.mp hscan
    rw [h] at hbody
    cases hbody
    rw [hx]
    rfl

theorem string_eq (c : Cursor) (s : CodePoints) : string { c with rest := 34 :: s } =
    (scanString 0 s).bind fun r =>
      if r.1.any isSurrogate then none else some (r.1, { c with rest := r.2 }) := by
  cases hscan : scanString 0 s with
  | none =>
    cases hclosing : closing s with
    | none => simp [string, hclosing]
    | some x => simp [string, hclosing, parseLiteral_eq hclosing, hscan]
  | some x =>
    obtain ⟨x, r⟩ := x
    obtain ⟨body, hbody, -⟩ := scanString_iff.mp hscan
    simp [string, hbody, parseLiteral_eq hbody, hscan]

theorem atom_eq (key : CodePoints) (c : Cursor) : atom (some key) c = read key c (scanAtom c.rest) := by
  obtain ⟨keys, rest⟩ := c
  -- the words exclude each other, and no number starts like a constant
  by_cases hnull : [110, 117, 108, 108] <+: rest
  · obtain ⟨r, rfl⟩ := hnull
    rfl
  by_cases htrue : [116, 114, 117, 101] <+: rest
  · obtain ⟨r, rfl⟩ := htrue
    rfl
  by_cases hfalse : [102, 97, 108, 115, 101] <+: rest
  · obtain ⟨r, rfl⟩ := hfalse
    rfl
  by_cases hnan : [78, 97, 78] <+: rest
  · obtain ⟨r, rfl⟩ := hnan
    rfl
  by_cases hinf : [73, 110, 102, 105, 110, 105, 116, 121] <+: rest
  · obtain ⟨r, rfl⟩ := hinf
    rfl
  by_cases hneg : [45, 73, 110, 102, 105, 110, 105, 116, 121] <+: rest
  · obtain ⟨r, rfl⟩ := hneg
    rfl
  have hatom : atom (some key) ⟨keys, rest⟩ = number (some key) ⟨keys, rest⟩ := by
    simp [atom, literal, hnull, htrue, hfalse]
  have hscan : scanAtom rest = (scanNumber rest).map fun r => (.number r.1, r.2) := by
    simp [scanAtom, scanWord, hnull, htrue, hfalse, hnan, hinf, hneg]
  rw [hatom, hscan]
  cases hnumber : scanNumber rest with
  | none => simp [number, read, hnumber]
  | some x =>
    obtain ⟨token, r⟩ := x
    simp only [number, read, hnumber, Option.map_some, Option.bind_eq_bind, Option.bind_some,
      convert, Option.some.injEq]
    split
    · rfl
    · cases exactInteger token <;> rfl

variable {v : Value}

theorem isScalar_of_convert {t : Tree} (h : convert key t = some v) : v.isScalar = true := by
  unfold convert at h
  split at h
  · cases h; rfl
  · cases h; rfl
  · split at h
    · cases h
    · obtain ⟨n, -, rfl⟩ := Option.map_eq_some_iff.mp h
      rfl
  · split at h
    · cases h
    · cases h; rfl
  · cases h

variable {c c' : Cursor}

theorem read_eq_some_iff {found : Option (Tree × CodePoints)} : read key c found = some (v, c') ↔
      ∃ t, found = some (t, c'.rest) ∧ convert key t = some v ∧ c'.keys = c.keys := by
  constructor
  · intro h
    obtain ⟨⟨t, r⟩, hfound, h⟩ := Option.bind_eq_some_iff.mp h
    obtain ⟨w, hw, heq⟩ := Option.map_eq_some_iff.mp h
    cases heq
    exact ⟨t, hfound, hw, rfl⟩
  · rintro ⟨t, rfl, hconvert, hkeys⟩
    simp [read, hconvert, ← hkeys]

/-- A scalar is read where the other scanner finds one. -/
theorem value_iff {depth : ℕ} (hdepth : depth ≤ 16) :
    (value (n + 1) depth (some key) c = some (v, c') ∧ v.isScalar = true) ↔
      read key c (scanScalar (skipSpace c.rest)) = some (v, c') := by
  have hscalar : ∀ {found}, read key c found = some (v, c') → v.isScalar = true := fun h =>
    have ⟨_, _, hconvert, _⟩ := read_eq_some_iff.mp h
    isScalar_of_convert hconvert
  unfold value
  rw [if_neg (by omega)]
  split
  · next s hrest =>
    have hstring : ((string c.space).map fun r => (Value.string r.1, r.2)) =
        read key c (scanScalar (skipSpace c.rest)) := by
      have := string_eq c s
      rw [← hrest] at this
      rw [Cursor.space, this, hrest, scanScalar]
      cases scanString 0 s with
      | none => rfl
      | some x =>
        obtain ⟨x, r⟩ := x
        simp only [read, convert, Option.bind_some, Option.map_some]
        split <;> rfl
    rw [hstring]
    exact ⟨fun h => h.1, fun h => ⟨h, hscalar h⟩⟩
  -- an object and an array are no scalars
  iterate 2
    · next s hrest =>
      rw [hrest, scanScalar]
      refine ⟨?_, fun h => by cases h⟩
      rintro ⟨h, hv⟩
      split at h
      · cases h
      split at h
      · cases h; cases hv
      · obtain ⟨_, -, heq⟩ := Option.map_eq_some_iff.mp h
        cases heq
        cases hv
  · next hquote hbrace hbracket =>
    have hatom : atom (some key) c.space = read key c (scanScalar (skipSpace c.rest)) := by
      rw [atom_eq, scanScalar.eq_4 _ hquote hbrace hbracket]
      rfl
    rw [hatom]
    exact ⟨fun h => h.1, fun h => ⟨h, hscalar h⟩⟩

/-! ## Members -/

/-- The value function finds the scalars that `scanScalar` finds. -/
def Reads (value : CodePoints → Cursor → Option (Value × Cursor)) : Prop :=
  ∀ {key c v c'}, (value key c = some (v, c') ∧ v.isScalar = true) ↔
    read key c (scanScalar (skipSpace c.rest)) = some (v, c')

/-- The member of an object as this scanner builds it. -/
structure Converts (m : CodePoints × Tree) (w : CodePoints × Value) : Prop where
  key : w.1 = m.1
  text : m.1.any isSurrogate = false
  value : convert m.1 m.2 = some w.2

variable {val : CodePoints → Cursor → Option (Value × Cursor)}

theorem string_space_iff {k : CodePoints} : string c.space = some (k, c') ↔
    ∃ s, skipSpace c.rest = 34 :: s ∧ scanString 0 s = some (k, c'.rest) ∧
      k.any isSurrogate = false ∧ c'.keys = c.keys := by
  constructor
  · intro h
    have hquote : ∃ s, skipSpace c.rest = 34 :: s := by
      unfold string at h
      split at h
      · next s hs => exact ⟨s, hs⟩
      · cases h
    obtain ⟨s, hs⟩ := hquote
    rw [Cursor.space, hs, string_eq] at h
    obtain ⟨⟨x, u⟩, hx, h₁⟩ := Option.bind_eq_some_iff.mp h
    dsimp only at h₁
    split at h₁
    · cases h₁
    · next htext =>
      cases h₁
      exact ⟨s, hs, hx, Bool.eq_false_iff.mpr htext, rfl⟩
  · rintro ⟨s, hs, hscan, htext, hkeys⟩
    rw [Cursor.space, hs, string_eq, hscan, Option.bind_some, htext]
    simp [← hkeys]

variable {r : List (CodePoints × Value)}

variable {w : CodePoints × Value}

theorem member_iff (hval : Reads val) : (member val r c = some (w, c') ∧ w.2.isScalar = true) ↔
      ∃ t, scanMember scanScalar (skipSpace c.rest) = some ((w.1, t), c'.rest) ∧
        Converts (w.1, t) w ∧ w.1 ∉ r.map Prod.fst ∧ c'.keys = c.keys + 1 ∧ c.keys + 1 ≤ 64 := by
  obtain ⟨k, v⟩ := w
  simp only [scanMember_eq_some_iff]
  constructor
  · rintro ⟨h, hv⟩
    obtain ⟨⟨k', d⟩, hstring, h₁⟩ := Option.bind_eq_some_iff.mp h
    dsimp only at h₁
    split at h₁
    · cases h₁
    next hfew =>
    split at h₁
    · next rest hcolon =>
      obtain ⟨⟨v', d'⟩, hvalue, heq⟩ := Option.map_eq_some_iff.mp h₁
      cases heq
      obtain ⟨t, hscan, hconvert, hkeys⟩ := read_eq_some_iff.mp (hval.mp ⟨hvalue, hv⟩)
      obtain ⟨s, hs, hkey, htext, hcount⟩ := string_space_iff.mp hstring
      rw [not_or, Nat.not_lt, hcount] at hfew
      rw [hcount] at hkeys
      exact ⟨t, ⟨s, d.rest, rest, hs, hkey, hcolon, hscan⟩, ⟨rfl, htext, hconvert⟩, hfew.2, hkeys, hfew.1⟩
    · cases h₁
  · rintro ⟨t, ⟨s, u, rest, hs, hkey, hcolon, hscan⟩, ⟨-, htext, hconvert⟩, hfresh, hkeys, hfew⟩
    have hstring : string c.space = some (k, ⟨c.keys, u⟩) := string_space_iff.mpr ⟨s, hs, hkey, htext, rfl⟩
    have hvalue := hval.mpr (read_eq_some_iff (c := ⟨c.keys + 1, rest⟩).mpr ⟨t, hscan, hconvert, hkeys⟩)
    refine ⟨?_, hvalue.2⟩
    have hkey : ¬(c.keys + 1 > 64 ∨ k ∈ r.map Prod.fst) := by
      rw [not_or, Nat.not_lt]
      exact ⟨hfew, hfresh⟩
    simp [member, hstring, if_neg hkey, hcolon, hvalue.1]

theorem nodup_concat (hfresh : w.1 ∉ r.map Prod.fst) (h : (r.map Prod.fst).Nodup) :
    ((r ++ [w]).map Prod.fst).Nodup := by
  simpa using List.Nodup.concat hfresh h

theorem members_sound (hval : Reads val) {r' : List (CodePoints × Value)}
    (h : members val n r c = some (r', c')) (hscalar : ∀ w ∈ r', w.2.isScalar = true) :
    ∃ ms vs, Listed (skipSpace c.rest) ms c'.rest ∧ r' = r ++ vs ∧ List.Forall₂ Converts ms vs ∧
      ((r.map Prod.fst).Nodup → (r'.map Prod.fst).Nodup) ∧ c.keys + ms.length ≤ 64 := by
  induction n generalizing r c with
  | zero => cases h
  | succ n ih =>
    obtain ⟨⟨w, d⟩, hmember, h₁⟩ := Option.bind_eq_some_iff.mp h
    dsimp only at h₁
    split at h₁
    · next rest hclose =>
      cases h₁
      obtain ⟨t, hscan, hconverts, hfresh, -, hfew⟩ := (member_iff hval).mp ⟨hmember, hscalar w (by simp)⟩
      exact ⟨[(w.1, t)], [w], .last hscan hclose, rfl, .cons hconverts .nil, nodup_concat hfresh, hfew⟩
    · next rest hcomma =>
      obtain ⟨ms, vs, hlisted, rfl, hvs, hnodup, hms⟩ := ih h₁
      obtain ⟨t, hscan, hconverts, hfresh, hkeys, -⟩ := (member_iff hval).mp ⟨hmember, hscalar w (by simp)⟩
      refine ⟨(w.1, t) :: ms, w :: vs, .cons hscan hcomma hlisted, by simp,
        .cons hconverts hvs, fun hr => hnodup (nodup_concat hfresh hr), ?_⟩
      dsimp only at hms
      rw [length_cons]
      omega
    · cases h₁

variable {vs : List (CodePoints × Value)}

theorem members_complete (hval : Reads val) {rest : CodePoints} (h : Listed s ms rest)
    (hs : skipSpace c.rest = s) (hn : s.length < n) (hvs : List.Forall₂ Converts ms vs)
    (hnodup : ((r ++ vs).map Prod.fst).Nodup) (hkeys : c.keys + ms.length ≤ 64) :
    members val n r c = some (r ++ vs, ⟨c.keys + ms.length, rest⟩) := by
  -- a member whose key is new is read
  have hread : ∀ {s u key t w} {r vs : List (CodePoints × Value)} {c : Cursor},
      skipSpace c.rest = s → scanMember scanScalar s = some ((key, t), u) → Converts (key, t) w →
      ((r ++ w :: vs).map Prod.fst).Nodup → c.keys + 1 ≤ 64 →
      member val r c = some (w, ⟨c.keys + 1, u⟩) := by
    intro s u key t w r vs c hs hmember hconverts hnodup hkeys
    obtain rfl : w.1 = key := hconverts.key
    rw [map_append, map_cons, nodup_middle, nodup_cons] at hnodup
    exact ((member_iff hval).mpr ⟨t, hs ▸ hmember, hconverts,
      fun hmem => hnodup.1 (mem_append_left _ hmem), rfl, hkeys⟩).1
  induction h generalizing n r vs c with
  | last hmember hclose =>
    obtain ⟨n, rfl⟩ : ∃ m, n = m + 1 := ⟨n - 1, by omega⟩
    cases hvs with
    | cons hw hvs =>
      cases hvs
      simp [members, hread hs hmember hw hnodup hkeys, hclose]
  | @cons s u v rest key t ms hmember hcomma _ ih =>
    obtain ⟨n, rfl⟩ : ∃ m, n = m + 1 := ⟨n - 1, by omega⟩
    cases hvs with
    | @cons _ w _ vs hw hvs =>
      have hshorter := shrinks_scanMember shrinks_scanScalar hmember
      have hskip := length_skipSpace_le u
      have hskip' := length_skipSpace_le v
      rw [hcomma, length_cons] at hskip
      rw [length_cons] at hkeys
      have hrest := ih (n := n) (r := r ++ [w]) (c := ⟨c.keys + 1, v⟩) rfl (by omega) hvs
        (by simpa using hnodup) (by dsimp only; omega)
      simp only [members, hread hs hmember hw hnodup (by omega), Option.bind_eq_bind,
        Option.bind_some, hcomma, hrest, append_assoc, singleton_append,
        length_cons, Option.some.injEq, Prod.mk.injEq, true_and, Cursor.mk.injEq, and_true]
      omega

/-! ## Records -/

/-- The two conversions differ in a bound that no control payload can reach. -/
theorem exactInteger_eq {token : NumberToken} (h : token.text.length ≤ 4096) :
    exactInteger token = Wire.exactInteger token := by
  have hdigits : ((token.whole ++ token.fraction.getD []).dropWhile (· == 48)).length ≤ 4096 := by
    refine Nat.le_trans (dropWhile_suffix _).length_le (Nat.le_trans ?_ h)
    cases hfraction : token.fraction <;> simp [NumberToken.text, hfraction] <;> omega
  unfold exactInteger Wire.exactInteger
  dsimp only
  generalize (token.whole ++ token.fraction.getD []).dropWhile (· == 48) = digits at hdigits ⊢
  generalize exponentValue token.exponent - ((token.fraction.getD []).length : ℤ) = shift
  have hresult : ∀ integral : CodePoints, (if integral.length > 5 then none
        else if (if token.negative then -(digitsValue integral : ℤ)
            else digitsValue integral).natAbs > 32768 then none
        else some (if token.negative then -(digitsValue integral : ℤ) else digitsValue integral)) =
      if integral.length > 5 ∨ digitsValue integral > 32768 then none
      else some (if token.negative then -(digitsValue integral : ℤ) else digitsValue integral) := by
    intro integral
    have habs : (if token.negative then -(digitsValue integral : ℤ)
        else digitsValue integral).natAbs = digitsValue integral := by
      split <;> simp
    rw [habs]
    by_cases hlong : integral.length > 5 <;> simp [hlong]
  by_cases hempty : digits = []
  · simp only [hempty, if_true]
  by_cases hshift : 0 ≤ shift
  · by_cases hlong : digits.length + shift > 5
    · simp [hempty, hshift, hlong]
    · simp only [hempty, hshift, hlong, if_true, if_false, hresult]
  by_cases hshort : digits.length ≤ (-shift).toNat
  · have hbound : -shift ≥ digits.length ∨ -shift > 4096 := by omega
    simp only [hempty, hshift, hshort, hbound, true_or, if_true, if_false]
  · have hbound : ¬(-shift ≥ digits.length ∨ -shift > 4096) := by omega
    cases hzero : (digits.drop (digits.length - (-shift).toNat)).all (· == 48) with
    | true =>
      have hany : (digits.drop (digits.length - (-shift).toNat)).any (· ≠ 48) = false := by
        simpa using hzero
      simp only [hempty, hshift, hshort, hbound, hany, Bool.false_eq_true, or_self, if_true,
        if_false, hresult]
    | false =>
      have hany : (digits.drop (digits.length - (-shift).toNat)).any (· ≠ 48) = true := by
        simpa using hzero
      simp only [hempty, hshift, hbound, hany, Bool.false_eq_true, or_true, if_true, if_false]

/-- Every number of an object is part of its text. -/
def Short (m : CodePoints × Tree) : Prop :=
  ∀ token, m.2 = .number token → token.text.length ≤ 4096

theorem bind_convert (hshort : Short m) : (convert m.1 m.2).bind Value.scalar = scalarMember m.1 m.2 := by
  obtain ⟨key, t⟩ := m
  cases t with
  | number token =>
    simp only [convert, scalarMember, memberInteger, exactInteger_eq (hshort token rfl)]
    split
    · rfl
    · cases Wire.exactInteger token <;> rfl
  | string s =>
    simp only [convert, scalarMember]
    split <;> rfl
  | null | bool | constant | array | object => rfl

theorem addMember_of_converts (hshort : Short m) (h : Converts m w) (record : Record) :
    w.2.scalar.map (record.set (String.ofList w.1.chars) ·) = addMember record m := by
  have hscalar : w.2.scalar = scalarMember m.1 m.2 := by
    rw [← bind_convert hshort, h.value, Option.bind_some]
  rw [addMember, h.text, hscalar, h.key]
  simp

theorem recordOf_eq (h : List.Forall₂ Converts ms vs) (hshort : ∀ m ∈ ms, Short m) :
    recordOf vs = toRecord ms := by
  rw [toRecord_eq, recordOf]
  generalize Dict.empty = record
  induction h generalizing record with
  | nil => rfl
  | cons hw _ ih =>
    obtain ⟨hm, hrest⟩ := forall_mem_cons.mp hshort
    rw [foldlM_cons, foldlM_cons, addMember_of_converts hm hw]
    congr 1
    funext record
    exact ih hrest record

theorem exists_converts (hshort : Short m) (h : memberAccepted m = true) : ∃ w, Converts m w := by
  simp only [memberAccepted, Bool.and_eq_true, Bool.not_eq_true'] at h
  rw [← bind_convert hshort] at h
  cases hv : convert m.1 m.2 with
  | none => simp [hv] at h
  | some v => exact ⟨(m.1, v), rfl, h.1, hv⟩

theorem exists_forall_converts (hshort : ∀ m ∈ ms, Short m) (h : ∀ m ∈ ms, memberAccepted m = true) :
    ∃ vs, List.Forall₂ Converts ms vs := by
  induction ms with
  | nil => exact ⟨[], .nil⟩
  | cons m ms ih =>
    obtain ⟨hm, hrest⟩ := forall_mem_cons.mp hshort
    obtain ⟨hm', hrest'⟩ := forall_mem_cons.mp h
    obtain ⟨w, hw⟩ := exists_converts hm hm'
    obtain ⟨vs, hvs⟩ := ih hrest hrest'
    exact ⟨w :: vs, .cons hw hvs⟩

theorem map_fst_of_converts (h : List.Forall₂ Converts ms vs) : vs.map Prod.fst = ms.map Prod.fst := by
  induction h with
  | nil => rfl
  | cons hw _ ih => rw [map_cons, map_cons, hw.key, ih]

theorem isScalar_of_recordOf {r : Record} (h : recordOf vs = some r) : ∀ w ∈ vs, w.2.isScalar = true := by
  unfold recordOf at h
  generalize Dict.empty = record at h
  induction vs generalizing record with
  | nil => simp
  | cons w vs ih =>
    rw [foldlM_cons] at h
    obtain ⟨record', hw, h⟩ := Option.bind_eq_some_iff.mp h
    obtain ⟨v, hv, -⟩ := Option.map_eq_some_iff.mp hw
    exact forall_mem_cons.mpr ⟨by rw [Value.isScalar, hv]; rfl, ih _ h⟩

/-! ## Payloads -/

theorem skipSpace_skipSpace (s : CodePoints) : skipSpace (skipSpace s) = skipSpace s :=
  dropWhile_idempotent isSpace s

theorem isScalar_of_atom {key : Option CodePoints} (h : atom key c = some (v, c')) : v.isScalar = true := by
  have hliteral : ∀ {word w}, literal word w c = some (v, c') → w.isScalar = true →
      v.isScalar = true := by
    intro word w h hw
    unfold literal at h
    split at h
    · cases h; exact hw
    · cases h
  simp only [atom, Option.or_eq_some_iff] at h
  rcases h with h | ⟨-, h | ⟨-, h | ⟨-, h⟩⟩⟩
  any_goals exact hliteral h rfl
  obtain ⟨⟨token, r⟩, -, h₁⟩ := Option.bind_eq_some_iff.mp h
  dsimp only at h₁
  split at h₁
  · cases h₁
  · obtain ⟨n, -, h₂⟩ := Option.bind_eq_some_iff.mp h₁
    cases h₂
    rfl

/-- Inside of the outermost object, nested data apart. -/
theorem reads_value (n : ℕ) : Reads fun k => value (n + 1) 1 (some k) := value_iff (by decide)

/-- An object with scalar members is read from a flat text only. -/
theorem flat_of_value (hn : text.length < n) (h : value n 0 none ⟨0, text⟩ = some (.object vs, c))
    (hend : skipSpace c.rest = []) (hscalar : ∀ w ∈ vs, w.2.isScalar = true) :
    ∃ ms, Flat text ms ∧ List.Forall₂ Converts ms vs ∧ (ms.map Prod.fst).Nodup ∧ ms.length ≤ 64 := by
  have hskip := length_skipSpace_le text
  obtain ⟨n, rfl⟩ : ∃ m, n = m + 1 := ⟨n - 1, by omega⟩
  unfold value at h
  rw [if_neg (by decide)] at h
  dsimp only at h
  split at h
  · obtain ⟨_, -, heq⟩ := Option.map_eq_some_iff.mp h
    cases heq
  · next s hs =>
    rw [if_neg (by decide)] at h
    rw [hs, length_cons] at hskip
    split at h
    · next rest hclose =>
      cases h
      exact ⟨[], ⟨s, rest, hs, .empty hclose, hend⟩, .nil, nodup_nil, Nat.zero_le _⟩
    · obtain ⟨n, rfl⟩ : ∃ m, n = m + 1 := ⟨n - 1, by omega⟩
      obtain ⟨⟨vs', c'⟩, hmembers, heq⟩ := Option.map_eq_some_iff.mp h
      cases heq
      obtain ⟨ms, vs', hlisted, heq, hconverts, hnodup, hfew⟩ :=
        members_sound (reads_value n) hmembers hscalar
      rw [nil_append] at heq
      subst heq
      dsimp only at hlisted hfew
      rw [skipSpace_skipSpace] at hlisted
      rw [map_fst_of_converts hconverts] at hnodup
      exact ⟨ms, ⟨s, _, hs, .listed hlisted, hend⟩, hconverts, hnodup nodup_nil, by omega⟩
  · next s hs =>
    rw [if_neg (by decide)] at h
    split at h
    · cases h
    · obtain ⟨_, -, heq⟩ := Option.map_eq_some_iff.mp h
      cases heq
  · cases isScalar_of_atom h

/-- A flat text is read. -/
theorem value_of_flat (hn : text.length < n) (h : Flat text ms)
    (hconverts : List.Forall₂ Converts ms vs) (hnodup : (ms.map Prod.fst).Nodup) (hfew : ms.length ≤ 64) :
    ∃ c, value n 0 none ⟨0, text⟩ = some (.object vs, c) ∧ skipSpace c.rest = [] := by
  have hskip := length_skipSpace_le text
  obtain ⟨s, rest, hs, hbraced, hend⟩ := h
  rw [hs, length_cons] at hskip
  obtain ⟨n, rfl⟩ : ∃ m, n = m + 2 := ⟨n - 2, by omega⟩
  unfold value
  rw [if_neg (by decide)]
  simp only [hs, Nat.reduceEqDiff, if_false]
  cases hbraced with
  | empty hclose =>
    cases hconverts
    exact ⟨⟨0, rest⟩, by simp only [hclose], hend⟩
  | listed hlisted =>
    have hskip' := length_skipSpace_le s
    have hmembers := members_complete (reads_value n) hlisted (n := n + 1) (r := [])
      (c := ⟨0, skipSpace s⟩) (skipSpace_skipSpace s) (by omega) hconverts
      (by rw [nil_append, map_fst_of_converts hconverts]; exact hnodup)
      (by dsimp only; omega)
    refine ⟨⟨0 + ms.length, rest⟩, ?_, hend⟩
    split
    · next u hu =>
      obtain ⟨t, ht⟩ := hlisted.starts
      rw [ht] at hu
      cases hu
    · rw [hmembers]
      rfl

theorem strictText_iff {r : Record} (hn : text.length < n) (hlength : text.length ≤ 4096) :
    strictText n text = some r ↔
      ∃ ms, Flat text ms ∧ (ms.map Prod.fst).Nodup ∧ ms.length ≤ 64 ∧ toRecord ms = some r := by
  have hshort : ∀ {ms}, Flat text ms → ∀ m ∈ ms, Short m := fun h m hm token ht =>
    Nat.le_trans (h.length_text_le m hm token ht) hlength
  constructor
  · intro h
    obtain ⟨⟨parsed, c⟩, hvalue, h₁⟩ := Option.bind_eq_some_iff.mp h
    dsimp only at h₁
    split at h₁
    · next vs =>
      split at h₁
      · next hend =>
        obtain ⟨ms, hflat, hconverts, hnodup, hfew⟩ := flat_of_value hn hvalue hend (isScalar_of_recordOf h₁)
        rw [recordOf_eq hconverts (hshort hflat)] at h₁
        exact ⟨ms, hflat, hnodup, hfew, h₁⟩
      · cases h₁
    · cases h₁
  · rintro ⟨ms, hflat, hnodup, hfew, hrecord⟩
    obtain ⟨vs, hconverts⟩ := exists_forall_converts (hshort hflat) (memberAccepted_of_toRecord hrecord)
    obtain ⟨c, hvalue, hend⟩ := value_of_flat hn hflat hconverts hnodup hfew
    simp [strictText, hvalue, if_pos hend, recordOf_eq hconverts (hshort hflat), hrecord]

/-- Both decoders accept the same payloads, and read the same record from them. -/
theorem strictJson_iff {payload : Bytes} {r : Record} :
    strictJson payload = some r ↔ jsonBytes payload = .ok r := by
  rw [jsonBytes_iff]
  unfold strictJson
  constructor
  · intro h
    split at h
    · cases h
    · obtain ⟨text, htext, h₁⟩ := Option.bind_eq_some_iff.mp h
      have hle := (utf8_of_decodeUtf8 htext).length_le
      obtain ⟨ms, hflat, hnodup, hfew, hrecord⟩ := (strictText_iff (Nat.lt_succ_self _) (by omega)).mp h₁
      exact ⟨ms, by omega, by omega, ⟨text, htext, hflat⟩, hnodup, hfew, hrecord⟩
  · rintro ⟨ms, hpos, hmax, ⟨text, htext, hflat⟩, hnodup, hfew, hrecord⟩
    have hle := (utf8_of_decodeUtf8 htext).length_le
    rw [if_neg (by omega), htext]
    exact (strictText_iff (Nat.lt_succ_self _) (by omega)).mpr ⟨ms, hflat, hnodup, hfew, hrecord⟩

end AgentBox.Web
