import AgentBox.Common.JsonWrite
import Mathlib.Data.List.Forall2
import Mathlib.Tactic.IntervalCases

/-!
# Writing nested JSON

`json.dumps` with the separators `,` and `:` puts the texts of the parts together, so a writer for a
nested document is a composition of writers for its parts. `Reads text tree` says that the scanner reads
`tree` off the beginning of a text and leaves what follows; it is closed under arrays and objects, and
`loads_of_reads` turns it into a statement about `json.loads`.
-/

namespace AgentBox.Json

open List

variable {texts : List (List Char)} {text : List Char} {tree : Tree}

/-- The texts of a container's items, separated by commas. -/
def joinItems : List (List Char) → List Char
  | [] => []
  | [text] => text
  | text :: rest => text ++ ',' :: joinItems rest

def dumpArray (items : List (List Char)) : List Char := '[' :: (joinItems items ++ [']'])

/-- An object whose members are sorted by key already. -/
def dumpObject (members : List (String × List Char)) : List Char :=
  '\x7b' :: (joinItems (members.map fun m => dumpString m.1 ++ ':' :: m.2) ++ ['\x7d'])

/-- What may follow a value: nothing that would continue a number. -/
def Delimited (s : CodePoints) : Prop := ∀ c ∈ s.head?, isDigit c = false ∧ c ≠ 46 ∧ c ≠ 101 ∧ c ≠ 69

/-- An item that is read off the beginning of a text, as long as the text is not too long, and that
does not begin with whitespace. -/
structure ReadsItem {α : Type} (item : CodePoints → Option (α × CodePoints)) (bound : ℕ)
    (text : List Char) (x : α) : Prop where
  starts : ∀ s, skipSpace (codePoints text ++ s) = codePoints text ++ s
  scan : ∀ s, Delimited s → (codePoints text ++ s).length ≤ bound →
    item (codePoints text ++ s) = some (x, s)

/-- The scanner reads `tree` off the beginning of a text. -/
def Reads (text : List Char) (tree : Tree) : Prop := ∀ fuel, ReadsItem (scanOnce (fuel + 1)) fuel text tree

/-! ## Containers -/

theorem delimited_cons {c : ℕ} (h : c = 44 ∨ c = 93 ∨ c = 125) (s : CodePoints) : Delimited (c :: s) := by
  intro d hd
  obtain rfl := Option.some.inj hd
  rcases h with rfl | rfl | rfl <;> decide

theorem delimited_nil : Delimited [] := nofun

theorem codePoints_append (a b : List Char) : codePoints (a ++ b) = codePoints a ++ codePoints b :=
  map_append

section
variable {α : Type} {item : CodePoints → Option (α × CodePoints)} {bound : ℕ}
variable {c n : ℕ} {texts : List (List Char)} {xs : List α}

theorem scanItems_joinItems {text : List Char} {x : α} (hclose : c = 93 ∨ c = 125)
    (hitem : ReadsItem item bound text x)
    (hitems : List.Forall₂ (ReadsItem item bound) texts xs) (r : CodePoints)
    (hbound : (codePoints (joinItems (text :: texts)) ++ c :: r).length ≤ bound) (hfuel : texts.length < n) :
    scanItems c item n (codePoints (joinItems (text :: texts)) ++ c :: r) = some (x :: xs, r) := by
  have hspace : isSpace c = false := by rcases hclose with rfl | rfl <;> rfl
  have hcomma : 44 ≠ c := by omega
  induction hitems generalizing text x n with
  | nil =>
    obtain ⟨n, rfl⟩ : ∃ m, n = m + 1 := ⟨n - 1, by simp at hfuel; omega⟩
    simp only [joinItems] at hbound ⊢
    rw [scanItems, hitem.scan _ (delimited_cons (.inr hclose) r) hbound]
    simp only [skipSpace_of_not_isSpace hspace, if_true]
  | @cons next y texts xs hnext htail ih =>
    obtain ⟨n, rfl⟩ : ∃ m, n = m + 1 := ⟨n - 1, by simp at hfuel; omega⟩
    have htext : codePoints (joinItems (text :: next :: texts)) ++ c :: r =
        codePoints text ++ 44 :: (codePoints (joinItems (next :: texts)) ++ c :: r) := by
      simp [joinItems, codePoints]
    have hstarts : skipSpace (codePoints (joinItems (next :: texts)) ++ c :: r) =
        codePoints (joinItems (next :: texts)) ++ c :: r := by
      cases texts with
      | nil => exact hnext.starts _
      | cons text' texts =>
        simp only [joinItems, codePoints_append, append_assoc]
        exact hnext.starts _
    rw [htext] at hbound ⊢
    have hrest : (codePoints (joinItems (next :: texts)) ++ c :: r).length ≤ bound := by
      simp only [length_append, length_cons] at hbound ⊢
      omega
    have hread := ih hnext hrest (by simpa using hfuel)
    rw [scanItems, hitem.scan _ (delimited_cons (.inl rfl) _) hbound]
    simp only [skipSpace_of_not_isSpace (show isSpace 44 = false from rfl), if_neg hcomma,
      if_true, hstarts, hread, Option.map_some]

/-- A container read with enough n. -/
theorem scanContainer_joinItems (hclose : c = 93 ∨ c = 125)
    (hfirst : ∀ text ∈ texts, ∃ d t, text = d :: t ∧ d.toNat ≠ c)
    (hitems : List.Forall₂ (ReadsItem item bound) texts xs) (r : CodePoints)
    (hbound : (codePoints (joinItems texts) ++ c :: r).length ≤ bound) (hfuel : texts.length ≤ n) :
    scanContainer c item n (codePoints (joinItems texts) ++ c :: r) = some (xs, r) := by
  have hspace : isSpace c = false := by rcases hclose with rfl | rfl <;> rfl
  unfold scanContainer
  cases hitems with
  | nil => simp [joinItems, codePoints, skipSpace_of_not_isSpace hspace]
  | @cons text x texts xs hitem htail =>
    obtain ⟨d, t, rfl, hd⟩ := hfirst text (by simp)
    have hread := scanItems_joinItems (n := n) hclose hitem htail r hbound
      (by simpa [Nat.succ_le_iff] using hfuel)
    have hshape : ∃ u, codePoints (joinItems ((d :: t) :: texts)) ++ c :: r = d.toNat :: u ∧
        skipSpace (d.toNat :: u) = d.toNat :: u := by
      cases texts with
      | nil => exact ⟨_, rfl, hitem.starts _⟩
      | cons text' texts =>
        refine ⟨codePoints t ++ 44 :: (codePoints (joinItems (text' :: texts)) ++ c :: r), ?_, hitem.starts _⟩
        simp [joinItems, codePoints]
    obtain ⟨u, hu, hskip⟩ := hshape
    rw [hu] at hread ⊢
    rw [hskip]
    simp only [if_neg hd, hread]

end

/-! ## Documents -/

theorem length_joinItems (h : ∀ text ∈ texts, text ≠ []) : texts.length ≤ (joinItems texts).length := by
  fun_induction joinItems texts with
  | case1 => exact Nat.le_refl _
  | case2 text => exact length_pos_iff.mpr (h text (by simp))
  | case3 text rest hrest ih =>
    have htail := ih fun t ht => h t (by simp [ht])
    simp only [length_append, length_cons]
    omega

theorem reads_literal {escape : Char → List Char} (h : ∀ c s, scanString 0 (codePoints (escape c) ++ s) =
    (scanString 0 s).map fun r => (c.toNat :: r.1, r.2)) (s : String) :
    Reads ('"' :: (s.toList.flatMap escape ++ ['"'])) (.string (codePoints s.toList)) := by
  have htext : ∀ r, codePoints ('"' :: (s.toList.flatMap escape ++ ['"'])) ++ r =
      34 :: (codePoints (s.toList.flatMap escape) ++ 34 :: r) := fun r => by simp [codePoints]
  refine fun fuel => ⟨fun r => ?_, fun r _ _ => ?_⟩
  · rw [htext]
    exact skipSpace_of_not_isSpace rfl _
  · rw [htext]
    simp only [scanOnce, scanString_escaped h, Option.map_some]

theorem reads_string (s : String) : Reads (dumpString s) (.string (codePoints s.toList)) :=
  reads_literal scanString_escapeChar s

theorem reads_value (v : Option String) : Reads (dumpValue v) (valueTree v) := by
  cases v with
  | some s => exact reads_string s
  | none => exact fun fuel => ⟨fun r => rfl, fun r _ _ => rfl⟩

/-- What is read begins with some character, which is not the end of a container. -/
theorem Reads.cons (h : Reads text tree) : ∃ c t, text = c :: t ∧ c.toNat ≠ 93 := by
  cases text with
  | nil =>
    have hscan := (h 0).scan [] delimited_nil (Nat.le_refl _)
    cases hscan
  | cons c t =>
    refine ⟨c, t, rfl, fun hc => ?_⟩
    have hscan := (h (codePoints (c :: t)).length).scan [] delimited_nil (by simp)
    rw [codePoints, map_cons, hc] at hscan
    simp only [cons_append, scanOnce] at hscan
    cases hscan

/-- A container is read if its items are. -/
theorem reads_container {α : Type} {opening closing : Char} {mk : List α → Tree} {xs : List α}
    {item : ℕ → CodePoints → Option (α × CodePoints)}
    (hscan : ∀ fuel s, scanOnce (fuel + 1) (opening.toNat :: s) =
      (scanContainer closing.toNat (item fuel) fuel s).map fun r => (mk r.1, r.2))
    (hopening : isSpace opening.toNat = false) (hclosing : closing.toNat = 93 ∨ closing.toNat = 125)
    (hfirst : ∀ text ∈ texts, ∃ c t, text = c :: t ∧ c.toNat ≠ closing.toNat)
    (hitems : ∀ fuel, List.Forall₂ (ReadsItem (item (fuel + 1)) fuel) texts xs) :
    Reads (opening :: (joinItems texts ++ [closing])) (mk xs) := by
  have htext : ∀ r, codePoints (opening :: (joinItems texts ++ [closing])) ++ r =
      opening.toNat :: (codePoints (joinItems texts) ++ closing.toNat :: r) := fun r => by
    simp [codePoints]
  have hlen : texts.length ≤ (joinItems texts).length := length_joinItems fun text ht => by
    obtain ⟨c, t, rfl, -⟩ := hfirst text ht
    exact cons_ne_nil c t
  refine fun fuel => ⟨fun r => ?_, fun r _ hbound => ?_⟩
  · rw [htext]
    exact skipSpace_of_not_isSpace hopening _
  · rw [htext, length_cons] at hbound
    obtain ⟨fuel, rfl⟩ : ∃ n, fuel = n + 1 := ⟨fuel - 1, by omega⟩
    rw [htext, hscan, scanContainer_joinItems hclosing hfirst (hitems fuel) r (by omega),
      Option.map_some]
    simp only [length_append, length_cons, codePoints, length_map] at hbound
    omega

theorem reads_array {trees : List Tree} (h : List.Forall₂ Reads texts trees) :
    Reads (dumpArray texts) (.array trees) := by
  refine reads_container (fun fuel s => rfl) rfl (by decide) ?_ fun fuel => h.imp fun _ _ hr => hr fuel
  induction h with
  | nil => simp
  | cons hr _ ih => exact forall_mem_cons.mpr ⟨hr.cons, ih⟩

theorem readsItem_member {key : String} {fuel : ℕ} (h : ReadsItem (scanOnce (fuel + 1)) fuel text tree) :
    ReadsItem (scanMember (scanOnce (fuel + 1))) fuel (dumpString key ++ ':' :: text)
      (codePoints key.toList, tree) := by
  have htext : ∀ r, codePoints (dumpString key ++ ':' :: text) ++ r =
      34 :: (codePoints (key.toList.flatMap escapeChar) ++ 34 :: 58 :: (codePoints text ++ r)) := by
    intro r
    have hrest : codePoints (dumpString key ++ ':' :: text) ++ r =
        codePoints (dumpString key) ++ 58 :: (codePoints text ++ r) := by
      simp [codePoints]
    rw [hrest, codePoints_dumpString]
  refine ⟨fun r => ?_, fun r hr hbound => ?_⟩
  · rw [htext]
    exact skipSpace_of_not_isSpace rfl _
  · rw [htext] at hbound ⊢
    refine scanMember_eq_some_iff.mpr ⟨_, _, codePoints text ++ r, rfl,
      scanString_escaped scanString_escapeChar _ _, ?_, ?_⟩
    · exact skipSpace_of_not_isSpace rfl _
    · rw [h.starts, h.scan r hr]
      simp only [length_append, length_cons] at hbound ⊢
      omega

variable (members : List (String × Tree))

/-- The members of an object whose keys are Lean strings. -/
def memberTrees : List (CodePoints × Tree) :=
  members.map fun m => (codePoints m.1.toList, m.2)

theorem reads_object (members : List (String × List Char × Tree)) (h : ∀ m ∈ members, Reads m.2.1 m.2.2) :
    Reads (dumpObject (members.map fun m => (m.1, m.2.1)))
      (.object (memberTrees (members.map fun m => (m.1, m.2.2)))) := by
  refine reads_container (fun fuel s => rfl) rfl (by decide) (fun text ht => ?_) fun fuel => ?_
  · obtain ⟨m, -, rfl⟩ := mem_map.mp ht
    exact ⟨'"', _, rfl, by decide⟩
  · induction members with
    | nil => exact .nil
    | cons m members ih =>
      exact .cons (readsItem_member (h m (by simp) fuel)) (ih fun m' hm' => h m' (by simp [hm']))

theorem codePoints_injective : Function.Injective fun s : String => codePoints s.toList := by
  intro s t h
  exact String.toList_inj.mp (List.map_injective_iff.mpr (fun _ _ hc => Char.toNat_inj.mp hc) h)

theorem map_fst_memberTrees :
    (memberTrees members).map Prod.fst = (members.map Prod.fst).map fun s => codePoints s.toList := by
  simp [memberTrees]

/-- A member is looked up by the string that its key stands for. -/
theorem lookup_memberTrees (key : String) :
    (memberTrees members).lookup (codePoints key.toList) = members.lookup key := by
  induction members with
  | nil => rfl
  | cons m members ih =>
    have hkey : (codePoints key.toList == codePoints m.1.toList) = (key == m.1) := by
      rw [Bool.eq_iff_iff, beq_iff_eq, beq_iff_eq]
      exact codePoints_injective.eq_iff
    rw [memberTrees, List.map_cons, List.lookup_cons, List.lookup_cons, hkey, ← memberTrees, ih]

/-- `json.loads` reads a written document back, with white space after it. -/
theorem loads_of_reads {after : List Char} (h : Reads text tree) (hafter : skipSpace (codePoints after) = [])
    (hmark : text.head? ≠ some (Char.ofNat 0xFEFF)) : loads (codePoints (text ++ after)) = some tree := by
  obtain ⟨c, t, rfl, -⟩ := h.cons
  have hbom : (codePoints (c :: t ++ after)).head? ≠ some 0xFEFF := by
    intro heq
    apply hmark
    have hc : c.toNat = 0xFEFF := by simpa [codePoints] using heq
    exact congrArg some (Char.toNat_inj.mp (by rw [hc]; rfl))
  have hdelimited : Delimited (codePoints after) := by
    intro d hd
    have hspace := List.dropWhile_eq_nil_iff.mp hafter d (List.mem_of_mem_head? hd)
    simp only [isSpace, Bool.or_eq_true, beq_iff_eq] at hspace
    rcases hspace with ((rfl | rfl) | rfl) | rfl <;> decide
  have hscan := (h (codePoints (c :: t ++ after)).length).scan _ hdelimited (by simp [codePoints])
  unfold loads
  rw [if_neg hbom]
  rw [codePoints_append] at hscan ⊢
  rw [(h 0).starts, hscan]
  simp [hafter]

/-! ## Trees -/

/-- The spelling that `int.__repr__` gives. -/
def NumberToken.isInteger (n : NumberToken) : Bool :=
  n.fraction.isNone && n.exponent.isNone && !n.whole.isEmpty && n.whole.all isDigit &&
    (n.whole.head? != some 48 || n.text == [48])

mutual

/-- `json.dumps(tree, ensure_ascii=False, separators=(",", ":"))` -/
def dump : Tree → List Char
  | .null => ['n', 'u', 'l', 'l']
  | .bool true => ['t', 'r', 'u', 'e']
  | .bool false => ['f', 'a', 'l', 's', 'e']
  | .number token => token.text.chars
  | .constant name => name.chars
  | .string s => dumpString (String.ofList s.chars)
  | .array items => dumpArray (dumpItems items)
  | .object members => dumpObject (dumpPairs members)

def dumpItems : List Tree → List (List Char)
  | [] => []
  | item :: items => dump item :: dumpItems items

def dumpPairs : List (CodePoints × Tree) → List (String × List Char)
  | [] => []
  | (key, item) :: members => (String.ofList key.chars, dump item) :: dumpPairs members

end

/-- Trees without fractions and constants, whose texts consist of characters with `p`. -/
inductive Plain (p : ℕ → Prop) : Tree → Prop
  | null : Plain p .null
  | bool (b : Bool) : Plain p (.bool b)
  | integer {token : NumberToken} (h : token.isInteger = true) : Plain p (.number token)
  | string {s : CodePoints} (h : ∀ c ∈ s, p c) : Plain p (.string s)
  | array {items : List Tree} (h : ∀ t ∈ items, Plain p t) : Plain p (.array items)
  | object {members : List (CodePoints × Tree)} (hkeys : ∀ m ∈ members, ∀ c ∈ m.1, p c)
      (h : ∀ m ∈ members, Plain p m.2) : Plain p (.object members)

theorem codePoints_chars {s : CodePoints} (h : ∀ c ∈ s, c.isValidChar) : codePoints s.chars = s := by
  have hchar : ∀ c ∈ s, (Char.ofNat c).toNat = c := fun c hc => by
    rw [Char.ofNat, dif_pos (h c hc)]
    rfl
  rw [codePoints, CodePoints.chars, map_map]
  exact (map_congr_left hchar).trans (map_id s)

theorem scanUnsigned_whole {negative : Bool} {whole s : CodePoints} (hne : whole ≠ [])
    (hdigits : ∀ c ∈ whole, isDigit c = true) (hzero : whole.head? = some 48 → whole = [48])
    (hs : Delimited s) : scanUnsigned negative (whole ++ s) = some (⟨negative, whole, none, none⟩, s) := by
  have hstop : s.takeWhile isDigit = [] := by
    cases s with
    | nil => rfl
    | cons c s => exact takeWhile_cons_of_neg (by simp [(hs c rfl).1])
  have hwhole : scanWhole (whole ++ s) = whole := by
    unfold scanWhole
    rw [List.head?_append_of_ne_nil _ hne]
    split
    · next h => exact (hzero h).symm
    · rw [takeWhile_append_of_pos hdigits, hstop, append_nil]
  have hfraction : scanFraction s = (none, s) := by
    unfold scanFraction
    split
    · exact absurd rfl (hs 46 rfl).2.1
    · rfl
  have hexponent : scanExponent s = (none, s) := by
    unfold scanExponent
    split
    · next e s =>
      rw [if_neg]
      exact not_or.mpr (hs e rfl).2.2
    · rfl
  simp [scanUnsigned, hwhole, hfraction, hexponent, hne]

/-- A digit, or a sign before one, begins a number. -/
theorem scanOnce_digit {d : ℕ} (h : isDigit d = true) (negative : Bool) (fuel : ℕ) (s : CodePoints) :
    scanOnce (fuel + 1) ((if negative then [45] else []) ++ d :: s) =
      (scanUnsigned negative (d :: s)).map fun r => (.number r.1, r.2) := by
  simp only [isDigit, Bool.and_eq_true, decide_eq_true_eq] at h
  obtain ⟨hlow, hhigh⟩ := h
  interval_cases d <;> cases negative <;> rfl

theorem reads_integer {token : NumberToken} (h : token.isInteger = true) :
    Reads token.text.chars (.number token) := by
  obtain ⟨negative, whole, fraction, exponent⟩ := token
  simp only [NumberToken.isInteger, Bool.and_eq_true, Option.isNone_iff_eq_none, all_eq_true] at h
  obtain ⟨⟨⟨⟨rfl, rfl⟩, hne⟩, hdigits⟩, hzero⟩ := h
  obtain ⟨d, digits, rfl⟩ := exists_cons_of_ne_nil (show whole ≠ [] by simpa using hne)
  have hrange : ∀ c ∈ d :: digits, 48 ≤ c ∧ c ≤ 57 := by simpa [isDigit] using hdigits
  have htext : ∀ r, codePoints (NumberToken.text ⟨negative, d :: digits, none, none⟩).chars ++ r =
      (if negative then [45] else []) ++ d :: (digits ++ r) := fun r => by
    rw [codePoints_chars fun c hc => ?_]
    · simp [NumberToken.text]
    · have hbound : c ≤ 57 := by
        simp only [NumberToken.text, Option.map_none, Option.getD_none, append_nil, mem_append] at hc
        rcases hc with hc | hc
        · split at hc <;> simp_all
        · exact (hrange c hc).2
      exact .inl (by omega)
  refine fun fuel => ⟨fun r => ?_, fun r hr _ => ?_⟩
  · have hspace : isSpace d = false := by
      have := hrange d (by simp)
      simp [isSpace]
      omega
    rw [htext]
    cases negative
    · exact skipSpace_of_not_isSpace hspace _
    · exact skipSpace_of_not_isSpace rfl _
  · have hscan : scanUnsigned negative (d :: digits ++ r) = some (_, r) :=
      scanUnsigned_whole (cons_ne_nil _ _) hdigits (fun hhead => by
        cases negative <;> simp_all [NumberToken.text]) hr
    rw [htext, scanOnce_digit (hdigits d (by simp)), ← cons_append, hscan, Option.map_some]

theorem dumpItems_eq (items : List Tree) : dumpItems items = items.map dump := by
  induction items with
  | nil => rfl
  | cons t items ih => rw [dumpItems, ih, map_cons]

theorem dumpPairs_eq (members : List (CodePoints × Tree)) :
    dumpPairs members = members.map fun m => (String.ofList m.1.chars, dump m.2) := by
  induction members with
  | nil => rfl
  | cons m members ih => rw [dumpPairs, ih, map_cons]

/-- The scanner reads back what was written. -/
theorem reads_dump (h : Plain Nat.isValidChar tree) : Reads (dump tree) tree := by
  induction h with
  | null => exact fun fuel => ⟨fun r => rfl, fun r _ _ => rfl⟩
  | bool b => cases b <;> exact fun fuel => ⟨fun r => rfl, fun r _ _ => rfl⟩
  | integer h => exact reads_integer h
  | string h =>
    rw [dump]
    have hreads := reads_string (String.ofList (CodePoints.chars ‹_›))
    rwa [String.toList_ofList, codePoints_chars h] at hreads
  | @array items h ih =>
    rw [dump, dumpItems_eq]
    exact reads_array (forall₂_map_left_iff.mpr (forall₂_same.mpr ih))
  | @object members hkeys h ih =>
    have hreads := reads_object (members.map fun m => (String.ofList m.1.chars, dump m.2, m.2)) (by
      intro _ hmem
      obtain ⟨m, hm, rfl⟩ := mem_map.mp hmem
      exact ih m hm)
    have hkey : ∀ m ∈ members, (codePoints (String.ofList m.1.chars).toList, m.2) = m := fun m hm => by
      rw [String.toList_ofList, codePoints_chars (hkeys m hm)]
    simp only [memberTrees, map_map, Function.comp_def] at hreads
    rw [dump, dumpPairs_eq]
    rwa [(map_congr_left hkey).trans (map_id members)] at hreads

/-! ## Flat objects -/

variable (members : List (String × Option String))

theorem dumpMembers_eq :
    dumpMembers members = joinItems (members.map dumpMember) := by
  fun_induction dumpMembers members with
  | case1 => rfl
  | case2 m => rfl
  | case3 m rest hrest ih =>
    obtain ⟨n, rest, rfl⟩ := exists_cons_of_ne_nil hrest
    rw [ih]
    rfl

/-- `json.loads` reads the written members back. -/
theorem loads_dumps :
    loads (codePoints (dumps members).toList) = some (.object (members.map memberTree)) := by
  have hreads := reads_object (members.map fun m => (m.1, dumpValue m.2, valueTree m.2)) (by
    intro _ hm
    obtain ⟨m, -, rfl⟩ := mem_map.mp hm
    exact reads_value m.2)
  rw [memberTrees, dumpObject, map_map, map_map, map_map, map_map] at hreads
  rw [dumps, String.toList_ofList, dumpMembers_eq, ← append_nil (_ :: _)]
  exact loads_of_reads hreads rfl (by simp)

end AgentBox.Json
