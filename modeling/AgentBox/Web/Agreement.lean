import AgentBox.Web.Schema
import Mathlib.Data.List.Perm.Basic
import Mathlib.Tactic.IntervalCases

/-!
# The payload profiles agree

Every check of `validatePayload` depends on a record through its fields only, and asks of them what the
check of `agentbox_protocol` asks. The tables list the same entries in another order.
-/

namespace AgentBox.Web

open List Wire

variable {s : List Char} {year month : ℕ} {names : List String} {e : AwceFields}
    {fields : List (String × Rule)}

variable {r r' : Record} {keys : List String} {leg : Leg} {kind : FrameType}

/-! ## Enumerations -/

section
set_option maxRecDepth 100000

/-- Each table is a rearrangement of the one in `agentbox_protocol`. -/
theorem tables_perm : workspaceStates.Perm Wire.workspaceStates ∧ errorCodes.Perm Wire.errorCodes ∧
    runtimeClose.Perm Wire.runtimeClose ∧ apiClose.Perm Wire.apiClose ∧
    internalClose.Perm Wire.internalClose ∧ rejectCodes.Perm Wire.rejectCodes ∧
    resizeRejectCodes.Perm Wire.resizeRejectCodes ∧
    detachRejectCodes.Perm (Wire.rejectCodes ++ ["DETACH_FAILED"]) ∧
    admissionFields.Perm admissionRules ∧ contextFields.Perm contextRules ∧
    contextKeys.Perm Wire.contextKeys := by
  decide +kernel

/-- Every kind that carries a record on a leg has a profile there, which names no field twice. -/
theorem schemas_complete : ∀ leg ∈ [Leg.browserToApi, .apiToBrowser, .apiToRuntime, .runtimeToApi],
    ∀ kind ∈ FrameType.members, kind.value ∈ leg.allowed → kind.isOpaque = false →
      (schema leg kind).any fun fields => decide (fields.map Prod.fst).Nodup := by
  decide

end

theorem rejectCodes_perm : rejectCodes.Perm Wire.rejectCodes := tables_perm.2.2.2.2.2.1

theorem admissionFields_perm : admissionFields.Perm admissionRules :=
  tables_perm.2.2.2.2.2.2.2.2.1

theorem contextFields_perm : contextFields.Perm contextRules := tables_perm.2.2.2.2.2.2.2.2.2.1

theorem contextKeys_perm : contextKeys.Perm Wire.contextKeys := tables_perm.2.2.2.2.2.2.2.2.2.2

theorem enums_perm (leg : Leg) (rule : Rule) : (enums leg rule).Perm (rule.accepted leg) := by
  obtain ⟨hstates, herrors, hruntime, hapi, hinternal, hreject, hresize, hdetach, -⟩ := tables_perm
  cases rule
  case error => exact herrors
  case state => exact hstates
  case reject => exact hreject
  case resizeReject => exact hresize
  case detachReject => exact hdetach
  case inputReject => exact hreject.append_right _
  case close =>
    cases leg
    case apiToRuntime => exact hinternal
    case runtimeToApi => exact hruntime
    case browserToApi => exact hruntime.append hapi
    case apiToBrowser => exact hruntime.append hapi
  all_goals exact .refl _

theorem contains_enums (leg : Leg) (rule : Rule) (s : String) :
    (enums leg rule).contains s = (rule.accepted leg).contains s :=
  (enums_perm leg rule).contains_eq

/-! ## Scalars -/

theorem uint_eq (minimum maximum : ℕ) (s : List Char) : uint minimum maximum (.str s) =
    (matchesDecimal s && decide (minimum ≤ decimalValue s ∧ decimalValue s ≤ maximum)) := by
  rw [uint, Bool.decide_and]
  simp [← decide_not]

theorem within_eq (low high n : ℤ) : within low high (.int n) = decide (low ≤ n ∧ n ≤ high) := by
  rw [within, Bool.decide_and]
  simp [← decide_not]

theorem toNat_lt_of_b64Index {c : Char} (h : b64Index c < 64) : c.toNat < 128 := by
  simp only [b64Index, Char.le_def, UInt32.le_iff_toNat_le] at h
  iterate 3
    split at h
    · next hc => exact Nat.lt_of_le_of_lt hc.2 (by decide)
  iterate 2
    split at h
    · next hc => subst hc; decide
  omega

/-- The letters of the alphabet take one unit each. -/
theorem jsLength_eq (h : ∀ c ∈ s, b64Index c < 64) : jsLength s = s.length := by
  induction s with
  | nil => rfl
  | cons c s ih =>
    obtain ⟨hc, hs⟩ := forall_mem_cons.mp h
    have hsmall : c.toNat < 0x10000 := Nat.lt_trans (toNat_lt_of_b64Index hc) (by decide)
    rw [jsLength, map_cons, if_pos hsmall, sum_cons, length_cons, Nat.add_comm]
    exact congrArg (· + 1) (ih hs)

theorem isB64_eq (size : ℕ) (s : List Char) : isB64 size s = matchesB64 size s := by
  unfold isB64 matchesB64
  by_cases hall : ∀ c ∈ s, b64Index c < 64
  · rw [jsLength_eq hall]
    have hany : s.any (b64Index · ≥ 64) = false := by
      simpa using hall
    have hall' : s.all (b64Index · < 64) = true := by simpa using hall
    rw [hany, hall']
    cases hlast : s.getLast? with
    | none => simp [List.getLast?_eq_none_iff.mp hlast]
    | some c => 
        cases size % 3 == 0 <;> simp [bne]
  · have hany : s.any (b64Index · ≥ 64) = true := by
      simpa using hall
    have hall' : s.all (b64Index · < 64) = false := by simpa using hall
    simp [hany, hall']

theorem ofDigitChars_lt (h : s.all isDigit = true) (n : ℕ) :
    Nat.ofDigitChars 10 s n < (n + 1) * 10 ^ s.length := by
  induction s generalizing n with
  | nil => simp [Nat.ofDigitChars]
  | cons c s ih =>
    rw [all_cons, Bool.and_eq_true] at h
    have hc : c.toNat - '0'.toNat < 10 := by
      have hnine := h.1
      simp only [isDigit, Bool.and_eq_true, decide_eq_true_eq, Char.le_def,
        UInt32.le_iff_toNat_le] at hnine
      have : c.toNat ≤ 57 := hnine.2
      simp only [Char.reduceToNat]
      omega
    calc Nat.ofDigitChars 10 (c :: s) n
      _ = Nat.ofDigitChars 10 s (10 * n + (c.toNat - '0'.toNat)) := Nat.ofDigitChars_cons
      _ < (10 * n + (c.toNat - '0'.toNat) + 1) * 10 ^ s.length := ih h.2 _
      _ ≤ ((n + 1) * 10) * 10 ^ s.length := Nat.mul_le_mul_right _ (by omega)
      _ = (n + 1) * 10 ^ (c :: s).length := by
          rw [length_cons, Nat.pow_succ, Nat.mul_assoc, Nat.mul_comm 10]

theorem days_eq (hlow : 1 ≤ month) (hhigh : month ≤ 12) :
    days (year % 4 == 0 && (year % 100 != 0 || year % 400 == 0)) month = daysInMonth year month := by
  have hleap : (year % 4 == 0 && (year % 100 != 0 || year % 400 == 0)) =
      decide ((year % 4 = 0 ∧ year % 100 ≠ 0) ∨ year % 400 = 0) := by
    rw [Bool.eq_iff_iff]
    simp only [Bool.and_eq_true, Bool.or_eq_true, beq_iff_eq, bne_iff_ne, decide_eq_true_eq]
    omega
  rw [hleap]
  interval_cases month <;> simp [days, daysInMonth]

theorem date_eq {day hour minute second : ℕ} (hyear : year ≤ 9999) :
    (!(year < 1 || month < 1 || month > 12 || day < 1 ||
      day > days (year % 4 == 0 && (year % 100 != 0 || year % 400 == 0)) month ||
      hour > 23 || minute > 59 || second > 59)) = validDatetime year month day hour minute second := by
  rw [Bool.eq_iff_iff]
  simp only [validDatetime, Bool.not_eq_true', Bool.or_eq_false_iff, decide_eq_false_iff_not,
    decide_eq_true_eq]
  constructor
  · rintro ⟨⟨⟨⟨⟨⟨⟨h₁, h₂⟩, h₃⟩, h₄⟩, h₅⟩, h₆⟩, h₇⟩, h₈⟩
    rw [days_eq (by omega) (by omega)] at h₅
    omega
  · rintro ⟨h₁, -, h₃, h₄, h₅, h₆, h₇, h₈, h₉⟩
    rw [days_eq h₃ h₄]
    omega

theorem isTimestamp_eq (t : List Char) : isTimestamp t = matchesTimestamp t := by
  have hand : ∀ {a b c : Bool}, (a = true → b = c) → (a && b) = (a && c) := by
    rintro (_ | _) b c h
    · rfl
    · rw [h rfl]
  unfold isTimestamp matchesTimestamp
  dsimp only
  refine hand fun hshape => ?_
  have hyear : decimalValue ((t.drop 0).take (4 - 0)) ≤ 9999 := by
    simp only [Bool.and_eq_true, all_cons] at hshape
    have hlt := ofDigitChars_lt hshape.1.2.1 0
    have hlength : ((t.drop 0).take (4 - 0)).length ≤ 4 := length_take_le _ _
    have hpow := Nat.pow_le_pow_right (n := 10) (by decide) hlength
    exact Nat.le_of_lt_succ (Nat.lt_of_lt_of_le hlt (by omega))
  exact date_eq hyear

theorem plainScalar_eq (leg : Leg) (rule : Rule) (value : Scalar) :
    plainScalar leg rule value = scalarMatches leg rule value := by
  cases rule <;> cases value
  all_goals first
    | rfl
    | exact uint_eq _ _ _
    | exact within_eq _ _ _
    | exact isB64_eq _ _
    | exact isTimestamp_eq _
    | exact contains_enums leg _ _

theorem scalar_eq (leg : Leg) (rule : Rule) (value : Scalar) :
    scalar leg rule value = rule.check leg value := by
  cases rule <;> simp only [scalar, Rule.check, plainScalar_eq]

/-! ## Records with the same fields -/

/-- A copy of a record with the same fields, in any order. -/
def Copies (r r' : Record) : Prop := ∀ key, r'.get? key = r.get? key

theorem hasExactly_iff : r.hasExactly names = true ↔ ∀ k, k ∈ r ↔ k ∈ names := by
  simp only [Record.hasExactly, Bool.and_eq_true, all_eq_true, contains_iff_mem,
    decide_eq_true_eq, ← Dict.mem_iff_mem_keys]
  exact ⟨fun h k => ⟨h.1 k, h.2 k⟩, fun h => ⟨fun k => (h k).1, fun k => (h k).2⟩⟩

theorem foldlM_copy {acc : Record}
    (h : keys.foldlM (fun result key => (r.get? key).map (result.set key ·)) acc = some r') :
    (∀ k ∈ keys, k ∈ r) ∧ ∀ k, r'.get? k = if k ∈ keys then r.get? k else acc.get? k := by
  induction keys generalizing acc with
  | nil =>
    cases h
    simp
  | cons key keys ih =>
    rw [foldlM_cons] at h
    obtain ⟨acc', hacc, h₁⟩ := Option.bind_eq_some_iff.mp h
    obtain ⟨v, hv, rfl⟩ := Option.map_eq_some_iff.mp hacc
    obtain ⟨hmem, hget⟩ := ih h₁
    refine ⟨forall_mem_cons.mpr ⟨Dict.mem_of_get? hv, hmem⟩, fun k => ?_⟩
    rw [hget k, Dict.get?_set]
    by_cases hk : k = key
    · subst hk
      simp [hv]
    · simp [hk]

theorem exists_foldlM_copy (h : ∀ k ∈ keys, k ∈ r) (acc : Record) :
    ∃ r', keys.foldlM (fun result key => (r.get? key).map (result.set key ·)) acc = some r' := by
  induction keys generalizing acc with
  | nil => exact ⟨acc, rfl⟩
  | cons key keys ih =>
    obtain ⟨hkey, hkeys⟩ := forall_mem_cons.mp h
    obtain ⟨v, hv⟩ := Dict.mem_iff_exists.mp hkey
    obtain ⟨r', hr'⟩ := ih hkeys (acc.set key v)
    exact ⟨r', by rw [foldlM_cons, hv]; exact hr'⟩

/-- An exact record is a copy, and exists exactly for the records with those keys. -/
theorem exactRecord_iff (hnodup : keys.Nodup) :
    (∃ r', exactRecord r keys = some r') ↔ r.hasExactly keys = true := by
  unfold exactRecord
  rw [hasExactly_iff]
  constructor
  · rintro ⟨r', h⟩
    split at h
    · cases h
    · next hkeys =>
      simp only [not_or, Bool.not_eq_true, any_eq_false, Bool.not_eq_true', Bool.not_eq_false,
        contains_iff_mem] at hkeys
      exact fun k => ⟨fun hk => by simpa using hkeys.2 k (Dict.mem_iff_mem_keys.mp hk),
        (foldlM_copy h).1 k⟩
  · intro h
    have hperm : r.keys.Perm keys := (perm_ext_iff_of_nodup r.keys_nodup hnodup).mpr fun k => by
      rw [← Dict.mem_iff_mem_keys, h]
    have hlength : r.length = keys.length := by
      have := hperm.length_eq
      simpa [Dict.keys, Dict.length] using this
    rw [if_neg]
    · exact exists_foldlM_copy (fun k hk => (h k).mpr hk) .empty
    · simp only [hlength, ne_eq, not_true, false_or, any_eq_true, not_exists, not_and,
        Bool.not_eq_true', Bool.not_eq_false, contains_iff_mem]
      intro k hk
      simpa using hperm.mem_iff.mp hk

theorem copies_of_exactRecord (hnodup : keys.Nodup) (h : exactRecord r keys = some r') : Copies r r' := by
  have hexact := hasExactly_iff.mp ((exactRecord_iff hnodup).mp ⟨r', h⟩)
  unfold exactRecord at h
  split at h
  · cases h
  · intro k
    rw [(foldlM_copy h).2 k]
    split
    · rfl
    · next hk => rw [Dict.get?_empty, Dict.not_mem_iff.mp (mt (hexact k).mp hk)]

/-- Picking keys that the record has copies them. -/
theorem foldlM_pick (h : ∀ k ∈ keys, k ∈ r) (acc : Record) :
    keys.foldlM (fun result key => (r.get? key).map (result.set key ·)) acc =
      some (keys.foldl (fun d key => ((r.get? key).map (d.set key ·)).getD d) acc) := by
  induction keys generalizing acc with
  | nil => rfl
  | cons key keys ih =>
    obtain ⟨hkey, hkeys⟩ := forall_mem_cons.mp h
    obtain ⟨v, hv⟩ := Dict.mem_iff_exists.mp hkey
    rw [foldlM_cons, foldl_cons, hv]
    exact ih hkeys (acc.set key v)

theorem get?_pick (h : ∀ k ∈ keys, k ∈ r) (k : String) :
    (pick r keys).get? k = if k ∈ keys then r.get? k else none := by
  rw [pick, (foldlM_copy (foldlM_pick h .empty)).2 k, Dict.get?_empty]

theorem get?_restrict (r : Record) (names : List String) (k : String) :
    (r.restrict names).get? k = if k ∈ names then r.get? k else none := by
  have hfold : ∀ (keys : List String) (d : Record),
      (keys.foldl (fun d k => if names.contains k then d else d.erase k) d).get? k =
        if k ∈ keys ∧ k ∉ names then none else d.get? k := by
    intro keys
    induction keys with
    | nil => simp
    | cons key keys ih =>
      intro d
      rw [foldl_cons, ih]
      by_cases hk : k = key
      · subst hk
        by_cases hnames : k ∈ names <;> simp [hnames]
      · by_cases hnames : key ∈ names <;> simp [hnames, hk, Dict.get?_erase]
  rw [Record.restrict, hfold]
  by_cases hnames : k ∈ names
  · simp [hnames]
  · by_cases hk : k ∈ r
    · simp [hnames, Dict.mem_iff_mem_keys.mp hk]
    · simp [hnames, Dict.not_mem_iff.mp hk]

/-! ## Tuples and contexts -/

theorem forM_isOk {ε α : Type} (l : List α) (f : α → Except ε Unit) :
    (l.forM f).isOk = l.all fun a => (f a).isOk := by
  induction l with
  | nil => rfl
  | cons a l ih =>
    change (do f a; l.forM f).isOk = _
    rw [all_cons, ← ih]
    cases f a <;> rfl

/-- The value is a text with this property. -/
def ofText (P : List Char → Bool) (v : Option Scalar) : Bool :=
  match v with
  | some (.str s) => P s
  | _ => false

theorem ofText_beq (t : String) (v : Option Scalar) : (v == some (.text t)) = ofText (· == t.toList) v := by
  unfold ofText
  split
  · next s => rw [Bool.eq_iff_iff]; simp [Scalar.text]
  · next hv =>
    rw [beq_eq_false_iff_ne]
    rintro rfl
    exact hv _ rfl

theorem isOk_item {key : String} {P : List Char → Bool}
    (h : ∀ s, (validateAdmissionItem key (some (.str s))).isOk = P s) (v : Option Scalar) :
    (validateAdmissionItem key v).isOk = ofText P v := by
  unfold ofText
  split
  · next s => exact h s
  · next hv =>
    unfold validateAdmissionItem
    split
    · next s => exact absurd rfl (hv s)
    · rfl

theorem isOk_item_u64 (key : String) (hkey : u64Keys.contains key = true) (v : Option Scalar) :
    (validateAdmissionItem key v).isOk = validU64 v := by
  refine isOk_item (fun s => ?_) v
  simp only [validateAdmissionItem, hkey, if_true, validateU64]
  cases matchesPositiveDecimal s && decide (decimalValue s ≤ maxU64) <;> rfl

theorem isOk_item_id (key kind : String) (hkey : u64Keys.contains key = false)
    (hkind : idKinds.lookup key = some kind) (v : Option Scalar) :
    (validateAdmissionItem key v).isOk = validId kind v := by
  refine isOk_item (fun s => ?_) v
  simp only [validateAdmissionItem, hkey, Bool.false_eq_true, if_false, hkind]
  cases matchesId kind s <;> rfl

variable (v : Option Scalar)

theorem isOk_item_digest :
    (validateAdmissionItem "binding_digest" v).isOk = validHex32 v := by
  refine isOk_item (fun s => ?_) v
  have hkey : u64Keys.contains "binding_digest" = false := by decide
  have hkind : idKinds.lookup "binding_digest" = none := by decide
  simp only [validateAdmissionItem, hkey, hkind, Bool.false_eq_true, if_false, if_true,
    Wire.validateHex32]
  cases matchesHex 64 s <;> rfl

theorem isOk_item_mode :
    (validateAdmissionItem "mode" v).isOk = (v == some (.text "writer")) := by
  rw [ofText_beq]
  refine isOk_item (fun s => ?_) v
  have hkey : u64Keys.contains "mode" = false := by decide
  have hkind : idKinds.lookup "mode" = none := by decide
  simp only [validateAdmissionItem, hkey, hkind, Bool.false_eq_true, if_false, String.reduceEq]
  generalize "writer".toList = writer
  by_cases hs : s = writer <;> simp [hs, Except.isOk, Except.toBool]

theorem isOk_item_agent : (validateAdmissionItem "agent_type" v).isOk =
      (v == some (.text "claude") || v == some (.text "codex")) := by
  rw [ofText_beq, ofText_beq]
  have hor : (ofText (· == "claude".toList) v || ofText (· == "codex".toList) v) =
      ofText (fun s => s == "claude".toList || s == "codex".toList) v := by
    unfold ofText
    split <;> rfl
  rw [hor]
  refine isOk_item (fun s => ?_) v
  have hkey : u64Keys.contains "agent_type" = false := by decide
  have hkind : idKinds.lookup "agent_type" = none := by decide
  simp only [validateAdmissionItem, hkey, hkind, Bool.false_eq_true, if_false, String.reduceEq,
    false_and]
  generalize "claude".toList = claude
  generalize "codex".toList = codex
  by_cases hclaude : s = claude
  · simp [hclaude, Except.isOk, Except.toBool]
  · by_cases hcodex : s = codex <;> simp [hclaude, hcodex, Except.isOk, Except.toBool]

theorem validateAdmission_isOk (r : Record) : (Wire.validateAdmission r).isOk =
      (r.hasExactly admissionKeys && (validMembers r && r.isText "mode" "writer")) := by
  have hitems : (Wire.validateAdmission r).isOk = (r.hasExactly admissionKeys &&
      admissionKeys.all fun key => (validateAdmissionItem key (r.get? key)).isOk) := by
    rw [← forM_isOk]
    unfold Wire.validateAdmission
    cases r.hasExactly admissionKeys with
    | false => rfl
    | true =>
      change (do admissionKeys.forM fun key => validateAdmissionItem key (r.get? key); pure r).isOk = _
      rw [Bool.true_and]
      cases admissionKeys.forM fun key => validateAdmissionItem key (r.get? key) <;> rfl
  rw [hitems]
  congr 1
  simp only [admissionKeys, all_cons, all_nil, Bool.and_true, validMembers, Record.isText,
    isOk_item_id "attachment_id" "att" (by decide) (by decide),
    isOk_item_id "workspace_id" "aws" (by decide) (by decide),
    isOk_item_id "project_id" "prj" (by decide) (by decide),
    isOk_item_id "runtime_host_installation_id" "wri" (by decide) (by decide),
    isOk_item_u64 "runtime_host_installation_revision" (by decide),
    isOk_item_u64 "auth_epoch" (by decide),
    isOk_item_u64 "api_authority_epoch" (by decide), isOk_item_u64 "lease_number" (by decide),
    isOk_item_u64 "generation" (by decide), isOk_item_u64 "binding_revision" (by decide),
    isOk_item_digest, isOk_item_mode, isOk_item_agent]
  ac_rfl

namespace Copies

variable {r r' : Record} (h : Copies r r')
include h

theorem mem_iff (k : String) : k ∈ r' ↔ k ∈ r := by rw [Dict.mem_def, Dict.mem_def, h k]

theorem hasExactly (names : List String) : r'.hasExactly names = r.hasExactly names := by
  rw [Bool.eq_iff_iff, hasExactly_iff, hasExactly_iff]
  simp only [h.mem_iff]

theorem isText (name t : String) : r'.isText name t = r.isText name t := by
  rw [Record.isText, Record.isText, h name]

theorem isNull (name : String) : r'.isNull name = r.isNull name := by
  rw [Record.isNull, Record.isNull, h name]

theorem number (name : String) : r'.number name = r.number name := by
  rw [Record.number, Record.number, h name]

theorem validMembers : Web.validMembers r' = Web.validMembers r := by
  simp only [Web.validMembers, h.isText, h _]

end Copies

/-- A check on an exact copy is the check on the record. -/
theorem isSome_exactRecord_bind (hnodup : keys.Nodup) (check : Record → Bool)
    (hcheck : ∀ {r r'}, Copies r r' → check r' = check r) (r : Record) :
    ((exactRecord r keys).bind fun record => if check record then some record else none).isSome =
      (r.hasExactly keys && check r) := by
  cases hexact : r.hasExactly keys with
  | false =>
    cases hrecord : exactRecord r keys with
    | none => rfl
    | some record =>
      rw [(exactRecord_iff hnodup).mp ⟨record, hrecord⟩] at hexact
      cases hexact
  | true =>
    obtain ⟨record, hrecord⟩ := (exactRecord_iff hnodup).mpr hexact
    rw [hrecord, Option.bind_some, hcheck (copies_of_exactRecord hnodup hrecord)]
    cases check r <;> rfl

theorem validateAdmission_isSome (h : Copies r r') :
    (validateAdmission r').isSome = (Wire.validateAdmission r).isOk := by
  rw [validateAdmission_isOk, ← h.hasExactly, ← h.validMembers, ← h.isText]
  exact isSome_exactRecord_bind (by decide)
    (fun record => validMembers record && record.isText "mode" "writer")
    (fun h => by rw [h.validMembers, h.isText]) r'

theorem copies_of_validateAdmission (h : validateAdmission r = some r') : Copies r r' := by
  obtain ⟨record, hrecord, h₁⟩ := Option.bind_eq_some_iff.mp h
  split at h₁
  · cases h₁
    exact copies_of_exactRecord (by decide) hrecord
  · cases h₁

/-- What `validate_context` asks of a record. -/
def contextValid (r : Record) : Bool :=
  validMembers r && validU64 (r.get? "runtime_epoch") && r.isText "protocol_id" "agentbox-waw/v1" &&
    r.get? "crypto_envelope_version" == some (.int 1)

theorem isOk_validateU64 (v : Scalar) : (Wire.validateU64 v).isOk = validU64 (some v) := by
  cases v with
  | str s =>
    simp only [Wire.validateU64, validU64]
    cases matchesPositiveDecimal s && decide (decimalValue s ≤ maxU64) <;> rfl
  | null | bool | int => rfl

theorem isOk_deriveContext (admission : Record) (epoch : Scalar) : (deriveContext admission epoch).isOk =
      ((Wire.validateAdmission admission).isOk && validU64 (some epoch)) := by
  rw [← isOk_validateU64]
  unfold deriveContext
  cases Wire.validateAdmission admission with
  | error e => rfl
  | ok bound => cases Wire.validateU64 epoch <;> rfl

/-- The admission tuple that `validate_context` reconstructs is as valid as the context's members. -/
theorem isOk_reconstructed (h : r.hasExactly Wire.contextKeys = true) :
    (Wire.validateAdmission ((r.restrict admissionKeys).set "mode" (.text "writer"))).isOk =
      validMembers r := by
  have hget : ∀ k, ((r.restrict admissionKeys).set "mode" (.text "writer")).get? k =
      if k = "mode" then some (.text "writer") else if k ∈ admissionKeys then r.get? k else none := by
    intro k
    rw [Dict.get?_set, get?_restrict]
  generalize (r.restrict admissionKeys).set "mode" (.text "writer") = tuple at hget ⊢
  have hexact : Record.hasExactly tuple admissionKeys = true := by
    rw [hasExactly_iff] at h ⊢
    have hnames : ∀ k ∈ admissionKeys, k = "mode" ∨ k ∈ Wire.contextKeys := by decide
    intro k
    rw [Dict.mem_def, hget]
    by_cases hmode : k = "mode"
    · subst hmode
      simp [admissionKeys]
    · rw [if_neg hmode]
      split
      · next hk =>
        exact ⟨fun _ => hk, fun _ => (h k).mpr ((hnames k hk).resolve_left hmode)⟩
      · next hk => exact ⟨fun h => absurd h Bool.false_ne_true, fun hmem => absurd hmem hk⟩
  rw [validateAdmission_isOk, hexact, Bool.true_and]
  simp [validMembers, Record.isText, hget, admissionKeys]

theorem validateContext_isOk (r : Record) :
    (Wire.validateContext r).isOk = (r.hasExactly Wire.contextKeys && contextValid r) := by
  unfold Wire.validateContext
  cases hexact : r.hasExactly Wire.contextKeys with
  | false => rfl
  | true =>
    have hprofile : (r.isText "protocol_id" "agentbox-waw/v1" &&
        r.get? "crypto_envelope_version" == some (.int 1)) =
        !decide (r.get? "protocol_id" ≠ some (.text "agentbox-waw/v1") ∨
          r.get? "crypto_envelope_version" ≠ some (.int 1)) := by
      rw [Bool.eq_iff_iff]
      simp [Record.isText]
    simp only [Bool.not_true, Bool.false_eq_true, if_false, contextValid, Bool.and_assoc, hprofile,
      Bool.true_and]
    split
    · next hbad => simp [hbad, bind, Except.bind, throw, throwThe, MonadExceptOf.throw, Except.isOk, Except.toBool]
    · next hgood =>
      cases hepoch : r.get? "runtime_epoch" with
      | none => simp [validU64]; rfl
      | some epoch =>
        dsimp only
        rw [isOk_deriveContext, isOk_reconstructed hexact, decide_eq_false hgood]
        simp

theorem hasExactly_perm {names' : List String} (h : names.Perm names') (r : Record) :
    r.hasExactly names = r.hasExactly names' := by
  rw [Bool.eq_iff_iff, hasExactly_iff, hasExactly_iff]
  simp only [h.mem_iff]

theorem validateContext_isSome (h : Copies r r') :
    (validateContext r').isSome = (Wire.validateContext r).isOk := by
  have hcheck : ∀ {r r' : Record}, Copies r r' → contextValid r' = contextValid r := fun h => by
    simp only [contextValid, h.validMembers, h.isText, h _]
  rw [validateContext_isOk, ← hasExactly_perm contextKeys_perm, ← h.hasExactly, ← hcheck h]
  exact isSome_exactRecord_bind (by decide) contextValid hcheck r'

/-! ## The checks of a payload -/

section
variable {r r' : Record} (h : Copies r r') {keys' : List String}

include h

theorem hasOwn_eq (k : String) : hasOwn r' k = decide (k ∈ r) := by
  rw [hasOwn, h k, Bool.eq_iff_iff, decide_eq_true_eq, Dict.mem_def]

theorem all_hasOwn {keys : List String} (hperm : keys.Perm keys') :
    keys.all (hasOwn r') = keys'.all (decide <| · ∈ r) := by
  rw [show hasOwn r' = fun k => decide (k ∈ r) from funext (hasOwn_eq h)]
  exact hperm.all_eq

theorem copies_pick {keys : List String} (hperm : keys.Perm keys')
    (hkeys : keys.all (hasOwn r') = true) : Copies (r.restrict keys') (pick r' keys) := by
  intro k
  rw [get?_pick (all_eq_true.mp hkeys), get?_restrict, h k]
  simp only [hperm.mem_iff]

theorem tupleValid_eq : tupleValid r' = boundTupleValid r := by
  unfold tupleValid boundTupleValid
  rw [← all_hasOwn h (.refl _), ← all_hasOwn h contextKeys_perm]
  split
  · next hkeys => exact validateAdmission_isSome (copies_pick h (.refl _) hkeys)
  split
  · next hkeys => exact validateContext_isSome (copies_pick h contextKeys_perm hkeys)
  · rfl

theorem admissionBound_eq (admission : Option Record) :
    admissionBound admission r' = admissionAgrees admission r := by
  cases admission with
  | none => rfl
  | some admission =>
    have hisSome := validateAdmission_isSome (fun k => rfl : Copies admission admission)
    simp only [admissionBound, admissionAgrees, ← hisSome]
    cases hbound : validateAdmission admission with
    | none => rfl
    | some bound =>
      simp [hasOwn_eq h, h _, copies_of_validateAdmission hbound _, bne]

theorem epochBound_eq (runtimeEpoch : Option Scalar) :
    epochBound runtimeEpoch r' = epochAgrees runtimeEpoch r := by
  cases runtimeEpoch with
  | none => rfl
  | some epoch =>
    simp [epochBound, epochAgrees, isOk_validateU64, hasOwn_eq h, h _, bne]

theorem fieldsFit_eq (kind : FrameType) (trusted : Bool) :
    fieldsFit kind trusted r' = fieldsAgree kind trusted r := by
  cases kind
  all_goals simp only [fieldsFit, fieldsAgree, h.isText, h.isNull, h.number, h _]
  case ack =>
    have htext : r'.isText "reason_code" = r.isText "reason_code" := funext (h.isText _)
    rw [htext, (rejectCodes_perm.append_right ["INPUT_RATE_LIMITED"]).any_eq]
    rfl
  case gap =>
    change (if _ then _ else _) = _
    simp only [Bool.decide_and, bne, Bool.not_or, Bool.not_not, ← decide_not, Nat.not_lt, Nat.not_le]
  case admissionCommitAck =>
    change (!(_ != _)) = _
    simp [bne]
  case resizeAck =>
    change (if _ then _ else _) = _
    simp [bne]
  case detachAck =>
    change (!(_ != _ || _)) = _
    simp [bne]
  case error => exact Bool.and_true _
  all_goals rfl

end

/-! ## Envelopes -/

theorem accept_iff {fields : AwceFields} :
    (∃ env, fields.accept = .ok env ∧ env.toAwceFields = e) ↔ fields.validate = .ok () ∧ fields = e := by
  unfold AwceFields.accept
  split
  · next h =>
    constructor
    · rintro ⟨env, heq, rfl⟩
      cases heq
      exact ⟨h, rfl⟩
    · rintro ⟨-, rfl⟩
      exact ⟨_, rfl, rfl⟩
  · next err h =>
    constructor
    · rintro ⟨_, heq, -⟩
      cases heq
    · rintro ⟨heq, -⟩
      cases h.symm.trans heq

theorem requireExactUint_ok_iff {value minimum maximum : ℕ} {name : String} {u : Unit} :
    Awce.requireExactUint value name minimum maximum = .ok u ↔ minimum ≤ value ∧ value ≤ maximum := by
  unfold Awce.requireExactUint
  split
  · next h => exact ⟨nofun, fun h' => by omega⟩
  · next h => exact ⟨fun _ => by omega, fun _ => rfl⟩

/-- The two checks of the fields of an envelope. -/
theorem validateHeaderFields_iff : validateHeaderFields e = .ok () ↔ e.validate = .ok () := by
  unfold validateHeaderFields AwceFields.validate
  simp only [throw_or_eq_ok_iff, bind_eq_ok_iff, requireExactUint_ok_iff, throw_unless_eq_ok_iff,
    exists_const]
  omega

theorem decodeAwce_ok_iff {data : Bytes} :
    decodeAwce data = .ok e ↔ ∃ env, Wire.decodeAwce data = .ok env ∧ env.toAwceFields = e := by
  unfold decodeAwce Wire.decodeAwce
  simp only [throw_or_eq_ok_iff, bind_eq_ok_iff]
  constructor
  · rintro ⟨h₁, h₂, h₃, h₄, h₅, h₆, ⟨⟩, hvalid, heq⟩
    cases heq
    obtain ⟨env, haccept, henv⟩ := accept_iff.mpr ⟨validateHeaderFields_iff.mp hvalid, rfl⟩
    exact ⟨env, ⟨h₁, h₂, h₃, h₄, h₅, h₆, haccept⟩, henv⟩
  · rintro ⟨env, ⟨h₁, h₂, h₃, h₄, h₅, h₆, haccept⟩, henv⟩
    obtain ⟨hvalid, rfl⟩ := accept_iff.mp ⟨env, haccept, henv⟩
    exact ⟨h₁, h₂, h₃, h₄, h₅, h₆, (), validateHeaderFields_iff.mpr hvalid, rfl⟩

/-! ## Payloads -/

/-- Two payloads hold the same bytes, or records with the same fields. -/
def SamePayload : Payload → Payload → Prop
  | .bytes b, .bytes b' => b' = b
  | .record r, .record r' => Copies r r'
  | _, _ => False

theorem perm_admission (rest : List (String × Rule)) :
    (("protocol_version", Rule.one) :: (admissionFields ++ ("runtime_epoch", .u64) :: rest)).Perm
      (("protocol_version", .one) :: (admissionRules ++ epochRules ++ rest)) := by
  rw [append_assoc]
  exact (admissionFields_perm.append_right _).cons _

theorem perm_context (rest : List (String × Rule)) :
    (("protocol_version", Rule.one) :: (contextFields ++ rest)).Perm
      (("protocol_version", .one) :: (contextRules ++ rest)) :=
  (contextFields_perm.append_right _).cons _

theorem exists_schema (hkind : kind.value ∈ leg.allowed) (hopen : kind.isOpaque = false) :
    ∃ fields, schema leg kind = some fields ∧ (fields.map Prod.fst).Nodup := by
  have hleg : leg ∈ [Leg.browserToApi, .apiToBrowser, .apiToRuntime, .runtimeToApi] := by
    cases leg <;> simp
  have hmem : kind ∈ FrameType.members := by cases kind <;> simp [FrameType.members]
  have hnodup := schemas_complete leg hleg kind hmem hkind hopen
  cases hfields : schema leg kind with
  | none => rw [hfields] at hnodup; cases hnodup
  | some fields =>
    rw [hfields] at hnodup
    exact ⟨fields, rfl, by simpa using hnodup⟩

/-- The two tables have the same entries. -/
theorem schema_perm (h : schema leg kind = some fields) :
    ∃ rules, Wire.schema kind leg = some rules ∧ fields.Perm rules := by
  cases leg <;> cases kind <;> cases h
  all_goals first
    | exact ⟨_, rfl, .refl _⟩
    | exact ⟨_, rfl, perm_context _⟩
    | exact ⟨_, rfl, perm_admission _⟩

theorem recordMatches_eq {rules : List (String × Rule)} (hperm : fields.Perm rules) (h : Copies r r') :
    (r.hasExactly (fields.map Prod.fst) &&
      fields.all fun e => (r'.get? e.1).any (scalar leg e.2)) = recordMatches leg rules r := by
  rw [recordMatches, hasExactly_perm (hperm.map _), hperm.all_eq]
  have hscalar : ∀ rule, scalar leg rule = rule.check leg := fun rule => funext (scalar_eq leg rule)
  simp only [h _, hscalar]

theorem isOpaque_iff : kind.isOpaque = true ↔ kind = .input ∨ kind = .output := by
  simp [FrameType.isOpaque]

theorem validatePayload_sealed (hsealed : kind.isOpaque = true) (leg : Leg) (payload : Payload)
    (admission : Option Record) (runtimeEpoch : Option Scalar) (trusted : Bool) :
    validatePayload kind leg payload admission runtimeEpoch trusted =
      (Wire.validatePayload kind leg payload admission runtimeEpoch trusted).toOption := by
  unfold validatePayload Wire.validatePayload
  rw [if_pos (isOpaque_iff.mp hsealed), if_pos hsealed]
  cases payload with
  | record r => rfl
  | bytes b =>
    dsimp only
    cases hweb : decodeAwce b with
    | error e =>
      cases hwire : Wire.decodeAwce b with
      | error e' => rfl
      | ok env =>
        rw [decodeAwce_ok_iff.mpr ⟨env, hwire, rfl⟩] at hweb
        cases hweb
    | ok e =>
      obtain ⟨env, henv, rfl⟩ := decodeAwce_ok_iff.mp hweb
      rw [henv]
      have hfits : (env.directionId ≠ (if kind = .input then 1 else 2) ∨
          env.ciphertext.length > (if kind = .input then 16384 else 32768) + 16) ↔
          ¬envelopeFits kind env = true := by
        unfold envelopeFits
        split
        · simp [Decidable.imp_iff_not_or]
        · simp [Decidable.imp_iff_not_or]
      simp only [hfits]
      cases envelopeFits kind env <;> rfl

/-- The checks of a record under its profile. -/
def recordChecks (kind : FrameType) (leg : Leg) (fields : List (String × Rule))
    (admission : Option Record) (runtimeEpoch : Option Scalar) (trusted : Bool) (r : Record) : Bool :=
  fields.all (fun e => (r.get? e.1).any (scalar leg e.2)) && tupleValid r &&
    admissionBound admission r && epochBound runtimeEpoch r && fieldsFit kind trusted r

theorem recordChecks_copies (kind : FrameType) (leg : Leg) (fields : List (String × Rule))
    (admission : Option Record) (runtimeEpoch : Option Scalar) (trusted : Bool) (h : Copies r r') :
    recordChecks kind leg fields admission runtimeEpoch trusted r' =
      recordChecks kind leg fields admission runtimeEpoch trusted r := by
  have hrefl : Copies r r := fun _ => rfl
  simp only [recordChecks, tupleValid_eq h, tupleValid_eq hrefl, admissionBound_eq h,
    admissionBound_eq hrefl, epochBound_eq h, epochBound_eq hrefl, fieldsFit_eq h, fieldsFit_eq hrefl,
    h _]

theorem validatePayload_record (hopen : kind.isOpaque = false)
    (hfields : schema leg kind = some fields) (r : Record) (admission : Option Record)
    (runtimeEpoch : Option Scalar) (trusted : Bool) :
    validatePayload kind leg (.record r) admission runtimeEpoch trusted =
      ((exactRecord r (fields.map Prod.fst)).bind fun record =>
        if recordChecks kind leg fields admission runtimeEpoch trusted record then some record
        else none).map Payload.record := by
  unfold validatePayload
  rw [if_neg (by rw [← isOpaque_iff, hopen]; nofun)]
  simp only [hfields, Option.bind_eq_bind, Option.bind_some, Option.map_bind]
  congr 1
  funext record
  rw [Function.comp_apply, apply_ite (Option.map Payload.record)]
  rfl

/-- A payload passes the checks of the browser exactly when it passes those of the server, and what is
returned has the same fields. -/
theorem validatePayload_iff (hkind : kind.value ∈ leg.allowed) (payload : Payload)
    (admission : Option Record) (runtimeEpoch : Option Scalar) (trusted : Bool) :
    (validatePayload kind leg payload admission runtimeEpoch trusted).isSome =
        (Wire.validatePayload kind leg payload admission runtimeEpoch trusted).isOk ∧
      ∀ checked, validatePayload kind leg payload admission runtimeEpoch trusted = some checked →
        SamePayload payload checked := by
  cases hsealed : kind.isOpaque with
  | true =>
    rw [validatePayload_sealed hsealed]
    cases hwire : Wire.validatePayload kind leg payload admission runtimeEpoch trusted with
    | error e =>
      refine ⟨rfl, fun _ h => ?_⟩
      cases h
    | ok validated =>
      refine ⟨rfl, fun checked h => ?_⟩
      cases h
      rw [(validatePayload_ok hwire).1]
      cases payload <;> simp [SamePayload, Copies]
  | false =>
    obtain ⟨fields, hfields, hnodup⟩ := exists_schema hkind hsealed
    obtain ⟨rules, hrules, hperm⟩ := schema_perm hfields
    cases payload with
    | bytes b =>
      unfold validatePayload Wire.validatePayload
      rw [if_neg (by rw [← isOpaque_iff, hsealed]; exact Bool.false_ne_true), hsealed, if_neg Bool.false_ne_true,
        hrules]
      refine ⟨rfl, fun _ h => ?_⟩
      cases h
    | record r =>
      have hrefl : Copies r r := fun _ => rfl
      rw [validatePayload_record hsealed hfields]
      constructor
      · rw [Option.isSome_map, isSome_exactRecord_bind hnodup _
          (recordChecks_copies kind leg fields admission runtimeEpoch trusted)]
        unfold Wire.validatePayload
        rw [hsealed, if_neg Bool.false_ne_true, hrules]
        simp only [recordChecks, ← Bool.and_assoc, recordMatches_eq hperm hrefl, tupleValid_eq hrefl,
          admissionBound_eq hrefl, epochBound_eq hrefl, fieldsFit_eq hrefl]
        split
        · next hchecks => rw [hchecks]; rfl
        · next hchecks => rw [Bool.not_eq_true] at hchecks; rw [hchecks]; rfl
      · intro checked h
        obtain ⟨record, hrecord, rfl⟩ := Option.map_eq_some_iff.mp h
        obtain ⟨copy, hcopy, h₁⟩ := Option.bind_eq_some_iff.mp hrecord
        split at h₁
        · cases h₁
          exact copies_of_exactRecord hnodup hcopy
        · cases h₁

end AgentBox.Web
