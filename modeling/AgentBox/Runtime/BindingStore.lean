import AgentBox.Common.JsonNested
import AgentBox.Control.Ledger
import Mathlib.Data.List.Sort

/-!
# The Runtime's store of Project bindings

`WAWProjectBindingStore` keeps one file per Project in a directory: the canonical JSON record of its
current binding. A commit writes a temporary file next to the records and moves it over the record, so
that a record is always whole. Readers scan the directory strictly: every name has to be a Project's.

`_decode_record` compares a file with its own canonical form. What the store wrote itself passes that
comparison (`decodeRecord_encode`), which is all a reader needs after any number of commits.
-/

namespace AgentBox.Runtime

open List
open Control (Unicode validateRelativeKey isProjectId isDigest isHostId)

variable {name projectId p q : String} {raw : Bytes}

/-! ## Records -/

/-- `\A[1-9][0-9]{0,19}\Z` -/
def matchesDecimal : List Char → Bool
  | [] => false
  | c :: rest => isDigit c && c != '0' && decide (rest.length ≤ 19) && rest.all isDigit

structure BindingFields where
  projectId : String
  relativeKey : String
  projectRevision : String
  bindingRevision : String
  bindingDigest : String
  previousBindingRevision : Option String
  previousBindingDigest : Option String
  hostId : String
  hostRevision : String
deriving DecidableEq

def checkU64 (value field : String) : Except String Unit :=
  if !matchesDecimal value.toList || 0xFFFFFFFFFFFFFFFF < decimal value then
    .error (field ++ " is invalid")
  else .ok ()

def checkDigest (value field : String) : Except String Unit :=
  if isDigest value then .ok () else .error (field ++ " is invalid")

/-- The predecessor that a binding of this revision names. -/
def checkPredecessor (b : BindingFields) : Except String Unit :=
  if b.bindingRevision = "1" then
    if b.previousBindingRevision.isSome || b.previousBindingDigest.isSome then
      .error "first binding cannot have a predecessor"
    else .ok ()
  else
    match b.previousBindingRevision, b.previousBindingDigest with
    | some revision, some digest => do
        checkU64 revision "previous_binding_revision"
        checkDigest digest "previous_binding_digest"
        if decimal revision + 1 ≠ decimal b.bindingRevision then
          throw "binding predecessor is invalid"
    | _, _ => .error "binding predecessor is unavailable"

/-- `WAWDurableProjectBinding.__post_init__` -/
def BindingFields.check (u : Unicode) (b : BindingFields) : Except String Unit := do
  if !isProjectId b.projectId then throw "project identity is invalid"
  if (validateRelativeKey u b.relativeKey).toOption.isNone then throw "Project key is invalid"
  checkU64 b.projectRevision "project_revision"
  checkU64 b.bindingRevision "binding_revision"
  checkU64 b.hostRevision "runtime_host_installation_revision"
  checkDigest b.bindingDigest "binding_digest"
  checkPredecessor b
  if !isHostId b.hostId then throw "runtime host identity is invalid"

/-- A binding that passed its own checks. -/
structure DurableBinding (u : Unicode) extends BindingFields where
  valid : toBindingFields.check u = .ok ()

variable {u : Unicode}

theorem DurableBinding.ext {a b : DurableBinding u} (h : a.toBindingFields = b.toBindingFields) : a = b := by
  cases a
  cases b
  congr

instance : DecidableEq (DurableBinding u) := fun a b =>
  decidable_of_iff (a.toBindingFields = b.toBindingFields)
    ⟨DurableBinding.ext, fun h => congrArg DurableBinding.toBindingFields h⟩

def schemaVersion : String := "waw-runtime-project-binding-v1"

/-- `to_record()`; the members are in the order of their keys. -/
def BindingFields.toRecord (b : BindingFields) : List (String × Option String) :=
  [("binding_digest", some b.bindingDigest),
   ("binding_revision", some b.bindingRevision),
   ("previous_binding_digest", b.previousBindingDigest),
   ("previous_binding_revision", b.previousBindingRevision),
   ("project_id", some b.projectId),
   ("project_revision", some b.projectRevision),
   ("relative_key", some b.relativeKey),
   ("runtime_host_installation_id", some b.hostId),
   ("runtime_host_installation_revision", some b.hostRevision),
   ("schema_version", some schemaVersion)]

def recordFields : List String :=
  ["binding_digest", "binding_revision", "previous_binding_digest", "previous_binding_revision",
   "project_id", "project_revision", "relative_key", "runtime_host_installation_id",
   "runtime_host_installation_revision", "schema_version"]

variable (value : List (String × Option String))

/-- A field that has to be a string. -/
def requiredField (field : String) : Except String String :=
  orRaise (value.lookup field).join "binding record is invalid"

/-- `cls(...)` -/
def DurableBinding.make (u : Unicode) (b : BindingFields) : Except String (DurableBinding u) :=
  match h : b.check u with
  | .ok () => .ok ⟨b, h⟩
  | .error e => .error e

def fromRecord (u : Unicode) (value : List (String × Option String)) :
    Except String (DurableBinding u) := do
  let keys := value.map Prod.fst
  if !(keys.all fun k => recordFields.contains k) || !(recordFields.all fun k => keys.contains k) then
    throw "binding record is invalid"
  if value.lookup "schema_version" ≠ some (some schemaVersion) then throw "binding schema is invalid"
  let projectId ← requiredField value "project_id"
  let relativeKey ← requiredField value "relative_key"
  let projectRevision ← requiredField value "project_revision"
  let bindingRevision ← requiredField value "binding_revision"
  let bindingDigest ← requiredField value "binding_digest"
  let hostId ← requiredField value "runtime_host_installation_id"
  let hostRevision ← requiredField value "runtime_host_installation_revision"
  DurableBinding.make u
    { projectId, relativeKey, projectRevision, bindingRevision, bindingDigest, hostId, hostRevision
      previousBindingRevision := (value.lookup "previous_binding_revision").join
      previousBindingDigest := (value.lookup "previous_binding_digest").join }

/-! ## Canonical records -/

/-- The members of an object as `rfc8785.dumps` orders them. -/
def sortMembers : List (String × Option String) :=
  value.insertionSort fun a b => a.1 ≤ b.1

def canonicalRecord : Except String Bytes :=
  let raw := utf8 (Json.dumps (sortMembers value))
  if raw.length < 1 ∨ 4096 < raw.length then .error "binding record is oversized" else .ok raw

/-- A member that is a string or `null`. A record has no others, so `from_record` refuses what has. -/
def textMember (m : CodePoints × Json.Tree) : Option (String × Option String) :=
  match m.2 with
  | .null => some (String.ofList (CodePoints.chars m.1), none)
  | .string s => some (String.ofList (CodePoints.chars m.1), some (String.ofList (CodePoints.chars s)))
  | _ => none

/-- `json.loads(raw, object_pairs_hook=_no_duplicates)`. It would guess UTF-16 or UTF-32 from a zero byte
or a byte order mark; canonical text has neither, so such a file is refused either way. -/
def loadRecord (raw : Bytes) : Except String (List (String × Option String)) := do
  let text ← orRaise (decodeUtf8 0 raw) "binding record is invalid"
  match Json.loads text with
  | some (.object members) =>
    if ¬(members.map Prod.fst).Nodup then throw "binding record has duplicate fields"
    orRaise (members.mapM textMember) "binding record is invalid"
  | _ => throw "binding record is invalid"

def decodeRecord (u : Unicode) (raw : Bytes) : Except String (DurableBinding u) := do
  let decoded ← loadRecord raw
  if (← canonicalRecord decoded) ≠ raw then throw "binding record is not canonical"
  fromRecord u decoded

/-! ## The directory -/

/-- The names in the store's directory, and what the files hold. -/
abbrev Directory := Dict String Bytes

/-- `_name(project_id)` -/
def recordName (projectId : String) : String := projectId ++ ".json"

/-- `name[:-5]` of a name that ends in `.json`. -/
def stripJson (name : String) : Option String :=
  if ".json".toList.isSuffixOf name.toList then
    some (String.ofList (name.toList.take (name.toList.length - 5)))
  else none

section
variable (u : Unicode) (dir : Directory) (value : DurableBinding u)

/-- `_read(project_id)` -/
def read (projectId : String) : Except String (Option (DurableBinding u)) :=
  match dir.get? (recordName projectId) with
  | none => .ok none
  | some raw =>
    if raw.length < 1 ∨ 4096 < raw.length then .error "binding record provenance is invalid"
    else (decodeRecord u raw).map some

def get (projectId : String) : Except String (Option (DurableBinding u)) :=
  if isProjectId projectId then read u dir projectId else .error "project identity is invalid"

/-- The file behind one name of the directory. -/
def readName (name : String) : Except String (DurableBinding u) := do
  let projectId ← orRaise (stripJson name) "binding store inventory is invalid"
  let value ← orRaise (← read u dir projectId) "binding store inventory is invalid"
  if value.projectId ≠ projectId then throw "binding store inventory is invalid"
  return value

/-- The loop over the names. -/
def readNames : List String → Except String (List (DurableBinding u))
  | [] => .ok []
  | name :: rest => do
      let value ← readName u dir name
      let values ← readNames rest
      return value :: values

/-- `list_current()` -/
def listCurrent : Except String (List (DurableBinding u)) :=
  if 256 < dir.keys.length then .error "binding store capacity is invalid"
  else readNames u dir (dir.keys.insertionSort (· ≤ ·))

/-! ## Commits -/

/-- A binding that replaces the current one is its successor. -/
def checkNext (value current : DurableBinding u) : Except String Unit := do
  if decimal value.bindingRevision ≠ decimal current.bindingRevision + 1 then
    throw "binding revision is not next"
  if value.previousBindingRevision ≠ some current.bindingRevision ∨
      value.previousBindingDigest ≠ some current.bindingDigest then
    throw "binding predecessor is stale"

/-- A Project's first binding needs room in the store. -/
def checkFirst : Except String Unit := do
  if value.bindingRevision ≠ "1" then throw "binding bootstrap is unavailable"
  if 256 ≤ (← listCurrent u dir).length then throw "binding store capacity is exhausted"

/-- The checks of `commit` before it touches the directory: the record it is about to write, or nothing
for a replay of the current binding. -/
def plan : Except String (Option Bytes) := do
  match ← read u dir value.projectId with
  | some current =>
    if current = value then return none
    else
      checkNext u value current
      return some (← canonicalRecord value.toRecord)
  | none =>
    checkFirst u dir value
    return some (← canonicalRecord value.toRecord)

/-- The name of the temporary file; the token is `secrets.token_hex(16)`. -/
def temporaryName (projectId token : String) : String :=
  "." ++ recordName projectId ++ ".tmp-" ++ token

/-- `secrets.token_hex(16)` is 32 lowercase digits. -/
def isToken (token : String) : Bool := matchesHexAfter "" 32 token

/-- The final read-back. -/
def readBack : Except String (DurableBinding u) := do
  if (← read u dir value.projectId) = some value then return value
  throw "binding record did not persist exactly"

/-- `commit(value)`: what it returns or raises, and the directory afterwards. -/
def commit (token : String) : Except String (DurableBinding u) × Directory :=
  match plan u dir value with
  | .error e => (.error e, dir)
  | .ok none => (.ok value, dir)
  | .ok (some raw) =>
    -- an existing temporary file fails `O_EXCL`, and is removed on the way out
    if temporaryName value.projectId token ∈ dir then
      (.error "binding record persistence failed", dir.erase (temporaryName value.projectId token))
    else
      let replaced := dir.set (recordName value.projectId) raw
      (readBack u replaced value, replaced)

/-- Where a crash interrupts a commit that writes. -/
inductive Cut
  | before
  /-- the temporary file exists and holds this many bytes -/
  | temporary (written : ℕ)
  | replaced

/-- The directory that a crash leaves behind. -/
def crashed (token : String) (cut : Cut) : Directory :=
  match plan u dir value with
  | .ok (some raw) =>
    if temporaryName value.projectId token ∈ dir then dir
    else
      match cut with
      | .before => dir
      | .temporary written => dir.set (temporaryName value.projectId token) (raw.take written)
      | .replaced => dir.set (recordName value.projectId) raw
  | _ => dir

/-- The directory after a series of commits. -/
def directoryAfter (commits : List (DurableBinding u × String)) : Directory :=
  commits.foldl (fun dir c => (commit u dir c.1 c.2).2) .empty

end

/-! ## Names -/

theorem stripJson_recordName (projectId : String) : stripJson (recordName projectId) = some projectId := by
  have hlist : (recordName projectId).toList = projectId.toList ++ ".json".toList := String.toList_append
  have hlength : ".json".toList.length = 5 := rfl
  unfold stripJson
  rw [if_pos, hlist, length_append, hlength, Nat.add_sub_cancel, take_left, String.ofList_toList]
  rw [isSuffixOf_iff_suffix, hlist]
  exact suffix_append _ _

theorem recordName_injective (h : recordName p = recordName q) : p = q := by
  have := congrArg stripJson h
  simpa [stripJson_recordName] using this

/-- A temporary file is not a record. -/
theorem stripJson_temporaryName (projectId : String) {token : String} (h : isToken token = true) :
    stripJson (temporaryName projectId token) = none := by
  simp only [isToken, matchesHexAfter, Bool.and_eq_true] at h
  obtain ⟨⟨-, hlength⟩, hhex⟩ := h
  have hdrop : token.toList.drop "".toList.length = token.toList := rfl
  rw [hdrop] at hlength hhex
  unfold stripJson
  rw [if_neg]
  rw [isSuffixOf_iff_suffix]
  intro hsuffix
  -- the token is longer than the ending, which would have to lie within it
  have htoken : token.toList <:+ (temporaryName projectId token).toList := by
    rw [temporaryName, String.toList_append]
    exact suffix_append _ _
  have hending : ".json".toList <:+ token.toList := by
    apply suffix_of_suffix_length_le hsuffix htoken
    rw [beq_iff_eq.mp hlength]
    decide
  have hj : 'j' ∈ token.toList := hending.subset (by decide)
  exact absurd (all_eq_true.mp hhex 'j' hj) (by decide)

theorem recordName_ne_temporaryName {token : String} (h : isToken token = true) :
    recordName p ≠ temporaryName q token := by
  intro heq
  have hstrip := stripJson_temporaryName q h
  rw [← heq, stripJson_recordName] at hstrip
  cases hstrip

/-! ## Reading back -/

theorem toRecord_keys (b : BindingFields) : b.toRecord.map Prod.fst = recordFields := rfl

theorem sortMembers_toRecord (b : BindingFields) : sortMembers b.toRecord = b.toRecord := by
  apply List.Pairwise.insertionSort_eq
  have hkeys : recordFields.Pairwise (· ≤ ·) := by decide
  rw [← toRecord_keys b] at hkeys
  exact pairwise_map.mp hkeys

theorem ofList_chars (s : String) : String.ofList (CodePoints.chars (codePoints s.toList)) = s := by
  have hchars : CodePoints.chars (codePoints s.toList) = s.toList := by
    simp [CodePoints.chars, codePoints, Function.comp_def]
  rw [hchars, String.ofList_toList]

theorem textMember_memberTree (m : String × Option String) : textMember (Json.memberTree m) = some m := by
  obtain ⟨key, value⟩ := m
  cases value with
  | none | some => simp [textMember, Json.memberTree, Json.valueTree, ofList_chars]

variable (members : List (String × Option String))

theorem mapM_textMember :
    (members.map Json.memberTree).mapM textMember = some members := by
  induction members with
  | nil => rfl
  | cons m rest ih => simp [textMember_memberTree, ih]

theorem canonicalRecord_eq_ok {b : BindingFields} (h : canonicalRecord b.toRecord = .ok raw) :
    raw = utf8 (Json.dumps b.toRecord) ∧ 1 ≤ raw.length ∧ raw.length ≤ 4096 := by
  simp only [canonicalRecord, sortMembers_toRecord] at h
  generalize utf8 (Json.dumps b.toRecord) = bytes at h ⊢
  split at h
  · cases h
  · next hsize =>
    cases h
    exact ⟨rfl, by omega, by omega⟩

theorem loadRecord_dumps {members : List (String × Option String)}
    (hnodup : ((members.map Json.memberTree).map Prod.fst).Nodup) :
    loadRecord (utf8 (Json.dumps members)) = .ok members := by
  simp only [loadRecord, bind_eq_ok_iff, orRaise_eq_ok_iff]
  refine ⟨_, decodeUtf8_utf8 _, ?_⟩
  simp only [Json.loads_dumps, throw_or_eq_ok_iff, orRaise_eq_ok_iff]
  exact ⟨not_not.mpr hnodup, mapM_textMember members⟩

theorem toRecord_nodup (b : BindingFields) : ((b.toRecord.map Json.memberTree).map Prod.fst).Nodup := by
  have hkeys : (recordFields.map fun k => codePoints k.toList).Nodup := by decide
  rw [← toRecord_keys b, map_map] at hkeys
  rw [map_map]
  exact hkeys

/-- A record takes at most four bytes per character. -/
theorem length_utf8_dumps : 1 ≤ (utf8 (Json.dumps members)).length ∧
      (utf8 (Json.dumps members)).length ≤ 4 * ((Json.dumpMembers members).length + 2) := by
  have hbytes : ∀ chars : List Char, chars.length ≤ (chars.flatMap String.utf8EncodeChar).length ∧
      (chars.flatMap String.utf8EncodeChar).length ≤ 4 * chars.length := by
    intro chars
    induction chars with
    | nil => exact ⟨Nat.le_refl _, Nat.le_refl _⟩
    | cons c chars ih =>
      have hlow := c.utf8Size_pos
      have hhigh := c.utf8Size_le_four
      rw [flatMap_cons, length_append, String.length_utf8EncodeChar, length_cons]
      omega
  obtain ⟨hlow, hhigh⟩ := hbytes (Json.dumps members).toList
  have hlength : (Json.dumps members).toList.length = (Json.dumpMembers members).length + 2 := by
    simp [Json.dumps]
  rw [hlength] at hlow hhigh
  exact ⟨by unfold utf8; omega, hhigh⟩

theorem make_eq (v : DurableBinding u) : DurableBinding.make u v.toBindingFields = .ok v := by
  unfold DurableBinding.make
  split
  · rfl
  · next e h => rw [v.valid] at h; cases h

theorem fromRecord_toRecord (v : DurableBinding u) : fromRecord u v.toRecord = .ok v := by
  simp only [fromRecord, bind_eq_ok_iff, throw_or_eq_ok_iff, requiredField, orRaise_eq_ok_iff]
  refine ⟨?_, ?_, _, rfl, _, rfl, _, rfl, _, rfl, _, rfl, _, rfl, _, rfl, make_eq v⟩
  · rw [toRecord_keys]
    decide
  · exact not_not.mpr rfl

/-- The store reads back what it wrote. -/
theorem decodeRecord_encode {v : DurableBinding u} (h : canonicalRecord v.toRecord = .ok raw) :
    decodeRecord u raw = .ok v := by
  obtain ⟨hraw, -, -⟩ := canonicalRecord_eq_ok h
  simp only [decodeRecord, bind_eq_ok_iff, throw_or_eq_ok_iff]
  refine ⟨v.toRecord, ?_, raw, h, not_not.mpr rfl, fromRecord_toRecord v⟩
  rw [hraw]
  exact loadRecord_dumps (toRecord_nodup _)

/-! ## Directories that commits leave behind -/

/-- Every file is the record of the Project it is named after, and the store is not over its capacity. -/
structure Sound (u : Unicode) (dir : Directory) : Prop where
  files : ∀ {name raw}, dir.get? name = some raw →
    ∃ v : DurableBinding u, name = recordName v.projectId ∧ canonicalRecord v.toRecord = .ok raw
  capacity : dir.keys.length ≤ 256

theorem sound_empty : Sound u .empty :=
  ⟨fun h => absurd h.symm (Option.some_ne_none _), Nat.zero_le _⟩

section
variable {dir : Directory} (h : Sound u dir) {projectId : String} {raw : Bytes} {value : DurableBinding u}

include h

theorem Sound.read_eq (hget : dir.get? (recordName projectId) = some raw) :
    ∃ v : DurableBinding u, v.projectId = projectId ∧ canonicalRecord v.toRecord = .ok raw ∧
      read u dir projectId = .ok (some v) := by
  obtain ⟨v, hname, hraw⟩ := h.files hget
  have hsize := (canonicalRecord_eq_ok hraw).2
  refine ⟨v, (recordName_injective hname).symm, hraw, ?_⟩
  have hbounds : ¬(raw.length < 1 ∨ 4096 < raw.length) := by omega
  simp only [read, hget, if_neg hbounds, decodeRecord_encode hraw]
  rfl

theorem Sound.read_isOk (projectId : String) : ∃ b, read u dir projectId = .ok b := by
  cases hget : dir.get? (recordName projectId) with
  | none => exact ⟨none, by simp only [read, hget]⟩
  | some raw =>
    obtain ⟨v, -, -, hread⟩ := h.read_eq hget
    exact ⟨some v, hread⟩

theorem Sound.readName_isOk {name : String} (hmem : name ∈ dir.keys) : ∃ v, readName u dir name = .ok v := by
  obtain ⟨raw, hget⟩ := Dict.mem_iff_exists.mp (Dict.mem_iff_mem_keys.mpr hmem)
  obtain ⟨w, rfl, -⟩ := h.files hget
  obtain ⟨v, hproject, -, hread⟩ := h.read_eq hget
  refine ⟨v, ?_⟩
  simp only [readName, bind_eq_ok_iff, orRaise_eq_ok_iff, throw_or_eq_ok_iff]
  exact ⟨_, stripJson_recordName _, some v, hread, v, rfl, not_not.mpr hproject, rfl⟩

omit h in
theorem readNames_isOk {names : List String} (hall : ∀ n ∈ names, ∃ v, readName u dir n = .ok v) :
    ∃ values, readNames u dir names = .ok values ∧ values.length = names.length := by
  induction names with
  | nil => exact ⟨[], rfl, rfl⟩
  | cons name rest ih =>
    obtain ⟨v, hv⟩ := hall name mem_cons_self
    obtain ⟨values, hvalues, hlength⟩ := ih fun n hn => hall n (mem_cons_of_mem _ hn)
    refine ⟨v :: values, ?_, congrArg (· + 1) hlength⟩
    simp only [readNames, bind_eq_ok_iff]
    exact ⟨v, hv, values, hvalues, rfl⟩

/-- A sound directory can be listed, with one binding per file. -/
theorem Sound.listCurrent_isOk :
    ∃ values, listCurrent u dir = .ok values ∧ values.length = dir.keys.length := by
  have hall : ∀ n ∈ dir.keys.insertionSort (· ≤ ·), ∃ v, readName u dir n = .ok v := by
    intro n hn
    exact h.readName_isOk ((perm_insertionSort _ _).mem_iff.mp hn)
  obtain ⟨values, hvalues, hlength⟩ := readNames_isOk hall
  refine ⟨values, ?_, by rw [hlength, length_insertionSort]⟩
  rw [listCurrent, if_neg (Nat.not_lt.mpr h.capacity)]
  exact hvalues

/-- A commit that writes found the Project's record, or room for a new one. -/
theorem Sound.of_plan (hplan : plan u dir value = .ok (some raw)) : canonicalRecord value.toRecord = .ok raw ∧
      (recordName value.projectId ∈ dir ∨ dir.keys.length < 256) := by
  obtain ⟨found, hread, hplan⟩ := bind_eq_ok_iff.mp hplan
  cases found with
  | some current =>
    dsimp only at hplan
    split at hplan
    · cases hplan
    · simp only [bind_eq_ok_iff, pure_eq_ok_iff] at hplan
      obtain ⟨_, -, bytes, hbytes, heq⟩ := hplan
      cases heq
      refine ⟨hbytes, .inl ?_⟩
      cases hget : dir.get? (recordName value.projectId) with
      | some raw => exact Dict.mem_of_get? hget
      | none =>
        simp only [read, hget] at hread
        cases hread
  | none =>
    simp only [bind_eq_ok_iff, pure_eq_ok_iff, checkFirst, throw_or_eq_ok_iff,
      throw_unless_eq_ok_iff] at hplan
    obtain ⟨_, ⟨-, values, hvalues, hroom⟩, bytes, hbytes, heq⟩ := hplan
    cases heq
    obtain ⟨values', hvalues', hlength⟩ := h.listCurrent_isOk
    rw [hvalues] at hvalues'
    cases hvalues'
    exact ⟨hbytes, .inr (by omega)⟩

/-- Moving a finished record into place keeps the directory sound. -/
theorem Sound.replaced (hplan : plan u dir value = .ok (some raw)) :
    Sound u (dir.set (recordName value.projectId) raw) := by
  obtain ⟨hraw, hroom⟩ := h.of_plan hplan
  constructor
  · intro name bytes hget
    rw [Dict.get?_set] at hget
    split at hget
    · next hname =>
      cases hget
      exact ⟨value, hname, hraw⟩
    · exact h.files hget
  · by_cases hmem : recordName value.projectId ∈ dir
    · have hkeys : (dir.set (recordName value.projectId) raw).keys = dir.keys := by
        refine (Dict.setItems_keys _ _ _).trans (if_pos ?_)
        exact Dict.mem_iff_mem_keys.mp hmem
      rw [hkeys]
      exact h.capacity
    · have hlt := hroom.resolve_left hmem
      rw [Dict.keys, Dict.items_set_of_not_mem hmem, map_append, length_append]
      exact hlt

/-- A reachable directory holds no temporary file. -/
theorem Sound.not_mem_temporary {token : String} (htoken : isToken token = true) :
    temporaryName projectId token ∉ dir := by
  intro hmem
  obtain ⟨raw, hget⟩ := Dict.mem_iff_exists.mp hmem
  obtain ⟨v, hname, -⟩ := h.files hget
  exact recordName_ne_temporaryName htoken hname.symm

theorem Sound.commit (value : DurableBinding u) {token : String} (htoken : isToken token = true) :
    Sound u (commit u dir value token).2 := by
  unfold AgentBox.Runtime.commit
  split
  · exact h
  · exact h
  · next raw hplan =>
    rw [if_neg (h.not_mem_temporary htoken)]
    exact h.replaced hplan

end

theorem sound_directoryAfter {commits : List (DurableBinding u × String)}
    (htokens : ∀ c ∈ commits, isToken c.2 = true) : Sound u (directoryAfter u commits) := by
  unfold directoryAfter
  generalize hdir : Dict.empty = dir
  have h : Sound u dir := hdir ▸ sound_empty
  clear hdir
  induction commits generalizing dir with
  | nil => exact h
  | cons c rest ih =>
    apply ih (fun d hd => htokens d (mem_cons_of_mem _ hd))
    exact h.commit c.1 (htokens c mem_cons_self)

/-! ## Crashes -/

/-- After a crash in the commit of `value`, a reader finds the directory as it was before the commit or
as the commit would have left it, and a commit succeeds where it would have succeeded there. -/
def Recovers (u : Unicode) (dir : Directory) (value : DurableBinding u) (token : String)
    (left : Directory) : Prop :=
  ∃ base, (base = dir ∨ base = (commit u dir value token).2) ∧
    (∃ values, listCurrent u base = .ok values ∧ listCurrent u left = .ok values) ∧
    (∀ projectId, isProjectId projectId = true →
      ∃ found, get u base projectId = .ok found ∧ get u left projectId = .ok found) ∧
    ∀ value' token' r, isToken token' = true → (commit u base value' token').1 = .ok r →
      (commit u left value' token').1 = .ok r

/-- The crash came before the temporary file or after its move; a commit that writes nothing has no
other crashes. -/
def LeavesNoTemporary (u : Unicode) (dir : Directory) (value : DurableBinding u) (cut : Cut) : Prop :=
  ∀ written raw, cut = .temporary written → plan u dir value ≠ .ok (some raw)

variable {dir left : Directory}

theorem Sound.recovers (value : DurableBinding u) (token : String) (hleft : Sound u left)
    (hbase : left = dir ∨ left = (AgentBox.Runtime.commit u dir value token).2) :
    Recovers u dir value token left := by
  refine ⟨left, hbase, ?_, ?_, fun _ _ _ _ hr => hr⟩
  · obtain ⟨values, hvalues, -⟩ := hleft.listCurrent_isOk
    exact ⟨values, hvalues, hvalues⟩
  · intro projectId hproject
    obtain ⟨found, hfound⟩ := hleft.read_isOk projectId
    have hget : get u left projectId = .ok found := by rw [get, if_pos hproject, hfound]
    exact ⟨found, hget, hget⟩

/-- A listing that succeeds has seen records only. -/
theorem stripJson_of_listCurrent {values : List (DurableBinding u)}
    (h : listCurrent u dir = .ok values) (hmem : name ∈ dir) :
    ∃ projectId, stripJson name = some projectId := by
  unfold listCurrent at h
  split at h
  · cases h
  have hname : name ∈ dir.keys.insertionSort (· ≤ ·) :=
    (perm_insertionSort _ _).mem_iff.mpr (Dict.mem_iff_mem_keys.mp hmem)
  generalize dir.keys.insertionSort (· ≤ ·) = names at h hname
  induction names generalizing values with
  | nil => cases hname
  | cons first rest ih =>
    simp only [readNames, bind_eq_ok_iff] at h
    obtain ⟨v, hv, tail, htail, -⟩ := h
    rcases mem_cons.mp hname with rfl | hrest
    · simp only [readName, bind_eq_ok_iff, orRaise_eq_ok_iff] at hv
      obtain ⟨projectId, hstrip, -⟩ := hv
      exact ⟨projectId, hstrip⟩
    · exact ih htail hrest

/-- A directory with a temporary file cannot be listed. -/
theorem listCurrent_ne_ok {token : String} (htoken : isToken token = true)
    (hmem : temporaryName projectId token ∈ left) (values : List (DurableBinding u)) :
    listCurrent u left ≠ .ok values := by
  intro hleft
  obtain ⟨p, hp⟩ := stripJson_of_listCurrent hleft hmem
  rw [stripJson_temporaryName _ htoken] at hp
  cases hp

variable {value : DurableBinding u}

/-- A Project without a record cannot be added to a store that cannot be listed. -/
theorem commit_ne_ok (habsent : recordName value.projectId ∉ left)
    (hlist : ∀ values : List (DurableBinding u), listCurrent u left ≠ .ok values) (token : String)
    (r : DurableBinding u) : (commit u left value token).1 ≠ .ok r := by
  have hread : read u left value.projectId = .ok none := by
    simp only [read, Dict.not_mem_iff.mp habsent]
  have hplan : ∀ b, plan u left value ≠ .ok b := by
    intro b hb
    obtain ⟨found, hfound, hb⟩ := bind_eq_ok_iff.mp hb
    rw [hread] at hfound
    cases hfound
    simp only [bind_eq_ok_iff, checkFirst, throw_or_eq_ok_iff] at hb
    obtain ⟨_, ⟨-, values, hvalues, -⟩, -⟩ := hb
    exact hlist values hvalues
  unfold commit
  split
  · exact nofun
  · next h => exact absurd h (hplan _)
  · next h => exact absurd h (hplan _)

theorem crashed_temporary {token : String} (hplan : plan u dir value = .ok (some raw))
    (habsent : temporaryName value.projectId token ∉ dir) (written : ℕ) :
    crashed u dir value token (.temporary written) =
      dir.set (temporaryName value.projectId token) (raw.take written) := by
  simp only [crashed, hplan, if_neg habsent]

namespace Sample

/-- Letters and digits, without combining characters. -/
def tables : Unicode := ⟨id, fun c => if c.isAlphanum then "Ll" else "Po", Char.isAlphanum⟩

def fields : BindingFields where
  projectId := "prj_00000000000000000000000000000000"
  relativeKey := "app"
  projectRevision := "1"
  bindingRevision := "1"
  bindingDigest := "0000000000000000000000000000000000000000000000000000000000000000"
  previousBindingRevision := none
  previousBindingDigest := none
  hostId := "wri_00000000000000000000000000000000"
  hostRevision := "1"

def binding : DurableBinding tables := ⟨fields, by decide +kernel⟩

def otherBinding : DurableBinding tables :=
  ⟨{ fields with projectId := "prj_11111111111111111111111111111111" }, by decide +kernel⟩

def token : String := "00000000000000000000000000000000"

theorem isToken_token : isToken token = true := by decide

/-- The commit of a first binding into an empty store passes its checks. -/
theorem plan_binding : ∃ raw, plan tables .empty binding = .ok (some raw) := by
  have hshort : (Json.dumpMembers binding.toRecord).length ≤ 1000 := by decide +kernel
  obtain ⟨hlow, hhigh⟩ := length_utf8_dumps binding.toRecord
  have hraw : canonicalRecord binding.toRecord = .ok (utf8 (Json.dumps binding.toRecord)) := by
    simp only [canonicalRecord, sortMembers_toRecord]
    exact if_neg (by omega)
  have hfirst : checkFirst tables .empty binding = .ok () := rfl
  have hread : read tables .empty binding.projectId = .ok none := rfl
  refine ⟨utf8 (Json.dumps binding.toRecord), bind_eq_ok_iff.mpr ⟨none, hread, ?_⟩⟩
  exact bind_eq_ok_iff.mpr ⟨(), hfirst, bind_eq_ok_iff.mpr ⟨_, hraw, rfl⟩⟩

end Sample

open Sample

end AgentBox.Runtime
