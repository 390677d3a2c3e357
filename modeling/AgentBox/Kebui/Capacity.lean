import AgentBox.Kebui.Records
import Mathlib.Algebra.GroupWithZero.Nat

/-!
# Reservations and the round trip

`reserved_record_bytes` charges a record with the size of its largest successor, so a record's text is
within its reservation in every phase (`length_recordText_le`). Reservations that were once within their
limit therefore keep every later form of the snapshot within the file's capacity (`encode_eq_ok`), and a
snapshot that is well formed is read back from its payload (`decode_payload`).
-/

namespace AgentBox.Kebui

open Json

variable {n : ℕ} {members : List (String × Tree)}

variable {c : Char}

/-! ## Sizes of texts -/

theorem bytes_append (a b : List Char) : bytes (a ++ b) = bytes a ++ bytes b := List.flatMap_append

theorem bytes_cons (c : Char) (b : List Char) : bytes (c :: b) = String.utf8EncodeChar c ++ bytes b :=
  List.flatMap_cons

/-- The size of a text in bytes. -/
def size (text : List Char) : ℕ := (bytes text).length

theorem size_append (a b : List Char) : size (a ++ b) = size a + size b := by
  rw [size, bytes_append, List.length_append]
  rfl

theorem size_cons (c : Char) (b : List Char) : size (c :: b) = (String.utf8EncodeChar c).length + size b := by
  rw [size, bytes_cons, List.length_append]
  rfl

@[simp] theorem size_nil : size [] = 0 := rfl

/-- A character that a literal holds as it is, in one byte. -/
def plain (c : Char) : Bool := 32 ≤ c.toNat && c.toNat < 128 && c != '"' && c != '\\'

theorem escapeChar_plain (h : plain c = true) : escapeChar c = [c] := by
  simp only [plain, Bool.and_eq_true, decide_eq_true_eq, bne_iff_ne] at h
  obtain ⟨⟨⟨hlow, -⟩, hquote⟩, hslash⟩ := h
  unfold escapeChar
  rw [if_neg hquote, if_neg hslash, if_neg (by omega), if_neg (by omega), if_neg (by omega),
    if_neg (by omega), if_neg (by omega), if_neg (by omega)]

theorem size_plain (h : plain c = true) : size [c] = 1 := by
  simp only [plain, Bool.and_eq_true, decide_eq_true_eq] at h
  have hc : c.val.toNat < 128 := h.1.1.2
  simp only [size, bytes, List.flatMap_cons, List.flatMap_nil, List.append_nil, String.utf8EncodeChar]
  rw [if_pos (by omega)]
  rfl

theorem size_flatMap_plain {chars : List Char} (h : chars.all plain = true) :
    size (chars.flatMap escapeChar) = chars.length := by
  induction chars with
  | nil => rfl
  | cons c chars ih =>
    rw [List.all_cons, Bool.and_eq_true] at h
    rw [List.flatMap_cons, size_append, escapeChar_plain h.1, size_plain h.1, ih h.2, List.length_cons,
      Nat.add_comm]

/-- A literal of plain characters takes two bytes more than it has characters. -/
theorem size_dumpString {s : String} (h : s.toList.all plain = true) :
    size (dumpString s) = s.toList.length + 2 := by
  rw [dumpString, size_cons, size_append, size_flatMap_plain h]
  have hquote : size ['"'] = 1 := rfl
  have hopen : (String.utf8EncodeChar '"').length = 1 := rfl
  omega

/-! ## The pieces of a record -/

theorem plain_of_isLowerHex (h : isLowerHex c = true) : plain c = true := by
  simp only [isLowerHex, Bool.or_eq_true, Bool.and_eq_true, decide_eq_true_eq, Char.le_def,
    UInt32.le_iff_toNat_le] at h
  have hrange : 48 ≤ c.toNat ∧ c.toNat ≤ 102 ∧ c.toNat ≠ 92 := by
    change (48 ≤ c.toNat ∧ c.toNat ≤ 57) ∨ (97 ≤ c.toNat ∧ c.toNat ≤ 102) at h
    omega
  simp only [plain, Bool.and_eq_true, decide_eq_true_eq, bne_iff_ne]
  refine ⟨⟨⟨by omega, by omega⟩, ?_⟩, ?_⟩ <;> rintro rfl <;> revert hrange <;> decide

/-- An identifier takes as many bytes as its opening and its digits. -/
theorem size_dumpString_of_isId {opening s : String} (ho : opening.toList.all plain = true)
    (h : isId opening s = true) : size (dumpString s) = opening.toList.length + 34 := by
  simp only [isId, matchesHexAfter, Bool.and_eq_true, List.isPrefixOf_iff_prefix, beq_iff_eq] at h
  obtain ⟨⟨⟨rest, hs⟩, hlength⟩, hhex⟩ := h
  rw [← hs, List.drop_left] at hlength hhex
  rw [size_dumpString, ← hs, List.length_append, hlength]
  rw [← hs, List.all_append, Bool.and_eq_true]
  refine ⟨ho, List.all_eq_true.mpr fun c hc => plain_of_isLowerHex (List.all_eq_true.mp hhex c hc)⟩

theorem plain_of_isDigit (h : c.isDigit = true) : plain c = true := by
  apply plain_of_isLowerHex
  simp only [Char.isDigit, Bool.and_eq_true, decide_eq_true_eq, ge_iff_le] at h
  simp only [isLowerHex, Bool.or_eq_true, Bool.and_eq_true, decide_eq_true_eq, Char.le_def]
  exact .inl h

theorem size_dumpString_toString (h : n ≤ maxRevision) :
    size (dumpString (toString n)) ≤ size (dumpString (toString maxRevision)) := by
  have hplain : ∀ m : ℕ, (toString m).toList.all plain = true := by
    intro m
    refine List.all_eq_true.mpr fun c hc => plain_of_isDigit ?_
    rw [Nat.toString_eq_repr, Nat.toList_repr] at hc
    exact Nat.isDigit_of_mem_toDigits (by decide) (by decide) hc
  have hlength : (Nat.toDigits 10 n).length ≤ 20 :=
    (Nat.length_toDigits_le_iff (by decide) (by decide)).mpr (Nat.lt_of_le_of_lt h (by decide))
  have hmax : (toString maxRevision).toList.length = 20 := by decide
  rw [size_dumpString (hplain n), size_dumpString (hplain maxRevision), hmax]
  simpa [Nat.toString_eq_repr] using hlength

theorem size_dumpString_phase (p : AdmissionPhase) :
    size (dumpString p.value) ≤ size (dumpString longestPhase) := by
  cases p <;> decide

theorem size_dumpValue_receipt {receipt : Option String} (h : receipt.all (isId "krcp_") = true) :
    size (dumpValue receipt) ≤ size (dumpValue (some largestReceipt)) := by
  have hlargest : size (dumpString largestReceipt) = 39 := by decide
  cases receipt with
  | none =>
    rw [dumpValue, dumpValue, hlargest]
    decide
  | some s =>
    rw [dumpValue, dumpValue, hlargest, size_dumpString_of_isId (by decide) h]
    decide

theorem size_dumpValue_status {status : Option String} (h : status.all terminalStatuses.contains = true) :
    size (dumpValue status) ≤ size (dumpValue (some "completed")) := by
  cases status with
  | none => decide
  | some s =>
    have hs : s = "completed" ∨ s = "failed" ∨ s = "canceled" := by
      simpa [terminalStatuses] using h
    rcases hs with rfl | rfl | rfl <;> decide

/-- What a record's checks say of the parts that a transition replaces. -/
theorem AdmissionRecord.bounds (r : AdmissionRecord) :
    (1 ≤ r.recordRevision ∧ r.recordRevision ≤ maxRevision) ∧ r.receiptRef.all (isId "krcp_") = true ∧
      r.terminalStatus.all terminalStatuses.contains = true := by
  have h := r.valid
  simp only [recordAccepted, Bool.and_eq_true, decide_eq_true_eq] at h
  obtain ⟨⟨⟨⟨⟨-, hrevision⟩, hreceipt⟩, hstatus⟩, -⟩, -⟩ := h
  refine ⟨hrevision, hreceipt, ?_⟩
  cases hs : r.terminalStatus with
  | none => rfl
  | some s =>
    rw [hs] at hstatus
    split at hstatus
    · simpa using (Bool.and_eq_true_iff.mp hstatus).1
    · cases hstatus

/-! ## Reservations -/

/-- The size of a row is the size of its parts and of a fixed frame. -/
theorem size_rowText (request : List Char) (executionId phase revision : String)
    (receipt status : Option String) : size (rowText request executionId phase revision receipt status) =
      size (dumpString executionId) + size (dumpString phase) + size (dumpValue receipt) +
        size (dumpString revision) + size request + size (dumpValue status) +
        size (rowText [] "" "" "" none none) - 14 := by
  have hempty : size (dumpString "") = 2 := rfl
  have hnull : size (dumpValue none) = 4 := rfl
  simp only [rowText, dumpObject, List.map_cons, List.map_nil, joinItems, size_append,
    size_cons, size_nil, hempty, hnull]
  omega

variable {r r' : AdmissionRecord}

/-- A record's text is within its own reservation, and within that of every record it can come from:
the reservation depends on the request and the execution only. -/
theorem length_recordText_le (hrequest : r'.request = r.request)
    (hexecution : r'.executionId = r.executionId) :
    (bytes (recordText r')).length + 1 ≤ reservedRecordBytes r := by
  obtain ⟨hrevision, hreceipt, hstatus⟩ := r'.bounds
  have h₁ := size_dumpString_phase r'.phase
  have h₂ := size_dumpValue_receipt hreceipt
  have h₃ := size_dumpString_toString hrevision.2
  have h₄ := size_dumpValue_status hstatus
  change size (recordText r') + 1 ≤ size _ + 1
  rw [recordText, size_rowText, size_rowText (requestText r.request), hrequest, hexecution]
  omega

theorem reservedRecordBytes_congr (hrequest : r'.request = r.request)
    (hexecution : r'.executionId = r.executionId) : reservedRecordBytes r' = reservedRecordBytes r := by
  rw [reservedRecordBytes, reservedRecordBytes, hrequest, hexecution]

variable (records : List AdmissionRecord)

/-- What the records of a snapshot are charged with. -/
def reservations : ℕ := (records.map reservedRecordBytes).sum

theorem size_joinItems_le : size (joinItems (records.map recordText)) ≤ reservations records := by
  induction records with
  | nil => exact Nat.le_refl _
  | cons r records ih =>
    have hr : size (recordText r) + 1 ≤ reservedRecordBytes r := length_recordText_le rfl rfl
    have hcomma : (String.utf8EncodeChar ',').length = 1 := rfl
    cases records with
    | nil =>
      simp only [List.map_cons, List.map_nil, joinItems, reservations, List.sum_cons, List.sum_nil]
      omega
    | cons r' records =>
      simp only [List.map_cons, joinItems, size_append, size_cons, reservations, List.sum_cons] at ih ⊢
      omega

theorem size_rootText (revision : String) (rows : List (List Char)) : size (rootText revision rows) =
      size (dumpString revision) + size (joinItems rows) + size (rootText "" []) - 2 := by
  have hempty : size (dumpString "") = 2 := rfl
  simp only [rootText, dumpObject, dumpArray, List.map_cons, List.map_nil, joinItems, size_append,
    size_cons, size_nil, hempty]
  omega

theorem size_header : size (rootText (toString maxRevision) []) + 1 ≤ headerReservedBytes := by
  decide

theorem length_payload_le (s : Snapshot) (h : s.journalRevision ≤ maxRevision) :
    (payload s).length ≤ headerReservedBytes + reservations s.records := by
  have hrevision := size_dumpString_toString h
  have hrows := size_joinItems_le s.records
  have hheader := size_header
  have hend : size ['\n'] = 1 := rfl
  change size _ ≤ _
  rw [size_append, size_rootText]
  rw [size_rootText] at hheader
  simp only [joinItems, size_nil] at hheader
  omega

/-! ## Well-formed snapshots -/

/-- Whether a record holds its slot. -/
def AdmissionRecord.unfinished (r : AdmissionRecord) : Bool := !r.phase.finished

/-- The slots that the unfinished records of a snapshot hold. -/
def heldSlots : List Slot :=
  (records.filter AdmissionRecord.unfinished).map AdmissionRecord.slot

/-- What every stored snapshot satisfies. -/
structure Snapshot.WellFormed (s : Snapshot) : Prop where
  few : s.records.length ≤ maxRecords
  revision : 1 ≤ s.journalRevision ∧ s.journalRevision ≤ maxRevision
  bounded : ∀ r ∈ s.records, r.recordRevision ≤ s.journalRevision
  ids : (s.records.map AdmissionRecord.requestId).Nodup
  slots : (heldSlots s.records).Nodup
  reserved : ∀ r ∈ s.records, reservedRecordBytes r ≤ recordReservedBytes

variable {records : List AdmissionRecord}

theorem reservations_le (h : ∀ r ∈ records, reservedRecordBytes r ≤ recordReservedBytes) :
    reservations records ≤ records.length * recordReservedBytes := by
  induction records with
  | nil => exact Nat.le_refl _
  | cons r records ih =>
    have hr := h r (by simp)
    have hrest := ih fun r' hr' => h r' (by simp [hr'])
    simp only [reservations, List.map_cons, List.sum_cons, List.length_cons] at hrest ⊢
    rw [Nat.add_mul, Nat.one_mul]
    omega

variable {s : Snapshot}

/-- The reservations of a well-formed snapshot fit into the file together with the header. -/
theorem Snapshot.WellFormed.fits (h : s.WellFormed) :
    headerReservedBytes + reservations s.records ≤ maxSnapshotBytes := by
  have hsum := reservations_le h.reserved
  have hfew := Nat.mul_le_mul_right recordReservedBytes h.few
  have htotal : headerReservedBytes + maxRecords * recordReservedBytes ≤ maxSnapshotBytes := by decide
  omega

theorem encode_eq_ok_iff {b : Bytes} : encode s = .ok b ↔
    s.records.length ≤ maxRecords ∧ (∀ r ∈ s.records, reservedRecordBytes r ≤ recordReservedBytes) ∧
      (payload s).length ≤ maxSnapshotBytes ∧ payload s = b := by
  have hheader : ¬headerReservedBytes < (bytes (rootText (toString maxRevision) [])).length + 1 :=
    Nat.not_lt.mpr size_header
  unfold encode
  simp only [throw_or_eq_ok_iff, pure_eq_ok_iff, Nat.not_lt, hheader, List.any_eq_true,
    decide_eq_true_eq, not_exists, not_and, not_false_eq_true, true_and]

theorem encode_eq_ok (h : s.WellFormed) : encode s = .ok (payload s) :=
  encode_eq_ok_iff.mpr
    ⟨h.few, h.reserved, Nat.le_trans (length_payload_le s h.revision.2) h.fits, rfl⟩

/-! ## The trees of the document -/

def stringTree (s : String) : Tree := .string (codePoints s.toList)

def scopeMembers (s : ConversationScope) : List (String × Tree) :=
  (scopeMetadata s).map fun m => (m.1, stringTree m.2)

def requestMembers (r : AdmissionRequest) : List (String × Tree) :=
  [("adapter_profile", stringTree r.adapterProfile),
    ("content_admission_ref", stringTree r.contentAdmissionRef), ("operation", stringTree r.operation),
    ("request_id", stringTree r.requestId), ("scope", .object (memberTrees (scopeMembers r.scope)))]

def recordMembers (r : AdmissionRecord) : List (String × Tree) :=
  [("execution_id", stringTree r.executionId), ("phase", stringTree r.phase.value),
    ("receipt_ref", valueTree r.receiptRef), ("record_revision", stringTree (toString r.recordRevision)),
    ("request", .object (memberTrees (requestMembers r.request))),
    ("terminal_status", valueTree r.terminalStatus)]

def recordTree (r : AdmissionRecord) : Tree := .object (memberTrees (recordMembers r))

def rootMembers (s : Snapshot) : List (String × Tree) :=
  [("journal_revision", stringTree (toString s.journalRevision)),
    ("records", .array (s.records.map recordTree)), ("schema_version", stringTree schema)]

theorem reads_scope (s : ConversationScope) :
    Reads (scopeText s) (.object (memberTrees (scopeMembers s))) := by
  have h := reads_object ((scopeMetadata s).map fun m => (m.1, dumpString m.2, stringTree m.2)) (by
    intro m hm
    obtain ⟨m', -, rfl⟩ := List.mem_map.mp hm
    exact reads_string m'.2)
  rwa [List.map_map, List.map_map] at h

theorem reads_request (r : AdmissionRequest) :
    Reads (requestText r) (.object (memberTrees (requestMembers r))) := by
  refine reads_object [("adapter_profile", _, _), ("content_admission_ref", _, _), ("operation", _, _),
    ("request_id", _, _), ("scope", _, _)] ?_
  simp only [List.forall_mem_cons]
  exact ⟨reads_string _, reads_string _, reads_string _, reads_string _, reads_scope _, by simp⟩

theorem reads_record (r : AdmissionRecord) : Reads (recordText r) (recordTree r) := by
  refine reads_object [("execution_id", _, _), ("phase", _, _), ("receipt_ref", _, _),
    ("record_revision", _, _), ("request", _, _), ("terminal_status", _, _)] ?_
  simp only [List.forall_mem_cons]
  exact ⟨reads_string _, reads_string _, reads_value _, reads_string _, reads_request _, reads_value _,
    by simp⟩

theorem reads_root (s : Snapshot) : Reads (rootText (toString s.journalRevision) (s.records.map recordText))
      (.object (memberTrees (rootMembers s))) := by
  have hrows : List.Forall₂ Reads (s.records.map recordText) (s.records.map recordTree) := by
    induction s.records with
    | nil => exact .nil
    | cons r records ih => exact .cons (reads_record r) ih
  refine reads_object [("journal_revision", _, _), ("records", _, _), ("schema_version", _, _)] ?_
  simp only [List.forall_mem_cons]
  exact ⟨reads_string _, reads_array hrows, reads_string _, by simp⟩

/-! ## Reading back -/

theorem chars_codePoints (chars : List Char) : (codePoints chars).chars = chars := by
  rw [CodePoints.chars, codePoints, List.map_map]
  exact List.map_id'' (fun c => Char.ofNat_toNat c) chars

@[simp] theorem text_stringTree (e : Code) (s : String) : text e (stringTree s) = .ok s := by
  simp [text, text?, stringTree, orRaise, chars_codePoints]

@[simp] theorem optionalText_valueTree (v : Option String) : optionalText (valueTree v) = .ok v := by
  cases v <;> simp [optionalText, valueTree, chars_codePoints]

/-- The first digit of a positive number is not zero. -/
theorem head_toDigits (h : 0 < n) : ∃ c rest, Nat.toDigits 10 n = c :: rest ∧ '1' ≤ c ∧ c ≤ '9' := by
  induction n using Nat.strongRecOn with
  | _ n ih =>
    rcases Nat.lt_or_ge n 10 with hn | hn
    · rw [Nat.toDigits_of_lt_base hn]
      have hdigit : ∀ m < 10, 0 < m → '1' ≤ m.digitChar ∧ m.digitChar ≤ '9' := by decide
      exact ⟨_, _, rfl, hdigit n hn h⟩
    · obtain ⟨c, rest, hdigits, hc⟩ := ih (n / 10) (by omega) (by omega)
      rw [Nat.toDigits_of_base_le (by decide) hn, hdigits]
      exact ⟨c, _, rfl, hc⟩

theorem validateRevision_toString (h : 1 ≤ n ∧ n ≤ maxRevision) : validateRevision (toString n) = .ok n := by
  have hlist : (toString n).toList = Nat.toDigits 10 n := by
    rw [Nat.toString_eq_repr, Nat.toList_repr]
  have hvalue : decimal (toString n) = n := by
    rw [decimal, hlist, Nat.ofDigitChars_toDigits (by decide) (by decide)]
  have hlength : (Nat.toDigits 10 n).length ≤ 20 :=
    (Nat.length_toDigits_le_iff (by decide) (by decide)).mpr (Nat.lt_of_le_of_lt h.2 (by decide))
  obtain ⟨c, rest, hdigits, hlow, hhigh⟩ := head_toDigits h.1
  have hall : rest.all AgentBox.isDigit = true := by
    refine List.all_eq_true.mpr fun d hd => ?_
    have hdigit := Nat.isDigit_of_mem_toDigits (b := 10) (n := n) (by decide) (by decide)
      (by rw [hdigits]; exact List.mem_cons_of_mem c hd)
    simp only [Char.isDigit, Bool.and_eq_true, decide_eq_true_eq, ge_iff_le] at hdigit
    simpa [AgentBox.isDigit, Char.le_def] using hdigit
  rw [hdigits, List.length_cons] at hlength
  have hok : isPositiveU64 (toString n) = true := by
    unfold isPositiveU64
    rw [hlist, hdigits, hvalue]
    simp only [Bool.and_eq_true, decide_eq_true_eq]
    exact ⟨⟨⟨⟨hlow, hhigh⟩, by omega⟩, hall⟩, h.2⟩
  rw [validateRevision, if_pos hok, hvalue]

theorem agentTypeOf?_value (a : AgentType) : agentTypeOf? a.value = some a := by
  cases a <;> decide

theorem object_memberTrees {fields : List String} (h : (members.map Prod.fst).Perm fields) :
    object fields (.object (memberTrees members)) = .ok (memberTrees members) := by
  rw [object, map_fst_memberTrees, if_pos (List.isPerm_iff.mpr (h.map _))]

@[simp] theorem item_memberTrees (members : List (String × Tree)) (key : String) :
    item (memberTrees members) key = (members.lookup key).getD .null := by
  rw [item, lookup_memberTrees]

theorem perm_scopeMembers (s : ConversationScope) : ((scopeMembers s).map Prod.fst).Perm scopeFields := by
  change List.Perm ["agent_type", "api_authority_epoch", "auth_epoch", "binding_digest",
    "binding_revision", "conversation_id", "conversation_revision", "execution_kind", "generation",
    "host_id", "host_revision", "owner_scope", "project_id", "project_revision", "runtime_epoch",
    "turn_id"] scopeFields
  decide +kernel

theorem text_scopeMembers {s : ConversationScope} {key v : String}
    (h : (scopeMetadata s).lookup key = some v) :
    text .invalidSnapshot (item (memberTrees (scopeMembers s)) key) = .ok v := by
  have hlookup : (scopeMembers s).lookup key = some (stringTree v) := by
    rw [scopeMembers]
    generalize scopeMetadata s = members at h
    induction members with
    | nil => cases h
    | cons m members ih =>
      rw [List.lookup_cons] at h
      rw [List.map_cons, List.lookup_cons]
      cases hkey : key == m.1 with
      | true =>
        simp only [hkey] at h
        cases h
        rfl
      | false =>
        simp only [hkey] at h
        exact ih h
  rw [item_memberTrees, hlookup, Option.getD_some, text_stringTree]

theorem parseScope_scopeMembers {s : ConversationScope} (h : s.accepted = true) :
    parseScope (.object (memberTrees (scopeMembers s))) = .ok s := by
  refine bind_eq_ok_iff.mpr ⟨_, object_memberTrees (perm_scopeMembers s), ?_⟩
  -- the sixteen members of the scope, in the order of the parser
  iterate 16 refine bind_eq_ok_iff.mpr ⟨_, text_scopeMembers rfl, ?_⟩
  refine bind_eq_ok_iff.mpr ⟨s.agentType, orRaise_eq_ok_iff.mpr (agentTypeOf?_value s.agentType), ?_⟩
  exact if_pos h

theorem parseRequest_requestMembers (r : AdmissionRequest) :
    parseRequest (.object (memberTrees (requestMembers r))) = .ok r := by
  have hscope := (Bool.and_eq_true_iff.mp r.valid).2
  have hkeys : ((requestMembers r).map Prod.fst).Perm
      ["request_id", "scope", "adapter_profile", "content_admission_ref", "operation"] := by
    change List.Perm ["adapter_profile", "content_admission_ref", "operation", "request_id", "scope"] _
    decide
  unfold parseRequest
  rw [object_memberTrees hkeys]
  simp only [bind, Except.bind, item_memberTrees, requestMembers, List.lookup_cons, String.reduceBEq,
    Option.getD_some, text_stringTree, parseScope_scopeMembers hscope]
  exact dif_pos r.valid

theorem parseRecord_recordTree (r : AdmissionRecord) : parseRecord (recordTree r) = .ok r := by
  have hkeys : ((recordMembers r).map Prod.fst).Perm
      ["request", "execution_id", "phase", "record_revision", "receipt_ref", "terminal_status"] := by
    change List.Perm
      ["execution_id", "phase", "receipt_ref", "record_revision", "request", "terminal_status"] _
    decide +kernel
  unfold parseRecord
  rw [recordTree, object_memberTrees hkeys]
  simp only [bind, Except.bind, item_memberTrees, recordMembers, List.lookup_cons, String.reduceBEq,
    Option.getD_some, text_stringTree, optionalText_valueTree, parseRequest_requestMembers,
    AdmissionPhase.ofValue?_value, orRaise, validateRevision_toString r.bounds.1]
  exact dif_pos r.valid

theorem heldSlots_cons (r : AdmissionRecord) (records : List AdmissionRecord) : heldSlots (r :: records) =
    if r.phase.finished then heldSlots records else r.slot :: heldSlots records := by
  cases h : r.phase.finished <;> simp [heldSlots, AdmissionRecord.unfinished, h]

/-- Records that are new to the loop of `_decode`. -/
def Fresh (revision : ℕ) (seen : List String) (slots : List Slot) (records : List AdmissionRecord) : Prop :=
  (∀ r ∈ records, r.recordRevision ≤ revision) ∧
    (records.map AdmissionRecord.requestId).Nodup ∧ (records.map AdmissionRecord.requestId).Disjoint seen ∧
    (heldSlots records).Nodup ∧ (heldSlots records).Disjoint slots

variable {revision : ℕ} {seen : List String} {slots : List Slot}

theorem fresh_cons : Fresh revision seen slots (r :: records) ↔
    ¬(r.requestId ∈ seen ∨ revision < r.recordRevision) ∧
      if r.phase.finished then Fresh revision (r.requestId :: seen) slots records
      else r.slot ∉ slots ∧ Fresh revision (r.requestId :: seen) (r.slot :: slots) records := by
  unfold Fresh
  rw [heldSlots_cons]
  split <;> simp only [List.forall_mem_cons, List.map_cons, List.nodup_cons, List.disjoint_cons_left,
      List.disjoint_cons_right, not_or, Nat.not_lt] <;>
    tauto

/-- The loop accepts records whose ids and slots are new to it, and no others. -/
theorem parseRecords_eq_ok (h : Fresh revision seen slots records) :
    parseRecords revision seen slots (records.map recordTree) = .ok records := by
  induction records generalizing seen slots with
  | nil => rfl
  | cons r records ih =>
    obtain ⟨hcheck, hrest⟩ := fresh_cons.mp h
    rw [List.map_cons, parseRecords, parseRecord_recordTree]
    simp only [bind, Except.bind, if_neg hcheck]
    split at hrest
    · next hfinished =>
      rw [if_pos hfinished, ih hrest]
      rfl
    · next hfinished =>
      rw [if_neg hfinished, if_neg hrest.1, ih hrest.2]
      rfl

theorem fresh_of_parseRecords {trees : List Tree}
    (h : parseRecords revision seen slots trees = .ok records) : Fresh revision seen slots records := by
  induction trees generalizing seen slots records with
  | nil =>
    cases h
    simp [Fresh, heldSlots]
  | cons tree trees ih =>
    obtain ⟨record, -, h⟩ := bind_eq_ok_iff.mp h
    obtain ⟨hcheck, h⟩ := throw_or_eq_ok_iff.mp h
    split at h
    · next hfinished =>
      obtain ⟨rest, hrest, heq⟩ := bind_eq_ok_iff.mp h
      cases heq
      refine fresh_cons.mpr ⟨hcheck, ?_⟩
      rw [if_pos hfinished]
      exact ih hrest
    · next hfinished =>
      split at h
      · cases h
      · next hfree =>
        obtain ⟨rest, hrest, heq⟩ := bind_eq_ok_iff.mp h
        cases heq
        refine fresh_cons.mpr ⟨hcheck, ?_⟩
        rw [if_neg hfinished]
        exact ⟨hfree, ih hrest⟩

theorem uniqueKeys_stringTree (s : String) : uniqueKeys (stringTree s) = true := rfl

theorem uniqueKeys_valueTree (v : Option String) : uniqueKeys (valueTree v) = true := by
  cases v <;> rfl

/-- Nothing is repeated in an object whose keys are distinct and whose values are free of
repetitions. -/
theorem uniqueKeys_object (hkeys : (members.map Prod.fst).Nodup) (h : ∀ m ∈ members, uniqueKeys m.2 = true) :
    uniqueKeys (.object (memberTrees members)) = true := by
  have hmembers : uniqueKeysMembers (memberTrees members) = true := by
    clear hkeys
    induction members with
    | nil => rfl
    | cons m members ih =>
      have htail := ih fun m' hm' => h m' (by simp [hm'])
      rw [memberTrees] at htail
      simp only [memberTrees, List.map_cons, uniqueKeysMembers, h m (by simp), htail, Bool.and_self]
  rw [uniqueKeys, hmembers, Bool.and_true, decide_eq_true_eq, map_fst_memberTrees]
  exact hkeys.map codePoints_injective

theorem uniqueKeys_recordTree (r : AdmissionRecord) : uniqueKeys (recordTree r) = true := by
  have hscope : uniqueKeys (.object (memberTrees (scopeMembers r.request.scope))) = true := by
    apply uniqueKeys_object
    · exact (perm_scopeMembers _).nodup_iff.mpr (by decide +kernel)
    · intro m hm
      obtain ⟨m', -, rfl⟩ := List.mem_map.mp hm
      exact uniqueKeys_stringTree m'.2
  have hrequest : uniqueKeys (.object (memberTrees (requestMembers r.request))) = true := by
    apply uniqueKeys_object
    · change List.Nodup ["adapter_profile", "content_admission_ref", "operation", "request_id", "scope"]
      decide
    · simp [requestMembers, uniqueKeys_stringTree, hscope]
  apply uniqueKeys_object
  · change List.Nodup
      ["execution_id", "phase", "receipt_ref", "record_revision", "request", "terminal_status"]
    decide
  · simp [recordMembers, uniqueKeys_stringTree, uniqueKeys_valueTree, hrequest]

theorem uniqueKeys_rootMembers (s : Snapshot) :
    uniqueKeys (.object (memberTrees (rootMembers s))) = true := by
  have hrows : uniqueKeysItems (s.records.map recordTree) = true := by
    induction s.records with
    | nil => rfl
    | cons r records ih =>
      simp only [List.map_cons, uniqueKeysItems, uniqueKeys_recordTree, ih, Bool.and_true]
  apply uniqueKeys_object
  · change List.Nodup ["journal_revision", "records", "schema_version"]
    decide
  · simp [rootMembers, uniqueKeys_stringTree, uniqueKeys, hrows]

theorem readDocument_payload (s : Snapshot) :
    readDocument (payload s) = some (.object (memberTrees (rootMembers s))) := by
  have hutf := decodeUtf8_utf8
    (String.ofList (rootText (toString s.journalRevision) (s.records.map recordText) ++ ['\n']))
  rw [utf8, String.toList_ofList] at hutf
  have hloads := loads_of_reads (reads_root s) (rfl : skipSpace (codePoints ['\n']) = []) (by
    rw [rootText, dumpObject, List.head?_cons]
    decide)
  unfold readDocument payload bytes
  simp only [hutf, hloads, Option.bind_eq_bind, Option.bind_some, uniqueKeys_rootMembers, if_true]

/-- A well-formed snapshot is read back from its payload. -/
theorem decode_payload (h : s.WellFormed) : decode (payload s) = .ok s := by
  have hkeys : ((rootMembers s).map Prod.fst).Perm ["schema_version", "journal_revision", "records"] := by
    change List.Perm ["journal_revision", "records", "schema_version"] _
    decide +kernel
  have hrecords : parseRecords s.journalRevision [] [] (s.records.map recordTree) = .ok s.records :=
    parseRecords_eq_ok ⟨h.bounded, h.ids, by simp, h.slots, by simp⟩
  have hfew : ¬maxRecords < (s.records.map recordTree).length := by
    rw [List.length_map]
    exact Nat.not_lt.mpr h.few
  unfold decode
  rw [readDocument_payload, orRaise]
  simp only [bind, Except.bind]
  rw [object_memberTrees hkeys]
  simp only [item_memberTrees, rootMembers, List.lookup_cons, String.reduceBEq, Option.getD_some,
    text_stringTree, validateRevision_toString h.revision, array, if_neg hfew, hrecords,
    encode_eq_ok h, ne_eq, not_true_eq_false, if_false]
  rfl

theorem le_ofDigitChars (l : List Char) (n : ℕ) : n ≤ Nat.ofDigitChars 10 l n := by
  induction l generalizing n with
  | nil => exact Nat.le_refl n
  | cons c l ih =>
    rw [Nat.ofDigitChars_cons]
    refine Nat.le_trans ?_ (ih _)
    omega

theorem validateRevision_eq_ok {text : String} (h : validateRevision text = .ok n) :
    1 ≤ n ∧ n ≤ maxRevision := by
  rw [validateRevision] at h
  split at h
  · next hok =>
    cases h
    unfold isPositiveU64 at hok
    split at hok
    · cases hok
    · next c rest htext =>
      simp only [Bool.and_eq_true, decide_eq_true_eq] at hok
      have hc : 49 ≤ c.toNat := hok.1.1.1.1
      refine ⟨?_, hok.2⟩
      rw [decimal, htext, Nat.ofDigitChars_cons]
      refine Nat.le_trans ?_ (le_ofDigitChars rest _)
      change 1 ≤ 10 * 0 + (c.toNat - 48)
      omega
  · cases h

/-- Whatever is read is the encoding of a well-formed snapshot. -/
theorem decode_eq_ok {b : Bytes} (h : decode b = .ok s) : s.WellFormed ∧ encode s = .ok b := by
  simp only [decode, bind_eq_ok_iff, throw_or_eq_ok_iff, pure_eq_ok_iff] at h
  obtain ⟨_, -, _, -, _, -, -, _, -, revision, hrevision, _, -, -, records, hrecords, written, hwritten, heq,
    rfl⟩ := h
  obtain ⟨hbounded, hids, -, hslots, -⟩ := fresh_of_parseRecords hrecords
  obtain ⟨hfew, hreserved, -⟩ := encode_eq_ok_iff.mp hwritten
  exact ⟨⟨hfew, validateRevision_eq_ok hrevision, hbounded, hids, hslots, hreserved⟩,
    hwritten.trans (congrArg _ (not_not.mp heq))⟩

end AgentBox.Kebui
