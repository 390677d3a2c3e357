import AgentBox.Common.Fields
import AgentBox.Common.JsonNested
import AgentBox.Wire.Frame

/-!
# Encoding an outer frame

Reference: `agentbox_protocol/abws.py`, from `_encode_json` to `decode_frame`.

A control payload is a tree of Python values: an `int` is the number that is spelled as `int.__repr__`
spells it, and a `dict` is the list of its items in their order. What the encoder accepts is decoded as
it was given.
-/

namespace AgentBox.Wire

open Json

variable {kind : FrameType} {payload data raw : Bytes} {hopSequence : ℕ} {tree : Tree}
variable {members : List (CodePoints × Tree)}

/-! ## The encoder -/

/-- A tree of `dict`, `list`, `str`, `int`, `bool` and `None`. -/
structure IsJson (tree : Tree) : Prop where
  plain : Plain (· < 0x110000) tree
  /-- the keys of a `dict` are distinct -/
  distinct : hooksAccept tree = true

/-- `_encode_json`. An `int` that is too long for `int.__repr__` is too long for a payload as well. -/
def encodeJson (members : List (CodePoints × Tree)) : Except AbwsError Bytes := do
  if !((members.lookup protocolVersionKey).any isOne) then throw .control
  if (validateJsonValue (.object members) 0 0).isNone then throw .control
  let data := utf8 (String.ofList (dump (.object members)))
  if 4096 < data.length then throw .control
  return data

inductive FramePayload
  | bytes (b : Bytes)
  | dict (members : List (CodePoints × Tree))

/-- What `encode_frame` and `decode_frame` raise. -/
inductive Raised
  | abws (e : AbwsError)
  | typeError
  | valueError

/-- The payload of `encode_frame`, encoded as its kind asks for. -/
def encodePayload (kind : FrameType) : FramePayload → Except Raised Bytes
  | .dict members =>
    if kind.isOpaque then .error .typeError else (encodeJson members).mapError .abws
  | .bytes b =>
    if !kind.isOpaque then .error (.abws .control)
    else if 49212 < b.length then
      .error (.abws (.header "WAW opaque payload exceeds 49,212-byte limit"))
    else .ok b

/-- `encode_frame` -/
def encodeFrame (kind : FrameType) (payload : FramePayload) (hopSequence : ℕ) : Except Raised Bytes := do
  if hopSequence < 1 ∨ maxU64 < hopSequence then
    throw (.abws (.header "hop_sequence must be a non-zero uint64"))
  let encoded ← encodePayload kind payload
  if maxPayload < encoded.length then throw (.abws (.header "ABWS payload exceeds parser limit"))
  return pack kind encoded hopSequence

/-- `json.loads` finds an integer with more digits than `int` converts; its `ValueError` is not caught. -/
def overlong (payload : Bytes) : Bool :=
  payload.length ≤ 4096 && (decodeUtf8 0 payload).any fun text => 4300 < text.countP Json.isDigit

/-- `decode_frame` with everything that it may raise: `control` is the error of `_decode_json`. -/
def decodeFrameOrRaise (raw : Bytes) : Except Raised AbwsFrame :=
  match decodeFrame raw with
  | .ok frame =>
    if !frame.frameType.isOpaque && overlong frame.payload then .error .valueError else .ok frame
  | .error .control =>
    if overlong (raw.drop headerSize) then .error .valueError else .error (.abws .control)
  | .error e => .error (.abws e)

/-- The payload that a caller finds in a frame. -/
def AbwsFrame.content (frame : AbwsFrame) : FramePayload :=
  match frame.jsonPayload with
  | some members => .dict members
  | none => .bytes frame.payload

/-! ## Control payloads -/

theorem isValidChar_of_validateText {s : CodePoints} {depth : ℕ} (h : validateText s depth = true)
    (hs : ∀ c ∈ s, c < 0x110000) : ∀ c ∈ s, c.isValidChar := by
  intro c hc
  simp only [validateText, Bool.and_eq_true, Bool.not_eq_true', List.any_eq_false] at h
  have hsurrogate := h.2 c hc
  have hbound := hs c hc
  simp only [isSurrogate, Bool.and_eq_true, decide_eq_true_eq] at hsurrogate
  simp only [Nat.isValidChar]
  omega

theorem validateJsonItems_mem {items : List Tree} {depth count n : ℕ}
    (h : validateJsonItems items depth count = some n) :
    ∀ t ∈ items, ∃ k l, validateJsonValue t depth k = some l := by
  induction items generalizing count with
  | nil => simp
  | cons item items ih =>
    obtain ⟨k, hitem, hitems⟩ := Option.bind_eq_some_iff.mp h
    exact List.forall_mem_cons.mpr ⟨⟨_, _, hitem⟩, ih hitems⟩

theorem validateJsonMembers_mem {depth count n : ℕ} (h : validateJsonMembers members depth count = some n) :
    ∀ m ∈ members, validateText m.1 depth = true ∧ ∃ k l, validateJsonValue m.2 depth k = some l := by
  induction members generalizing count with
  | nil => simp
  | cons m members ih =>
    obtain ⟨key, item⟩ := m
    rw [validateJsonMembers] at h
    split at h
    · cases h
    · split at h
      · cases h
      · next hkey =>
        obtain ⟨k, hitem, hmembers⟩ := Option.bind_eq_some_iff.mp h
        exact List.forall_mem_cons.mpr ⟨⟨by simpa using hkey, _, _, hitem⟩, ih hmembers⟩

/-- Validation rejects surrogates, so that every text can be encoded. -/
theorem plain_of_validate {depth count n : ℕ} (h : Plain (· < 0x110000) tree)
    (hvalid : validateJsonValue tree depth count = some n) : Plain Nat.isValidChar tree := by
  induction h generalizing depth count n with
  | null => exact .null
  | bool b => exact .bool b
  | integer h => exact .integer h
  | string h =>
    rw [validateJsonValue] at hvalid
    split at hvalid
    · next htext => exact .string (isValidChar_of_validateText htext h)
    · cases hvalid
  | array h ih =>
    rw [validateJsonValue] at hvalid
    split at hvalid
    · cases hvalid
    · refine .array fun t ht => ?_
      obtain ⟨k, l, hitem⟩ := validateJsonItems_mem hvalid t ht
      exact ih t ht hitem
  | object hkeys h ih =>
    rw [validateJsonValue] at hvalid
    split at hvalid
    · cases hvalid
    · have hmembers := validateJsonMembers_mem hvalid
      refine .object (fun m hm => isValidChar_of_validateText (hmembers m hm).1 (hkeys m hm)) fun m hm => ?_
      obtain ⟨-, k, l, hitem⟩ := hmembers m hm
      exact ih m hm hitem

theorem decodeJson_of_encodeJson (h : IsJson (.object members)) (hdata : encodeJson members = .ok data) :
    decodeJson data = .ok members := by
  simp only [encodeJson, throw_or_eq_ok_iff] at hdata
  obtain ⟨hversion, hvalid, hlength, hdata⟩ := hdata
  obtain rfl := Except.ok.inj hdata
  obtain ⟨n, hn⟩ := Option.ne_none_iff_exists'.mp (mt Option.isNone_iff_eq_none.mpr hvalid)
  have hloads := loads_of_reads (reads_dump (plain_of_validate h.plain hn))
    (rfl : skipSpace (codePoints []) = []) (by simp [dump, dumpObject])
  rw [List.append_nil] at hloads
  rw [decodeJson, if_neg hlength, decodeUtf8_utf8, Option.bind_some, String.toList_ofList, hloads]
  simp [h.distinct, hvalid, hversion]

/-! ## Frames -/

theorem FrameType.ofValue_value (kind : FrameType) : ofValue kind.value = some kind := by
  cases kind <;> rfl

theorem unpackHeader_pack (hpayload : payload.length < 256 ^ 4) (hhop : hopSequence < 256 ^ 8) :
    unpackHeader (pack kind payload hopSequence) =
      ⟨[65, 66, 87, 83], 1, kind.value, 0, payload.length, hopSequence, 0⟩ := by
  have hkind : kind.value < 256 ^ 1 := by cases kind <;> decide
  simp [unpackHeader, pack, Bytes.field, Bytes.slice, List.drop_append, Bytes.toNat_bigEndian hkind,
    Bytes.toNat_bigEndian hpayload, Bytes.toNat_bigEndian hhop, List.drop_eq_nil_of_le,
    show Bytes.toNat [1] = 1 from rfl, show Bytes.toNat [0, 0] = 0 from rfl,
    show Bytes.toNat [0, 0, 0, 0] = 0 from rfl]

theorem length_pack : (pack kind payload hopSequence).length = headerSize + payload.length := by
  simp [pack, headerSize]
  omega

theorem drop_pack : (pack kind payload hopSequence).drop headerSize = payload := by
  simp [pack, headerSize, List.drop_append, List.drop_eq_nil_of_le]

/-- A packed frame is decoded up to its payload. -/
theorem decodeFrame_pack (hpayload : payload.length ≤ maxPayload) (hpos : 1 ≤ hopSequence)
    (hhop : hopSequence ≤ maxU64) : decodeFrame (pack kind payload hopSequence) =
      if kind.isOpaque then .ok ⟨kind, hopSequence, payload, none⟩
      else (decodeJson payload).map fun members => ⟨kind, hopSequence, payload, some members⟩ := by
  have hsmall : payload.length < 256 ^ 4 := Nat.lt_of_le_of_lt hpayload (by decide)
  have hfits : hopSequence < 256 ^ 8 := Nat.lt_of_le_of_lt hhop (by decide)
  have hheader : validateHeader ⟨[65, 66, 87, 83], 1, kind.value, 0, payload.length, hopSequence, 0⟩ =
      .ok () := by
    simp [validateHeader, hpayload]
  unfold decodeFrame
  simp only [unpackHeader_pack hsmall hfits, length_pack, drop_pack, hheader, FrameType.ofValue_value]
  rw [if_neg (by omega), if_neg (by simp)]
  change (if _ then _ else _) = _
  rw [if_neg (by omega), if_neg (by omega), if_neg (by omega)]
  cases decodeJson payload <;> rfl

theorem overlong_eq (payload : Bytes) : overlong payload = false := by
  rw [overlong, Bool.and_eq_false_iff]
  by_cases hlength : payload.length ≤ 4096
  · right
    cases htext : decodeUtf8 0 payload with
    | none => rfl
    | some text =>
      have hle := (utf8_of_decodeUtf8 htext).length_le
      have hcount : text.countP Json.isDigit ≤ text.length := List.countP_le_length
      simp
      omega
  · left
    simpa using hlength

theorem decodeFrameOrRaise_eq (raw : Bytes) : decodeFrameOrRaise raw = (decodeFrame raw).mapError .abws := by
  unfold decodeFrameOrRaise
  cases decodeFrame raw with
  | ok frame => simp [overlong_eq, Except.mapError]
  | error e => cases e <;> simp [overlong_eq, Except.mapError]

/-- What the encoder accepts is decoded as it was given, and the decoder raises `ABWSError` only. -/
theorem abws_round_trip :
    (∀ kind payload hopSequence raw, (∀ members, payload = .dict members → IsJson (.object members)) →
      encodeFrame kind payload hopSequence = .ok raw →
        ∃ frame, decodeFrameOrRaise raw = .ok frame ∧ frame.frameType = kind ∧
          frame.hopSequence = hopSequence ∧ frame.content = payload ∧
          raw.length = headerSize + frame.payload.length) ∧
    ∀ raw raised, decodeFrameOrRaise raw = .error raised → ∃ e, raised = .abws e := by
  refine ⟨fun kind payload hopSequence raw hjson hraw => ?_, fun raw raised h => ?_⟩
  · simp only [encodeFrame, throw_or_eq_ok_iff, bind_eq_ok_iff] at hraw
    obtain ⟨hhop, encoded, hencoded, hlength, hraw⟩ := hraw
    obtain rfl := Except.ok.inj hraw
    rw [decodeFrameOrRaise_eq, decodeFrame_pack (by omega) (by omega) (by omega), length_pack]
    cases payload with
    | bytes b =>
      rw [encodePayload] at hencoded
      split at hencoded
      · cases hencoded
      · next hsealed =>
        split at hencoded
        · cases hencoded
        · obtain rfl := Except.ok.inj hencoded
          rw [if_pos (by simpa using hsealed)]
          exact ⟨_, rfl, rfl, rfl, rfl, rfl⟩
    | dict members =>
      rw [encodePayload] at hencoded
      split at hencoded
      · cases hencoded
      · next hopen =>
        rw [if_neg hopen, decodeJson_of_encodeJson (hjson members rfl) (mapError_eq_ok hencoded)]
        exact ⟨_, rfl, rfl, rfl, rfl, rfl⟩
  · rw [decodeFrameOrRaise_eq] at h
    cases hframe : decodeFrame raw with
    | ok frame => rw [hframe] at h; cases h
    | error e =>
      rw [hframe] at h
      cases h
      exact ⟨e, rfl⟩

end AgentBox.Wire
