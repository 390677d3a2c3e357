import AgentBox.Common.Fields
import AgentBox.Web.Agreement

/-!
# The codecs of the encrypted record envelope

Reference: `agentbox_protocol/awce.py` and `awce.ts`.

The server packs the fields of an envelope one after another; the browser writes them into a buffer of
zeros. Both give the same bytes (`encodeAwceHeader_eq`), and a byte string decodes to an envelope exactly when
it is the one that the envelope is packed to (`decodeAwce_eq_ok_iff`).
-/

namespace AgentBox

open Sha256

variable {e : Wire.AwceFields} {data : Bytes}

namespace Wire

/-- `_HEADER.pack`, with the format `"!4sBBHQQI16s"`. -/
def packAwce (e : AwceFields) : Bytes :=
  [65, 87, 67, 69] ++ bigEndian 1 e.cryptoEnvelopeVersion ++ bigEndian 1 e.directionId ++
    bigEndian 2 e.flags ++ bigEndian 8 e.cryptoSequence ++ bigEndian 8 e.streamCursor ++
    bigEndian 4 e.ciphertext.length ++ e.contextId

/-- `encode_awce`; the header is checked once more. -/
def encodeAwce (e : AwceEnvelope) : Except AwceError Bytes := do
  e.validate
  return packAwce e.toAwceFields ++ e.ciphertext

/-- The widths of the fields, as far as `validate` bounds them. -/
structure AwceFields.Fits (e : AwceFields) : Prop where
  version : e.cryptoEnvelopeVersion < 256 ^ 1
  direction : e.directionId < 256 ^ 1
  flags : e.flags < 256 ^ 2
  sequence : e.cryptoSequence < 256 ^ 8
  cursor : e.streamCursor < 256 ^ 8
  context : e.contextId.length = 16
  low : Awce.minCiphertextSize ≤ e.ciphertext.length
  high : e.ciphertext.length ≤ Awce.maxCiphertextSize

theorem AwceFields.fits_of_validate (h : e.validate = .ok ()) : e.Fits := by
  unfold AwceFields.validate at h
  simp only [throw_or_eq_ok_iff, bind_eq_ok_iff, Web.requireExactUint_ok_iff, throw_unless_eq_ok_iff,
    exists_const, Awce.maxTerminalSequence] at h
  constructor <;> omega

/-- The header is read back field by field. -/
theorem unpackAwce_packAwce (h : e.Fits) : unpackAwce (packAwce e ++ e.ciphertext) = e := by
  obtain ⟨version, direction, flags, sequence, cursor, context, ciphertext⟩ := e
  have hcontext : context.length = 16 := h.context
  simp [unpackAwce, packAwce, Bytes.field, Bytes.slice, List.drop_append, hcontext, Awce.headerSize,
    List.drop_eq_nil_of_le, Bytes.toNat_bigEndian h.version, Bytes.toNat_bigEndian h.direction,
    Bytes.toNat_bigEndian h.flags, Bytes.toNat_bigEndian h.sequence, Bytes.toNat_bigEndian h.cursor]

/-- A string that is as long as it says is the packing of its fields. -/
theorem packAwce_unpackAwce (hmagic : data.slice 0 4 = [65, 87, 67, 69])
    (hlength : data.length = Awce.headerSize + data.field 24 4) :
    packAwce (unpackAwce data) ++ (unpackAwce data).ciphertext = data := by
  have hciphertext : (data.drop Awce.headerSize).length = data.field 24 4 := by
    rw [List.length_drop, hlength, Nat.add_sub_cancel_left]
  have hfield : ∀ {offset w next : ℕ}, offset + w = next → next ≤ Awce.headerSize →
      bigEndian w (data.field offset w) ++ data.drop next = data.drop offset := fun h hle =>
    Bytes.field_append_drop h (Nat.le_trans hle (hlength ▸ Nat.le_add_right _ _))
  simp only [packAwce, unpackAwce, List.append_assoc]
  -- the fields are put back from the last to the first
  rw [hciphertext, data.slice_append_drop (show 28 + 16 = Awce.headerSize from rfl),
    hfield (show 24 + 4 = 28 from rfl) (by decide), hfield (show 16 + 8 = 24 from rfl) (by decide),
    hfield (show 8 + 8 = 16 from rfl) (by decide), hfield (show 6 + 2 = 8 from rfl) (by decide),
    hfield (show 5 + 1 = 6 from rfl) (by decide), hfield (show 4 + 1 = 5 from rfl) (by decide), ← hmagic]
  exact data.slice_append_drop rfl

theorem AwceEnvelope.validate_eq (e : AwceEnvelope) : e.validate = .ok () := by
  cases hvalid : e.validate with
  | ok u => rfl
  | error err =>
    have haccepted := e.accepted
    rw [hvalid] at haccepted
    cases haccepted

theorem AwceEnvelope.accept_eq (e : AwceEnvelope) : e.accept = .ok e := by
  obtain ⟨env, haccept, heq⟩ := Web.accept_iff.mpr ⟨e.validate_eq, rfl⟩
  cases e
  cases env
  cases heq
  exact haccept

theorem encodeAwce_eq (e : AwceEnvelope) : encodeAwce e = .ok (packAwce e.toAwceFields ++ e.ciphertext) := by
  rw [encodeAwce, e.validate_eq]
  rfl

/-- Exactly the packing of an envelope decodes to it. -/
theorem decodeAwce_eq_ok_iff {e : AwceEnvelope} :
    decodeAwce data = .ok e ↔ packAwce e.toAwceFields ++ e.ciphertext = data := by
  simp only [decodeAwce, throw_or_eq_ok_iff]
  constructor
  · rintro ⟨-, -, hmagic, -, hshort, hlong, haccept⟩
    obtain ⟨-, hunpacked⟩ := Web.accept_iff.mp ⟨e, haccept, rfl⟩
    rw [← hunpacked]
    exact packAwce_unpackAwce (not_not.mp hmagic) (by omega)
  · rintro rfl
    have hfits := AwceFields.fits_of_validate e.validate_eq
    have hlow := hfits.low
    have hhigh := hfits.high
    have hlength : (packAwce e.toAwceFields ++ e.ciphertext).length =
        Awce.headerSize + e.ciphertext.length := by
      simp [packAwce, hfits.context, Awce.headerSize]
      omega
    have hsmall : e.ciphertext.length < 256 ^ 4 := Nat.lt_of_le_of_lt hhigh (by decide)
    have hfield : (packAwce e.toAwceFields ++ e.ciphertext).field 24 4 = e.ciphertext.length := by
      simp [packAwce, Bytes.field, Bytes.slice, List.drop_append, List.drop_eq_nil_of_le,
        Bytes.toNat_bigEndian hsmall]
    have hmagic : (packAwce e.toAwceFields ++ e.ciphertext).slice 0 4 = [65, 87, 67, 69] := by
      simp [packAwce, Bytes.slice]
    rw [hfield, hlength, hmagic, unpackAwce_packAwce hfits, e.accept_eq, Awce.maxEnvelopeSize]
    refine ⟨?_, ?_, fun h => h rfl, ?_, ?_, ?_, rfl⟩ <;> omega

end Wire

namespace Web

open Wire

/-- `encodeAwceHeader` -/
def encodeAwceHeader (e : AwceFields) : Except AwceError Bytes := do
  validateHeaderFields e
  let result : Bytes := List.replicate Awce.headerSize 0
  let result := result.put 0 [0x41, 0x57, 0x43, 0x45]
  let result := result.put 4 (bigEndian 1 e.cryptoEnvelopeVersion)
  let result := result.put 5 (bigEndian 1 e.directionId)
  let result := result.put 6 (bigEndian 2 e.flags)
  let result := result.put 8 (bigEndian 8 e.cryptoSequence)
  let result := result.put 16 (bigEndian 8 e.streamCursor)
  let result := result.put 24 (bigEndian 4 e.ciphertext.length)
  return result.put 28 e.contextId

/-- `encodeAwce` of the fields that the constructor copies. -/
def encodeAwce (e : AwceFields) : Except AwceError Bytes := do
  let result : Bytes := List.replicate (Awce.headerSize + e.ciphertext.length) 0
  let header ← encodeAwceHeader e
  return (result.put 0 header).put Awce.headerSize e.ciphertext

/-- The browser fills its buffer with the bytes that the server packs. -/
theorem encodeAwceHeader_eq (h : e.validate = .ok ()) : encodeAwceHeader e = .ok (packAwce e) := by
  have hcontext := (AwceFields.fits_of_validate h).context
  rw [encodeAwceHeader, validateHeaderFields_iff.mpr h]
  refine congrArg Except.ok ?_
  rw [show (List.replicate Awce.headerSize 0 : Bytes) = [] ++ List.replicate 44 0 from rfl]
  -- each field starts where the one before it ends
  repeat rw [Bytes.put_replicate (by simp)]
  simp [packAwce, hcontext]

theorem encodeAwce_eq_ok_iff {fields : AwceFields} : encodeAwce fields = .ok data ↔
    fields.validate = .ok () ∧ packAwce fields ++ fields.ciphertext = data := by
  by_cases h : fields.validate = .ok ()
  · have hlength : (packAwce fields).length = Awce.headerSize := by
      simp [packAwce, (AwceFields.fits_of_validate h).context, Awce.headerSize]
    rw [encodeAwce, encodeAwceHeader_eq h]
    refine (Except.ok.injEq _ _).to_iff.trans ?_
    rw [← List.nil_append (List.replicate _ _), Bytes.put_replicate List.length_nil, List.nil_append,
      Bytes.put_replicate hlength]
    simp [h, hlength]
  · refine iff_of_false (fun hok => ?_) (fun hraw => h hraw.1)
    simp only [encodeAwce, encodeAwceHeader, bind_eq_ok_iff] at hok
    obtain ⟨_, ⟨_, hvalid, -⟩, -⟩ := hok
    exact h (validateHeaderFields_iff.mp hvalid)

/-- Encoding and decoding are inverse on the server and in the browser, and both decode the same byte
strings to the same fields. -/
theorem awce_codecs_agree : (∀ e raw, Wire.encodeAwce e = .ok raw ↔ Wire.decodeAwce raw = .ok e) ∧
    (∀ fields raw, encodeAwce fields = .ok raw ↔ decodeAwce raw = .ok fields) ∧
    (∀ fields raw, decodeAwce raw = .ok fields ↔ ∃ e, Wire.decodeAwce raw = .ok e ∧ e.toAwceFields = fields) ∧
    (∀ fields raw, encodeAwce fields = .ok raw ↔ ∃ e, Wire.encodeAwce e = .ok raw ∧ e.toAwceFields = fields) ∧
    ∀ e, ∃ raw, Wire.encodeAwce e = .ok raw := by
  have hserver : ∀ e raw, Wire.encodeAwce e = .ok raw ↔ Wire.decodeAwce raw = .ok e := fun e raw => by
    rw [Wire.encodeAwce_eq, Except.ok.injEq, decodeAwce_eq_ok_iff]
  have hbrowser : ∀ fields raw, encodeAwce fields = .ok raw ↔
      ∃ e, Wire.encodeAwce e = .ok raw ∧ e.toAwceFields = fields := fun fields raw => by
    rw [encodeAwce_eq_ok_iff]
    constructor
    · rintro ⟨hvalid, heq⟩
      obtain ⟨e, -, rfl⟩ := accept_iff.mpr ⟨hvalid, rfl⟩
      exact ⟨e, (Wire.encodeAwce_eq e).trans (congrArg _ heq), rfl⟩
    · rintro ⟨e, hraw, rfl⟩
      rw [Wire.encodeAwce_eq, Except.ok.injEq] at hraw
      exact ⟨e.validate_eq, hraw⟩
  refine ⟨hserver, fun fields raw => ?_, fun _ _ => decodeAwce_ok_iff, hbrowser,
    fun e => ⟨_, Wire.encodeAwce_eq e⟩⟩
  rw [hbrowser, decodeAwce_ok_iff]
  simp only [hserver]

end Web

end AgentBox
