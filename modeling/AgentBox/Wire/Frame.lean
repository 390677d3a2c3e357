import AgentBox.Common.Sha256
import AgentBox.Wire.Schema

/-!
# Decoding and encoding one frame

Reference: `agentbox_protocol/waw_wire.py`, from `_exact_integer` to `encode_wire_frame`.

`decodeWireFrame` takes one complete frame of one leg to its kind, hop sequence, payload and record.
`decodeWireFrame_ok` collects what holds of every decoded frame; the session proofs use nothing else
about decoding.
-/

namespace AgentBox.Wire

open Json

/-! ## Strict JSON records -/

/-- The number a string of digits denotes. -/
def digitsValue (s : CodePoints) : ℕ := s.foldl (fun n c => n * 10 + (c - 48)) 0

/-- `int(exponent or "0")` -/
def exponentValue : Option (ℕ × CodePoints) → ℤ
  | none => 0
  | some (_, 45 :: digits) => -(digitsValue digits : ℤ)
  | some (_, 43 :: digits) => digitsValue digits
  | some (_, digits) => digitsValue digits

/-- `_exact_integer`: exact decimal arithmetic without floating point or decimal context limits. -/
def exactInteger (token : NumberToken) : Option ℤ :=
  let fraction := token.fraction.getD []
  let digits := (token.whole ++ fraction).dropWhile (· == 48)
  if digits = [] then some 0
  else
    let shift := exponentValue token.exponent - fraction.length
    let trim := (-shift).toNat
    let integral :=
      if 0 ≤ shift then
        if digits.length + shift > 5 then none
        else some (digits ++ List.replicate shift.toNat 48)
      else if digits.length ≤ trim ∨ (digits.drop (digits.length - trim)).any (· ≠ 48) then none
      else some (digits.take (digits.length - trim))
    match integral with
    | none => none
    | some integral =>
      if integral.length > 5 ∨ digitsValue integral > 32768 then none
      else some (if token.negative then -(digitsValue integral : ℤ) else digitsValue integral)

/-- `"crypto_envelope_version"` -/
def cryptoEnvelopeVersionKey : CodePoints :=
  [99, 114, 121, 112, 116, 111, 95, 101, 110, 118, 101, 108, 111, 112, 101, 95, 118, 101, 114, 115,
   105, 111, 110]

/-- The integer of a number token under a key; the version fields have one spelling only. -/
def memberInteger (key : CodePoints) (token : NumberToken) : Option ℤ :=
  if (key = protocolVersionKey ∨ key = cryptoEnvelopeVersionKey) ∧ token.text ≠ [49] then none
  else exactInteger token

/-- The value of a member converts: a number directly inside an object has to be an exact integer. -/
def memberConverts (member : CodePoints × Tree) : Bool :=
  match member.2 with
  | .number token => (memberInteger member.1 token).isSome
  | _ => true

mutual

/-- The hooks of `_json_bytes`: the number of members seen after a value, or `none` where they
raise. -/
def countPairs : Tree → ℕ → Option ℕ
  | .constant _, _ => none
  | .array items, count => countPairsItems items count
  | .object members, count =>
    (countPairsMembers members count).bind fun count =>
      if count + members.length > 64 then none
      else if !decide (members.map Prod.fst).Nodup || !members.all memberConverts then none
      else some (count + members.length)
  | _, count => some count

def countPairsItems : List Tree → ℕ → Option ℕ
  | [], count => some count
  | item :: items, count => (countPairs item count).bind fun count => countPairsItems items count

def countPairsMembers : List (CodePoints × Tree) → ℕ → Option ℕ
  | [], count => some count
  | (_, item) :: members, count =>
    (countPairs item count).bind fun count => countPairsMembers members count

end

/-- Where the depth scan of `_json_bytes` stands. -/
structure DepthScan where
  depth : ℤ
  quoted : Bool
  escaped : Bool

/-- One byte of the depth scan; `none` where it raises. -/
def DepthScan.next (d : DepthScan) (byte : UInt8) : Option DepthScan :=
  if d.quoted then
    if d.escaped then some { d with escaped := false }
    else if byte = 92 then some { d with escaped := true }
    else if byte = 34 then some { d with quoted := false }
    else some d
  else if byte = 34 then some { d with quoted := true }
  else if byte = 91 ∨ byte = 123 then
    if d.depth + 1 > 16 then none else some { d with depth := d.depth + 1 }
  else if byte = 93 ∨ byte = 125 then some { d with depth := d.depth - 1 }
  else some d

/-- The member as an entry of the record: only scalars, and no surrogates. -/
def scalarMember (key : CodePoints) : Tree → Option Scalar
  | .null => some .null
  | .bool b => some (.bool b)
  | .number token => (memberInteger key token).map .int
  | .string s => if s.any isSurrogate then none else some (.str s.chars)
  | _ => none

/-- The record of an object's members, added one after the other. -/
def toRecord (members : List (CodePoints × Tree)) : Option Record :=
  members.foldlM (fun record (key, item) =>
    if key.any isSurrogate then none
    else (scalarMember key item).map (record.set (String.ofList key.chars) ·)) .empty

/-- `_json_bytes` -/
def jsonBytes (payload : Bytes) : Except WireError Record :=
  if payload.length < 1 ∨ 4096 < payload.length then .error .protocolInvalid
  else if (payload.foldlM DepthScan.next ⟨0, false, false⟩).isNone then .error .protocolInvalid
  else
    match (decodeUtf8 0 payload).bind loads with
    | some (.object members) =>
      if (countPairs (.object members) 0).isNone then .error .protocolInvalid
      else
        match toRecord members with
        | some record => .ok record
        | none => .error .protocolInvalid
    | _ => .error .protocolInvalid

/-! ## Frames -/

/-- `WireFrame` -/
structure WireFrame where
  frameType : FrameType
  leg : Leg
  hopSequence : ℕ
  payload : Bytes
  json : Option Record
  wire : Bytes
  replay : Bool := false
deriving DecidableEq

namespace WireFrame

/-- A field of the record, where there is one. -/
def field (f : WireFrame) (name : String) : Option Scalar := f.json.bind (·.get? name)

/-- The leg and kind under which the session files a frame. -/
def key (f : WireFrame) : Leg × FrameType := (f.leg, f.frameType)

/-- Two frames have the same value in a field. A missing record or field, which would be a `KeyError`,
is no agreement. -/
def agrees (f g : WireFrame) (name : String) : Bool :=
  (f.field name).isSome && f.field name == g.field name

/-- `f._json == g._json` -/
def sameJson (f g : WireFrame) : Bool :=
  match f.json, g.json with
  | some r, some q => r.same q
  | none, none => true
  | _, _ => false

end WireFrame

/-- What a caller hands over as a frame. -/
inductive Raw
  /-- `bytes` or `bytearray` -/
  | bytes (b : Bytes)
  /-- a `memoryview`, whose length counts items of one or more bytes -/
  | view (length : ℕ) (b : Bytes) (items : length ≤ b.length)
  /-- any other object -/
  | other

/-- The bytes of a frame within the size limits. -/
def Raw.wire : Raw → Option Bytes
  | .bytes b => if 24 ≤ b.length ∧ b.length ≤ 65536 then some b else none
  | .view length b _ =>
    if 24 ≤ length ∧ length ≤ 65536 ∧ b.length ≤ 65536 then some b else none
  | .other => none

variable (kind : FrameType)

/-- `_json_bytes` for the kinds that carry JSON. -/
def payloadOf (original : Bytes) : Except WireError Payload :=
  if kind.isOpaque then .ok (.bytes original) else (jsonBytes original).map .record

/-- The record of a validated payload. -/
def Payload.json : Payload → Option Record
  | .bytes _ => none
  | .record r => some r

/-- `decode_wire_frame`: exactly one complete frame. `cpu` is the thread time, in nanoseconds, that
validation took; control payloads have a budget of 5 ms. -/
def decodeWireFrame (raw : Raw) (leg : Leg) (admission : Option Record)
    (runtimeEpoch : Option Scalar) (trusted : Bool) (cpu : ℕ) : Except WireError WireFrame := do
  let wire ← orRaise raw.wire .protocolInvalid
  let kind ← profile (wire.field 5 1) leg
  let payload ← payloadOf kind (wire.drop 24)
  let frame ← orRaise (decodeFrame wire).toOption .protocolInvalid
  let validated ← validatePayload kind leg payload admission runtimeEpoch trusted
  if validated.json.isSome ∧ 5000000 < cpu then throw .protocolInvalid
  return {
    frameType := kind
    leg := leg
    hopSequence := frame.hopSequence
    payload := wire.drop 24
    json := validated.json
    wire := wire }

/-! ## Encoding -/

/-- One character of a JSON string as `json.dumps(..., ensure_ascii=False)` writes it. -/
def dumpsChar (c : Char) : List Char :=
  if c.toNat = 34 ∨ c.toNat = 92 then [Char.ofNat 92, c]
  else if c.toNat = 8 then [Char.ofNat 92, 'b']
  else if c.toNat = 9 then [Char.ofNat 92, 't']
  else if c.toNat = 10 then [Char.ofNat 92, 'n']
  else if c.toNat = 12 then [Char.ofNat 92, 'f']
  else if c.toNat = 13 then [Char.ofNat 92, 'r']
  else if c.toNat < 32 then
    [Char.ofNat 92, 'u', '0', '0', Nat.digitChar (c.toNat / 16), Nat.digitChar (c.toNat % 16)]
  else [c]

def dumpsText (s : List Char) : List Char :=
  [Char.ofNat 34] ++ s.flatMap dumpsChar ++ [Char.ofNat 34]

def Scalar.dumps : Scalar → List Char
  | .null => "null".toList
  | .bool true => "true".toList
  | .bool false => "false".toList
  | .int n => (toString n).toList
  | .str s => dumpsText s

/-- `json.dumps(record, ensure_ascii=False, separators=(",", ":")).encode("utf-8")` -/
def Record.dumps (r : Record) : Bytes :=
  let members := r.items.map fun e => dumpsText e.1.toList ++ [':'] ++ e.2.dumps
  ([Char.ofNat 123] ++ (members.intersperse [',']).flatten ++ [Char.ofNat 125]).flatMap
    String.utf8EncodeChar

/-- `struct.pack("!4sBBHIQI", b"ABWS", 1, kind, 0, len(payload), hop_sequence, 0) + payload` -/
def pack (payload : Bytes) (hopSequence : ℕ) : Bytes :=
  [65, 66, 87, 83, 1] ++ Sha256.bigEndian 1 kind.value ++ [0, 0] ++
    Sha256.bigEndian 4 payload.length ++ Sha256.bigEndian 8 hopSequence ++ [0, 0, 0, 0] ++ payload

/-- `encode_wire_frame`: create an origin frame. -/
def encodeWireFrame (leg : Leg) (payload : Payload) (hopSequence : ℕ)
    (admission : Option Record) (runtimeEpoch : Option Scalar) (trusted : Bool) (cpu : ℕ) :
    Except WireError Bytes := do
  let kind ← profile kind.value leg
  let validated ← validatePayload kind leg payload admission runtimeEpoch trusted
  if hopSequence < 1 ∨ maxU64 < hopSequence then throw .protocolInvalid
  let encoded := match validated with
    | .bytes b => b
    | .record r => r.dumps
  let frame ← decodeWireFrame (.bytes (pack kind encoded hopSequence)) leg admission runtimeEpoch
    trusted cpu
  return frame.wire

/-! ## What every decoded frame satisfies -/

variable {raw : Raw}

theorem Raw.length_wire {wire : Bytes} (h : raw.wire = some wire) : 24 ≤ wire.length := by
  cases raw with
  | bytes b =>
    simp only [Raw.wire] at h
    split at h
    · next hb => cases h; exact hb.1
    · cases h
  | view length b items =>
    simp only [Raw.wire] at h
    split at h
    · next hb => cases h; exact Nat.le_trans hb.1 items
    · cases h
  | other => cases h

variable {leg : Leg}

theorem profile_ok {kind : ℕ} {frameType : FrameType} (h : profile kind leg = .ok frameType) :
    frameType.value ∈ leg.allowed := by
  unfold profile at h
  split at h
  · split at h
    · next hmem => cases h; exact hmem
    · cases h
  · cases h

variable {admission : Option Record} {runtimeEpoch : Option Scalar} {trusted : Bool}

/-- Validation returns the payload it was given, with a record exactly for the kinds that carry
JSON. -/
theorem validatePayload_ok {kind : FrameType} {payload validated : Payload}
    (h : validatePayload kind leg payload admission runtimeEpoch trusted = .ok validated) :
    validated = payload ∧ validated.json.isSome = !kind.isOpaque := by
  unfold validatePayload at h
  split at h
  · next hsealed =>
    split at h
    · split at h
      · split at h
        · cases h; exact ⟨rfl, by simp [Payload.json, hsealed]⟩
        · cases h
      · cases h
    · cases h
  · next hsealed =>
    split at h
    · split at h
      · cases h; exact ⟨rfl, by simp [Payload.json, hsealed]⟩
      · cases h
    · cases h

/-- The facts about a decoded frame that do not depend on the profiles. -/
structure Decoded (leg : Leg) (f : WireFrame) : Prop where
  leg_eq : f.leg = leg
  allowed : f.frameType.value ∈ leg.allowed
  length_wire : f.wire.length = 24 + f.payload.length
  json_isSome : f.json.isSome = !f.frameType.isOpaque
  replay_eq : f.replay = false

theorem decodeWireFrame_ok {cpu : ℕ} {f : WireFrame}
    (h : decodeWireFrame raw leg admission runtimeEpoch trusted cpu = .ok f) : Decoded leg f := by
  unfold decodeWireFrame at h
  obtain ⟨wire, hwire, h⟩ := bind_eq_ok_iff.mp h
  obtain ⟨kind, hkind, h⟩ := bind_eq_ok_iff.mp h
  obtain ⟨payload, -, h⟩ := bind_eq_ok_iff.mp h
  obtain ⟨frame, -, h⟩ := bind_eq_ok_iff.mp h
  obtain ⟨validated, hvalidated, h⟩ := bind_eq_ok_iff.mp h
  have hlen : 24 ≤ wire.length := by
    cases hraw : raw.wire with
    | none => rw [hraw] at hwire; cases hwire
    | some w => rw [hraw] at hwire; cases hwire; exact Raw.length_wire hraw
  split at h
  · cases h
  · cases h
    exact {
      leg_eq := rfl
      allowed := profile_ok hkind
      length_wire := by simp only [List.length_drop]; omega
      json_isSome := (validatePayload_ok hvalidated).2
      replay_eq := rfl }

end AgentBox.Wire
