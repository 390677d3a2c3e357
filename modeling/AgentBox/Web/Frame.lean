import AgentBox.Web.Agreement
import AgentBox.Web.Json

/-!
# Decoding one frame in the browser

Reference: `apps/web/src/features/workspace/wawWire.ts`, `decodeWireFrame`.

The browser and the server decode the same frames to the same result: `decodeWireFrame_agrees` puts
together what `strictJson_iff` says about payloads and `validatePayload_iff` about profiles.
-/

namespace AgentBox.Web

open Option Wire

variable {leg : Leg} {kind : FrameType} {wire : Bytes}

/-- `opaque ? null : strictJson(payload)`, and the payload itself for opaque kinds. -/
def valueOf (kind : FrameType) (payload : Bytes) : Option Payload :=
  if kind == .input || kind == .output then some (.bytes payload)
  else (strictJson payload).map .record

/-- `decodeWireFrame` on a `Uint8Array`. `elapsed` is the time in microseconds that validation took;
control payloads have a budget of 5 ms. -/
def decodeWireFrame (raw : Bytes) (leg : Leg) (admission : Option Record)
    (runtimeEpoch : Option Scalar) (trusted : Bool) (elapsed : ℕ) : Option WireFrame := do
  if raw.length < 24 ∨ raw.length > 65536 then none
  else
    let kind ← profile (raw.field 5 1) leg
    if raw.field 0 4 ≠ 0x41425753 ∨ raw.field 4 1 ≠ 1 ∨ raw.field 6 2 ≠ 0 ∨ raw.field 20 4 ≠ 0 ∨
        raw.field 8 4 ≠ raw.length - 24 ∨ raw.field 12 8 = 0 then
      none
    else
      let value ← valueOf kind (raw.drop 24)
      let checked ← validatePayload kind leg value admission runtimeEpoch trusted
      if !(kind == .input || kind == .output) ∧ elapsed > 5000 then none
      else
        return {
          frameType := kind
          leg := leg
          hopSequence := raw.field 12 8
          payload := raw.drop 24
          json := checked.json
          wire := raw }

/-! ## Frames with the same content -/

/-- Both records are missing, or they have the same fields. -/
def SameJson : Option Record → Option Record → Prop
  | none, none => True
  | some r, some r' => Copies r r'
  | _, _ => False

/-- Two frames that differ at most in the order of the fields of their records. -/
structure SameFrame (f g : WireFrame) : Prop where
  frameType : g.frameType = f.frameType
  leg : g.leg = f.leg
  hopSequence : g.hopSequence = f.hopSequence
  payload : g.payload = f.payload
  json : SameJson f.json g.json
  wire : g.wire = f.wire
  replay : g.replay = f.replay

/-! ## Agreement -/

theorem profile_iff {n : ℕ} : profile n leg = some kind ↔ Wire.profile n leg = .ok kind := by
  have hallowed : allowed leg = leg.allowed := by cases leg <;> rfl
  unfold profile Wire.profile
  rw [hallowed]
  cases hkind : FrameType.ofValue n with
  | none => simp
  | some kind' =>
    dsimp only
    rw [FrameType.value_of_ofValue hkind]
    split <;> simp

theorem magic_iff (h : 24 ≤ wire.length) :
    wire.field 0 4 = 0x41425753 ↔ wire.slice 0 4 = [65, 66, 87, 83] := by
  match wire, h with
  | a :: b :: c :: d :: rest, _ =>
    have ha := a.toNat_lt
    have hb := b.toNat_lt
    have hc := c.toNat_lt
    have hd := d.toNat_lt
    have hfield : Bytes.field (a :: b :: c :: d :: rest) 0 4 =
        ((a.toNat * 256 + b.toNat) * 256 + c.toNat) * 256 + d.toNat := by
      simp [Bytes.field, Bytes.slice, Bytes.toNat]
    have hslice : Bytes.slice (a :: b :: c :: d :: rest) 0 4 = [a, b, c, d] := rfl
    rw [hfield, hslice]
    simp only [List.cons.injEq, and_true, ← UInt8.toNat_inj, UInt8.reduceToNat]
    omega

theorem framed_iff (h : 24 ≤ wire.length) :
    ¬(wire.field 0 4 ≠ 0x41425753 ∨ wire.field 4 1 ≠ 1 ∨ wire.field 6 2 ≠ 0 ∨ wire.field 20 4 ≠ 0 ∨
      wire.field 8 4 ≠ wire.length - 24 ∨ wire.field 12 8 = 0) ↔ Framed wire := by
  have hmagic := magic_iff h
  constructor
  · intro hfields
    exact ⟨hmagic.mp (by omega), by omega, by omega, by omega, by simp only [headerSize]; omega,
      by omega⟩
  · rintro ⟨hword, hversion, hflags, hreserved, hlength, hhop⟩
    have := hmagic.mpr hword
    simp only [headerSize] at hlength
    omega

theorem valueOf_iff {original : Bytes} {value : Payload} :
    valueOf kind original = some value ↔ payloadOf kind original = .ok value := by
  unfold valueOf payloadOf FrameType.isOpaque
  split
  · simp
  · rw [map_eq_some_iff]
    simp only [strictJson_iff]
    cases jsonBytes original with
    | error e => exact ⟨nofun, nofun⟩
    | ok r =>
      constructor
      · rintro ⟨_, heq, rfl⟩
        cases heq
        rfl
      · intro h
        cases h
        exact ⟨r, rfl, rfl⟩

/-- What `decodeWireFrame` accepts within its budget. -/
theorem decodeWireFrame_iff {admission : Option Record} {runtimeEpoch : Option Scalar}
    {trusted : Bool} {elapsed : ℕ} {f : WireFrame} (helapsed : elapsed ≤ 5000) :
    decodeWireFrame wire leg admission runtimeEpoch trusted elapsed = some f ↔
      (headerSize ≤ wire.length ∧ wire.length ≤ 65536 ∧ Framed wire) ∧
        ∃ kind payload checked, Wire.profile (wire.field 5 1) leg = .ok kind ∧
          payloadOf kind (wire.drop headerSize) = .ok payload ∧
          validatePayload kind leg payload admission runtimeEpoch trusted = some checked ∧
          f = frameOf wire leg kind checked := by
  constructor
  · intro h
    unfold decodeWireFrame at h
    split at h
    · cases h
    next hlength =>
    obtain ⟨kind, hkind, h₁⟩ := bind_eq_some_iff.mp h
    split at h₁
    · cases h₁
    next hframed =>
    obtain ⟨payload, hpayload, h₂⟩ := bind_eq_some_iff.mp h₁
    obtain ⟨checked, hchecked, h₃⟩ := bind_eq_some_iff.mp h₂
    rw [if_neg (by omega)] at h₃
    cases h₃
    exact ⟨⟨by simp only [headerSize]; omega, by omega, (framed_iff (by omega)).mp hframed⟩, kind,
      payload, checked, profile_iff.mp hkind, valueOf_iff.mp hpayload, hchecked, rfl⟩
  · rintro ⟨⟨hlength, hmax, hframed⟩, kind, payload, checked, hkind, hpayload, hchecked, rfl⟩
    simp only [headerSize] at hlength
    unfold decodeWireFrame
    rw [if_neg (by omega)]
    refine bind_eq_some_iff.mpr ⟨kind, profile_iff.mpr hkind, ?_⟩
    rw [if_neg ((framed_iff hlength).mpr hframed)]
    refine bind_eq_some_iff.mpr ⟨payload, valueOf_iff.mpr hpayload, ?_⟩
    refine bind_eq_some_iff.mpr ⟨checked, hchecked, ?_⟩
    rw [if_neg (by omega)]
    rfl

theorem sameJson_of_samePayload {p q : Payload} (h : SamePayload p q) : SameJson p.json q.json := by
  cases p <;> cases q <;> first | exact trivial | exact h

section
variable {wire : Bytes} {leg : Leg} {admission : Option Record} {runtimeEpoch : Option Scalar}
  {trusted : Bool} {cpu elapsed : ℕ} (hcpu : cpu ≤ 5000000) (helapsed : elapsed ≤ 5000)
include hcpu helapsed

/-- Within their budgets, the decoders of the server and of the browser accept the same frames. -/
theorem isOk_decodeWireFrame :
    (Wire.decodeWireFrame (.bytes wire) leg admission runtimeEpoch trusted cpu).isOk =
      (decodeWireFrame wire leg admission runtimeEpoch trusted elapsed).isSome := by
  rw [Bool.eq_iff_iff]
  constructor
  · intro h
    cases hf : Wire.decodeWireFrame (.bytes wire) leg admission runtimeEpoch trusted cpu with
    | error e => rw [hf] at h; cases h
    | ok f =>
      obtain ⟨hframed, kind, payload, hkind, hpayload, hvalid, -⟩ := (Wire.decodeWireFrame_iff hcpu).mp hf
      have hsome := (validatePayload_iff (profile_ok hkind) payload admission runtimeEpoch trusted).1
      rw [hvalid] at hsome
      obtain ⟨checked, hchecked⟩ := isSome_iff_exists.mp hsome
      rw [(decodeWireFrame_iff helapsed).mpr
        ⟨hframed, kind, payload, checked, hkind, hpayload, hchecked, rfl⟩]
      rfl
  · intro h
    obtain ⟨g, hg⟩ := isSome_iff_exists.mp h
    obtain ⟨hframed, kind, payload, checked, hkind, hpayload, hchecked, -⟩ :=
      (decodeWireFrame_iff helapsed).mp hg
    have hok := (validatePayload_iff (profile_ok hkind) payload admission runtimeEpoch trusted).1
    rw [hchecked] at hok
    cases hvalid : Wire.validatePayload kind leg payload admission runtimeEpoch trusted with
    | error e => rw [hvalid] at hok; cases hok
    | ok validated =>
      obtain rfl := (validatePayload_ok hvalid).1
      rw [(Wire.decodeWireFrame_iff hcpu).mpr ⟨hframed, kind, validated, hkind, hpayload, hvalid, rfl⟩]
      rfl

/-- What both return differs at most in the order of the fields of the record. -/
theorem sameFrame_of_decodeWireFrame {f g : WireFrame}
    (hf : Wire.decodeWireFrame (.bytes wire) leg admission runtimeEpoch trusted cpu = .ok f)
    (hg : decodeWireFrame wire leg admission runtimeEpoch trusted elapsed = some g) : SameFrame f g := by
  obtain ⟨-, kind, payload, hkind, hpayload, hvalid, rfl⟩ := (Wire.decodeWireFrame_iff hcpu).mp hf
  obtain ⟨-, kind', payload', checked, hkind', hpayload', hchecked, rfl⟩ :=
    (decodeWireFrame_iff helapsed).mp hg
  rw [hkind] at hkind'
  cases hkind'
  rw [hpayload] at hpayload'
  cases hpayload'
  have hsame := (validatePayload_iff (profile_ok hkind) payload admission runtimeEpoch trusted).2
    checked hchecked
  exact ⟨rfl, rfl, rfl, rfl, sameJson_of_samePayload hsame, rfl, rfl⟩

end

/-- Whatever the bytes, the leg, the bindings and the trust, the two decoders accept the same frames
within their budgets, and return the same kind, hop sequence, payload and record. -/
theorem decoders_agree (wire : Bytes) (leg : Leg) (admission : Option Record)
    (runtimeEpoch : Option Scalar) (trusted : Bool) {cpu elapsed : ℕ} (hcpu : cpu ≤ 5000000)
    (helapsed : elapsed ≤ 5000) :
    (Wire.decodeWireFrame (.bytes wire) leg admission runtimeEpoch trusted cpu).isOk =
        (decodeWireFrame wire leg admission runtimeEpoch trusted elapsed).isSome ∧
      ∀ f g, Wire.decodeWireFrame (.bytes wire) leg admission runtimeEpoch trusted cpu = .ok f →
        decodeWireFrame wire leg admission runtimeEpoch trusted elapsed = some g → SameFrame f g :=
  ⟨isOk_decodeWireFrame hcpu helapsed, fun _ _ => sameFrame_of_decodeWireFrame hcpu helapsed⟩

/-- A `PONG` frame. -/
def pong : Bytes :=
  [65, 66, 87, 83, 1, 14, 0, 0, 0, 0, 0, 85, 0, 0, 0, 0, 0, 0, 0, 1, 0, 0, 0, 0, 123, 34, 112,
   114, 111, 116, 111, 99, 111, 108, 95, 118, 101, 114, 115, 105, 111, 110, 34, 58, 49, 44, 34,
   110, 111, 110, 99, 101, 34, 58, 34, 48, 49, 50, 51, 52, 53, 54, 55, 56, 57, 97, 98, 99, 100,
   101, 102, 34, 44, 34, 101, 99, 104, 111, 101, 100, 95, 115, 101, 110, 116, 95, 97, 116, 95,
   109, 111, 110, 111, 116, 111, 110, 105, 99, 95, 116, 105, 99, 107, 34, 58, 34, 55, 34, 125]

set_option maxRecDepth 100000 in
theorem decoders_agree_pong : (decodeWireFrame pong .apiToBrowser none none true 0).isSome = true ∧
      (Wire.decodeWireFrame (.bytes pong) .apiToBrowser none none true 0).isOk = true := by
  have hdecoded : (decodeWireFrame pong .apiToBrowser none none true 0).isSome = true := by
    decide
  have hagree := decoders_agree pong .apiToBrowser none none true (Nat.zero_le 5000000) (Nat.zero_le 5000)
  exact ⟨hdecoded, hagree.1.trans hdecoded⟩

end AgentBox.Web
