import AgentBox.Common.JsonFlat
import AgentBox.Common.Utf8
import AgentBox.Wire.Frame

/-!
# What `_json_bytes` accepts

No wire profile contains nested data, so the record of a payload is the one of a flat object: distinct
keys, at most 64 of them, and scalars that convert. Such an object passes the depth scan, which only
counts brackets outside of string literals, and it passes the second look of the outer frame's decoder.
-/

namespace AgentBox.Wire

open Option List Json

variable {m : CodePoints × Tree} {payload wire : Bytes} {key : CodePoints} {t : Tree}
    {name : String} {v : Scalar} {n : ℕ} {kind : FrameType} {leg : Leg} {admission : Option Record}
    {runtimeEpoch : Option Scalar} {trusted : Bool}

variable {members : List (CodePoints × Tree)} {r : Record}

/-! ## The depth scan over code points -/

namespace DepthScan

variable {text : CodePoints} {t : Tree} (d : DepthScan)

/-- The scan's step on a code point. -/
def nextPoint (c : ℕ) : Option DepthScan :=
  if d.quoted then
    if d.escaped then some { d with escaped := false }
    else if c = 92 then some { d with escaped := true }
    else if c = 34 then some { d with quoted := false }
    else some d
  else if c = 34 then some { d with quoted := true }
  else if c = 91 ∨ c = 123 then
    if d.depth + 1 > 16 then none else some { d with depth := d.depth + 1 }
  else if c = 93 ∨ c = 125 then some { d with depth := d.depth - 1 }
  else some d

/-- The scan over a text. -/
def through (s : CodePoints) : Option DepthScan := s.foldlM nextPoint d

/-- After a character beyond ASCII. -/
def beyond : DepthScan :=
  if d.quoted then { d with escaped := false } else d

theorem next_eq (b : UInt8) : d.next b = d.nextPoint b.toNat := by
  simp only [next, nextPoint, ← UInt8.toNat_inj, UInt8.reduceToNat]

theorem nextPoint_beyond {c : ℕ} (hc : 128 ≤ c) (d : DepthScan) : d.nextPoint c = some d.beyond := by
  obtain ⟨depth, quoted, escaped⟩ := d
  have hslash : c ≠ 92 := by omega
  have hquote : c ≠ 34 := by omega
  have hopen : ¬(c = 91 ∨ c = 123) := by omega
  have hclose : ¬(c = 93 ∨ c = 125) := by omega
  cases quoted <;> cases escaped <;> simp [nextPoint, beyond, hslash, hquote, hopen, hclose]

@[simp] theorem beyond_beyond : d.beyond.beyond = d.beyond := by
  obtain ⟨depth, quoted, escaped⟩ := d
  cases quoted <;> rfl

theorem through_beyond {w : Bytes} (hw : ∀ x ∈ w, 128 ≤ x.toNat) (d : DepthScan) :
    w.foldlM next d.beyond = some d.beyond := by
  induction w with
  | nil => rfl
  | cons b w ih =>
    obtain ⟨hb, hw⟩ := forall_mem_cons.mp hw
    rw [foldlM_cons, next_eq, nextPoint_beyond hb, beyond_beyond]
    exact ih hw

/-- The scan over the bytes is the scan over the text they encode. -/
theorem foldlM_next {payload : Bytes} (h : Utf8 payload text) (d : DepthScan) :
    payload.foldlM next d = d.through text := by
  induction h generalizing d with
  | nil => rfl
  | ascii hb _ ih => simp only [through, foldlM_cons, next_eq, ih]
  | multibyte hc hw _ ih =>
    obtain ⟨hb, hw⟩ := forall_mem_cons.mp hw
    simp [through, foldlM_cons, foldlM_append, next_eq, nextPoint_beyond hb, nextPoint_beyond hc, bind_eq_bind, through_beyond hw, ih]

/-! ## The depth scan over a flat object -/

/-- Outside of a literal. -/
abbrev outside (depth : ℤ) : DepthScan := ⟨depth, false, false⟩

/-- Inside of a literal. -/
abbrev inside (depth : ℤ) : DepthScan := ⟨depth, true, false⟩

variable {depth : ℤ} {s r : CodePoints}

theorem through_plain {w : CodePoints} (hw : ∀ c ∈ w, c ∉ delimiters) :
    (outside depth).through (w ++ s) = (outside depth).through s := by
  induction w with
  | nil => rfl
  | cons c w ih =>
    obtain ⟨hc, hw⟩ := forall_mem_cons.mp hw
    simp only [delimiters, mem_cons, not_mem_nil, or_false, not_or] at hc
    have hstep : (outside depth).nextPoint c = some (outside depth) := by
      simp [nextPoint, hc]
    rw [through, cons_append, foldlM_cons, hstep]
    exact ih hw

theorem through_skipSpace : (outside depth).through (skipSpace s) = (outside depth).through s := by
  have hspace : ∀ c ∈ s.takeWhile isSpace, c ∉ delimiters := by
    intro c hc hmem
    have := mem_takeWhile_imp hc
    simp only [delimiters, mem_cons, not_mem_nil, or_false] at hmem
    rcases hmem with rfl | rfl | rfl | rfl | rfl <;> cases this
  rw [← through_plain hspace (s := skipSpace s), skipSpace, takeWhile_append_dropWhile]

theorem through_closing {body : CodePoints} (h : closing s = some (body, r)) :
    (inside depth).through s = (outside depth).through r := by
  fun_induction closing s generalizing body with
  | case1 => cases h
  | case2 s => cases h; rfl
  | case3 => cases h
  | case4 c s ih =>
    obtain ⟨⟨body, r⟩, hbody, heq⟩ := map_eq_some_iff.mp h
    cases heq
    exact ih hbody
  | case5 c s hquote hlast hslash ih =>
    obtain ⟨⟨body, r⟩, hbody, heq⟩ := map_eq_some_iff.mp h
    cases heq
    have hstep : (inside depth).nextPoint c = some (inside depth) := by
      have hplain : c ≠ 92 := fun hc => by
        cases s with
        | nil => exact hlast hc rfl
        | cons e s => exact hslash e s hc rfl
      simpa [nextPoint, hplain] using hquote
    rw [through, foldlM_cons, hstep]
    exact ih hbody

theorem through_scanString {x : CodePoints} (h : scanString 0 s = some (x, r)) :
    (outside depth).through (34 :: s) = (outside depth).through r := by
  obtain ⟨body, hbody, -⟩ := scanString_iff.mp h
  exact through_closing hbody

theorem through_scanScalar (h : scanScalar s = some (t, r)) :
    (outside depth).through s = (outside depth).through r := by
  unfold scanScalar at h
  split at h
  · obtain ⟨⟨x, r⟩, hx, heq⟩ := map_eq_some_iff.mp h
    cases heq
    exact through_scanString hx
  · cases h
  · cases h
  · obtain ⟨w, rfl, hw⟩ := scanAtom_eq h
    exact through_plain hw

theorem through_scanMember {key : CodePoints} (h : scanMember scanScalar s = some ((key, t), r)) :
    (outside depth).through s = (outside depth).through r := by
  obtain ⟨s₁, s₂, s₃, rfl, hkey, hcolon, hvalue⟩ := scanMember_eq_some_iff.mp h
  calc (outside depth).through (34 :: s₁)
    _ = (outside depth).through (58 :: s₃) := by
        rw [through_scanString hkey, ← through_skipSpace, hcolon]
    _ = (outside depth).through (skipSpace s₃) := (through_skipSpace (s := s₃)).symm
    _ = (outside depth).through r := through_scanScalar hvalue

/-- The members of an object and its closing brace leave its depth. -/
theorem through_listed {members : List (CodePoints × Tree)} (h : Listed s members r) :
    (outside depth).through s = (outside (depth - 1)).through r := by
  induction h with
  | last hmember hclose =>
    rw [through_scanMember hmember, ← through_skipSpace, hclose]
    rfl
  | @cons s u v r key t members hmember hcomma hrest ih =>
    calc (outside depth).through s
      _ = (outside depth).through (44 :: v) := by
          rw [through_scanMember hmember, ← through_skipSpace, hcomma]
      _ = (outside depth).through (skipSpace v) := (through_skipSpace (s := v)).symm
      _ = (outside (depth - 1)).through r := ih

theorem through_flat {members : List (CodePoints × Tree)} (h : Flat text members) :
    (outside 0).through text = some (outside 0) := by
  obtain ⟨s, r, htext, hbraced, hend⟩ := h
  have hmembers : (outside 1).through s = (outside 0).through r := by
    cases hbraced with
    | empty hclose =>
      rw [← through_skipSpace, hclose]
      rfl
    | listed hrest => rw [← through_skipSpace, through_listed hrest]; rfl
  calc (outside 0).through text
    _ = (outside 0).through (123 :: s) := by rw [← through_skipSpace, htext]
    _ = (outside 0).through r := hmembers
    _ = some (outside 0) := by rw [← through_skipSpace, hend]; rfl

end DepthScan

/-! ## Members -/

/-- The value of a member converts, and its key is text. -/
def memberAccepted (m : CodePoints × Tree) : Bool :=
  !m.1.any isSurrogate && (scalarMember m.1 m.2).isSome

/-- One member added to a record. -/
def addMember (record : Record) (m : CodePoints × Tree) : Option Record :=
  if m.1.any isSurrogate then none
  else (scalarMember m.1 m.2).map (record.set (String.ofList m.1.chars) ·)

theorem toRecord_eq (members : List (CodePoints × Tree)) :
    toRecord members = members.foldlM addMember .empty := rfl

theorem isSome_addMember (record : Record) (m : CodePoints × Tree) :
    (addMember record m).isSome = memberAccepted m := by
  unfold addMember memberAccepted
  split <;> simp_all

theorem isSome_foldlM_addMember (members : List (CodePoints × Tree)) (record : Record) :
    (members.foldlM addMember record).isSome = members.all memberAccepted := by
  induction members generalizing record with
  | nil => rfl
  | cons m members ih =>
    rw [foldlM_cons, all_cons, ← isSome_addMember record m]
    cases addMember record m with
    | none => rfl
    | some record => simpa using ih record

theorem memberAccepted_of_toRecord (h : toRecord members = some r) :
    ∀ m ∈ members, memberAccepted m = true := by
  rw [toRecord_eq] at h
  have := isSome_foldlM_addMember members .empty
  rw [h] at this
  simpa using this.symm

theorem isScalar_of_memberAccepted (h : memberAccepted m = true) : m.2.isScalar = true := by
  obtain ⟨key, t⟩ := m
  cases t <;> simp_all [memberAccepted, scalarMember, Tree.isScalar]

theorem countPairsMembers_of_accepted (h : ∀ m ∈ members, memberAccepted m = true) (count : ℕ) :
    countPairsMembers members count = some count := by
  induction members with
  | nil => rfl
  | cons m members ih =>
    obtain ⟨hm, hrest⟩ := forall_mem_cons.mp h
    obtain ⟨key, t⟩ := m
    have hitem : countPairs t count = some count := by
      cases t <;> simp_all [memberAccepted, scalarMember, countPairs]
    rw [countPairsMembers, hitem]
    exact ih hrest

theorem memberConverts_of_accepted (h : memberAccepted m = true) : memberConverts m = true := by
  obtain ⟨key, t⟩ := m
  cases t <;> simp_all [memberAccepted, scalarMember, memberConverts]

/-- The hooks accept the members of a record when there are not too many and no two share a key. -/
theorem countPairs_isNone (h : ∀ m ∈ members, memberAccepted m = true) :
    (countPairs (.object members) 0).isNone = false ↔ (members.map Prod.fst).Nodup ∧ members.length ≤ 64 := by
  have hconverts : members.all memberConverts = true :=
    all_eq_true.mpr fun m hm => memberConverts_of_accepted (h m hm)
  rw [countPairs, countPairsMembers_of_accepted h, bind_some, hconverts]
  by_cases hlength : members.length ≤ 64
  · by_cases hnodup : (members.map Prod.fst).Nodup
    · simp [hlength, hnodup]
    · simp [hlength, hnodup]
  · simp [hlength, Nat.not_le.mp hlength]

/-- The flat object that a payload is. -/
structure FlatPayload (payload : Bytes) (members : List (CodePoints × Tree)) (r : Record) : Prop where
  pos : 1 ≤ payload.length
  length_le : payload.length ≤ 4096
  text : ∃ text, decodeUtf8 0 payload = some text ∧ Flat text members
  nodup : (members.map Prod.fst).Nodup
  few : members.length ≤ 64
  record : toRecord members = some r

theorem jsonBytes_iff : jsonBytes payload = .ok r ↔ ∃ members, FlatPayload payload members r := by
  constructor
  · intro h
    unfold jsonBytes at h
    split at h
    · cases h
    next hlength =>
    split at h
    · cases h
    split at h
    · next members hloads =>
      split at h
      · cases h
      next hcount =>
      split at h
      · next r' hrecord =>
        cases h
        have haccepted := memberAccepted_of_toRecord hrecord
        obtain ⟨hnodup, hfew⟩ := (countPairs_isNone haccepted).mp (Bool.eq_false_iff.mpr hcount)
        obtain ⟨text, htext, hloads⟩ := bind_eq_some_iff.mp hloads
        exact ⟨members, {
          pos := by omega
          length_le := by omega
          text := ⟨text, htext, loads_eq_object_iff.mp
            ⟨hloads, fun m hm => isScalar_of_memberAccepted (haccepted m hm)⟩⟩
          nodup := hnodup
          few := hfew
          record := hrecord }⟩
      · cases h
    · cases h
  · rintro ⟨members, hpos, hlength, ⟨text, htext, hflat⟩, hnodup, hfew, hrecord⟩
    have hscan : payload.foldlM DepthScan.next ⟨0, false, false⟩ = some ⟨0, false, false⟩ := by
      rw [DepthScan.foldlM_next (utf8_of_decodeUtf8 htext)]
      exact DepthScan.through_flat hflat
    have hcount := (countPairs_isNone (memberAccepted_of_toRecord hrecord)).mpr ⟨hnodup, hfew⟩
    unfold jsonBytes
    rw [if_neg (by omega), hscan, htext, bind_some, (loads_eq_object_iff.mpr hflat).1]
    simp [hcount, hrecord]

/-! ## The second look -/

theorem hooksAcceptMembers_of_accepted (h : ∀ m ∈ members, memberAccepted m = true) :
    hooksAcceptMembers members = true := by
  induction members with
  | nil => rfl
  | cons m members ih =>
    obtain ⟨hm, hrest⟩ := forall_mem_cons.mp h
    obtain ⟨key, t⟩ := m
    have hitem : hooksAccept t = true := by
      cases t <;> simp_all [memberAccepted, scalarMember, hooksAccept]
    rw [hooksAcceptMembers, hitem, ih hrest]
    rfl

theorem validateJsonValue_of_accepted (h : memberAccepted (key, t) = true) (count : ℕ) :
    validateJsonValue t 1 count = some count := by
  cases t <;> simp_all [memberAccepted, scalarMember, validateJsonValue, validateText, maxJsonDepth]

theorem validateJsonMembers_of_accepted {count : ℕ} (h : ∀ m ∈ members, memberAccepted m = true)
    (hfew : count + members.length ≤ 64) :
    validateJsonMembers members 1 count = some (count + members.length) := by
  induction members generalizing count with
  | nil => rfl
  | cons m members ih =>
    obtain ⟨hm, hrest⟩ := forall_mem_cons.mp h
    obtain ⟨key, t⟩ := m
    rw [length_cons] at hfew
    have hkey : validateText key 1 = true := by
      simp_all [memberAccepted, validateText, maxJsonDepth]
    rw [validateJsonMembers, if_neg (by simp only [maxJsonKeys]; omega), hkey,
      validateJsonValue_of_accepted hm]
    simp only [Bool.not_true, Bool.false_eq_true, if_false, bind_some]
    rw [ih hrest (by omega), length_cons]
    congr 1
    omega

theorem mem_of_foldlM_addMember {record : Record} (h : members.foldlM addMember record = some r)
    (hv : r.get? name = some v) : record.get? name = some v ∨
      ∃ m ∈ members, String.ofList m.1.chars = name ∧ scalarMember m.1 m.2 = some v := by
  induction members generalizing record with
  | nil =>
    cases h
    exact .inl hv
  | cons m members ih =>
    rw [foldlM_cons] at h
    obtain ⟨record', hadd, h⟩ := bind_eq_some_iff.mp h
    rcases ih h with hrecord | ⟨m', hm', hname⟩
    · unfold addMember at hadd
      split at hadd
      · cases hadd
      obtain ⟨w, hw, rfl⟩ := map_eq_some_iff.mp hadd
      rw [Dict.get?_set] at hrecord
      split at hrecord
      · next heq =>
        cases hrecord
        exact .inr ⟨m, mem_cons_self, heq.symm, hw⟩
      · exact .inl hrecord
    · exact .inr ⟨m', mem_cons_of_mem _ hm', hname⟩

/-- A field of a record is a member of the object. -/
theorem mem_of_toRecord (h : toRecord members = some r) (hv : r.get? name = some v) :
    ∃ m ∈ members, m.1.chars = name.toList ∧ scalarMember m.1 m.2 = some v := by
  rcases mem_of_foldlM_addMember h hv with habsurd | ⟨m, hm, hname, hvalue⟩
  · cases habsurd
  · exact ⟨m, hm, by rw [← hname, String.toList_ofList], hvalue⟩

theorem eq_toNat_of_ofNat {c : Char} (h : Char.ofNat n = c) (hc : c.toNat ≠ 0) : n = c.toNat := by
  subst h
  by_cases hvalid : n.isValidChar
  · rw [Char.ofNat, dif_pos hvalid]
    rfl
  · rw [Char.ofNat, dif_neg hvalid] at hc
    exact absurd rfl hc

/-- Only one key reads as a text without null characters. -/
theorem eq_of_chars_eq {cs : List Char} (h : key.chars = cs) (hcs : cs.all (·.toNat != 0) = true) :
    key = cs.map Char.toNat := by
  induction key generalizing cs with
  | nil =>
    subst h
    rfl
  | cons n key ih =>
    subst h
    obtain ⟨hc, hrest⟩ := Bool.and_eq_true_iff.mp hcs
    have hc : (Char.ofNat n).toNat ≠ 0 := bne_iff_ne.mp hc
    rw [CodePoints.chars, map_cons, map_cons, ← eq_toNat_of_ofNat rfl hc]
    exact congrArg _ (ih rfl hrest)

theorem lookup_of_mem (hnodup : (members.map Prod.fst).Nodup) (h : (key, t) ∈ members) :
    members.lookup key = some t := by
  induction members with
  | nil => cases h
  | cons m members ih =>
    obtain ⟨key', t'⟩ := m
    obtain ⟨hfresh, hnodup⟩ := nodup_cons.mp hnodup
    rcases mem_cons.mp h with heq | hmem
    · cases heq
      simp
    · have hne : key ≠ key' := by
        rintro rfl
        exact hfresh (mem_map.mpr ⟨(key, t), hmem, rfl⟩)
      rw [lookup_cons, beq_false_of_ne hne]
      exact ih hnodup hmem

/-- The outer decoder accepts the payload of a record of protocol version 1. -/
theorem decodeJson_of_flat (h : FlatPayload payload members r)
    (hversion : r.get? "protocol_version" = some (.int 1)) : decodeJson payload = .ok members := by
  obtain ⟨hpos, hlength, ⟨text, htext, hflat⟩, hnodup, hfew, hrecord⟩ := h
  have haccepted := memberAccepted_of_toRecord hrecord
  have hone : (members.lookup protocolVersionKey).any isOne = true := by
    obtain ⟨⟨key, t⟩, hm, hkey, hvalue⟩ := mem_of_toRecord hrecord hversion
    obtain rfl : key = protocolVersionKey := eq_of_chars_eq hkey (by decide)
    rw [lookup_of_mem hnodup hm]
    cases t with
    | number token =>
      obtain ⟨n, hn, -⟩ := map_eq_some_iff.mp hvalue
      simp only [memberInteger, true_or, true_and] at hn
      split at hn
      · cases hn
      · next htoken => simpa [isOne] using htoken
    | string s =>
      simp only [scalarMember] at hvalue
      split at hvalue <;> cases hvalue
    | null | bool | constant | array | object => cases hvalue
  have hhooks : hooksAccept (.object members) = true := by
    rw [hooksAccept, hooksAcceptMembers_of_accepted haccepted]
    simpa using hnodup
  have hvalues : validateJsonValue (.object members) 0 0 = some members.length := by
    rw [validateJsonValue, if_neg (by decide), validateJsonMembers_of_accepted haccepted (by omega),
      Nat.zero_add]
  unfold decodeJson
  rw [if_neg (by omega), htext, bind_some, (loads_eq_object_iff.mpr hflat).1]
  simp [hhooks, hvalues, hone]

/-! ## Frames -/

/-- What the 24 bytes before a payload have to say. -/
structure Framed (wire : Bytes) : Prop where
  magic : wire.slice 0 4 = [65, 66, 87, 83]
  version : wire.field 4 1 = 1
  flags : wire.field 6 2 = 0
  reserved : wire.field 20 4 = 0
  length : headerSize + wire.field 8 4 = wire.length
  hop : 1 ≤ wire.field 12 8

theorem validateHeader_eq_ok_iff {header : AbwsHeader} {u : Unit} : validateHeader header = .ok u ↔
    header.version = 1 ∧ header.flags = 0 ∧ header.reserved = 0 ∧ header.payloadLength ≤ maxPayload := by
  unfold validateHeader
  split
  · next h => simp [h]
  split
  · next h => simp [h]
  split
  · next h => simp [h]
  split
  · next h => simp [Nat.not_le.mpr h]
  · simp_all

/-- What the outer decoder accepts. -/
theorem decodeFrame_iff {hop : ℕ} (hkind : FrameType.ofValue (wire.field 5 1) = some kind)
    (hlength : headerSize ≤ wire.length) (hmax : wire.length ≤ headerSize + maxPayload) :
    (∃ frame, decodeFrame wire = .ok frame ∧ frame.hopSequence = hop) ↔ Framed wire ∧ hop = wire.field 12 8 ∧
        (kind.isOpaque = false → (decodeJson (wire.drop headerSize)).isOk) := by
  have hraw : FrameType.ofValue (unpackHeader wire).rawType = some kind := hkind
  have hlengthField : (unpackHeader wire).payloadLength = wire.field 8 4 := rfl
  have hhopField : (unpackHeader wire).hopSequence = wire.field 12 8 := rfl
  unfold decodeFrame
  simp only [hraw, throw_or_eq_ok_iff, bind_eq_ok_iff, validateHeader_eq_ok_iff]
  constructor
  · rintro ⟨frame, ⟨-, hmagic, ⟨⟩, ⟨hversion, hflags, hreserved, -⟩, hshort, hlong, hhop, h⟩, rfl⟩
    refine ⟨⟨not_not.mp hmagic, hversion, hflags, hreserved, by omega, by omega⟩, ?_⟩
    split at h
    · next hsealed =>
      cases h
      exact ⟨rfl, fun hopen => absurd (hsealed.symm.trans hopen) nofun⟩
    · obtain ⟨members, hmembers, h⟩ := bind_eq_ok_iff.mp h
      cases h
      exact ⟨rfl, fun _ => by rw [hmembers]; rfl⟩
  · rintro ⟨⟨hmagic, hversion, hflags, hreserved, hpayload, hhop⟩, rfl, hjson⟩
    have hheader : ¬ wire.length < headerSize := by omega
    cases hsealed : kind.isOpaque with
    | true =>
      exact ⟨_, ⟨hheader, not_not.mpr hmagic, ⟨⟩, ⟨hversion, hflags, hreserved, by omega⟩, by omega,
        by omega, by omega, rfl⟩, rfl⟩
    | false =>
      cases hmembers : decodeJson (wire.drop headerSize) with
      | error e =>
        have := hjson hsealed
        rw [hmembers] at this
        cases this
      | ok members =>
        exact ⟨_, ⟨hheader, not_not.mpr hmagic, ⟨⟩, ⟨hversion, hflags, hreserved, by omega⟩, by omega,
          by omega, by omega, rfl⟩, rfl⟩

theorem ofValue_of_profile (h : profile n leg = .ok kind) : FrameType.ofValue n = some kind := by
  unfold profile at h
  split at h
  · next frameType hvalue =>
    split at h
    · cases h; exact hvalue
    · cases h
  · cases h

/-- Every profile asks for protocol version 1. -/
theorem version_of_validatePayload {payload : Payload}
    (h : validatePayload kind leg (.record r) admission runtimeEpoch trusted = .ok payload) :
    r.get? "protocol_version" = some (.int 1) := by
  unfold validatePayload at h
  split at h
  · cases h
  split at h
  · next rules r' hrules heq =>
    cases heq
    split at h
    · next hchecks =>
      obtain ⟨body, -, rfl⟩ := map_eq_some_iff.mp hrules
      simp only [recordMatches, Bool.and_eq_true, all_cons] at hchecks
      have hone := hchecks.1.1.1.1.2.1
      cases hv : r.get? "protocol_version" with
      | none => rw [hv] at hone; cases hone
      | some v =>
        rw [hv] at hone
        cases v with
        | int n =>
          simp only [any_some, Rule.check, scalarMatches, Rule.decimalBounds,
            Rule.integerBounds, decide_eq_true_eq] at hone
          obtain rfl : n = 1 := by omega
          rfl
        | null | bool | str => cases hone
    · cases h
  · cases h

/-- The frame that `decode_wire_frame` returns. -/
def frameOf (wire : Bytes) (leg : Leg) (kind : FrameType) (payload : Payload) : WireFrame where
  frameType := kind
  leg := leg
  hopSequence := wire.field 12 8
  payload := wire.drop headerSize
  json := payload.json
  wire := wire

/-- What `decode_wire_frame` accepts within its budget. -/
theorem decodeWireFrame_iff {cpu : ℕ} {f : WireFrame} (hcpu : cpu ≤ 5000000) :
    decodeWireFrame (.bytes wire) leg admission runtimeEpoch trusted cpu = .ok f ↔
      (headerSize ≤ wire.length ∧ wire.length ≤ 65536 ∧ Framed wire) ∧
        ∃ kind payload, profile (wire.field 5 1) leg = .ok kind ∧
          payloadOf kind (wire.drop headerSize) = .ok payload ∧
          validatePayload kind leg payload admission runtimeEpoch trusted = .ok payload ∧
          f = frameOf wire leg kind payload := by
  constructor
  · intro h
    unfold decodeWireFrame at h
    obtain ⟨wire', hwire, h₁⟩ := bind_eq_ok_iff.mp h
    obtain ⟨kind, hkind, h₂⟩ := bind_eq_ok_iff.mp h₁
    obtain ⟨payload, hpayload, h₃⟩ := bind_eq_ok_iff.mp h₂
    obtain ⟨frame, hframe, h₄⟩ := bind_eq_ok_iff.mp h₃
    obtain ⟨validated, hvalidated, h₅⟩ := bind_eq_ok_iff.mp h₄
    simp only [Raw.wire] at hwire
    split at hwire
    · next hlength =>
      cases hwire
      rw [if_neg (by omega)] at h₅
      obtain rfl := (validatePayload_ok hvalidated).1
      have hdecoded : decodeFrame wire = .ok frame := by
        cases hd : decodeFrame wire with
        | ok frame' => rw [hd] at hframe; cases hframe; rfl
        | error e => rw [hd] at hframe; cases hframe
      obtain ⟨hframed, hhop, -⟩ := (decodeFrame_iff (ofValue_of_profile hkind) hlength.1
        (by simp only [headerSize, maxPayload]; omega)).mp ⟨frame, hdecoded, rfl⟩
      cases h₅
      exact ⟨⟨hlength.1, hlength.2, hframed⟩, kind, validated, hkind, hpayload, hvalidated, by
        rw [frameOf, ← hhop]; rfl⟩
    · cases hwire
  · rintro ⟨⟨hlength, hmax, hframed⟩, kind, payload, hkind, hpayload, hvalidated, rfl⟩
    have hjson : kind.isOpaque = false → (decodeJson (wire.drop headerSize)).isOk := by
      intro hopen
      simp only [payloadOf, hopen, Bool.false_eq_true, if_false] at hpayload
      cases hr : jsonBytes (wire.drop headerSize) with
      | error e => rw [hr] at hpayload; cases hpayload
      | ok r =>
        rw [hr] at hpayload
        cases hpayload
        obtain ⟨members, hflat⟩ := jsonBytes_iff.mp hr
        rw [decodeJson_of_flat hflat (version_of_validatePayload hvalidated)]
        rfl
    obtain ⟨frame, hframe, hhop⟩ := (decodeFrame_iff (ofValue_of_profile hkind) hlength
      (by simp only [headerSize, maxPayload]; omega)).mpr ⟨hframed, rfl, hjson⟩
    have hwire : (Raw.bytes wire).wire = some wire := if_pos ⟨hlength, hmax⟩
    unfold decodeWireFrame
    refine bind_eq_ok_iff.mpr ⟨wire, by rw [hwire]; rfl, bind_eq_ok_iff.mpr ⟨kind, hkind,
      bind_eq_ok_iff.mpr ⟨payload, hpayload, bind_eq_ok_iff.mpr ⟨frame, by rw [hframe]; rfl,
      bind_eq_ok_iff.mpr ⟨payload, hvalidated, ?_⟩⟩⟩⟩⟩
    rw [if_neg (by omega), hhop]
    rfl

end AgentBox.Wire
