import AgentBox.Common.Lockstep
import AgentBox.Web.Session

/-!
# The sessions of the server and of the browser agree

`Matches` relates a state of the server's session to one of the browser's: all counters, sets and
queues are equal, and the frames they keep are the same up to the order of record fields. Every check
of one session passes exactly when the check of the other does, and every update keeps the relation, so
`lockstep_accept` holds for one event and `answers_eq` carries it to every transcript.
-/

namespace AgentBox.Web

open List Wire

variable {cpu : ℕ} {names : List String} {e : WireFrame} {q bound : Record} {ι α : Type}
  {f : WireFrame} {r r' : Record}

/-! ## Frames and records -/

/-- The record of a frame has exactly the fields of its profile. -/
def Profiled (f : WireFrame) : Prop :=
  ∀ rules, Wire.schema f.frameType f.leg = some rules →
    ∃ r, f.json = some r ∧ r.hasExactly (rules.map Prod.fst) = true

theorem profiled_of_decodeWireFrame {wire : Bytes} {leg : Leg} {admission : Option Record}
    {runtimeEpoch : Option Scalar} {trusted : Bool} (hcpu : cpu ≤ 5000000)
    (h : Wire.decodeWireFrame (.bytes wire) leg admission runtimeEpoch trusted cpu = .ok f) : Profiled f := by
  obtain ⟨-, kind, payload, -, -, hvalid, rfl⟩ := (Wire.decodeWireFrame_iff hcpu).mp h
  intro rules hrules
  have hrules : Wire.schema kind leg = some rules := hrules
  unfold Wire.validatePayload at hvalid
  split at hvalid
  · next hsealed =>
    -- an encrypted record has no profile
    rcases isOpaque_iff.mp hsealed with rfl | rfl
    · exact nomatch (hrules : none = some rules)
    · exact nomatch (hrules : none = some rules)
  · rw [hrules] at hvalid
    cases payload with
    | bytes b => cases hvalid
    | record r =>
      dsimp only at hvalid
      split at hvalid
      · next hchecks =>
        simp only [recordMatches, Bool.and_eq_true] at hchecks
        exact ⟨r, rfl, hchecks.1.1.1.1.1⟩
      · cases hvalid

/-- The fields in which a frame repeats an earlier one. -/
def repeated : List (FrameType × List String) :=
  [(.runtimeHello, ["resume_cursor", "previous_runtime_epoch"]), (.streamReadyAck, ["output_cursor"]),
   (.admitted, ["output_cursor"]), (.admissionCommit, ["admission_fence"]),
   (.detachAck, ["result", "cleanup_state", "reason_code"])]

theorem schema_repeated : ∀ e ∈ repeated,
    ∀ leg ∈ [Leg.browserToApi, .apiToBrowser, .apiToRuntime, .runtimeToApi],
      (Wire.schema e.1 leg).any (fun rules => e.2.all ((rules.map Prod.fst).contains ·)) = true := by
  decide

theorem mem_legs (leg : Leg) : leg ∈ [Leg.browserToApi, .apiToBrowser, .apiToRuntime, .runtimeToApi] := by
  cases leg <;> simp

/-- A decoded frame has the fields in which it repeats an earlier one. -/
theorem Profiled.isSome_field (h : Profiled f) (hrepeated : (f.frameType, names) ∈ repeated)
    {name : String} (hname : name ∈ names) : (f.field name).isSome = true := by
  obtain ⟨rules, hrules, hall⟩ :=
    (Option.any_eq_true _ _).mp (schema_repeated _ hrepeated f.leg (mem_legs f.leg))
  obtain ⟨r, hjson, hexact⟩ := h rules hrules
  rw [WireFrame.field, hjson, Option.bind_some]
  have hlisted := contains_iff_mem.mp (all_eq_true.mp hall name hname)
  exact (hasExactly_iff.mp hexact name).mpr hlisted

/-- Records of one profile have the same fields. -/
theorem Profiled.mem_iff (hf : Profiled f) (he : Profiled e)
    (hsame : Wire.schema f.frameType f.leg = Wire.schema e.frameType e.leg)
    (hsome : (Wire.schema e.frameType e.leg).isSome = true) (hr : f.json = some r)
    (hq : e.json = some q) (k : String) : k ∈ r ↔ k ∈ q := by
  obtain ⟨rules, hrules⟩ := Option.isSome_iff_exists.mp hsome
  obtain ⟨_, hr', hrexact⟩ := hf rules (hsame.trans hrules)
  obtain ⟨_, hq', hqexact⟩ := he rules hrules
  cases hr.symm.trans hr'
  cases hq.symm.trans hq'
  rw [hasExactly_iff.mp hrexact, hasExactly_iff.mp hqexact]

/-- For records with the same fields, it is enough to compare the fields of one. -/
theorem same_eq {q' : Record} (hfields : ∀ k, k ∈ r ↔ k ∈ q) (hr : Copies r r') (hq : Copies q q') :
    r.same q = !(q'.keys.any fun k => q'.get? k != r'.get? k) := by
  rw [Bool.eq_iff_iff, Dict.same_iff, Bool.not_eq_true', any_eq_false]
  constructor
  · intro heq k _
    rw [hq k, hr k, heq k]
    simp
  · intro heq k
    by_cases hk : k ∈ q
    · have hboth := heq k (Dict.mem_iff_mem_keys.mp ((hq.mem_iff k).mpr hk))
      rw [bne_iff_ne, not_not, hq k, hr k] at hboth
      exact hboth.symm
    · rw [Dict.not_mem_iff.mp hk, Dict.not_mem_iff.mp fun hmem => hk ((hfields k).mp hmem)]

namespace SameFrame

variable {f g : WireFrame} (h : SameFrame f g)
include h

/-- The records of the two frames. -/
theorem rel_json : Option.Rel Copies f.json g.json := by
  have hjson := h.json
  generalize f.json = json, g.json = json' at hjson
  cases json <;> cases json'
  case none.none => exact .none
  case some.some => exact .some hjson
  all_goals exact hjson.elim

theorem field (name : String) : g.field name = f.field name :=
  bind_eq_of_rel h.rel_json fun _ _ hcopies => hcopies name

/-- Two frames of a kind with a profile have records. -/
theorem exists_json (hprofiled : Profiled f) (hschema : (Wire.schema f.frameType f.leg).isSome = true) :
    ∃ r r', f.json = some r ∧ g.json = some r' ∧ Copies r r' := by
  obtain ⟨rules, hrules⟩ := Option.isSome_iff_exists.mp hschema
  obtain ⟨r, hf, -⟩ := hprofiled rules hrules
  have hjson := h.rel_json
  rw [hf] at hjson
  generalize hg : g.json = json at hjson
  cases hjson with
  | some hcopies => exact ⟨r, _, hf, rfl, hcopies⟩

theorem withReplay : SameFrame { f with replay := true } { g with replay := true } :=
  { h with replay := rfl }

end SameFrame

/-- Two dictionaries hold the same frames under the same keys. -/
def SameFrames {κ : Type} [DecidableEq κ] (d d' : Dict κ WireFrame) : Prop :=
  ∀ k, Option.Rel SameFrame (d.get? k) (d'.get? k)

namespace SameFrames

variable {κ : Type} [DecidableEq κ] {d d' : Dict κ WireFrame}

theorem empty : SameFrames (.empty : Dict κ WireFrame) .empty := fun _ => .none

theorem set (h : SameFrames d d') (k : κ) {f g : WireFrame} (hframe : SameFrame f g) :
    SameFrames (d.set k f) (d'.set k g) := by
  intro j
  rw [Dict.get?_set, Dict.get?_set]
  split
  · exact .some hframe
  · exact h j

theorem mem_iff (h : SameFrames d d') (k : κ) : k ∈ d' ↔ k ∈ d := by
  rw [Dict.mem_def, Dict.mem_def, isSome_eq_of_rel (h k)]

theorem length_pos_iff (h : SameFrames d d') : d'.length > 0 ↔ d.items ≠ [] := by
  have hkeys : ∀ e : Dict κ WireFrame, e.items ≠ [] ↔ ∃ k, k ∈ e := by
    intro e
    simp only [Dict.mem_iff_mem_keys, Dict.keys]
    cases e.items <;> simp
  rw [Dict.length, gt_iff_lt, List.length_pos_iff, hkeys, hkeys]
  simp only [h.mem_iff]

end SameFrames

/-! ## The relation -/

/-- The server's session and the browser's are in the same state. -/
structure Matches {ι : Type} (s : Wire.WireSession ι) (t : WireSession ι) : Prop where
  admission : Copies s.admission t.admission
  runtimeEpoch : t.runtimeEpoch = s.runtimeEpoch
  streamId : t.streamId = s.streamId
  started : t.started = s.started
  lastNow : t.lastNow = s.lastNow
  next : t.next = s.next
  seen : SameFrames s.seen t.seen
  terminal : t.terminal = s.terminal
  mustClose : t.mustClose = s.mustClose
  crypto : t.crypto = s.crypto
  cursor : t.cursor = s.cursor
  retries : t.retries = s.retries
  detachAt : t.detachAt = s.detachAt
  detach : SameFrames s.detach t.detach
  exits : SameFrames s.exits t.exits
  exits_profiled : ∀ leg f, s.exits.get? leg = some f → f.frameType = .exit ∧ Profiled f
  pending : t.pending = s.pending
  pendingBytes : t.pendingBytes = s.pendingBytes
  failed : t.failed = s.failed
  closed : t.closed = s.closed

theorem matches_fresh (h : Copies r r') (epoch : Scalar) (streamId : ι) (startedAt : ℤ) :
    Matches (.fresh r epoch streamId startedAt) (.fresh r' epoch streamId startedAt) where
  admission := h
  runtimeEpoch := rfl
  streamId := rfl
  started := rfl
  lastNow := rfl
  next := rfl
  seen := .empty
  terminal := rfl
  mustClose := rfl
  crypto := rfl
  cursor := rfl
  retries := rfl
  detachAt := rfl
  detach := .empty
  exits := .empty
  exits_profiled := nofun
  pending := rfl
  pendingBytes := rfl
  failed := rfl
  closed := rfl

/-- Both checks pass, or neither. -/
abbrev SameCheck (x : Except WireError Unit) (y : Option Unit) : Prop :=
  Lockstep (fun _ _ => True) x y

theorem sameCheck_ok : SameCheck (.ok ()) (some ()) := .ok trivial

theorem sameCheck_ensure {c d : Bool} (h : c = !d) :
    SameCheck (Wire.WireSession.ensure c) (WireSession.failIf d) := by
  subst h
  cases d
  · exact .ok trivial
  · exact .error

theorem sameCheck_rest {x : Except WireError Unit} {y : Option Unit} (h : SameCheck x y) :
    SameCheck x (y.bind fun _ => some ()) := by
  cases h with
  | ok h => exact .ok h
  | error => exact .error

theorem not_decide_ge (a b : ℤ) : (!decide (a ≥ b)) = decide (a < b) := by
  rw [← decide_not, decide_eq_decide, ge_iff_le, not_le]

theorem lockstep_orRaise {β : Type} {R : α → β → Prop} {x : Option α} {y : Option β}
    {e : WireError} (h : Option.Rel R x y) : Lockstep R (orRaise x e) y := by
  cases h with
  | some h => exact .ok h
  | none => exact .error

/-- An earlier frame has the values of the new one under these names. The server looks them up in both
records, the browser in the two records it has made sure of. -/
theorem sameCheck_agrees {e' : WireFrame} (hprofiled : Profiled f) (hjson : f.json = some r)
    (hcopies : Copies r r') (hrepeated : (f.frameType, names) ∈ repeated) (hnames : names ≠ [])
    (he : SameFrame e e') : SameCheck (Wire.WireSession.ensure (names.all (f.agrees e)))
      (e'.json >>= fun record =>
        WireSession.failIf (names.any fun name => r'.get? name != record.get? name)) := by
  have hagrees : names.all (f.agrees e) =
      names.all fun name => r.get? name == e.json.bind (·.get? name) := by
    rw [Bool.eq_iff_iff, all_eq_true, all_eq_true]
    refine forall₂_congr fun name hname => ?_
    rw [WireFrame.agrees, hprofiled.isSome_field hrepeated hname, Bool.true_and, WireFrame.field,
      hjson, Option.bind_some]
    rfl
  rw [hagrees]
  have hearlier := he.rel_json
  generalize e.json = earlier at hearlier ⊢
  generalize e'.json = earlier' at hearlier ⊢
  cases hearlier with
  | none =>
    -- the server finds a value in the new record and none in the missing one
    obtain ⟨name, hname⟩ := exists_mem_of_ne_nil names hnames
    have hsome := hprofiled.isSome_field hrepeated hname
    rw [WireFrame.field, hjson, Option.bind_some] at hsome
    have hbad : (names.all fun name => r.get? name == none) = false := by
      refine all_eq_false.mpr ⟨name, hname, ?_⟩
      obtain ⟨v, hv⟩ := Option.isSome_iff_exists.mp hsome
      simp [hv]
    rw [show (names.all fun name => r.get? name == none.bind fun x => Dict.get? x name) = false
      from hbad]
    exact .error
  | some hearlier =>
    refine sameCheck_ensure ?_
    rw [not_any_eq_all_not]
    refine all_congr rfl fun name => ?_
    rw [Option.bind_some, hcopies name, hearlier name, bne, Bool.not_not]

/-- Two checks in one are two in a row. -/
theorem ensure_and (a b : Bool) (rest : Unit → Except WireError α) :
    (Wire.WireSession.ensure (a && b) >>= rest) =
      (Wire.WireSession.ensure a >>= fun _ => Wire.WireSession.ensure b >>= rest) := by
  cases a <;> rfl

theorem lockstep_decodeAwce (data : Bytes) : Lockstep (fun envelope fields => fields = envelope.toAwceFields)
      (orRaise (Wire.decodeAwce data).toOption WireError.protocolInvalid) (decodeAwce data).toOption := by
  cases hserver : Wire.decodeAwce data with
  | ok envelope =>
    rw [decodeAwce_ok_iff.mpr ⟨envelope, hserver, rfl⟩]
    exact .ok rfl
  | error e =>
    cases hbrowser : decodeAwce data with
    | ok fields =>
      obtain ⟨envelope, hok, -⟩ := decodeAwce_ok_iff.mp hbrowser
      cases hserver.symm.trans hok
    | error e' => exact .error

/-! ## Bound decoding -/

/-- The bound tuple is read field by field. -/
theorem admissionBound_copies (h : Copies r r') (record : Record) :
    admissionBound (some r') record = admissionBound (some r) record := by
  have hrefl : Copies record record := fun _ => rfl
  have hvalid : (Wire.validateAdmission r').isOk = (Wire.validateAdmission r).isOk := by
    rw [← validateAdmission_isSome h, ← validateAdmission_isSome fun _ => rfl]
  rw [admissionBound_eq hrefl, admissionBound_eq hrefl, admissionAgrees, admissionAgrees, hvalid]
  simp only [h _]

theorem decodeWireFrame_copies (h : Copies r r') (wire : Bytes) (leg : Leg)
    (runtimeEpoch : Option Scalar) (trusted : Bool) (elapsed : ℕ) :
    decodeWireFrame wire leg (some r') runtimeEpoch trusted elapsed =
      decodeWireFrame wire leg (some r) runtimeEpoch trusted elapsed := by
  unfold decodeWireFrame validatePayload
  simp only [admissionBound_copies h]

theorem lockstep_decodeWireFrame (wire : Bytes) (leg : Leg) (admission : Option Record)
    (runtimeEpoch : Option Scalar) (trusted : Bool) {elapsed : ℕ} (hcpu : cpu ≤ 5000000)
    (helapsed : elapsed ≤ 5000) : Lockstep (fun f g => SameFrame f g ∧ Profiled f)
      (Wire.decodeWireFrame (.bytes wire) leg admission runtimeEpoch trusted cpu)
      (decodeWireFrame wire leg admission runtimeEpoch trusted elapsed) :=
  .of_isOk_eq (isOk_decodeWireFrame hcpu helapsed) fun _ _ hf hg =>
    ⟨sameFrame_of_decodeWireFrame hcpu helapsed hf hg, profiled_of_decodeWireFrame hcpu hf⟩

/-! ## Tables -/

theorem handshake_eq (leg : Leg) : handshake leg = leg.handshake := by cases leg <;> rfl

theorem mem_members (kind : FrameType) : kind ∈ FrameType.members := by
  cases kind <;> simp [FrameType.members]

/-- The tables of the two sessions, kind by kind. -/
theorem session_tables : ∀ kind ∈ FrameType.members, (decide (kind.value ∈ keyTypes)) = kind.isKey ∧
      ∀ leg ∈ [Leg.browserToApi, .apiToBrowser, .apiToRuntime, .runtimeToApi],
        WireSession.prerequisites.lookup (leg, kind) = Wire.WireSession.prerequisite (leg, kind) := by
  decide

theorem mem_keyTypes (kind : FrameType) : kind.value ∈ keyTypes ↔ kind.isKey = true := by
  rw [← (session_tables kind (mem_members kind)).1, decide_eq_true_eq]

theorem lookup_prerequisites (leg : Leg) (kind : FrameType) :
    WireSession.prerequisites.lookup (leg, kind) = Wire.WireSession.prerequisite (leg, kind) :=
  (session_tables kind (mem_members kind)).2 leg (mem_legs leg)

namespace Matches

variable {ι : Type} {s : Wire.WireSession ι} {t : WireSession ι} {f g : WireFrame} {now : ℤ}
  (h : Matches s t) (hframe : SameFrame f g)

include h

variable (leg : Leg) (kind : FrameType)

theorem has : t.has leg kind = s.has leg kind :=
  isSome_eq_of_rel (h.seen (leg, kind))

theorem admitted : t.admitted = s.admitted := by
  rw [WireSession.admitted, h.has, h.failed, h.closed]
  rfl

theorem committed : t.committed = s.committed := by
  have hack := h.seen (.runtimeToApi, .admissionCommitAck)
  rw [WireSession.committed, bind_eq_of_rel hack fun _ _ hframe => hframe.field "result",
    Wire.WireSession.committed]
  cases s.seen.get? (.runtimeToApi, .admissionCommitAck) <;> rfl

theorem require : Lockstep SameFrame (s.require leg kind) (t.require leg kind) :=
  lockstep_orRaise (h.seen (leg, kind))

theorem requireOnly : SameCheck (discard (s.require leg kind)) ((t.require leg kind).map fun _ => ()) := by
  cases hs : s.require leg kind <;> cases ht : t.require leg kind <;>
    have hboth := h.require leg kind <;> rw [hs, ht] at hboth <;> cases hboth
  · exact .error
  · exact .ok trivial

/-! ## Replays -/

include hframe

theorem original : Lockstep (Option.Rel SameFrame) (s.original f now) (t.original g now) := by
  unfold Wire.WireSession.original WireSession.original
  simp only [WireFrame.key, hframe.frameType, hframe.leg, h.has, h.next, h.detachAt, h.retries,
    h.detach.mem_iff]
  refine .ite (by rw [Prod.mk.injEq, and_comm]) (fun _ _ => ?_) fun _ _ => ?_
  · cases s.detachAt with
    | none => exact .error
    | some detachAt =>
      exact .ite Iff.rfl (fun _ _ => .error) fun _ _ => .ok (h.detach _)
  refine .ite (by rw [Prod.mk.injEq, and_comm]) (fun _ _ => ?_) fun _ _ => ?_
  · exact .ite Iff.rfl (fun _ _ => .error) fun _ _ => .ok (h.seen _)
  refine .ite (by rw [Prod.mk.injEq, and_comm]) (fun _ _ => ?_) fun _ _ => .error
  exact .ite Iff.rfl (fun _ _ => .error) fun _ _ => .ok (h.seen _)

theorem retry : Lockstep Matches (s.retry f now) (t.retry g now) := by
  refine (h.original hframe).bind fun o o' horiginal => ?_
  have hsame : (o'.any fun e => e.wire == g.wire) = o.any fun e => e.wire == f.wire :=
    any_eq_of_rel horiginal fun _ _ he => by rw [he.wire, hframe.wire]
  refine (sameCheck_ensure ?_).bind fun _ _ _ => (sameCheck_ensure ?_).bind fun _ _ _ => .ok ?_
  · rw [hsame, h.failed, h.retries, hframe.leg, hframe.frameType, WireFrame.key]
    simp [Bool.not_or]
  · rw [hframe.frameType, h.started]
    rw [Bool.not_and, bne, Bool.not_not, not_decide_ge]
    rfl
  · exact { h with retries := by rw [hframe.leg, hframe.frameType, h.retries]; rfl }

/-! ## Order -/

omit hframe in
theorem repeats (leg : Leg) (kind : FrameType) (names : List String) {r r' : Record}
    (hprofiled : Profiled f) (hjson : f.json = some r) (hcopies : Copies r r')
    (hrepeated : (f.frameType, names) ∈ repeated) (hnames : names ≠ []) :
    SameCheck (s.require leg kind >>= fun e => Wire.WireSession.ensure (names.all (f.agrees e)))
      (t.repeats leg kind r' names) :=
  (h.require leg kind).bind fun _ _ he =>
    sameCheck_agrees hprofiled hjson hcopies hrepeated hnames he

theorem orderFirst : SameCheck (s.orderFirst f) (t.orderFirst g) := by
  unfold Wire.WireSession.orderFirst WireSession.orderFirst
  rw [hframe.leg, hframe.frameType, lookup_prerequisites, WireFrame.key]
  cases Wire.WireSession.prerequisite (f.leg, f.frameType) with
  | none => exact sameCheck_ok
  | some previous => exact h.requireOnly previous.1 previous.2

theorem orderKey : SameCheck (s.orderKey f) (t.orderKey g) := by
  have hsource : ∀ leg, SameCheck
      (s.require leg f.frameType >>= fun source =>
        Wire.WireSession.ensure (f.payload == source.payload))
      (t.require leg f.frameType >>= fun source =>
        WireSession.failIf (!(f.payload == source.payload))) := by
    intro leg
    refine (h.require leg f.frameType).bind fun e e' he => sameCheck_ensure ?_
    rw [he.payload, Bool.not_not]
  unfold Wire.WireSession.orderKey WireSession.orderKey
  simp only [hframe.leg, hframe.frameType, hframe.payload, mem_keyTypes]
  cases hkey : f.frameType.isKey with
  | false => simpa using sameCheck_ok
  | true =>
    cases hleg : f.leg
    case apiToRuntime => simpa using hsource .browserToApi
    case apiToBrowser => simpa using hsource .runtimeToApi
    case browserToApi => simpa using sameCheck_ok
    case runtimeToApi => simpa using sameCheck_ok

omit hframe in
theorem orderFields (hprofiled : Profiled f) {r r' : Record} (hjson : f.json = some r)
    (hcopies : Copies r r') : SameCheck (s.orderFields f) (t.orderFields f.frameType r') := by
  have hrepeats (leg : Leg) (kind : FrameType) (name : String) (names : List String)
      (hmem : (f.frameType, name :: names) ∈ repeated) :=
    h.repeats leg kind (name :: names) hprofiled hjson hcopies hmem (cons_ne_nil _ _)
  unfold Wire.WireSession.orderFields WireSession.orderFields
  cases hkind : f.frameType <;> rw [hkind] at hrepeats
  case runtimeHello =>
    have hcheck := hrepeats .browserToApi .wsHello "resume_cursor" ["previous_runtime_epoch"]
      (by simp [repeated])
    simpa [WireSession.failIf] using sameCheck_rest hcheck
  case streamReadyAck =>
    have hcheck := hrepeats .runtimeToApi .helloAck "output_cursor" [] (by simp [repeated])
    simpa [WireSession.failIf] using sameCheck_rest hcheck
  case admitted =>
    have hcheck := hrepeats .runtimeToApi .helloAck "output_cursor" [] (by simp [repeated])
    have hcommitted : SameCheck (Wire.WireSession.ensure s.committed)
        (WireSession.failIf (!t.committed)) := sameCheck_ensure (by rw [h.committed, Bool.not_not])
    simpa using hcheck.bind fun _ _ _ => hcommitted
  case admissionCommit =>
    have hcheck := hrepeats .runtimeToApi .streamReadyAck "admission_fence" [] (by simp [repeated])
    simpa [WireSession.failIf] using sameCheck_rest hcheck
  all_goals exact sameCheck_ok

theorem order (hprofiled : Profiled f) : SameCheck (s.order f) (t.order g) := by
  refine (h.orderFirst hframe).bind fun _ _ _ => (h.orderKey hframe).bind fun _ _ _ => ?_
  have hjson := hframe.rel_json
  generalize hf : f.json = json at hjson ⊢
  generalize g.json = json' at hjson ⊢
  cases hjson with
  | none => exact sameCheck_ok
  | some hcopies =>
    rw [hframe.frameType]
    exact h.orderFields hprofiled hf hcopies

/-! ## Relay -/

theorem relayCheck : Lockstep Eq (s.relayCheck f) (t.relayCheck g) := by
  unfold Wire.WireSession.relayCheck WireSession.relayCheck
  simp only [hframe.leg, hframe.frameType, hframe.wire, hframe.payload, h.pending, h.pendingBytes,
    h.has]
  refine .ite Iff.rfl (fun _ _ => ?_) fun _ _ => ?_
  · exact .ite Iff.rfl (fun _ _ => .error) fun _ _ => .ok rfl
  · cases s.pending f.frameType with
    | nil =>
      rw [List.head?_nil, if_pos (by simp)]
      exact .error
    | cons first rest =>
      rw [List.head?_cons]
      exact .ite (by simp) (fun _ _ => .error) fun _ _ => .ok rfl

/-! ## Phases -/

section
variable (hprofiled : Profiled f)
include hprofiled

theorem handshakePhase : SameCheck (s.handshakePhase f) (t.handshakePhase g) := by
  unfold Wire.WireSession.handshakePhase WireSession.handshakePhase
  simp only [hframe.leg, hframe.frameType, hframe.hopSequence, h.failed, h.has, h.mustClose,
    handshake_eq]
  refine .ite Iff.rfl (fun _ _ => .ite Iff.rfl (fun _ _ => .error) fun _ _ => h.order hframe hprofiled)
    fun _ _ => ?_
  refine .ite Iff.rfl (fun _ _ => sameCheck_ok) fun _ _ => ?_
  refine .ite Iff.rfl (fun _ _ => h.requireOnly _ _) fun _ _ => ?_
  refine .ite (by simp) (fun _ _ => sameCheck_ensure ?_) fun _ _ => ?_
  · rw [Bool.not_and, decide_not, Bool.not_not]
    rfl
  -- the browser looks at the three kinds of the API's leg together
  by_cases hkind : f.leg = .apiToBrowser ∧ f.frameType = .error
  · rw [if_pos hkind, if_pos ⟨hkind.1, by simp [hkind.2]⟩, if_pos hkind.2]
    exact sameCheck_ok
  rw [if_neg hkind]
  refine .ite ?_ (fun hs ht => ?_) fun _ _ => .error
  · simp only [mem_cons, not_mem_nil, or_false]
    constructor
    · rintro ⟨hleg, hother⟩
      exact ⟨hleg, .inr hother⟩
    · rintro ⟨hleg, herror | hother⟩
      · exact (hkind ⟨hleg, herror⟩).elim
      · exact ⟨hleg, hother⟩
  · rw [if_neg fun herror => hkind ⟨hs.1, herror⟩]
    refine sameCheck_ensure ?_
    rw [Bool.not_or, Bool.not_and, decide_not, Bool.not_not, Bool.not_not]
    rfl

theorem detachPhase : SameCheck (s.detachPhase f) (t.detachPhase g) := by
  unfold Wire.WireSession.detachPhase WireSession.detachPhase
  simp only [hframe.leg, hframe.frameType, h.detach.mem_iff]
  refine .ite Iff.rfl (fun _ _ => sameCheck_ensure ?_) fun _ _ => ?_
  · rw [Bool.not_or, Bool.not_and, decide_not, decide_not, Bool.not_not]
    rfl
  refine .ite Iff.rfl (fun hkind _ => ?_) fun _ _ => sameCheck_ok
  obtain ⟨r, r', hf, hg, hcopies⟩ := hframe.exists_json hprofiled (by rw [hkind]; rfl)
  refine (lockstep_orRaise (h.detach _)).bind fun request request' hrequest => ?_
  rw [ensure_and, hg]
  refine (sameCheck_ensure (by rw [decide_not])).bind fun _ _ _ => ?_
  rw [Option.bind_eq_bind, Option.bind_some]
  refine (sameCheck_ensure ?_).bind fun _ _ _ => ?_
  · rw [hrequest.hopSequence, hcopies, bne, Bool.not_not, WireFrame.field, hf, Option.bind_some]
  refine .ite Iff.rfl (fun _ _ => ?_) fun _ _ => sameCheck_ok
  rw [Option.bind_assoc]
  refine (lockstep_orRaise (h.detach .runtimeToApi)).bind fun response response' hresponse => ?_
  exact sameCheck_agrees hprofiled hf hcopies (by rw [hkind]; simp [repeated]) (cons_ne_nil _ _)
    hresponse

theorem exitPhase (hkind : f.frameType = .exit) :
    SameCheck (Wire.WireSession.ensure (f.leg == .apiToBrowser && decide (f.leg ∉ s.exits) &&
      (s.exits.get? .runtimeToApi).any f.sameJson)) (t.exitPhase g) := by
  have hrules : Wire.schema f.frameType f.leg = Wire.schema .exit .runtimeToApi := by rw [hkind]; rfl
  obtain ⟨r, r', hf, hg, hcopies⟩ := hframe.exists_json hprofiled (by rw [hrules]; rfl)
  have hexits := h.exits .runtimeToApi
  have hknown := h.exits_profiled .runtimeToApi
  unfold WireSession.exitPhase
  rw [hg, hframe.leg]
  generalize s.exits.get? .runtimeToApi = exit at hexits hknown ⊢
  generalize t.exits.get? .runtimeToApi = exit' at hexits ⊢
  cases hexits with
  | none =>
    rw [Option.any_none, Bool.and_false]
    exact .error
  | @some e e' he =>
    obtain ⟨hekind, heprofiled⟩ := hknown e rfl
    have herules : Wire.schema e.frameType e.leg = Wire.schema .exit .runtimeToApi := by
      rw [hekind]; rfl
    obtain ⟨q, q', hq, hq', hqcopies⟩ := he.exists_json heprofiled (by rw [herules]; rfl)
    rw [Option.bind_some, hq', Option.bind_eq_bind, Option.bind_some, Option.bind_some]
    have hfields := hprofiled.mem_iff heprofiled (hrules.trans herules.symm) (by rw [herules]; rfl) hf hq
    have hsame : f.sameJson e = r.same q := by rw [WireFrame.sameJson, hf, hq]
    refine sameCheck_ensure ?_
    rw [Option.any_some, hsame, same_eq hfields hcopies hqcopies, Bool.not_or, Bool.not_or, bne,
      Bool.not_not, decide_not]
    simp only [h.exits.mem_iff]

theorem openPhase : SameCheck (s.openPhase f) (t.openPhase g) := by
  unfold Wire.WireSession.openPhase WireSession.openPhase
  simp only [hframe.leg, hframe.frameType, h.failed, h.admitted, h.committed, h.detach.length_pos_iff,
    handshake_eq]
  refine .ite Iff.rfl (fun hexit _ => h.exitPhase hframe hprofiled hexit.1) fun _ _ => ?_
  refine .ite (by simp) (fun _ _ => sameCheck_ok) fun _ _ => ?_
  refine .ite Iff.rfl (fun _ _ => .error) fun _ _ => ?_
  refine .ite (by cases f.leg <;> simp) (fun _ _ => .error) fun _ _ => ?_
  refine .ite Iff.rfl (fun _ _ => .error) fun _ _ => ?_
  refine .ite Iff.rfl (fun _ _ => .error) fun _ _ => ?_
  refine .ite ?_ (fun _ _ => .error) fun _ _ => ?_
  · simp [Wire.WireSession.allowedInDetach, and_assoc]
  · exact (h.order hframe hprofiled).bind fun _ _ _ => h.detachPhase hframe hprofiled

theorem phase : SameCheck (s.phase f) (t.phase g) := by
  unfold Wire.WireSession.phase WireSession.phase
  simp only [hframe.leg, hframe.frameType, hframe.hopSequence, hframe.field, h.terminal, h.mustClose,
    h.failed, h.has, handshake_eq]
  refine .ite Iff.rfl (fun _ _ => .error) fun _ _ => ?_
  refine .ite (by simp [Wire.WireSession.isClosing, and_assoc]) (fun _ _ => .error) fun _ _ => ?_
  refine .ite Iff.rfl (fun _ _ => .error) fun _ _ => ?_
  exact .ite Iff.rfl (fun _ _ => h.handshakePhase hframe hprofiled)
    fun _ _ => h.openPhase hframe hprofiled

end

/-! ## Acceptance -/

theorem checkRecord :
    Lockstep (fun a b => b.1 = a.1.toAwceFields ∧ b.2 = a.2) (s.checkRecord f) (t.checkRecord g) := by
  refine (h.relayCheck hframe).bind fun source source' hsource => ?_
  rw [hframe.payload]
  refine (lockstep_decodeAwce f.payload).bind fun envelope envelope' henvelope => ?_
  refine (h.require .runtimeToApi .keyConfirmAck).bind fun confirmation confirmation' hconfirm => ?_
  rw [hconfirm.field]
  subst henvelope hsource
  generalize confirmation.field "transcript_context_hash" = value
  cases value with
  | none => exact .error
  | some value =>
    cases value with
    | null | bool | int => exact .error
    | str hash =>
      refine (sameCheck_ensure ?_).bind fun _ _ _ => (sameCheck_ensure ?_).bind fun _ _ _ =>
        Lockstep.ok ⟨rfl, rfl⟩
      · rw [h.crypto, hframe.leg, Bytes.ofHex_take 16, Bool.not_or, bne, Bool.not_not,
          Bool.not_not]
      · rw [h.cursor, hframe.leg, hframe.frameType, Bool.not_and, ← decide_not]
        simp [bne]

theorem relayed (envelope : AwceEnvelope) (source : Bool) :
    Matches (s.relayed f envelope source) (t.relayed g envelope.toAwceFields source) := by
  unfold Wire.WireSession.relayed WireSession.relayed
  simp only [hframe.frameType, hframe.leg, hframe.payload, hframe.wire]
  cases source <;> by_cases houtput : f.frameType = .output
  all_goals
    simp only [houtput, if_true, if_false, Bool.false_eq_true]
    exact { h with
      pending := by simp [h.pending]
      pendingBytes := by simp [h.pending, h.pendingBytes]
      crypto := by simp [h.crypto]
      cursor := by simp [h.cursor] }

theorem detached : Matches (s.detached f now) (t.detached g now) := by
  unfold Wire.WireSession.detached WireSession.detached
  rw [hframe.frameType, hframe.leg]
  split
  · split
    · exact { h with detach := h.detach.set f.leg hframe, detachAt := rfl }
    · exact { h with detach := h.detach.set f.leg hframe }
  · split
    · exact { h with
        detach := h.detach.set f.leg hframe
        mustClose := by rw [h.mustClose] }
    · exact h

theorem isFatal (hprofiled : Profiled f) : t.isFatal g = s.isFatal f := by
  unfold WireSession.isFatal Wire.WireSession.isFatal WireSession.nonfatalControlLimit
    Wire.WireSession.nonfatalControlLimit
  simp only [hframe.frameType, hframe.leg, hframe.field, h.has]
  by_cases hstate : f.frameType = .state
  · obtain ⟨r, -, hf, -⟩ := hframe.exists_json hprofiled (by rw [hstate]; rfl)
    simp [hstate, hf]
  · simp [beq_false_of_ne hstate]

theorem settled (hprofiled : Profiled f) : Matches (s.settled f) (t.settled g) := by
  unfold Wire.WireSession.settled WireSession.settled
  simp only [hframe.frameType, hframe.leg, hframe.field, hframe.hopSequence, h.has,
    h.isFatal hframe hprofiled]
  split
  · next hclose =>
    rw [if_pos hclose]
    exact { h with terminal := by rw [h.terminal], failed := rfl }
  · next hexit =>
    rw [hexit, if_neg (by decide), if_pos rfl]
    exact { h with
      exits := h.exits.set f.leg hframe
      exits_profiled := by
        intro leg e he
        rw [Dict.get?_set] at he
        split at he
        · cases he
          exact ⟨hexit, hprofiled⟩
        · exact h.exits_profiled leg e he
      mustClose := by rw [h.mustClose]
      failed := rfl }
  · next hack =>
    rw [hack, if_neg (by decide : FrameType.admissionCommitAck ≠ .close),
      if_neg (by decide : FrameType.admissionCommitAck ≠ .exit),
      if_neg (by decide : ¬(FrameType.admissionCommitAck = .error ∨ FrameType.admissionCommitAck = .state))]
    by_cases hrejected : f.field "result" = some (.text "rejected")
    · rw [if_pos hrejected, if_pos ⟨rfl, hrejected⟩]
      exact { h with mustClose := by rw [h.mustClose], failed := rfl }
    · rw [if_neg hrejected, if_neg fun hboth => hrejected hboth.2]
      exact h
  · next hclose hexit hack =>
    rw [if_neg hclose, if_neg hexit]
    by_cases hending : f.frameType = .error ∨ f.frameType = .state
    · rw [if_pos hending]
      split
      · split
        · exact { h with terminal := by rw [h.terminal], failed := rfl }
        · exact { h with mustClose := by rw [h.mustClose], failed := rfl }
      · exact h
    · obtain ⟨herror, hstate⟩ := not_or.mp hending
      have hfatal : s.isFatal f = false := by
        simp [Wire.WireSession.isFatal, beq_false_of_ne herror, beq_false_of_ne hstate]
      rw [if_neg hending, hfatal, if_neg Bool.false_ne_true, if_neg fun hrejected => hack hrejected.1]
      exact h

omit hframe in
theorem drained : Matches s.drained t.drained := by
  unfold Wire.WireSession.drained WireSession.drained
  rw [h.failed]
  split
  · exact { h with pending := rfl, pendingBytes := rfl }
  · exact h

theorem recorded : Matches (s.recorded f) (t.recorded g) := by
  unfold Wire.WireSession.recorded WireSession.recorded
  simp only [hframe.frameType, hframe.leg, handshake_eq, mem_keyTypes]
  split
  · exact { h with seen := h.seen.set f.key hframe }
  · exact h

theorem counted : Matches (s.counted f now) (t.counted g now) := by
  unfold Wire.WireSession.counted WireSession.counted
  rw [hframe.hopSequence, hframe.leg, h.next]
  split
  · exact { h with next := rfl, lastNow := rfl, terminal := by rw [h.terminal] }
  · exact { h with next := rfl, lastNow := rfl }

theorem advanced (hprofiled : Profiled f) : Matches (s.advanced f now) (t.advanced g now) :=
  (((((h.detached hframe).settled hframe hprofiled).drained).recorded hframe).counted hframe)

theorem observeNext (hprofiled : Profiled f) :
    Lockstep (fun a b => SameFrame a.1 b.1 ∧ Matches a.2 b.2) (s.observeNext f now)
      (t.observeNext g now) := by
  refine (h.phase hframe hprofiled).bind fun _ _ _ => ?_
  rw [hframe.frameType]
  refine .ite isOpaque_iff (fun _ _ => ?_) fun _ _ => .ok ⟨hframe, h.advanced hframe hprofiled⟩
  refine (h.checkRecord hframe).bind fun a b hrecord => .ok ⟨hframe, ?_⟩
  obtain ⟨hfields, hsource⟩ := hrecord
  rw [hfields, hsource]
  exact (h.relayed hframe a.1 a.2).advanced hframe hprofiled

omit hframe

/-- The two decoders, called by sessions in the same state. -/
theorem decodeWireFrame (wire : Bytes) (leg : Leg) {cpu elapsed : ℕ} (hcpu : cpu ≤ 5000000)
    (helapsed : elapsed ≤ 5000) : Lockstep (fun f g => SameFrame f g ∧ Profiled f)
      (Wire.decodeWireFrame (.bytes wire) leg (some s.admission) (some s.runtimeEpoch)
        (s.has .apiToRuntime .runtimeHello) cpu)
      (Web.decodeWireFrame wire leg (some t.admission) (some t.runtimeEpoch)
        (t.has .apiToRuntime .runtimeHello) elapsed) := by
  rw [decodeWireFrame_copies h.admission, h.runtimeEpoch, h.has]
  exact lockstep_decodeWireFrame wire leg _ _ _ hcpu helapsed

theorem close : Matches s.close t.close :=
  { h with
    seen := .empty
    detach := .empty
    pending := rfl
    pendingBytes := rfl
    closed := rfl }

variable [DecidableEq ι] {e : Event ι}

theorem observe (hcpu : e.cpu ≤ 5000000) (helapsed : e.elapsed ≤ 5000) :
    Lockstep (fun a b => SameFrame a.1 b.1 ∧ Matches a.2 b.2) (s.observe e.call) (t.observe e) := by
  have hrefl {α : Type} (x : Option α) : Lockstep Eq (orRaise x WireError.protocolInvalid) x := by
    cases x
    · exact .error
    · exact .ok rfl
  refine (sameCheck_ensure ?_).bind fun _ _ _ => (hrefl e.now).bind fun now now' hnow => ?_
  · rw [h.closed, h.streamId, Bool.eq_iff_iff]
    show (!s.closed && decide (e.streamId = s.streamId)) = true ↔ _
    simp
  subst hnow
  refine (sameCheck_ensure ?_).bind fun _ _ _ => (hrefl e.leg).bind fun leg leg' hleg => ?_
  · rw [h.lastNow, ← decide_not]
    simp
  subst hleg
  refine (sameCheck_ensure ?_).bind fun _ _ _ => ?_
  · rw [h.has, h.started, Bool.not_and, Bool.not_not, not_decide_ge]
    rfl
  refine (h.decodeWireFrame e.raw leg hcpu helapsed).bind fun f g hboth => ?_
  obtain ⟨hframe, hprofiled⟩ := hboth
  refine .ite (by rw [hframe.hopSequence, h.next]) (fun _ _ => ?_) fun _ _ =>
    h.observeNext hframe hprofiled
  refine (h.retry hframe).bind fun s' t' hnext => .ok ⟨hframe.withReplay, ?_⟩
  exact { hnext with lastNow := rfl }

/-- One event: both sessions accept it, as the same frame, or both close; they stay in the same
state. -/
theorem accept (hcpu : e.cpu ≤ 5000000) (helapsed : e.elapsed ≤ 5000) :
    Lockstep SameFrame (s.accept e.call).1 (t.accept e).1 ∧ Matches (s.accept e.call).2 (t.accept e).2 := by
  have hobserve := h.observe hcpu helapsed
  unfold Wire.WireSession.accept WireSession.accept
  generalize s.observe e.call = x at hobserve ⊢
  generalize t.observe e = y at hobserve ⊢
  cases hobserve with
  | ok hnext => exact ⟨.ok hnext.1, hnext.2⟩
  | error => exact ⟨.error, h.close⟩

end Matches

/-! ## Initial states -/

/-- The record that the browser's `deriveContext` checks. -/
def derived (bound : Record) (epoch : Scalar) : Record :=
  (((pick bound (admissionKeys.filter (· ≠ "mode"))).set "runtime_epoch" epoch).set
    "protocol_id" (.text "agentbox-waw/v1")).set "crypto_envelope_version" (.int 1)

theorem isSome_validateContext_derived {epoch : Scalar}
    (hexact : bound.hasExactly admissionKeys = true) (hmembers : validMembers bound = true)
    (hepoch : validU64 (some epoch) = true) : (validateContext (derived bound epoch)).isSome = true := by
  have hkeys := hasExactly_iff.mp hexact
  have hget : ∀ k, (derived bound epoch).get? k =
      if k = "crypto_envelope_version" then some (.int 1)
      else if k = "protocol_id" then some (.text "agentbox-waw/v1")
      else if k = "runtime_epoch" then some epoch
      else if k ∈ admissionKeys.filter (· ≠ "mode") then bound.get? k else none := by
    intro k
    rw [derived, Dict.get?_set, Dict.get?_set, Dict.get?_set,
      get?_pick fun k hk => (hkeys k).mpr (mem_filter.mp hk).1]
  generalize derived bound epoch = context at hget ⊢
  have hcontext : context.hasExactly contextKeys = true := by
    rw [hasExactly_iff]
    intro k
    have hbound : k ∈ admissionKeys → (bound.get? k).isSome = true := (hkeys k).mpr
    rw [Dict.mem_def, hget]
    simp only [contextKeys, mem_append, mem_cons, not_mem_nil, or_false]
    split
    · next hk => simp [hk]
    split
    · next hk => simp [hk]
    split
    · next hk => simp [hk]
    · next hversion hid hepoch =>
      simp only [hversion, hid, hepoch, or_false]
      split
      · next hk => exact ⟨fun _ => hk, fun _ => hbound (mem_filter.mp hk).1⟩
      · next hk => exact ⟨fun hnone => absurd hnone Bool.false_ne_true, fun hmem => absurd hmem hk⟩
  rw [validateContext_isSome fun _ => rfl, validateContext_isOk, ← hasExactly_perm contextKeys_perm,
    hcontext, Bool.true_and]
  have hsame : validMembers context = validMembers bound := by
    simp [validMembers, Record.isText, hget, admissionKeys]
  rw [contextValid, hsame, hmembers]
  simp [Record.isText, hget, hepoch]

theorem validateAdmission_ok {admission : Record} (h : Wire.validateAdmission admission = .ok bound) :
    bound = admission ∧ bound.hasExactly admissionKeys = true ∧ validMembers bound = true := by
  have hok : (Wire.validateAdmission admission).isOk = true := by rw [h]; rfl
  unfold Wire.validateAdmission at h
  obtain ⟨-, h₁⟩ := throw_or_eq_ok_iff.mp h
  obtain ⟨-, -, h₂⟩ := bind_eq_ok_iff.mp h₁
  cases h₂
  rw [validateAdmission_isOk, Bool.and_eq_true, Bool.and_eq_true] at hok
  exact ⟨rfl, hok.1, hok.2.1⟩

variable (admission : Record)

theorem lockstep_validateAdmission :
    Lockstep (fun r r' => Copies r r' ∧ r.hasExactly admissionKeys = true ∧ validMembers r = true)
      (Wire.validateAdmission admission) (validateAdmission admission) := by
  refine .of_isOk_eq (validateAdmission_isSome fun _ => rfl).symm fun bound bound' hserver hbrowser => ?_
  obtain ⟨rfl, hvalid⟩ := validateAdmission_ok hserver
  exact ⟨copies_of_validateAdmission hbrowser, hvalid⟩

theorem copies_of_validateContext (h : validateContext r = some r') : Copies r r' := by
  obtain ⟨record, hrecord, h₁⟩ := Option.bind_eq_some_iff.mp h
  split at h₁
  · cases h₁
    exact copies_of_exactRecord (by decide) hrecord
  · cases h₁

theorem lockstep_deriveContext (epoch : Scalar) :
    Lockstep (fun context context' => context'.get? "runtime_epoch" = context.get? "runtime_epoch")
      (Wire.deriveContext admission epoch) (deriveContext admission epoch) := by
  unfold Wire.deriveContext deriveContext
  refine (lockstep_validateAdmission admission).bind fun bound bound' hbound => ?_
  obtain ⟨hcopies, hexact, hmembers⟩ := hbound
  cases hepoch : validU64 (some epoch) with
  | false =>
    have hserver := isOk_validateU64 epoch
    rw [hepoch] at hserver
    cases hvalue : Wire.validateU64 epoch with
    | ok value => rw [hvalue] at hserver; cases hserver
    | error e => exact .error
  | true =>
    obtain ⟨context, hcontext⟩ := Option.isSome_iff_exists.mp
      (isSome_validateContext_derived ((hcopies.hasExactly _).trans hexact)
        (hcopies.validMembers.trans hmembers) hepoch)
    obtain ⟨value, rfl, hvalue⟩ : ∃ value, epoch = .str value ∧
        Wire.validateU64 epoch = .ok value := by
      cases epoch with
      | str s => exact ⟨s, rfl, if_pos hepoch⟩
      | null | bool | int => cases hepoch
    rw [hvalue]
    refine (?_ : Lockstep _ _ (validateContext (derived bound' (.str value))))
    rw [hcontext]
    refine .ok ?_
    rw [copies_of_validateContext hcontext, Dict.get?_set_self, derived,
      Dict.get?_set_of_ne _ (by decide), Dict.get?_set_of_ne _ (by decide), Dict.get?_set_self]

/-- The constructors accept the same arguments and set up the same state. -/
theorem lockstep_init (runtimeEpoch : Scalar) (streamId : Option ι)
    (startedAt : ℤ) : Lockstep Matches (Wire.WireSession.init admission runtimeEpoch streamId startedAt)
      (WireSession.init admission runtimeEpoch streamId startedAt) := by
  have hadmission := lockstep_validateAdmission admission
  have hcontext := lockstep_deriveContext admission runtimeEpoch
  unfold Wire.WireSession.init WireSession.init
  generalize Wire.validateAdmission admission = x at hadmission ⊢
  generalize validateAdmission admission = y at hadmission ⊢
  cases hadmission with
  | error => exact .error
  | ok hbound =>
    generalize Wire.deriveContext admission runtimeEpoch = x at hcontext ⊢
    generalize deriveContext admission runtimeEpoch = y at hcontext ⊢
    cases hcontext with
    | error => exact .error
    | ok hepoch =>
      cases streamId with
      | none => exact .error
      | some streamId =>
        refine .ite Iff.rfl (fun _ _ => .error) fun _ _ => .ok ?_
        rw [hepoch]
        exact matches_fresh hbound.1 _ _ _

/-! ## Transcripts -/

/-- What can be seen of a session after an event: the replay flag of the frame if the event was
accepted, and the public properties. -/
structure View where
  accepted : Option Bool
  closed : Bool
  failed : Bool
  admitted : Bool
  committed : Bool
  expectedSequence : Leg → ℕ

/-- One event at the server's session. -/
def serverStep {ι : Type} [DecidableEq ι] (s : Wire.WireSession ι) (e : Event ι) :
    View × Wire.WireSession ι :=
  let (answer, s) := s.accept e.call
  (⟨answer.toOption.map (·.replay), s.closed, s.failed, s.admitted, s.committed, s.next⟩, s)

/-- One event at the browser's session. -/
def browserStep {ι : Type} [DecidableEq ι] (t : WireSession ι) (e : Event ι) :
    View × WireSession ι :=
  let (answer, t) := t.accept e
  (⟨answer.map (·.replay), t.closed, t.failed, t.admitted, t.committed, t.next⟩, t)

theorem step_agrees [DecidableEq ι] {s : Wire.WireSession ι} {t : WireSession ι} (h : Matches s t)
    {e : Event ι} (hcpu : e.cpu ≤ 5000000) (helapsed : e.elapsed ≤ 5000) :
    (serverStep s e).1 = (browserStep t e).1 ∧ Matches (serverStep s e).2 (browserStep t e).2 := by
  obtain ⟨hanswer, hnext⟩ := h.accept hcpu helapsed
  refine ⟨?_, hnext⟩
  have hreplay : (s.accept e.call).1.toOption.map (·.replay) = (t.accept e).1.map (·.replay) := by
    generalize (s.accept e.call).1 = x at hanswer ⊢
    generalize (t.accept e).1 = y at hanswer ⊢
    cases hanswer with
    | ok hframe => exact congrArg some hframe.replay.symm
    | error => rfl
  unfold serverStep browserStep
  dsimp only
  rw [hreplay, hnext.closed, hnext.failed, hnext.admitted, hnext.committed, hnext.next]

/-- Whatever the admission tuple, the epoch, the token, the start time and the events, the sessions of
the server and of the browser are set up together, accept and reject the same events, report the same
replays, and show the same state after every event, as long as validation stays within the budgets. -/
theorem sessions_agree {ι : Type} [DecidableEq ι] (admission : Record) (runtimeEpoch : Scalar)
    (streamId : Option ι) (startedAt : ℤ) (events : List (Event ι))
    (hbudget : ∀ e ∈ events, e.cpu ≤ 5000000 ∧ e.elapsed ≤ 5000) :
    (Wire.WireSession.init admission runtimeEpoch streamId startedAt).isOk =
        (WireSession.init admission runtimeEpoch streamId startedAt).isSome ∧
      ∀ s t, Wire.WireSession.init admission runtimeEpoch streamId startedAt = .ok s →
        WireSession.init admission runtimeEpoch streamId startedAt = some t →
          answers serverStep s events = answers browserStep t events := by
  have hinit := lockstep_init admission runtimeEpoch streamId startedAt
  refine ⟨hinit.isOk_eq, fun s t hs ht => ?_⟩
  rw [hs, ht] at hinit
  cases hinit with
  | ok h =>
    exact answers_eq (fun e he s t hst => step_agrees hst (hbudget e he).1 (hbudget e he).2) h

/-- The first events of the sample attachment: the browser's greeting, and the same bytes again, which
are out of sequence. -/
def greeting : List (Event Unit) :=
  let hello := Sample.control 1 .browserToApi .wsHello 1
    (Sample.hello ++ Sample.member "ticket" (Sample.text "wat_" ++ Sample.times 32 'f'))
  match hello.raw with
  | .bytes b => [⟨hello.leg, b, (), some 1, 0, 0⟩, ⟨hello.leg, b, (), some 2, 0, 0⟩]
  | _ => []

set_option maxRecDepth 100000 in
theorem sessions_agree_greeting : ((WireSession.init Sample.bound (.str ['7']) (some ()) 0).map fun t =>
        (answers browserStep t greeting).map fun v => (v.accepted, v.closed)) =
      some [(some false, false), (none, true)] ∧
    ∀ s t, Wire.WireSession.init Sample.bound (.str ['7']) (some ()) 0 = .ok s →
      WireSession.init Sample.bound (.str ['7']) (some ()) 0 = some t →
        answers serverStep s greeting = answers browserStep t greeting := by
  have hbudget : ∀ e ∈ greeting, e.cpu ≤ 5000000 ∧ e.elapsed ≤ 5000 := by decide
  exact ⟨by decide +kernel,
    (sessions_agree Sample.bound (.str ['7']) (some ()) 0 greeting hbudget).2⟩

end AgentBox.Web
