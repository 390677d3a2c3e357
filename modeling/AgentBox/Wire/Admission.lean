import AgentBox.Wire.Sequence

/-!
# The order of admission

The session never stores the order of the handshake. It knows the position of every kind on its own
leg and one prerequisite per frame; together they leave exactly one frame that can come next, so the
frames of a session on its way to admission are a beginning of `admissionChain`. Everything else that
is accepted before `ADMITTED` ends the attachment, except frames of the Runtime once it has committed.
-/

namespace AgentBox.Wire

open List WireSession

variable {j k n : ℕ} {key : Leg × FrameType} {leg : Leg} {kind : FrameType}

/-- The sixteen frames of an admission, in order. -/
def admissionChain : List (Leg × FrameType) :=
  [(.browserToApi, .wsHello), (.browserToApi, .keyInit), (.apiToRuntime, .runtimeHello),
   (.apiToRuntime, .keyInit), (.runtimeToApi, .helloAck), (.runtimeToApi, .keyAttest),
   (.apiToBrowser, .keyAttest), (.browserToApi, .keyConfirm), (.apiToRuntime, .keyConfirm),
   (.runtimeToApi, .keyConfirmAck), (.apiToBrowser, .keyConfirmAck), (.apiToRuntime, .streamReady),
   (.runtimeToApi, .streamReadyAck), (.apiToRuntime, .admissionCommit),
   (.runtimeToApi, .admissionCommitAck), (.apiToBrowser, .admitted)]

/-- What a frame of the handshake has in common with an earlier one. -/
inductive Tie
  /-- the payload, byte for byte -/
  | payload
  /-- the value of a field -/
  | field (name : String)

def Tie.Holds : Tie → WireFrame → WireFrame → Prop
  | .payload, f, g => f.payload = g.payload
  | .field name, f, g => ∃ value, f.field name = some value ∧ g.field name = some value

/-- The earlier frames that a frame of the handshake is tied to. -/
def ties : Leg × FrameType → List ((Leg × FrameType) × Tie)
  | (.apiToRuntime, .runtimeHello) =>
    [((.browserToApi, .wsHello), .field "resume_cursor"),
     ((.browserToApi, .wsHello), .field "previous_runtime_epoch")]
  | (.apiToRuntime, .keyInit) => [((.browserToApi, .keyInit), .payload)]
  | (.apiToBrowser, .keyAttest) => [((.runtimeToApi, .keyAttest), .payload)]
  | (.apiToRuntime, .keyConfirm) => [((.browserToApi, .keyConfirm), .payload)]
  | (.apiToBrowser, .keyConfirmAck) => [((.runtimeToApi, .keyConfirmAck), .payload)]
  | (.runtimeToApi, .streamReadyAck) => [((.runtimeToApi, .helloAck), .field "output_cursor")]
  | (.apiToRuntime, .admissionCommit) => [((.runtimeToApi, .streamReadyAck), .field "admission_fence")]
  | (.apiToBrowser, .admitted) => [((.runtimeToApi, .helloAck), .field "output_cursor")]
  | _ => []

/-! ## What the phases let pass -/

namespace WireSession

variable {ι : Type} {s : WireSession ι} {f : WireFrame} {u : Unit} {kind : FrameType}
  {leg : Leg} {name : String}

theorem not_closing_of_isHandshakeKind (h : isHandshakeKind kind = true) :
    kind ≠ .close ∧ kind ≠ .error ∧ kind ≠ .state ∧ kind ≠ .exit := by
  revert h
  cases kind <;> decide

theorem isHandshakeKind_of_getElem {n : ℕ} (h : leg.handshake[n]? = some kind.value) :
    isHandshakeKind kind = true := by
  have hmem : kind.value ∈ leg.handshake := mem_of_getElem? h
  revert hmem
  cases leg <;> cases kind <;> decide

/-- A frame of the handshake is accepted only at its position and in order. -/
theorem order_of_phase (h : s.phase f = .ok u) (hkind : isHandshakeKind f.frameType = true) :
    s.failed = false ∧ f.leg.handshake[f.hopSequence - 1]? = some f.frameType.value ∧
      f.hopSequence ≤ f.leg.handshake.length ∧ s.order f = .ok u := by
  obtain ⟨hclose, herror, hstate, hexit⟩ := not_closing_of_isHandshakeKind hkind
  simp only [phase, error_or_eq_ok_iff] at h
  obtain ⟨-, -, -, h⟩ := h
  split at h
  · next hle =>
    simp only [handshakePhase, hclose, herror, hstate] at h
    split at h
    · next hposition =>
      obtain ⟨hfailed, h⟩ := error_or_eq_ok_iff.mp h
      exact ⟨by simpa using hfailed, hposition, hle, h⟩
    · simp at h
  · -- past the handshake its kinds are refused
    simp only [openPhase, hclose, herror, hstate, hexit, hkind, false_and, false_or, if_false,
      error_or_eq_ok_iff, not_true_eq_false, and_false] at h

/-- Before admission any other frame fails the session, except from a Runtime that has committed. -/
theorem fails_of_phase (h : s.phase f = .ok u) (hkind : isHandshakeKind f.frameType = false)
    (hdecoded : Decoded f.leg f) (hfailed : s.failed = false)
    (hadmitted : s.has .apiToBrowser .admitted = false) :
    s.fails f = true ∨ (f.leg = .runtimeToApi ∧ s.committed = true) := by
  have hclose : f.frameType = .close → s.fails f = true := fun h => by simp [fails, h]
  have herror : f.frameType = .error → s.fails f = true := fun h => by
    simp [fails, isFatal, nonfatalControlLimit, h, hadmitted]
  simp only [phase, error_or_eq_ok_iff] at h
  obtain ⟨-, -, hrunning, h⟩ := h
  have hstate : f.frameType = .state → s.fails f = true := fun h => by
    have hjson : f.json.isSome = true := by rw [hdecoded.json_isSome, h]; rfl
    have hvalue : f.field "state" ≠ some (.text "RUNNING") := fun heq =>
      hrunning ⟨h, heq, .inr (by simp [hadmitted])⟩
    simp [fails, isFatal, h, hjson, hvalue, hadmitted]
  split at h
  · simp only [handshakePhase] at h
    split at h
    · next hposition => rw [isHandshakeKind_of_getElem hposition] at hkind; cases hkind
    split at h
    · next hc => exact .inl (hclose hc.1)
    split at h
    · next hc => exact .inl (herror hc.2.2)
    split at h
    · next hc => exact .inl (hc.2.2.elim hstate fun hc => hc.elim herror hclose)
    split at h
    · next hc => exact .inl (herror hc.2)
    split at h
    · next hc => exact .inl (hc.2.elim hstate hclose)
    · cases h
  · have hadm : s.admitted = false := by simp [admitted, hadmitted]
    simp only [openPhase, hfailed, hadm] at h
    split at h
    · next hc => exact absurd hc.2 (by simp)
    split at h
    · next hc => exact absurd hc.2 (by simp)
    simp only [error_or_eq_ok_iff] at h
    obtain ⟨hleg, hcommitted, hruntime, -⟩ := h
    -- the browser's legs are out, and on the Runtime's own leg only `CLOSE` is left
    cases hl : f.leg with
    | browserToApi => exact absurd ⟨.inl hl, by simp⟩ hleg
    | apiToBrowser => exact absurd ⟨.inr hl, by simp⟩ hleg
    | apiToRuntime =>
      refine .inl (hclose (not_not.mp fun hne => hruntime ⟨hl, hne, by simp⟩))
    | runtimeToApi =>
      exact .inr ⟨rfl, not_not.mp fun hne => hcommitted ⟨.inr hl, hne⟩⟩

/-! ## What the order checks -/

theorem order_ok (h : s.order f = .ok u) :
    (∀ p, prerequisite f.key = some p → (s.seen.get? p).isSome = true) ∧ s.orderKey f = .ok () ∧
      (f.json.isSome = true → s.orderFields f = .ok ()) := by
  simp only [order, bind_eq_ok_iff] at h
  obtain ⟨_, hfirst, _, hkey, h⟩ := h
  refine ⟨fun p hp => ?_, hkey, fun hjson => ?_⟩
  · obtain ⟨leg, kind⟩ := p
    simp only [orderFirst, hp] at hfirst
    cases hg : s.require leg kind with
    | error e => rw [hg] at hfirst; cases hfirst
    | ok g => rw [require_eq_ok_iff.mp hg]; rfl
  · rw [if_pos hjson] at h
    exact h

/-- The relay repeats the source's payload. -/
theorem payload_of_require
    (h : (do let source ← s.require leg kind; ensure (f.payload == source.payload)) = .ok u) :
    ∃ g, s.seen.get? (leg, kind) = some g ∧ Tie.payload.Holds f g := by
  simp only [bind_eq_ok_iff, require_eq_ok_iff, ensure_eq_ok_iff, beq_iff_eq] at h
  exact h

theorem holds_of_agrees {g : WireFrame} (h : f.agrees g name = true) : (Tie.field name).Holds f g := by
  simp only [WireFrame.agrees, Bool.and_eq_true, beq_iff_eq] at h
  obtain ⟨value, hvalue⟩ := Option.isSome_iff_exists.mp h.1
  exact ⟨value, hvalue, h.2 ▸ hvalue⟩

/-- A field repeats its value in the source. -/
theorem field_of_require (h : (do let source ← s.require leg kind; ensure (f.agrees source name)) = .ok u) :
    ∃ g, s.seen.get? (leg, kind) = some g ∧ (Tie.field name).Holds f g := by
  simp only [bind_eq_ok_iff, require_eq_ok_iff, ensure_eq_ok_iff] at h
  exact h.imp fun g hg => ⟨hg.1, holds_of_agrees hg.2⟩

/-- `ADMITTED` repeats the output cursor of `HELLO_ACK` and needs the commit. -/
theorem admitted_of_order (h : s.order f = .ok u) (hdecoded : Decoded f.leg f)
    (hkind : f.frameType = .admitted) :
    s.committed = true ∧ ∃ g, s.seen.get? (.runtimeToApi, .helloAck) = some g ∧
      (Tie.field "output_cursor").Holds f g := by
  obtain ⟨-, -, hfields⟩ := order_ok h
  rw [hdecoded.json_isSome, hkind] at hfields
  simp only [orderFields, hkind, bind_eq_ok_iff, require_eq_ok_iff, ensure_eq_ok_iff] at hfields
  obtain ⟨g, hg, _, hagree, hcommitted⟩ := hfields rfl
  exact ⟨hcommitted, g, hg, holds_of_agrees hagree⟩

/-- An ordered frame keeps every tie of its kind. -/
theorem ties_of_order (h : s.order f = .ok u) (hdecoded : Decoded f.leg f) :
    ∀ tie ∈ ties f.key, ∃ g, s.seen.get? tie.1 = some g ∧ tie.2.Holds f g := by
  obtain ⟨-, hkey, hfields⟩ := order_ok h
  rw [hdecoded.json_isSome] at hfields
  intro tie htie
  unfold ties at htie
  split at htie
  case h_9 => cases htie
  case h_1 heq =>
    have hkind : f.frameType = .runtimeHello := congrArg Prod.snd heq
    simp only [hkind, orderFields, bind_eq_ok_iff, require_eq_ok_iff, ensure_eq_ok_iff,
      Bool.and_eq_true] at hfields
    obtain ⟨g, hg, hagree⟩ := hfields rfl
    simp only [mem_cons, not_mem_nil, or_false] at htie
    rcases htie with rfl | rfl
    · exact ⟨g, hg, holds_of_agrees hagree.1⟩
    · exact ⟨g, hg, holds_of_agrees hagree.2⟩
  all_goals
    next heq =>
    have hleg := congrArg Prod.fst heq
    have hkind := congrArg Prod.snd heq
    simp only [WireFrame.key] at hleg hkind
    rw [mem_singleton.mp htie]
    first
      | exact (admitted_of_order h hdecoded hkind).2
      | (simp only [orderKey, hleg, hkind] at hkey; exact payload_of_require hkey)
      | (simp only [orderFields, hkind] at hfields; exact field_of_require (hfields rfl))

end WireSession

/-! ## One frame can come next -/

theorem admissionChain_nodup : admissionChain.Nodup := by decide

theorem place_inj {i : ℕ} (hi : admissionChain[i]? = some key) (hj : admissionChain[j]? = some key) : i = j :=
  (List.getElem?_inj (List.getElem?_eq_some_iff.mp hi).1 admissionChain_nodup).mp (hi.trans hj.symm)

theorem lt_of_mem_take (hj : admissionChain[j]? = some key) (hmem : key ∈ admissionChain.take k) : j < k := by
  obtain ⟨m, hm, hkey⟩ := mem_take_iff_getElem.mp hmem
  have := place_inj hj (List.getElem?_eq_some_iff.mpr ⟨by omega, hkey⟩)
  omega

/-- The prerequisite of a frame of the chain is the frame before it. -/
theorem prerequisite_chain : ∀ j < 15, ∀ key, admissionChain[j + 1]? = some key →
    prerequisite key = admissionChain[j]? := by
  have hall : ∀ j < 15, (admissionChain[j + 1]?).bind prerequisite = admissionChain[j]? := by decide
  intro j hj key hkey
  rw [← hall j hj, hkey]
  rfl

/-- The frames of one leg among some keys. -/
def legCount (leg : Leg) (keys : List (Leg × FrameType)) : ℕ := keys.countP (·.1 = leg)

/-- A position on a leg is a place in the chain. -/
theorem place_of_position (h : leg.handshake[n]? = some kind.value) :
    ∃ j < 16, admissionChain[j]? = some (leg, kind) ∧ legCount leg (admissionChain.take j) = n := by
  have hnodup : leg.handshake.Nodup := by cases leg <;> decide
  obtain ⟨hn, hvalue⟩ := List.getElem?_eq_some_iff.mp h
  have hplace : kind.value ∈ leg.handshake → ∃ j < 16, admissionChain[j]? = some (leg, kind) ∧
      legCount leg (admissionChain.take j) = leg.handshake.idxOf kind.value := by
    cases leg <;> cases kind <;> decide
  rw [← hvalue, hnodup.idxOf_getElem n hn] at hplace
  exact hplace (getElem_mem hn)

/-- A frame in its position on its leg, whose prerequisite is among the first `k` of the chain while
its leg has at least their frames, is the next of the chain. -/
theorem next_of_position (hposition : leg.handshake[n]? = some kind.value)
    (hn : legCount leg (admissionChain.take k) ≤ n)
    (hfirst : ∀ p, prerequisite (leg, kind) = some p → p ∈ admissionChain.take k) :
    admissionChain[k]? = some (leg, kind) := by
  obtain ⟨j, hj, hchain, hcount⟩ := place_of_position hposition
  rcases Nat.lt_trichotomy j k with hlt | rfl | hgt
  · -- the leg would have passed this position
    have hpassed : n + 1 ≤ legCount leg (admissionChain.take k) := calc
      n + 1 = legCount leg (admissionChain.take (j + 1)) := by
        simp [legCount, take_add_one, hchain, ← hcount]
      _ ≤ legCount leg (admissionChain.take k) := (take_sublist_take_left hlt).countP_le
    omega
  · exact hchain
  · -- its predecessor in the chain is its prerequisite
    obtain ⟨i, rfl⟩ : ∃ i, j = i + 1 := ⟨j - 1, by omega⟩
    have hi : i < admissionChain.length := by simp [admissionChain]; omega
    have hmem := hfirst _ ((prerequisite_chain i (by omega) _ hchain).trans (List.getElem?_eq_getElem hi))
    have := lt_of_mem_take (List.getElem?_eq_getElem hi) hmem
    omega

namespace Transcript

variable {ι : Type} {t : Transcript ι} {s : WireSession ι} {f : WireFrame} {now startedAt : ℤ}
  {steps extras : List Observed} {u : Unit}

/-- The frames that are not replays. -/
def firsts (frames : List Observed) : List Observed := frames.filter (!·.frame.replay)

theorem length_hops (frames : List Observed) (leg : Leg) :
    (hops frames leg).length = legCount leg ((firsts frames).map (·.frame.key)) := by
  rw [legCount, countP_map, countP_eq_length_filter, firsts, filter_filter, hops, length_map]
  congr 2
  funext o
  simp [WireFrame.key, Bool.and_comm]

/-- A frame keeps its ties to the frames before it. -/
def Tied (earlier : List Observed) (o : Observed) : Prop :=
  ∀ tie ∈ ties o.frame.key, ∃ g ∈ earlier, g.frame.key = tie.1 ∧ tie.2.Holds o.frame g.frame

/-- A session on its way to admission: `steps` are the frames of the chain so far, and what else has
been accepted came from the Runtime, after its commit. -/
structure Climbed (startedAt : ℤ) (t : Transcript ι) (steps extras : List Observed) : Prop where
  started : t.session.started = startedAt
  firsts_eq : firsts t.frames = steps ++ extras
  short : steps.length < 16
  chain : steps.map (·.frame.key) = admissionChain.take steps.length
  seen : ∀ key ∈ admissionChain,
    t.session.seen.get? key = (steps.find? (·.frame.key = key)).map (·.frame)
  runtime : ∀ o ∈ extras, o.frame.leg = .runtimeToApi
  last : extras ≠ [] → steps.length = 15
  timely : ∀ o ∈ steps, o.time - startedAt < admissionTimeoutNs
  tied : EachAfter Tied steps

namespace Climbed

variable {key : Leg × FrameType} {o : Observed}

/-- What has been seen is a step. -/
theorem step_of_seen (h : Climbed startedAt t steps extras) (hkey : key ∈ admissionChain)
    (hseen : t.session.seen.get? key = some f) : ∃ o ∈ steps, o.frame = f ∧ o.frame.key = key := by
  rw [h.seen key hkey] at hseen
  obtain ⟨o, ho, rfl⟩ := Option.map_eq_some_iff.mp hseen
  exact ⟨o, mem_of_find?_eq_some ho, rfl, by simpa using List.find?_some ho⟩

theorem mem_take (h : Climbed startedAt t steps extras) (hkey : key ∈ admissionChain)
    (hseen : t.session.seen.get? key = some f) : key ∈ admissionChain.take steps.length := by
  obtain ⟨o, ho, -, rfl⟩ := h.step_of_seen hkey hseen
  rw [← h.chain]
  exact mem_map_of_mem ho

theorem mem_chain_of_prerequisite : ∀ {key p : Leg × FrameType}, prerequisite key = some p →
    p ∈ admissionChain := by
  intro key p h
  unfold prerequisite at h
  split at h <;> cases h <;> decide

/-- No two steps have the same key. -/
theorem key_inj (h : Climbed startedAt t steps extras) {p : Observed} (ho : o ∈ steps)
    (hp : p ∈ steps) (heq : o.frame.key = p.frame.key) : o = p := by
  have hnodup : (steps.map (·.frame.key)).Nodup := by
    rw [h.chain]
    exact admissionChain_nodup.sublist (take_sublist _ _)
  exact inj_on_of_nodup_map hnodup ho hp heq

/-- A frame of the handshake is the next of the chain. -/
theorem next_step (h : Climbed startedAt t steps extras) (hcounts : Counts t)
    (hsequence : f.hopSequence = t.session.next f.leg) (hphase : t.session.phase f = .ok u)
    (hkind : isHandshakeKind f.frameType = true) : admissionChain[steps.length]? = some f.key := by
  obtain ⟨-, hposition, -, horder⟩ := order_of_phase hphase hkind
  refine next_of_position hposition ?_ fun p hp => ?_
  · rw [hsequence, hcounts.next, length_hops, h.firsts_eq, map_append, h.chain]
    simp [legCount]
  · obtain ⟨g, hg⟩ := Option.isSome_iff_exists.mp ((order_ok horder).1 p hp)
    exact h.mem_take (mem_chain_of_prerequisite hp) hg

theorem mem_chain_of_ties {tie : (Leg × FrameType) × Tie} (h : tie ∈ ties key) : tie.1 ∈ admissionChain := by
  unfold ties at h
  split at h <;> simp only [mem_cons, not_mem_nil, or_false] at h
  · rcases h with rfl | rfl <;> decide
  all_goals rw [h]; decide

section
variable (h : Climbed startedAt t steps extras)
include h

/-- It keeps its ties. -/
theorem tied_step (hdecoded : Decoded f.leg f)
    (hphase : t.session.phase f = .ok u) (hkind : isHandshakeKind f.frameType = true) :
    Tied steps ⟨f, now⟩ := by
  intro tie htie
  obtain ⟨-, -, -, horder⟩ := order_of_phase hphase hkind
  obtain ⟨g, hg, hholds⟩ := ties_of_order horder hdecoded tie htie
  obtain ⟨o, ho, rfl, hkey⟩ := h.step_of_seen (mem_chain_of_ties htie) hg
  exact ⟨o, ho, hkey, hholds⟩

/-- The chain with its next frame. -/
theorem chain_concat (hnext : admissionChain[steps.length]? = some f.key) :
    (steps ++ [Observed.mk f now]).map (·.frame.key) = admissionChain.take (steps.length + 1) := by
  rw [map_append, h.chain, take_add_one, hnext]
  rfl

/-- The next frame of the chain is none of the steps. -/
theorem find_next (hnext : admissionChain[steps.length]? = some f.key) :
    steps.find? (·.frame.key = f.key) = none := by
  rw [List.find?_eq_none]
  intro o ho heq
  have hmem : o.frame.key ∈ admissionChain.take steps.length := h.chain ▸ mem_map_of_mem ho
  rw [of_decide_eq_true heq] at hmem
  exact Nat.lt_irrefl _ (lt_of_mem_take hnext hmem)

theorem timely_concat (htimely : now - startedAt < admissionTimeoutNs) :
    ∀ o ∈ steps ++ [Observed.mk f now], o.time - startedAt < admissionTimeoutNs := by
  intro o ho
  rcases mem_append.mp ho with ho | ho
  · exact h.timely o ho
  · rw [mem_singleton.mp ho]
    exact htimely

/-- A frame that is the next of the chain, but not the last. -/
theorem climb (hreplay : f.replay = false)
    (hnext : admissionChain[steps.length]? = some f.key) (htied : Tied steps ⟨f, now⟩)
    (htimely : now - startedAt < admissionTimeoutNs) (hshort : steps.length < 15)
    (hstarted : s.started = t.session.started) (hseen : s.seen = t.session.seen.set f.key f) :
    Climbed startedAt ⟨s, t.frames ++ [⟨f, now⟩]⟩ (steps ++ [⟨f, now⟩]) [] where
  started := hstarted.trans h.started
  firsts_eq := by
    have hextras : extras = [] := not_not.mp fun hne => by have := h.last hne; omega
    have heq := h.firsts_eq
    rw [hextras] at heq
    unfold firsts at heq ⊢
    simp [hreplay, heq]
  short := by simp; omega
  chain := by
    rw [length_append]
    exact h.chain_concat hnext
  seen := by
    intro key hkey
    rw [hseen, Dict.get?_set, List.find?_append]
    by_cases heq : key = f.key
    · simp [heq, h.find_next hnext]
    · simp [h.seen key hkey, heq, Ne.symm heq]
  runtime := by simp
  last := by simp
  timely := h.timely_concat htimely
  tied := eachAfter_concat h.tied htied

/-- A frame of the Runtime outside the handshake, after the commit. -/
theorem extra (hreplay : f.replay = false)
    (hleg : f.leg = .runtimeToApi) (hcommitted : t.session.committed = true)
    (hstarted : s.started = t.session.started) (hseen : s.seen = t.session.seen) :
    Climbed startedAt ⟨s, t.frames ++ [⟨f, now⟩]⟩ steps (extras ++ [⟨f, now⟩]) where
  started := hstarted.trans h.started
  firsts_eq := by
    have heq := h.firsts_eq
    unfold firsts at heq ⊢
    simp [hreplay, heq]
  short := h.short
  chain := h.chain
  seen := by rw [hseen]; exact h.seen
  runtime := by
    intro o ho
    rcases mem_append.mp ho with ho | ho
    · exact h.runtime o ho
    · rw [mem_singleton.mp ho]; exact hleg
  last := by
    intro _
    obtain ⟨ack, hack, -⟩ := (Option.any_eq_true _ _).mp hcommitted
    have hlate : 14 < steps.length := lt_of_mem_take rfl (h.mem_take (by decide) hack)
    have hshort := h.short
    omega
  timely := h.timely
  tied := h.tied

/-- A replay changes nothing. -/
theorem replayed (hreplay : o.frame.replay = true)
    (hstarted : s.started = t.session.started) (hseen : s.seen = t.session.seen) :
    Climbed startedAt ⟨s, t.frames ++ [o]⟩ steps extras :=
  { h with
    started := hstarted.trans h.started
    firsts_eq := by
      have heq := h.firsts_eq
      unfold firsts at heq ⊢
      simp [hreplay, heq]
    seen := by rw [hseen]; exact h.seen }

end

end Climbed

/-! ## Admission -/

/-- A frame that admits the browser: `steps` and this frame are the chain, each in time and tied to
its predecessors; all others came from the Runtime, after its commit. -/
structure Admission (startedAt : ℤ) (earlier steps extras : List Observed) (o : Observed) : Prop where
  original : o.frame.replay = false
  chain : (steps ++ [o]).map (·.frame.key) = admissionChain
  earlier_eq : firsts earlier = steps ++ extras
  runtime : ∀ x ∈ extras, x.frame.leg = .runtimeToApi
  timely : ∀ x ∈ steps ++ [o], x.time - startedAt < admissionTimeoutNs
  committed : ∀ x ∈ steps, x.frame.key = (.runtimeToApi, .admissionCommitAck) →
    x.frame.field "result" = some (.text "committed")
  tied : EachAfter Tied (steps ++ [o])

/-- `ADMITTED` ends a complete chain. -/
def Admits (startedAt : ℤ) (earlier : List Observed) (o : Observed) : Prop :=
  o.frame.key = (.apiToBrowser, .admitted) → ∃ steps extras, Admission startedAt earlier steps extras o

theorem Climbed.admission (h : Climbed startedAt t steps extras) (hreplay : f.replay = false)
    (hnext : admissionChain[steps.length]? = some f.key) (htied : Tied steps ⟨f, now⟩)
    (htimely : now - startedAt < admissionTimeoutNs) (hlast : steps.length = 15)
    (hcommitted : t.session.committed = true) : Admission startedAt t.frames steps extras ⟨f, now⟩ where
  original := hreplay
  chain := by
    rw [h.chain_concat hnext, hlast]
    rfl
  earlier_eq := h.firsts_eq
  runtime := h.runtime
  timely := h.timely_concat htimely
  committed := by
    intro x hx hkey
    obtain ⟨ack, hack, hresult⟩ := (Option.any_eq_true _ _).mp hcommitted
    obtain ⟨y, hy, rfl, hkey'⟩ := h.step_of_seen (by decide) hack
    rw [h.key_inj hx hy (hkey.trans hkey'.symm)]
    exact eq_of_beq hresult
  tied := eachAfter_concat h.tied htied

/-- The session climbs the chain until it is admitted, fails or is closed. -/
structure Climbing (startedAt : ℤ) (t : Transcript ι) : Prop where
  counts : Counts t
  admitted : t.session.has .apiToBrowser .admitted = true → 4 ≤ t.session.next .apiToBrowser
  climbed : t.session.closed = false → t.session.failed = false →
    t.session.has .apiToBrowser .admitted = false → ∃ steps extras, Climbed startedAt t steps extras
  admits : EachAfter (Admits startedAt) t.frames

theorem not_isFiled (h : isHandshakeKind f.frameType = false) : isFiled f = false := by
  revert h
  unfold isFiled
  cases f.leg <;> cases f.frameType <;> decide

/-- What an accepted frame in sequence does to the browser's counter. -/
theorem next_le_of_advance (hadvance : Advance t.session f now s) (leg : Leg) :
    t.session.next leg ≤ s.next leg := by
  rw [hadvance.next]
  by_cases hleg : leg = f.leg
  · rw [hleg, Function.update_self]
    exact Nat.le_succ _
  · rw [Function.update_of_ne hleg]

/-- A frame outside the handshake. -/
theorem Climbing.other (h : Climbing startedAt t) (hcounts : Counts ⟨s, t.frames ++ [⟨f, now⟩]⟩)
    (hdecoded : Decoded f.leg f) (hadvance : Advance t.session f now s)
    (hkind : isHandshakeKind f.frameType = false) : Climbing startedAt ⟨s, t.frames ++ [⟨f, now⟩]⟩ := by
  have hseen : s.seen = t.session.seen := by
    rw [hadvance.seen, not_isFiled hkind]
    rfl
  have hhas : s.has .apiToBrowser .admitted = t.session.has .apiToBrowser .admitted := by
    rw [WireSession.has, hseen]
    rfl
  refine ⟨hcounts, fun hadmitted => ?_, fun hclosed hfailed hadmitted => ?_, ?_⟩
  · exact (h.admitted (hhas ▸ hadmitted)).trans (next_le_of_advance hadvance _)
  · have hfailed' := hadvance.failed.symm.trans hfailed
    rw [Bool.or_eq_false_iff] at hfailed'
    have hadmitted' := hhas.symm.trans hadmitted
    obtain ⟨steps, extras, hclimbed⟩ := h.climbed (hadvance.closed.symm.trans hclosed) hfailed'.1 hadmitted'
    rcases fails_of_phase hadvance.phase hkind hdecoded hfailed'.1 hadmitted' with hfails | hruntime
    · rw [hfailed'.2] at hfails
      cases hfails
    · exact ⟨steps, _, hclimbed.extra hdecoded.replay_eq hruntime.1 hruntime.2 hadvance.started hseen⟩
  · refine eachAfter_concat h.admits fun hkey => ?_
    rw [show f.frameType = .admitted from congrArg Prod.snd hkey] at hkind
    cases hkind

/-- `ADMITTED` is the third frame of its leg. -/
theorem admitted_position {n : ℕ}
    (h : Leg.apiToBrowser.handshake[n]? = some FrameType.admitted.value) : n = 2 := by
  match n with
  | 0 | 1 => revert h; decide
  | 2 => rfl
  | n + 3 => cases h

/-- A frame of the handshake. -/
theorem Climbing.handshake (h : Climbing startedAt t) (hcounts : Counts ⟨s, t.frames ++ [⟨f, now⟩]⟩)
    (hdecoded : Decoded f.leg f) (hsequence : f.hopSequence = t.session.next f.leg)
    (hadvance : Advance t.session f now s) (hkind : isHandshakeKind f.frameType = true)
    (hopen : t.session.closed = false) (htimely : t.session.has .apiToBrowser .admitted = true ∨
      now - t.session.started < admissionTimeoutNs) : Climbing startedAt ⟨s, t.frames ++ [⟨f, now⟩]⟩ := by
  obtain ⟨hfailed, hposition, -, horder⟩ := order_of_phase hadvance.phase hkind
  have hfiled : isFiled f = true := by
    simpa [isFiled] using .inr (mem_of_getElem? hposition)
  have hseen : s.seen = t.session.seen.set f.key f := by rw [hadvance.seen, hfiled]; rfl
  have hhas : s.has .apiToBrowser .admitted = true ↔
      f.key = (.apiToBrowser, .admitted) ∨ t.session.has .apiToBrowser .admitted = true := by
    rw [WireSession.has, hseen, Dict.get?_set]
    split
    · next heq => simp [← heq]
    · next hne => simp [Ne.symm hne, WireSession.has]
  have hthird : f.key = (.apiToBrowser, .admitted) → t.session.next .apiToBrowser = 3 := by
    intro hkey
    have hleg : f.leg = .apiToBrowser := congrArg Prod.fst hkey
    rw [hleg, show f.frameType = .admitted from congrArg Prod.snd hkey] at hposition
    have := admitted_position hposition
    rw [← hleg, ← hsequence]
    omega
  cases hadmitted : t.session.has .apiToBrowser .admitted with
  | true =>
    have hfour := h.admitted hadmitted
    refine ⟨hcounts, fun _ => hfour.trans (next_le_of_advance hadvance _), fun _ _ hnot => ?_, ?_⟩
    · rw [hhas.mpr (.inr hadmitted)] at hnot
      cases hnot
    · refine eachAfter_concat h.admits fun hkey => ?_
      have := hthird hkey
      omega
  | false =>
    obtain ⟨steps, extras, hclimbed⟩ := h.climbed hopen hfailed hadmitted
    have hnext := hclimbed.next_step h.counts hsequence hadvance.phase hkind
    have htied : Tied steps ⟨f, now⟩ := hclimbed.tied_step hdecoded hadvance.phase hkind
    have htime : now - startedAt < admissionTimeoutNs := by
      rw [← hclimbed.started]
      exact htimely.resolve_left (by simp [hadmitted])
    rw [hadmitted] at hhas
    by_cases hlast : steps.length = 15
    · have hkey : f.key = (.apiToBrowser, .admitted) := by
        rw [hlast] at hnext
        exact (Option.some.inj hnext).symm
      refine ⟨hcounts, fun _ => ?_, fun _ _ hnot => ?_, eachAfter_concat h.admits fun _ => ?_⟩
      · rw [hadvance.next, show f.leg = .apiToBrowser from congrArg Prod.fst hkey,
          Function.update_self, hthird hkey]
      · rw [hhas.mpr (.inl hkey)] at hnot
        cases hnot
      · have hkind : f.frameType = .admitted := congrArg Prod.snd hkey
        exact ⟨steps, extras, hclimbed.admission hdecoded.replay_eq hnext htied htime hlast
          (admitted_of_order horder hdecoded hkind).1⟩
    · have hkey : f.key ≠ (.apiToBrowser, .admitted) := by
        intro hkey
        rw [hkey] at hnext
        exact hlast (place_inj hnext rfl)
      refine ⟨hcounts, fun hs => ?_, fun _ _ _ => ?_, eachAfter_concat h.admits fun hk => ?_⟩
      · exact (hhas.mp hs).elim (fun hk => absurd hk hkey) nofun
      · have hshort := hclimbed.short
        exact ⟨_, [], hclimbed.climb hdecoded.replay_eq hnext htied htime (by omega)
          hadvance.started hseen⟩
      · exact absurd hk hkey

theorem climbing_accept [DecidableEq ι] (t : Transcript ι) (c : Call ι) (h : Climbing startedAt t) :
    Climbing startedAt (t.accept c) := by
  have hcounts := counts_accept t c h.counts
  rcases t.accept_cases c with ⟨e, -, heq⟩ | ⟨f, s, now, -, heq, hopen, htimely, haccepted⟩ <;>
    rw [heq] at hcounts ⊢
  · refine ⟨hcounts, fun hseen => ?_, fun hclosed => ?_, h.admits⟩
    · simp [WireSession.has, WireSession.close] at hseen
    · simp [WireSession.close] at hclosed
  cases haccepted with
  | @replay frame _ _ hkey =>
    refine ⟨hcounts, h.admitted, fun hclosed hfailed hadmitted => ?_, ?_⟩
    · obtain ⟨steps, extras, hclimbed⟩ := h.climbed hclosed hfailed hadmitted
      exact ⟨steps, extras, hclimbed.replayed rfl rfl rfl⟩
    · refine eachAfter_concat h.admits fun hadmitted => ?_
      rw [show frame.key = (.apiToBrowser, .admitted) from hadmitted] at hkey
      exact absurd hkey (by decide)
  | next hdecoded hsequence hadvance =>
    cases hkind : isHandshakeKind f.frameType with
    | false => exact h.other hcounts hdecoded hadvance hkind
    | true => exact h.handshake hcounts hdecoded hsequence hadvance hkind hopen htimely

theorem climbing_reached [DecidableEq ι] (admission : Record) (runtimeEpoch : Scalar) (streamId : ι)
    (startedAt : ℤ) (calls : List (Call ι)) (i : ℕ) :
    Climbing startedAt (reached (fresh admission runtimeEpoch streamId startedAt) calls i) := by
  refine invariant_stateAt ⟨counts_fresh admission runtimeEpoch streamId startedAt, ?_, ?_,
    eachAfter_nil⟩ climbing_accept i
  · intro hadmitted
    cases hadmitted
  · intro _ _ _
    exact ⟨[], [], ⟨rfl, rfl, by decide, rfl, fun _ _ => rfl, by simp, by simp, by simp,
      eachAfter_nil⟩⟩

/-- In every run of a session, `ADMITTED` is accepted only at the end of the sixteen frames of the
chain, all in time and tied as the handshake demands. -/
theorem admitted_after_chain [DecidableEq ι] (admission : Record) (runtimeEpoch : Scalar)
    (streamId : ι) (startedAt : ℤ) (calls : List (Call ι)) (i n : ℕ) (o : Observed)
    (hframe : (reached (fresh admission runtimeEpoch streamId startedAt) calls i).frames[n]? = some o)
    (hadmitted : o.frame.key = (.apiToBrowser, .admitted)) : ∃ steps extras, Admission startedAt
      ((reached (fresh admission runtimeEpoch streamId startedAt) calls i).frames.take n) steps extras o :=
  (climbing_reached admission runtimeEpoch streamId startedAt calls i).admits n o hframe hadmitted

/-- The sample attachment is admitted by its seventeenth frame, after an early record. -/
theorem admitted_after_chain_sample : ∃ o steps extras, (Sample.transcript 19).frames[16]? = some o ∧
    o.frame.key = (.apiToBrowser, .admitted) ∧
    Admission 0 ((Sample.transcript 19).frames.take 16) steps extras o := by
  have hkey : ((Sample.transcript 19).frames.map (·.frame.key))[16]? =
      some (.apiToBrowser, .admitted) := by
    rw [Sample.transcript_accepted.2.2.2]
    rfl
  rw [List.getElem?_map] at hkey
  obtain ⟨o, ho, hadmitted⟩ := Option.map_eq_some_iff.mp hkey
  obtain ⟨steps, extras, h⟩ := admitted_after_chain Sample.bound (.str ['7']) () 0 Sample.calls 19 16 o
    ho hadmitted
  exact ⟨o, steps, extras, ho, hadmitted, h⟩

end Transcript

end AgentBox.Wire
