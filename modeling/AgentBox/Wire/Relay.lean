import AgentBox.Wire.Accept

/-!
# The relay is a bounded FIFO

Encrypted records enter the relay on the leg of their sender and leave it on the leg of their
receiver. `Conserves` says that what has left, followed by what is pending, is what has entered; one
call keeps it, so it holds of every transcript whose session is alive.
-/

namespace AgentBox.Wire

/-- The leg on which a kind of encrypted record leaves the relay. -/
def relayLeg (kind : FrameType) : Leg := if kind = .input then .apiToRuntime else .apiToBrowser

namespace Transcript

open WireSession

variable {leg : Leg} {o : Observed} {f : WireFrame} {now : ℤ}
  {ι : Type} {frames : List Observed} {t : Transcript ι} {kind : FrameType} {s : WireSession ι}

/-- The payloads of one kind accepted on one leg, in order. -/
def payloads (frames : List Observed) (leg : Leg) (kind : FrameType) : List Bytes :=
  (frames.filter fun o => o.frame.key = (leg, kind)).map (·.frame.payload)

theorem payloads_append_of_key (h : o.frame.key = (leg, kind)) :
    payloads (frames ++ [o]) leg kind = payloads frames leg kind ++ [o.frame.payload] := by
  simp [payloads, h]

theorem payloads_append_of_key_ne (h : o.frame.key ≠ (leg, kind)) :
    payloads (frames ++ [o]) leg kind = payloads frames leg kind := by
  simp [payloads, h]

/-- What entered the relay has left it or is pending, in order and within bounds. -/
structure Conserves (t : Transcript ι) (kind : FrameType) : Prop where
  queue : payloads t.frames (relayLeg kind) kind ++ t.session.pending kind =
    payloads t.frames (sourceLeg kind) kind
  bytes : t.session.pendingBytes kind =
    ((t.session.pending kind).map fun payload => 24 + payload.length).sum
  limit : t.session.pendingBytes kind ≤ t.session.relayLimit kind
  length : (t.session.pending kind).length ≤ 256

/-- A frame of another kind that leaves the queue alone keeps the relay conserved; filing a frame can
only raise the limit. -/
theorem Conserves.of_same (h : Conserves t kind) (hkind : o.frame.frameType ≠ kind)
    (hpending : s.pending kind = t.session.pending kind)
    (hbytes : s.pendingBytes kind = t.session.pendingBytes kind)
    (hlimit : t.session.relayLimit kind ≤ s.relayLimit kind) : Conserves ⟨s, t.frames ++ [o]⟩ kind := by
  have hkey : ∀ leg, o.frame.key ≠ (leg, kind) := fun leg heq => hkind (congrArg Prod.snd heq)
  refine ⟨?_, ?_, ?_, ?_⟩
  · rw [payloads_append_of_key_ne (hkey _), payloads_append_of_key_ne (hkey _), hpending]
    exact h.queue
  · rw [hpending, hbytes]; exact h.bytes
  · rw [hbytes]; exact h.limit.trans hlimit
  · rw [hpending]; exact h.length

theorem relayLimit_le {s' : WireSession ι}
    (h : s.has .apiToBrowser .admitted = true → s'.has .apiToBrowser .admitted = true) :
    s.relayLimit kind ≤ s'.relayLimit kind := by
  unfold relayLimit
  split <;> split
  · rfl
  · omega
  · next hold hnew =>
    exfalso
    push Not at hold
    rcases hnew with hnew | hnew
    · exact hold.1 hnew
    · exact hnew (h hold.2)
  · rfl

theorem relayLeg_ne_sourceLeg (kind : FrameType) : relayLeg kind ≠ sourceLeg kind := by
  unfold relayLeg sourceLeg
  split <;> decide

/-- An encrypted record travels only on the two legs of its kind. -/
theorem leg_of_isOpaque (hdecoded : Decoded f.leg f) (h : f.frameType.isOpaque = true)
    (hleg : f.leg ≠ sourceLeg f.frameType) : f.leg = relayLeg f.frameType := by
  have hallowed := hdecoded.allowed
  revert hallowed hleg h
  cases f.frameType <;> cases f.leg <;> decide

theorem not_isFiled_of_isOpaque (h : f.frameType.isOpaque = true) : isFiled f = false := by
  unfold isFiled
  revert h
  cases f.frameType <;> cases f.leg <;> decide

/-- The relay while the attachment is alive. -/
def Relays (t : Transcript ι) : Prop :=
  t.session.failed = false → t.session.closed = false →
    ∀ kind : FrameType, kind.isOpaque = true → Conserves t kind

theorem queued_other {pending : FrameType → List Bytes} {pendingBytes : FrameType → ℕ}
    (h : Queued s f pending pendingBytes) (hkind : kind ≠ f.frameType) :
    pending kind = s.pending kind ∧ pendingBytes kind = s.pendingBytes kind := by
  cases h with
  | enters _ _ _ hpending hpendingBytes =>
    rw [hpending, hpendingBytes, Function.update_of_ne hkind, Function.update_of_ne hkind]
    exact ⟨rfl, rfl⟩
  | leaves _ _ _ hpending hpendingBytes =>
    rw [hpending, hpendingBytes, Function.update_of_ne hkind, Function.update_of_ne hkind]
    exact ⟨rfl, rfl⟩

/-- An encrypted record keeps both queues conserved. -/
theorem conserves_record (h : ∀ kind : FrameType, kind.isOpaque = true → Conserves t kind)
    (hdecoded : Decoded f.leg f) (hsealed : f.frameType.isOpaque = true)
    (hqueued : Queued t.session f s.pending s.pendingBytes)
    (hlimit : ∀ kind, s.relayLimit kind = t.session.relayLimit kind) (hkind : kind.isOpaque = true) :
    Conserves ⟨s, t.frames ++ [⟨f, now⟩]⟩ kind := by
  have hold := h kind hkind
  by_cases heq : f.frameType = kind
  · subst heq
    cases hqueued with
    | enters hleg hbytes hlength hpending hpendingBytes =>
      have hsource : f.key = (sourceLeg f.frameType, f.frameType) := by
        rw [WireFrame.key, hleg]
      have hrelay : f.key ≠ (relayLeg f.frameType, f.frameType) := by
        rw [hsource]
        exact fun heq => relayLeg_ne_sourceLeg _ (congrArg Prod.fst heq).symm
      have hcurrent : s.pending f.frameType = t.session.pending f.frameType ++ [f.payload] := by
        rw [hpending, Function.update_self]
      have htotal : s.pendingBytes f.frameType =
          t.session.pendingBytes f.frameType + f.wire.length := by
        rw [hpendingBytes, Function.update_self]
      refine ⟨?_, ?_, ?_, ?_⟩
      · rw [payloads_append_of_key_ne hrelay, payloads_append_of_key hsource, hcurrent,
          ← List.append_assoc, hold.queue]
      · rw [htotal, hcurrent, hold.bytes, hdecoded.length_wire]
        simp
      · rw [htotal, hlimit]; exact hbytes
      · rw [hcurrent, List.length_append]; exact hlength
    | leaves rest hleg hhead hpending hpendingBytes =>
      have hrelay : f.key = (relayLeg f.frameType, f.frameType) := by
        rw [WireFrame.key, leg_of_isOpaque hdecoded hsealed hleg]
      have hsource : f.key ≠ (sourceLeg f.frameType, f.frameType) := fun heq =>
        hleg (congrArg Prod.fst heq)
      have hcurrent : s.pending f.frameType = rest := by rw [hpending, Function.update_self]
      have htotal : s.pendingBytes f.frameType = (rest.map fun p => 24 + p.length).sum := by
        rw [hpendingBytes, Function.update_self, hold.bytes, hhead, List.map_cons, List.sum_cons]
        omega
      refine ⟨?_, ?_, ?_, ?_⟩
      · rw [payloads_append_of_key hrelay, payloads_append_of_key_ne hsource, hcurrent,
          ← hold.queue, hhead, List.append_assoc, List.singleton_append]
      · rw [htotal, hcurrent]
      · have hle := hold.limit
        rw [hold.bytes, hhead, List.map_cons, List.sum_cons] at hle
        rw [htotal, hlimit]
        omega
      · have hle := hold.length
        rw [hhead, List.length_cons] at hle
        rw [hcurrent]
        omega
  · obtain ⟨hpending, hpendingBytes⟩ := queued_other hqueued (Ne.symm heq)
    exact hold.of_same heq hpending hpendingBytes (hlimit kind).ge

theorem has_of_advance (h : Advance t.session f now s) (hhas : t.session.has leg kind = true) :
    s.has leg kind = true := by
  unfold has at hhas ⊢
  rw [h.seen]
  split
  · rw [Dict.get?_set]
    split
    · rfl
    · exact hhas
  · exact hhas

/-- One call keeps the relay conserved. -/
theorem relays_accept [DecidableEq ι] (t : Transcript ι) (c : Call ι) (h : Relays t) :
    Relays (t.accept c) := by
  rcases t.accept_cases c with ⟨e, -, heq⟩ | ⟨f, s, now, -, heq, hopen, -, haccepted⟩
  · rw [heq]
    intro _ hclosed
    cases hclosed
  · rw [heq]
    intro hfailed _ kind hkind
    cases haccepted with
    | @replay frame _ _ hkey _ o _ _ =>
      have hne : frame.frameType ≠ kind := by
        rintro rfl
        have hsnd := frameType_of_replayable hkey
        revert hsnd hkind
        cases frame.frameType <;> decide
      exact (h hfailed hopen kind hkind).of_same hne rfl rfl (Nat.le_refl _)
    | next hdecoded _ hadvance =>
      have hboth : t.session.failed = false ∧ t.session.fails f = false := by
        have := hadvance.failed
        rw [hfailed] at this
        simpa using this.symm
      have hold := h hboth.1 hopen
      cases hsealed : f.frameType.isOpaque with
      | true =>
        obtain ⟨-, envelope, -, hqueued, -⟩ := hadvance.record hsealed
        refine conserves_record hold hdecoded hsealed hqueued (fun kind => ?_) hkind
        have hseen : s.seen = t.session.seen := by
          rw [hadvance.seen, not_isFiled_of_isOpaque hsealed]; rfl
        unfold relayLimit has
        rw [hseen]
      | false =>
        obtain ⟨-, -, hrest⟩ := hadvance.control hsealed
        obtain ⟨hpending, hpendingBytes⟩ := hrest hfailed
        have hne : f.frameType ≠ kind := by
          rintro rfl
          rw [hsealed] at hkind
          cases hkind
        exact (hold kind hkind).of_same hne (by rw [hpending]) (by rw [hpendingBytes])
          (relayLimit_le (has_of_advance hadvance))

theorem relays_reached [DecidableEq ι] (admission : Record) (runtimeEpoch : Scalar) (streamId : ι)
    (startedAt : ℤ) (calls : List (Call ι)) (i : ℕ) :
    Relays (reached (fresh admission runtimeEpoch streamId startedAt) calls i) :=
  invariant_stateAt (fun _ _ _ _ => ⟨rfl, rfl, Nat.zero_le _, Nat.zero_le _⟩) relays_accept i

/-- The relay of a live attachment neither duplicates, reorders, alters nor injects an encrypted
record: what left is the beginning of what entered, and the rest is pending within the budgets. -/
structure FifoRelay (t : Transcript ι) : Prop where
  inputs : payloads t.frames .apiToRuntime .input ++ t.session.pending .input =
    payloads t.frames .browserToApi .input
  outputs : payloads t.frames .apiToBrowser .output ++ t.session.pending .output =
    payloads t.frames .runtimeToApi .output
  inputBytes : t.session.pendingBytes .input =
    ((t.session.pending .input).map fun payload => 24 + payload.length).sum
  outputBytes : t.session.pendingBytes .output =
    ((t.session.pending .output).map fun payload => 24 + payload.length).sum
  inputLimit : t.session.pendingBytes .input ≤ 65536
  outputLimit : t.session.pendingBytes .output ≤
    if t.session.has .apiToBrowser .admitted then 262144 else 65536
  inputEntries : (t.session.pending .input).length ≤ 256
  outputEntries : (t.session.pending .output).length ≤ 256

/-- In every run, while the session has neither failed nor closed, the relay is a bounded FIFO. -/
theorem fifo_relay [DecidableEq ι] (admission : Record) (runtimeEpoch : Scalar) (streamId : ι)
    (startedAt : ℤ) (calls : List (Call ι)) (i : ℕ) :
    let t := reached (fresh admission runtimeEpoch streamId startedAt) calls i
    t.session.failed = false → t.session.closed = false → FifoRelay t := by
  intro t hfailed hclosed
  have hall := relays_reached admission runtimeEpoch streamId startedAt calls i hfailed hclosed
  have hinput := hall .input rfl
  have houtput := hall .output rfl
  refine ⟨hinput.queue, houtput.queue, hinput.bytes, houtput.bytes, hinput.limit, ?_, hinput.length,
    houtput.length⟩
  refine houtput.limit.trans ?_
  unfold relayLimit
  by_cases h : t.session.has .apiToBrowser .admitted = true <;> simp [h, t]

/-- The sample attachment relays one record and holds another. -/
theorem fifo_relay_sample : (Sample.transcript 19).session.failed = false ∧
    (Sample.transcript 19).session.closed = false ∧ FifoRelay (Sample.transcript 19) := by
  obtain ⟨hclosed, hfailed, -⟩ := Sample.transcript_accepted
  unfold Sample.transcript at hclosed hfailed ⊢
  exact ⟨hfailed, hclosed, fifo_relay _ _ _ _ _ _ hfailed hclosed⟩

end Transcript

end AgentBox.Wire
