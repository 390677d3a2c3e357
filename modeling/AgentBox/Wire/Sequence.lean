import AgentBox.Wire.Accept

/-!
# Sequence numbers and replays

Frames that are not replays carry the hop sequences 1, 2, 3, ... on each leg, encrypted records the
same of their own counter, and output cursors only grow. A replay repeats an earlier frame byte for
byte, once. A rejected call ends all of this: the session is closed and stays as it is.
-/

namespace AgentBox.Wire.Transcript

open List WireSession

variable {o : Observed} {g : WireFrame}
  {ι : Type} {frames : List Observed} {t : Transcript ι} {s : WireSession ι} {f : WireFrame}
  {now : ℤ} {leg : Leg}

/-! ## Counters -/

variable (frames : List Observed) (leg : Leg)

/-- The hop sequences of one leg's frames, replays left out. -/
def hops : List ℕ :=
  (frames.filter fun o => !o.frame.replay && o.frame.leg = leg).map (·.frame.hopSequence)

/-- The crypto sequences of one leg's encrypted records. -/
def cryptoSequences : List (Option ℕ) :=
  (frames.filter fun o => o.frame.frameType.isOpaque && o.frame.leg = leg).map fun o =>
    (decodeAwce o.frame.payload).toOption.map (·.cryptoSequence)

/-- The stream cursors of one leg's output records. -/
def outputCursors : List (Option ℕ) :=
  (frames.filter fun o => o.frame.key = (leg, .output)).map fun o =>
    (decodeAwce o.frame.payload).toOption.map (·.streamCursor)

theorem hops_append (o : Observed) : hops (frames ++ [o]) leg =
    hops frames leg ++ if !o.frame.replay && o.frame.leg = leg then [o.frame.hopSequence] else [] :=
  map_filter_concat _ _ _ _

theorem cryptoSequences_append (o : Observed) : cryptoSequences (frames ++ [o]) leg =
    cryptoSequences frames leg ++ if o.frame.frameType.isOpaque && o.frame.leg = leg then
      [(decodeAwce o.frame.payload).toOption.map (·.cryptoSequence)] else [] :=
  map_filter_concat _ _ _ _

theorem outputCursors_append (o : Observed) : outputCursors (frames ++ [o]) leg =
    outputCursors frames leg ++ if decide (o.frame.key = (leg, .output)) then
      [(decodeAwce o.frame.payload).toOption.map (·.streamCursor)] else [] :=
  map_filter_concat _ _ _ _

/-- The session's counters count the frames it has accepted. -/
structure Counts (t : Transcript ι) : Prop where
  next : ∀ leg, t.session.next leg = (hops t.frames leg).length + 1
  hops : ∀ leg, hops t.frames leg = List.range' 1 (hops t.frames leg).length
  crypto : ∀ leg, t.session.crypto leg = (cryptoSequences t.frames leg).length + 1
  sequences : ∀ leg, cryptoSequences t.frames leg =
    (List.range' 1 (cryptoSequences t.frames leg).length).map some
  cursors : ∀ leg, ∃ cursors : List ℕ, outputCursors t.frames leg = cursors.map some ∧
    cursors.Pairwise (· < ·) ∧ ∀ c ∈ cursors, c ≤ t.session.cursor leg

theorem not_isOpaque_of_replayable (h : f.key ∈ replayable) : f.frameType.isOpaque = false := by
  have hkind := frameType_of_replayable h
  revert hkind
  cases f.frameType <;> decide

theorem range'_concat_some (n : ℕ) : (List.range' 1 (n + 1)).map some =
    (List.range' 1 n).map some ++ [some (n + 1)] := by
  rw [List.range'_1_concat, map_append, Nat.add_comm 1 n]
  rfl

/-- A replay moves no counter. -/
theorem Counts.replay (h : Counts t) (hreplay : o.frame.replay = true)
    (hkey : o.frame.key ∈ replayable) (hnext : s.next = t.session.next)
    (hcrypto : s.crypto = t.session.crypto) (hcursor : s.cursor = t.session.cursor) :
    Counts ⟨s, t.frames ++ [o]⟩ := by
  have hsealed := not_isOpaque_of_replayable hkey
  have houtput : ∀ leg, o.frame.key ≠ (leg, .output) := by
    intro leg heq
    rw [show o.frame.frameType = .output from congrArg Prod.snd heq] at hsealed
    cases hsealed
  have hhops : ∀ leg, Transcript.hops (t.frames ++ [o]) leg = Transcript.hops t.frames leg :=
    fun leg => by rw [hops_append]; simp [hreplay]
  have hsequences : ∀ leg, cryptoSequences (t.frames ++ [o]) leg = cryptoSequences t.frames leg :=
    fun leg => by rw [cryptoSequences_append]; simp [hsealed]
  have hcursors : ∀ leg, outputCursors (t.frames ++ [o]) leg = outputCursors t.frames leg :=
    fun leg => by rw [outputCursors_append]; simp [houtput leg]
  refine ⟨fun leg => ?_, fun leg => ?_, fun leg => ?_, fun leg => ?_, fun leg => ?_⟩
  · rw [hhops, hnext]; exact h.next leg
  · rw [hhops]; exact h.hops leg
  · rw [hsequences, hcrypto]; exact h.crypto leg
  · rw [hsequences]; exact h.sequences leg
  · rw [hcursors, hcursor]; exact h.cursors leg

/-- The crypto counter after a frame in sequence. -/
theorem Counts.crypto_advance (h : Counts t) (hadvance : Advance t.session f now s) (leg : Leg) :
    s.crypto leg = (cryptoSequences (t.frames ++ [⟨f, now⟩]) leg).length + 1 ∧
      cryptoSequences (t.frames ++ [⟨f, now⟩]) leg =
        (List.range' 1 (cryptoSequences (t.frames ++ [⟨f, now⟩]) leg).length).map some := by
  rw [cryptoSequences_append]
  cases hsealed : f.frameType.isOpaque with
  | false =>
    rw [(hadvance.control hsealed).1]
    simpa using ⟨h.crypto leg, h.sequences leg⟩
  | true =>
    obtain ⟨-, envelope, hnumbered, -, hcrypto, -⟩ := hadvance.record hsealed
    rw [hcrypto]
    by_cases hleg : f.leg = leg
    · subst hleg
      have hnew : (decodeAwce f.payload).toOption.map (·.cryptoSequence) =
          some ((cryptoSequences t.frames f.leg).length + 1) := by
        rw [hnumbered.decoded, ← h.crypto f.leg, ← hnumbered.sequence]
        rfl
      rw [if_pos (by simp), hnew, length_append, length_singleton,
        range'_concat_some, ← h.sequences f.leg, Function.update_self, h.crypto f.leg]
      exact ⟨rfl, rfl⟩
    · rw [if_neg (by simp [hleg]), append_nil, Function.update_of_ne (Ne.symm hleg)]
      exact ⟨h.crypto leg, h.sequences leg⟩

/-- The output cursors after a frame in sequence. -/
theorem Counts.cursors_advance (h : Counts t) (hadvance : Advance t.session f now s) (leg : Leg) :
    ∃ cursors : List ℕ, outputCursors (t.frames ++ [⟨f, now⟩]) leg = cursors.map some ∧
      cursors.Pairwise (· < ·) ∧ ∀ c ∈ cursors, c ≤ s.cursor leg := by
  obtain ⟨cursors, heq, hsorted, hle⟩ := h.cursors leg
  rw [outputCursors_append]
  by_cases hkey : f.key = (leg, .output)
  · have hkind : f.frameType = .output := congrArg Prod.snd hkey
    have hleg : f.leg = leg := congrArg Prod.fst hkey
    obtain ⟨-, envelope, hnumbered, -, -, hcursor⟩ := hadvance.record (by rw [hkind]; rfl)
    have hgrows := hnumbered.cursor hkind
    rw [hleg] at hgrows
    rw [if_pos (decide_eq_true hkey), hcursor, if_pos hkind, hleg, Function.update_self]
    refine ⟨cursors ++ [envelope.streamCursor], ?_, ?_, ?_⟩
    · rw [heq, map_append, hnumbered.decoded]
      rfl
    · refine pairwise_append.mpr ⟨hsorted, pairwise_singleton _ _, fun a ha b hb => ?_⟩
      rw [mem_singleton.mp hb]
      exact Nat.lt_of_le_of_lt (hle a ha) hgrows
    · intro c hc
      rcases mem_append.mp hc with hc | hc
      · exact Nat.le_of_lt (Nat.lt_of_le_of_lt (hle c hc) hgrows)
      · exact Nat.le_of_eq (mem_singleton.mp hc)
  · rw [if_neg fun hd => hkey (of_decide_eq_true hd), append_nil]
    refine ⟨cursors, heq, hsorted, fun c hc => ?_⟩
    have hsame : s.cursor leg = t.session.cursor leg := by
      cases hsealed : f.frameType.isOpaque with
      | false => rw [(hadvance.control hsealed).2.1]
      | true =>
        obtain ⟨-, envelope, -, -, -, hcursor⟩ := hadvance.record hsealed
        rw [hcursor]
        split
        · next hkind =>
          refine Function.update_of_ne (fun hleg => hkey ?_) _ _
          rw [WireFrame.key, ← hleg, hkind]
        · rfl
    rw [hsame]
    exact hle c hc

/-- A frame in sequence moves the counters of its leg by one. -/
theorem Counts.advance (h : Counts t) (hdecoded : Decoded f.leg f)
    (hsequence : f.hopSequence = t.session.next f.leg) (hadvance : Advance t.session f now s) :
    Counts ⟨s, t.frames ++ [⟨f, now⟩]⟩ := by
  have hreplay := hdecoded.replay_eq
  have hhops : ∀ leg, Transcript.hops (t.frames ++ [⟨f, now⟩]) leg =
      Transcript.hops t.frames leg ++ if f.leg = leg then [f.hopSequence] else [] := by
    intro leg
    rw [hops_append]
    by_cases hleg : f.leg = leg <;> simp [hreplay, hleg]
  refine ⟨fun leg => ?_, fun leg => ?_, fun leg => (h.crypto_advance hadvance leg).1,
    fun leg => (h.crypto_advance hadvance leg).2, h.cursors_advance hadvance⟩
  · rw [hhops, hadvance.next]
    by_cases hleg : f.leg = leg
    · subst hleg
      simp [h.next f.leg]
    · simp [hleg, Function.update_of_ne (Ne.symm hleg), h.next leg]
  · rw [hhops]
    by_cases hleg : f.leg = leg
    · subst hleg
      rw [if_pos rfl, length_append, length_singleton, List.range'_1_concat, hsequence,
        h.next f.leg, Nat.add_comm 1, ← h.hops f.leg]
    · rw [if_neg hleg, append_nil]
      exact h.hops leg

/-- Every call keeps the counters in step with the frames. -/
theorem counts_accept [DecidableEq ι] (t : Transcript ι) (c : Call ι) (h : Counts t) :
    Counts (t.accept c) := by
  rcases t.accept_cases c with ⟨e, -, heq⟩ | ⟨f, s, now, -, heq, -, -, haccepted⟩
  · rw [heq]
    exact ⟨h.next, h.hops, h.crypto, h.sequences, h.cursors⟩
  · rw [heq]
    cases haccepted with
    | replay _ _ hkey => exact h.replay rfl hkey rfl rfl rfl
    | next hdecoded hsequence hadvance => exact h.advance hdecoded hsequence hadvance

theorem counts_fresh (admission : Record) (runtimeEpoch : Scalar) (streamId : ι) (startedAt : ℤ) :
    Counts ⟨fresh admission runtimeEpoch streamId startedAt, []⟩ :=
  ⟨fun _ => rfl, fun _ => rfl, fun _ => rfl, fun _ => rfl,
    fun _ => ⟨[], rfl, List.Pairwise.nil, by simp⟩⟩

/-! ## Replays -/

/-- A frame is in sequence exactly when it is no replay. -/
def InSequence (earlier : List Observed) (o : Observed) : Prop :=
  o.frame.replay = false ↔ o.frame.hopSequence = (hops earlier o.frame.leg).length + 1

/-- A replay repeats an earlier frame of its leg and kind, byte for byte and for the first time. -/
def RepeatsOnce (earlier : List Observed) (o : Observed) : Prop :=
  o.frame.replay = true →
    o.frame.key ∈ replayable ∧
    (∃ e ∈ earlier, e.frame.replay = false ∧ e.frame.key = o.frame.key ∧
      e.frame.wire = o.frame.wire) ∧
    ∀ e ∈ earlier, e.frame.replay = true → e.frame.key ≠ o.frame.key

/-- The frames a session remembers are frames it has accepted. -/
structure Remembers (t : Transcript ι) : Prop where
  seen : ∀ {p f}, t.session.seen.get? p = some f →
    f.key = p ∧ f.replay = false ∧ ∃ o ∈ t.frames, o.frame = f
  detach : ∀ {leg f}, t.session.detach.get? leg = some f →
    f.leg = leg ∧ isDetach f = true ∧ f.frameType.value ∈ leg.allowed ∧ f.replay = false ∧
      ∃ o ∈ t.frames, o.frame = f
  retries : ∀ o ∈ t.frames, o.frame.replay = true → o.frame.key ∈ t.session.retries

theorem Remembers.append {s : WireSession ι} (h : Remembers t)
    (hseen : ∀ {p f}, s.seen.get? p = some f → t.session.seen.get? p = some f ∨
      (p = o.frame.key ∧ f = o.frame ∧ f.replay = false))
    (hdetach : ∀ {leg f}, s.detach.get? leg = some f → t.session.detach.get? leg = some f ∨
      (leg = f.leg ∧ isDetach f = true ∧ f.frameType.value ∈ leg.allowed ∧ f = o.frame ∧ f.replay = false))
    (hretries : t.session.retries ⊆ s.retries)
    (hnew : o.frame.replay = true → o.frame.key ∈ s.retries) : Remembers ⟨s, t.frames ++ [o]⟩ := by
  refine ⟨fun {p f} hf => ?_, fun {leg f} hf => ?_, fun e he hreplay => ?_⟩
  · rcases hseen hf with hold | ⟨rfl, rfl, hreplay⟩
    · obtain ⟨hkey, hreplay, e, he, heq⟩ := h.seen hold
      exact ⟨hkey, hreplay, e, mem_append_left _ he, heq⟩
    · exact ⟨rfl, hreplay, o, by simp, rfl⟩
  · rcases hdetach hf with hold | ⟨rfl, hkind, hallowed, rfl, hreplay⟩
    · obtain ⟨hleg, hkind, hallowed, hreplay, e, he, heq⟩ := h.detach hold
      exact ⟨hleg, hkind, hallowed, hreplay, e, mem_append_left _ he, heq⟩
    · exact ⟨rfl, hkind, hallowed, hreplay, o, by simp, rfl⟩
  · rcases mem_append.mp he with he | he
    · exact hretries (h.retries e he hreplay)
    · rw [mem_singleton.mp he] at hreplay ⊢
      exact hnew hreplay

theorem seen_of_advance (hadvance : Advance t.session f now s) {p : Leg × FrameType}
    (hg : s.seen.get? p = some g) : t.session.seen.get? p = some g ∨ (p = f.key ∧ g = f) := by
  rw [hadvance.seen] at hg
  split at hg
  · rw [Dict.get?_set] at hg
    split at hg
    · next heq => exact .inr ⟨heq, (Option.some.inj hg).symm⟩
    · exact .inl hg
  · exact .inl hg

theorem detach_of_advance (hadvance : Advance t.session f now s) {leg : Leg}
    (hg : s.detach.get? leg = some g) :
    t.session.detach.get? leg = some g ∨ (leg = f.leg ∧ g = f ∧ isDetach f = true) := by
  rw [hadvance.detach] at hg
  split at hg
  · next hdetach =>
    rw [Dict.get?_set] at hg
    split at hg
    · next heq => exact .inr ⟨heq, (Option.some.inj hg).symm, hdetach⟩
    · exact .inl hg
  · exact .inl hg

theorem remembers_accept [DecidableEq ι] (t : Transcript ι) (c : Call ι) (h : Remembers t) :
    Remembers (t.accept c) := by
  rcases t.accept_cases c with ⟨e, -, heq⟩ | ⟨f, s, now, -, heq, -, -, haccepted⟩
  · rw [heq]
    exact ⟨fun hf => (by cases hf), fun hf => (by cases hf), h.retries⟩
  · rw [heq]
    cases haccepted with
    | replay _ _ _ _ _ _ =>
      exact h.append .inl .inl (Finset.subset_insert _ _) fun _ => Finset.mem_insert_self _ _
    | next hdecoded _ hadvance =>
      refine h.append (fun hf => ?_) (fun hf => ?_) (by rw [hadvance.retries]) fun hreplay => ?_
      · rcases seen_of_advance hadvance hf with hold | ⟨hp, hg⟩
        · exact .inl hold
        · exact .inr ⟨hp, hg, hg ▸ hdecoded.replay_eq⟩
      · rcases detach_of_advance hadvance hf with hold | ⟨rfl, rfl, hdetach⟩
        · exact .inl hold
        · exact .inr ⟨rfl, hdetach, hdecoded.allowed, rfl, hdecoded.replay_eq⟩
      · cases hdecoded.replay_eq.symm.trans hreplay

/-- What a replay repeats has the replay's leg and kind. -/
theorem Remembers.key_eq (h : Remembers t) {o : WireFrame} (ho : t.session.remembered f = some o) :
    o.key = f.key ∧ o.replay = false ∧ ∃ e ∈ t.frames, e.frame = o := by
  unfold remembered at ho
  split at ho
  · next hdetach =>
    obtain ⟨hleg, hkind, hallowed, hreplay, hmem⟩ := h.detach ho
    refine ⟨?_, hreplay, hmem⟩
    have hkind : o.frameType = .detach := by
      revert hkind hallowed
      unfold isDetach
      cases o.frameType <;> decide
    rw [hdetach, WireFrame.key, hleg, hkind]
  · exact h.seen ho

/-- Everything about the sequence of accepted frames. -/
structure Sequenced (t : Transcript ι) : Prop where
  counts : Counts t
  remembers : Remembers t
  inSequence : EachAfter InSequence t.frames
  repeatsOnce : EachAfter RepeatsOnce t.frames

theorem sequenced_accept [DecidableEq ι] (t : Transcript ι) (c : Call ι) (h : Sequenced t) :
    Sequenced (t.accept c) := by
  refine ⟨counts_accept t c h.counts, remembers_accept t c h.remembers, ?_, ?_⟩ <;>
    rcases t.accept_cases c with ⟨e, -, heq⟩ | ⟨f, s, now, -, heq, -, -, haccepted⟩ <;> rw [heq]
  · exact h.inSequence
  · refine eachAfter_concat h.inSequence ?_
    have hnext := h.counts.next f.leg
    cases haccepted with
    | replay _ hsequence =>
      exact ⟨fun hreplay => (by cases hreplay), fun heq => absurd (heq.trans hnext.symm) hsequence⟩
    | next hdecoded hsequence => exact ⟨fun _ => hsequence.trans hnext, fun _ => hdecoded.replay_eq⟩
  · exact h.repeatsOnce
  · refine eachAfter_concat h.repeatsOnce ?_
    cases haccepted with
    | replay _ _ hkey hfirst horiginal hwire =>
      intro _
      obtain ⟨hsame, hreplay, e, he, rfl⟩ := h.remembers.key_eq horiginal
      refine ⟨hkey, ⟨e, he, hreplay, hsame, hwire⟩, fun e' he' hreplay' hkey' => ?_⟩
      exact hfirst (hkey' ▸ h.remembers.retries e' he' hreplay')
    | next hdecoded =>
      intro hreplay
      cases hdecoded.replay_eq.symm.trans hreplay

theorem sequenced_reached [DecidableEq ι] (admission : Record) (runtimeEpoch : Scalar) (streamId : ι)
    (startedAt : ℤ) (calls : List (Call ι)) (i : ℕ) :
    Sequenced (reached (fresh admission runtimeEpoch streamId startedAt) calls i) :=
  invariant_stateAt
    ⟨counts_fresh admission runtimeEpoch streamId startedAt,
      ⟨fun hf => (by cases hf), fun hf => (by cases hf), by simp⟩, eachAfter_nil, eachAfter_nil⟩
    sequenced_accept i

/-! ## Rejections -/

section
variable [DecidableEq ι]

/-- The call raises. -/
def Rejected (t : Transcript ι) (c : Call ι) : Prop := ∃ e, (t.session.accept c).1 = .error e

theorem accept_of_rejected {c : Call ι} (h : Rejected t c) : t.accept c = ⟨t.session.close, t.frames⟩ := by
  rcases t.accept_cases c with ⟨e, -, heq⟩ | ⟨f, s, now, hok, -⟩
  · exact heq
  · obtain ⟨e, he⟩ := h
    rw [hok] at he
    cases he

theorem rejected_of_closed (h : t.session.closed = true) (c : Call ι) : Rejected t c := by
  rcases t.accept_cases c with ⟨e, herr, -⟩ | ⟨f, s, now, -, -, hopen, -⟩
  · exact ⟨e, by rw [herr]⟩
  · rw [h] at hopen
    cases hopen

/-- A closed session stays closed and keeps its sequence numbers. -/
theorem closed_stateAt {s₀ : WireSession ι} {calls : List (Call ι)} {i j : ℕ} (hij : i ≤ j)
    (h : (reached s₀ calls i).session.closed = true) : (reached s₀ calls j).session.closed = true ∧
      (reached s₀ calls j).session.next = (reached s₀ calls i).session.next := by
  refine persists_run (I := fun t : Transcript ι => t.session.closed = true ∧ t.session.next = _) hij
    ⟨h, rfl⟩ fun k _ c _ hk => ?_
  rw [accept_of_rejected (rejected_of_closed hk.1 c)]
  exact ⟨rfl, hk.2⟩

/-- What the sequence numbers of a session's frames are. -/
structure SequenceRules (t : Transcript ι) : Prop where
  /-- frames that are no replays are numbered 1, 2, 3, ... on each leg -/
  hops : ∀ leg, hops t.frames leg = List.range' 1 (hops t.frames leg).length
  /-- the session expects the next number -/
  expected : ∀ leg, t.session.next leg = (Transcript.hops t.frames leg).length + 1
  /-- a frame with another number is a replay -/
  inSequence : EachAfter InSequence t.frames
  /-- replays are identical, happen at most once, and only for three kinds -/
  replays : EachAfter RepeatsOnce t.frames
  /-- encrypted records are numbered 1, 2, 3, ... on each leg -/
  crypto : ∀ leg, cryptoSequences t.frames leg =
    (List.range' 1 (cryptoSequences t.frames leg).length).map some
  /-- output cursors increase strictly on each leg -/
  cursors : ∀ leg, ∃ cursors : List ℕ, outputCursors t.frames leg = cursors.map some ∧
    cursors.Pairwise (· < ·)

/-- In every run the accepted frames are numbered as the protocol says, and the first rejected call
is the end: later calls are rejected and no expected sequence changes any more. -/
theorem sequence_rules (admission : Record) (runtimeEpoch : Scalar) (streamId : ι) (startedAt : ℤ)
    (calls : List (Call ι)) : let t := reached (fresh admission runtimeEpoch streamId startedAt) calls
    (∀ i, SequenceRules (t i)) ∧
      ∀ i c, calls[i]? = some c → Rejected (t i) c → ∀ j, i < j →
        (∀ leg, (t j).session.next leg = (t i).session.next leg) ∧
          ∀ d, calls[j]? = some d → Rejected (t j) d := by
  refine ⟨fun i => ?_, fun i c hc hrejected j hij => ?_⟩
  · have h := sequenced_reached admission runtimeEpoch streamId startedAt calls i
    refine ⟨h.counts.hops, h.counts.next, h.inSequence, h.repeatsOnce, h.counts.sequences, fun leg => ?_⟩
    obtain ⟨cursors, heq, hsorted, -⟩ := h.counts.cursors leg
    exact ⟨cursors, heq, hsorted⟩
  · have hnext : reached (fresh admission runtimeEpoch streamId startedAt) calls (i + 1) =
        ⟨(reached (fresh admission runtimeEpoch streamId startedAt) calls i).session.close,
          (reached (fresh admission runtimeEpoch streamId startedAt) calls i).frames⟩ :=
      (stateAt_succ hc).trans (accept_of_rejected hrejected)
    have hclosed := closed_stateAt (i := i + 1) hij (by rw [hnext]; rfl)
    rw [hnext] at hclosed
    exact ⟨fun leg => congrFun hclosed.2 leg, fun d _ => rejected_of_closed hclosed.1 d⟩

end

end AgentBox.Wire.Transcript
