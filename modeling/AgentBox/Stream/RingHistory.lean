import AgentBox.Common.Run
import AgentBox.Stream.Ring

/-!
# Histories of the output ring

A history is any sequence of `append`, `append_batch` and `clear` calls on a new ring, the calls that
raise included. Beside the ring it records every frame that was ever numbered, so that cursors given
twice could be seen.

Both budgets of a ring are budgets of one text, the retained bytes: `Fits` says so, and `evict_keeps`
is the rule the rest follows from: eviction never removes a frame of a suffix that fits. A batch is
checked against the budget of bytes only. Its frames are all retained exactly when its text also has
no more lines than a ring may hold.

Reference: `packages/agentbox-runtime/src/agentbox_runtime/waw_pty.py`.
-/

namespace AgentBox.Stream

open List

/-! ## The retained text -/

/-- The bytes of the frames, in order. -/
def textOf (frames : List OutputFrame) : Bytes := (frames.map (·.payload)).flatten

/-- Lines ended by a line feed, plus an unterminated tail. -/
def lineCount (text : Bytes) : ℕ :=
  lineFeeds text + if text.getLast?.any (· ≠ 10) then 1 else 0

/-- The text is within the budgets of a ring. -/
structure Fits (capacity : ℕ) (text : Bytes) : Prop where
  bytes : text.length ≤ capacity
  lines : lineCount text ≤ 2000

section
variable {xs ys : Bytes} {capacity : ℕ}

@[simp] theorem textOf_append (frames frames' : List OutputFrame) :
    textOf (frames ++ frames') = textOf frames ++ textOf frames' := by
  simp [textOf]

theorem lineFeeds_append (xs ys : Bytes) : lineFeeds (xs ++ ys) = lineFeeds xs + lineFeeds ys :=
  count_append

/-- Whatever the last byte is, it ends a line or leaves one unterminated. -/
theorem lineCount_concat (xs : Bytes) (b : UInt8) : lineCount (xs ++ [b]) = lineFeeds xs + 1 := by
  by_cases hb : b = 10
  · simp [lineCount, lineFeeds, hb]
  · simp [lineCount, lineFeeds, hb]

theorem lineCount_le (xs : Bytes) : lineCount xs ≤ lineFeeds xs + 1 := by
  unfold lineCount
  split <;> omega

theorem lineCount_le_append_left (xs ys : Bytes) : lineCount xs ≤ lineCount (xs ++ ys) := by
  rcases eq_nil_or_concat ys with rfl | ⟨zs, b, rfl⟩
  · simp
  · have hle := lineCount_le xs
    rw [concat_eq_append, ← append_assoc, lineCount_concat, lineFeeds_append]
    omega

theorem lineCount_le_append_right (xs ys : Bytes) : lineCount ys ≤ lineCount (xs ++ ys) := by
  rcases eq_nil_or_concat ys with rfl | ⟨zs, b, rfl⟩
  · exact Nat.zero_le _
  · rw [concat_eq_append, ← append_assoc, lineCount_concat, lineCount_concat, lineFeeds_append]
    omega

theorem Fits.left (h : Fits capacity (xs ++ ys)) : Fits capacity xs := by
  have hbytes := h.bytes
  rw [length_append] at hbytes
  exact ⟨by omega, Nat.le_trans (lineCount_le_append_left xs ys) h.lines⟩

end

namespace OutputRing

variable {r r' : OutputRing} {frame : OutputFrame} {payload : Bytes} {payloads : List Bytes}
  {frames kept : List OutputFrame} {n : ℕ} {cursor : ℕ}

theorem bytes_eq_length (r : OutputRing) : r.bytes = (textOf r.frames).length := by
  rw [r.bytes_eq, textOf, length_flatten, map_map]
  rfl

theorem retainedLineCount_eq (r : OutputRing) : r.retainedLineCount = lineCount (textOf r.frames) := by
  have hfeeds : r.lineBreaks = lineFeeds (textOf r.frames) := by
    rw [r.lineBreaks_eq, lineFeeds, textOf, count_flatten, map_map]
    rfl
  rw [retainedLineCount, lineCount, hfeeds]
  rcases eq_nil_or_concat r.frames with hnil | ⟨older, newest, hframes⟩
  · simp [hnil, textOf]
  · -- the last byte of the text is the last byte of the newest frame
    obtain ⟨bytes, b, hpayload⟩ := (eq_nil_or_concat newest.payload).resolve_left newest.nonempty
    simp [hframes, textOf, hpayload]

theorem isOver_eq_false_iff (r : OutputRing) : r.isOver = false ↔ Fits r.capacity (textOf r.frames) := by
  simp only [isOver, r.bytes_eq_length, r.retainedLineCount_eq, Bool.or_eq_false_iff,
    decide_eq_false_iff_not, Nat.not_lt]
  exact ⟨fun h => ⟨h.1, h.2⟩, fun h => ⟨h.bytes, h.lines⟩⟩

/-! ## Replays -/

theorem replay_isOk (r : OutputRing) (h : cursor ≤ maxOutputCursor) : ∃ v, r.replay cursor = .ok v := by
  unfold replay
  rw [if_neg (Nat.not_lt.mpr h)]
  split
  · exact ⟨_, rfl⟩
  split
  · exact ⟨_, rfl⟩
  split
  · exact ⟨_, rfl⟩
  · exact ⟨_, rfl⟩

/-- A reader at a retained cursor gets the frames beyond it and no others. -/
theorem replay_frames {v : OutputReplay} (h : r.replay cursor = .ok v) (hkept : r.droppedUntil ≤ cursor) :
    v.frames = r.frames.filter fun f => cursor < f.endCursor := by
  unfold replay at h
  split at h
  · cases h
  rw [if_neg (Nat.not_lt.mpr hkept)] at h
  split at h
  · next hempty => cases h; simp [hempty]
  · next oldest rest hframes =>
    have holdest := r.tiles
    rw [hframes] at holdest
    rw [if_neg (by have := holdest.1; omega)] at h
    cases h
    rfl

/-! ## The eviction loop -/

theorem popleft_frames (r : OutputRing) : r.popleft.frames = r.frames.tail := by
  unfold popleft
  split
  · next h => simp [h]
  · next h => simp [h]

/-- The `while` loop of `append`, as a terminating execution: it stops within the budgets, and every
turn pops a queue that is not empty. -/
inductive Evicts : OutputRing → OutputRing → Prop
  | done {r : OutputRing} (h : r.isOver = false) : Evicts r r
  | turn {r r' : OutputRing} {removed : OutputFrame} {rest : List OutputFrame}
      (hover : r.isOver = true) (hframes : r.frames = removed :: rest) (h : Evicts r.popleft r') :
      Evicts r r'

theorem evicts_evict (h : r.frames.length ≤ n) : Evicts r (evict n r) := by
  induction n generalizing r with
  | zero => exact .done (not_isOver_of_empty (length_eq_zero_iff.mp (Nat.le_zero.mp h)))
  | succ n ih =>
    unfold evict
    split
    · next hover =>
      cases hframes : r.frames with
      | nil => simp [not_isOver_of_empty hframes] at hover
      | cons removed rest => exact .turn hover hframes (ih (by rw [length_popleft]; omega))
    · next hover => exact .done (eq_false_of_ne_true hover)

theorem evict_suffix (n : ℕ) (r : OutputRing) : (evict n r).frames <:+ r.frames := by
  induction n generalizing r with
  | zero => exact suffix_refl _
  | succ n ih =>
    unfold evict
    split
    · refine (ih r.popleft).trans ?_
      rw [popleft_frames]
      exact tail_suffix _
    · exact suffix_refl _

/-- Eviction never removes a frame of a suffix that fits. -/
theorem evict_keeps (hkept : kept <:+ r.frames) (hfits : Fits r.capacity (textOf kept)) :
    kept <:+ (evict n r).frames := by
  induction n generalizing r with
  | zero => exact hkept
  | succ n ih =>
    unfold evict
    split
    · next hover =>
      refine ih ?_ (by rwa [r.popleft_grows.1.capacity])
      rw [popleft_frames]
      cases hframes : r.frames with
      | nil => rwa [hframes] at hkept
      | cons removed rest =>
        rw [hframes] at hkept
        rcases suffix_cons_iff.mp hkept with rfl | hrest
        · -- a ring that holds the suffix alone is not over its budgets
          rw [← hframes, ← isOver_eq_false_iff] at hfits
          simp [hfits] at hover
        · exact hrest
    · exact hkept

/-! ## The calls -/

/-- What a call leaves: the frames it has numbered, what it raises, if anything, and the ring. -/
structure Outcome where
  frames : List OutputFrame
  error : Option PtyError
  ring : OutputRing

/-- The appends of a call, one after another, up to the first that raises. -/
def appendEach (r : OutputRing) : List Bytes → Outcome
  | [] => ⟨[], none, r⟩
  | payload :: payloads =>
    match r.append payload with
    | .error e => ⟨[], some e, r⟩
    | .ok (frame, r') =>
      let rest := r'.appendEach payloads
      ⟨frame :: rest.frames, rest.error, rest.ring⟩

/-- The checks `append_batch` makes before it allocates a cursor. -/
structure Accepts (r : OutputRing) (payloads : List Bytes) : Prop where
  frames : ∀ payload ∈ payloads, payload ≠ [] ∧ payload.length ≤ maxOutputFrameBytes
  bytes : payloads.flatten.length ≤ r.capacity
  cursors : r.nextCursor + payloads.flatten.length - 1 ≤ maxOutputCursor

inductive Call
  | append (payload : Bytes)
  | appendBatch (payloads : List Bytes)
  | clear

/-- A call, with the ring it leaves also when it raises. -/
def call (r : OutputRing) : Call → Outcome
  | .append payload => r.appendEach [payload]
  | .appendBatch payloads =>
    if payloads.any (fun p => p = [] ∨ maxOutputFrameBytes < p.length) then
      ⟨[], some .batchFrame, r⟩
    else
      let total := (payloads.map List.length).sum
      if r.capacity < total ∨ maxOutputCursor < r.nextCursor + total - 1 then
        ⟨[], some .batchLimit, r⟩
      else r.appendEach payloads
  | .clear => ⟨[], none, r.clear⟩

/-- `append` numbers one frame, adds it and evicts. -/
theorem append_eq_ok (h : r.append payload = .ok (frame, r')) :
    frame.payload = payload ∧ frame.endCursor ≤ maxOutputCursor ∧
      ∃ hnext, r' = evict (r.frames.length + 1) (r.push frame hnext) := by
  unfold append at h
  split at h
  · cases h
  split at h
  · cases h
  split at h
  · cases h
  · next hend =>
    cases h
    exact ⟨rfl, Nat.le_of_not_lt hend, rfl, rfl⟩

/-- The loop of an append ends, and every turn of it pops a queue that is not empty. -/
theorem append_evicts (h : r.append payload = .ok (frame, r')) : ∃ hnext, Evicts (r.push frame hnext) r' := by
  obtain ⟨-, -, hnext, rfl⟩ := append_eq_ok h
  exact ⟨hnext, evicts_evict (by simp [push])⟩

/-- The numbered frames follow those of the ring before, and the ring retains the most recent ones. -/
structure Outcome.Follows (o : Outcome) (r : OutputRing) : Prop where
  tiles : Frames r.head o.frames o.ring.head
  bounded : ∀ f ∈ o.frames, f.endCursor ≤ maxOutputCursor
  recent : o.ring.frames <:+ r.frames ++ o.frames

variable (r : OutputRing) (payloads : List Bytes)

/-- What the appends of a call do, whether or not one of them raises. -/
theorem appendEach_follows : (r.appendEach payloads).Follows r := by
  induction payloads generalizing r with
  | nil => exact ⟨rfl, by simp [appendEach], by simp [appendEach]⟩
  | cons payload payloads ih =>
    unfold appendEach
    split
    · exact ⟨rfl, by simp, by simp⟩
    · next frame r₁ happend =>
      obtain ⟨-, hframe, -, -⟩ := append_ok happend
      obtain ⟨-, hend, hnext, hr₁⟩ := append_eq_ok happend
      obtain ⟨gone, hgone⟩ : r₁.frames <:+ r.frames ++ [frame] := by
        rw [hr₁]
        exact evict_suffix _ (r.push frame hnext)
      refine ⟨hframe.append (ih r₁).tiles, forall_mem_cons.mpr ⟨hend, (ih r₁).bounded⟩,
        (ih r₁).recent.trans ⟨gone, ?_⟩⟩
      rw [← append_assoc, hgone, append_assoc]
      rfl

/-- The branches of a batch: it is rejected and changes nothing, or its appends run. -/
theorem call_appendBatch : (r.Accepts payloads ∧ r.call (.appendBatch payloads) = r.appendEach payloads) ∨
      ∃ e, ¬r.Accepts payloads ∧ r.call (.appendBatch payloads) = ⟨[], some e, r⟩ := by
  have htotal : (payloads.map List.length).sum = payloads.flatten.length := length_flatten.symm
  simp only [call, htotal]
  split
  · next hbad =>
    obtain ⟨p, hp, hbad⟩ := any_eq_true.mp hbad
    refine .inr ⟨_, fun h => ?_, rfl⟩
    have hgood := h.frames p hp
    simp only [decide_eq_true_eq] at hbad
    exact hbad.elim hgood.1 (Nat.not_lt.mpr hgood.2)
  · next hframes =>
    split
    · next hbad =>
      refine .inr ⟨_, fun h => ?_, rfl⟩
      exact hbad.elim (Nat.not_lt.mpr h.bytes) (Nat.not_lt.mpr h.cursors)
    · next hgood =>
      simp only [not_or, Nat.not_lt] at hgood
      refine .inl ⟨⟨fun p hp => ?_, hgood.1, hgood.2⟩, rfl⟩
      by_contra hbad
      refine hframes (any_eq_true.mpr ⟨p, hp, ?_⟩)
      simp only [decide_eq_true_eq]
      by_contra hok
      simp only [not_or, Nat.not_lt] at hok
      exact hbad hok

/-- What a caller sees: the ring of a call that raises is not in its answer. -/
def Outcome.result (o : Outcome) : Except PtyError (List OutputFrame × OutputRing) :=
  match o.error with
  | none => .ok (o.frames, o.ring)
  | some e => .error e

theorem appendAll_eq_result : r.appendAll payloads = (r.appendEach payloads).result := by
  induction payloads generalizing r with
  | nil => rfl
  | cons payload payloads ih =>
    simp only [appendAll, appendEach]
    cases r.append payload with
    | error e => rfl
    | ok first =>
      change (first.2.appendAll payloads >>= fun rest => _) = _
      rw [ih, Outcome.result, Outcome.result]
      cases (first.2.appendEach payloads).error with
      | none => rfl
      | some e => rfl

theorem appendBatch_eq_result : r.appendBatch payloads = (r.call (.appendBatch payloads)).result := by
  simp only [appendBatch, call]
  split
  · rfl
  split
  · rfl
  · exact appendAll_eq_result r payloads

theorem call_follows (r : OutputRing) (c : Call) : (r.call c).Follows r := by
  cases c with
  | append payload => exact appendEach_follows r [payload]
  | appendBatch payloads =>
    rcases r.call_appendBatch payloads with ⟨-, heq⟩ | ⟨e, -, heq⟩
    · rw [heq]; exact appendEach_follows r payloads
    · rw [heq]; exact ⟨rfl, by simp, by simp⟩
  | clear => exact ⟨rfl, by simp [call], by simp [call, clear]⟩

end OutputRing

/-! ## Histories -/

/-- A ring and every frame that was ever numbered. -/
structure History where
  ring : OutputRing
  assigned : List OutputFrame

namespace History

variable {s : History}

def step (s : History) (c : OutputRing.Call) : History :=
  ⟨(s.ring.call c).ring, s.assigned ++ (s.ring.call c).frames⟩

/-- The cursors given so far are those up to the last one, each given once, and the ring retains the
most recent frames. -/
structure Sound (s : History) : Prop where
  assigned : Frames 0 s.assigned s.ring.head
  bounded : ∀ f ∈ s.assigned, f.endCursor ≤ maxOutputCursor
  recent : s.ring.frames <:+ s.assigned

theorem Sound.step (h : s.Sound) (c : OutputRing.Call) : (s.step c).Sound := by
  have hcall := s.ring.call_follows c
  refine ⟨h.assigned.append hcall.tiles, fun f hf => ?_, hcall.recent.trans ?_⟩
  · exact (mem_append.mp hf).elim (h.bounded f) (hcall.bounded f)
  · obtain ⟨gone, hgone⟩ := h.recent
    exact ⟨gone, by rw [← append_assoc, hgone]; rfl⟩

theorem Sound.head_le (h : s.Sound) : s.ring.head ≤ maxOutputCursor := by
  rw [← h.assigned.spans.end_eq]
  cases hlast : s.assigned.getLast? with
  | none => exact Nat.zero_le _
  | some f => exact h.bounded f (mem_of_getLast? hlast)

/-- What a ring promises its readers in a state of a history. -/
structure Consistent (s : History) : Prop where
  /-- The retained frames follow one another up to the last cursor. -/
  contiguous : Frames s.ring.droppedUntil s.ring.frames (s.ring.nextCursor - 1)
  dropped : s.ring.droppedUntil =
    (s.ring.frames.head?.map (·.startCursor - 1)).getD (s.ring.nextCursor - 1)
  bytes : s.ring.bytes = (s.ring.frames.map (·.payload.length)).sum
  lineBreaks : s.ring.lineBreaks = (s.ring.frames.map (·.payload.count 10)).sum
  /-- No cursor lies in two of the frames ever numbered, and the retained ones are the latest. -/
  once : s.assigned.Pairwise fun f g => f.endCursor < g.startCursor
  recent : s.ring.frames <:+ s.assigned
  bounded : ∀ f ∈ s.assigned, f.endCursor ≤ 18446744073709551614
  replay : ∀ after ≤ s.ring.nextCursor - 1, ∃ v, s.ring.replay after = .ok v ∧
    ((v.kind = .frames ∧ v.frames = s.ring.frames.filter (fun f => after < f.endCursor) ∧
        ∀ p, after < p → p ≤ s.ring.nextCursor - 1 →
          ∃ f ∈ v.frames, f.startCursor ≤ p ∧ p ≤ f.endCursor) ∨
      (v.kind = .gap ∧ v.frames = [] ∧ v.gapStart = some (after + 1) ∧
        v.gapEnd = some s.ring.droppedUntil))

theorem Sound.consistent (h : s.Sound) : s.Consistent where
  contiguous := s.ring.tiles
  dropped := by
    have htiles := s.ring.tiles
    cases hframes : s.ring.frames with
    | nil => rw [hframes] at htiles; exact htiles
    | cons oldest rest =>
      rw [hframes] at htiles
      exact Nat.eq_sub_of_add_eq htiles.1.symm
  bytes := s.ring.bytes_eq
  lineBreaks := s.ring.lineBreaks_eq
  once := h.assigned.pairwise
  recent := h.recent
  bounded := h.bounded
  replay := fun after hafter => by
    obtain ⟨v, hv⟩ := s.ring.replay_isOk (Nat.le_trans hafter h.head_le)
    refine ⟨v, hv, ?_⟩
    rcases OutputRing.replay_ok hv hafter with ⟨hkept, hkind, hcovers⟩ | ⟨-, rfl⟩
    · exact .inl ⟨hkind, OutputRing.replay_frames hv hkept, fun p => hcovers.exists_mem⟩
    · exact .inr ⟨rfl, rfl, rfl, rfl⟩

/-- After every history of a new ring the retained frames, the counters and the replays agree, no
cursor has been given twice, and the loop of every append ends without popping an empty queue. -/
theorem ring_consistent {capacity : ℕ} {new : OutputRing} (hnew : OutputRing.init capacity = .ok new)
    (calls : List OutputRing.Call) : (calls.foldl step ⟨new, []⟩).Consistent ∧
      ∀ (r r' : OutputRing) (payload : Bytes) (frame : OutputFrame),
        r.append payload = .ok (frame, r') → ∃ hnext, OutputRing.Evicts (r.push frame hnext) r' := by
  refine ⟨?_, fun _ _ _ _ h => OutputRing.append_evicts h⟩
  have hsound : Sound ⟨new, []⟩ := by
    unfold OutputRing.init at hnew
    split at hnew
    · cases hnew; exact ⟨rfl, by simp, by simp⟩
    · cases hnew
  have hrun : (stateAt step ⟨new, []⟩ calls calls.length).Sound :=
    invariant_stateAt hsound (fun _ c h => h.step c) _
  rw [stateAt, take_length] at hrun
  exact hrun.consistent

/-- A ring of four bytes, after an eviction, a rejected append and a batch. -/
theorem ring_consistent_small : ∃ new, OutputRing.init 4 = .ok new ∧
    ([.append [65, 66], .append [67, 68, 69], .append [], .appendBatch [[10]]].foldl step
      ⟨new, []⟩).Consistent :=
  ⟨_, rfl, (ring_consistent (show OutputRing.init 4 = .ok _ from rfl) _).1⟩

end History

/-! ## Batches -/

namespace OutputRing

variable {r r₁ : OutputRing} {frame : OutputFrame} {payload : Bytes} {payloads : List Bytes}
  {kept : List OutputFrame}

/-- What `append_batch` is for: the frames it returns are all retained, so that a replay from just
before the first returns them, and a batch that raises leaves the ring as it was. -/
structure Outcome.Atomic (o : Outcome) (r : OutputRing) : Prop where
  retained : o.error = none → ∀ f ∈ o.frames, f ∈ o.ring.frames
  replayed : o.error = none → ∀ first ∈ o.frames.head?,
    ∃ v, o.ring.replay (first.startCursor - 1) = .ok v ∧ v.kind = .frames ∧ v.frames = o.frames
  unchanged : o.error ≠ none → o.ring = r

theorem Accepts.append_isOk (h : r.Accepts (payload :: payloads)) :
    ∃ frame r₁, r.append payload = .ok (frame, r₁) := by
  obtain ⟨hne, hlimit⟩ := h.frames payload mem_cons_self
  have hcursors := h.cursors
  rw [flatten_cons, length_append] at hcursors
  unfold append
  rw [dif_neg hne, dif_neg (Nat.not_lt.mpr hlimit), dif_neg (by omega)]
  exact ⟨_, _, rfl⟩

theorem Accepts.rest (h : r.Accepts (payload :: payloads))
    (happend : r.append payload = .ok (frame, r₁)) : r₁.Accepts payloads := by
  obtain ⟨rfl, ⟨hstart, -, hend⟩, hgrows, -⟩ := append_ok happend
  have hend : frame.endCursor = r₁.head := hend
  have hrange := frame.range
  have hhead := r.nextCursor_eq
  have hhead₁ := r₁.nextCursor_eq
  have hbytes := h.bytes
  have hcursors := h.cursors
  rw [flatten_cons, length_append] at hbytes hcursors
  refine ⟨fun p hp => h.frames p (mem_cons_of_mem _ hp), ?_, by omega⟩
  rw [hgrows.capacity]
  omega

/-- Once a batch has passed its checks, none of its appends raises. -/
theorem Accepts.appendEach (h : r.Accepts payloads) : (r.appendEach payloads).error = none ∧
      textOf (r.appendEach payloads).frames = payloads.flatten := by
  induction payloads generalizing r with
  | nil => exact ⟨rfl, rfl⟩
  | cons payload payloads ih =>
    obtain ⟨frame, r₁, happend⟩ := h.append_isOk
    obtain ⟨herror, htext⟩ := ih (h.rest happend)
    obtain ⟨hpayload, -⟩ := append_eq_ok happend
    simp only [OutputRing.appendEach, happend]
    refine ⟨herror, ?_⟩
    rw [flatten_cons, ← htext, ← hpayload]
    rfl

/-- The appends evict nothing that fits together with all of them. -/
theorem Accepts.keeps (h : r.Accepts payloads) (hkept : kept <:+ r.frames)
    (hfits : Fits r.capacity (textOf kept ++ payloads.flatten)) :
    kept ++ (r.appendEach payloads).frames <:+ (r.appendEach payloads).ring.frames := by
  induction payloads generalizing r kept with
  | nil => simpa [OutputRing.appendEach] using hkept
  | cons payload payloads ih =>
    obtain ⟨frame, r₁, happend⟩ := h.append_isOk
    obtain ⟨rfl, -, hnext, hr₁⟩ := append_eq_ok happend
    have hgrows := (append_ok happend).2.2.1
    rw [flatten_cons, ← append_assoc] at hfits
    have htext : textOf (kept ++ [frame]) = textOf kept ++ frame.payload := by simp [textOf]
    have hpushed : kept ++ [frame] <:+ r₁.frames := by
      rw [hr₁]
      refine evict_keeps ?_ (htext ▸ hfits.left)
      obtain ⟨older, holder⟩ := hkept
      exact ⟨older, by rw [← append_assoc, holder]; rfl⟩
    have hrest := ih (h.rest happend) hpushed (by rwa [htext, hgrows.capacity])
    simp only [OutputRing.appendEach, happend]
    rwa [append_assoc] at hrest

theorem appendEach_isOver (h : r.isOver = false) : (r.appendEach payloads).ring.isOver = false := by
  induction payloads generalizing r with
  | nil => exact h
  | cons payload payloads ih =>
    unfold OutputRing.appendEach
    split
    · exact h
    · next happend => exact ih (append_ok happend).2.2.2

/-- Frames that are retained are retained as the end of the ring: the first of them has an earlier
cursor than the others. -/
theorem suffix_of_retained
    (h : ∀ f ∈ (r.appendEach payloads).frames, f ∈ (r.appendEach payloads).ring.frames) :
    (r.appendEach payloads).frames <:+ (r.appendEach payloads).ring.frames := by
  obtain ⟨hframes, -, hsuffix⟩ := r.appendEach_follows payloads
  rcases suffix_or_suffix_of_suffix (suffix_append _ _) hsuffix with hdone | hshort
  · exact hdone
  · cases hfirst : (r.appendEach payloads).frames with
    | nil => exact nil_suffix
    | cons first rest =>
      rw [hfirst] at hframes hshort h
      rcases suffix_cons_iff.mp hshort with heq | hrest
      · exact heq ▸ suffix_refl _
      · have hmem := hrest.subset (h first mem_cons_self)
        have hlater := (pairwise_cons.mp hframes.pairwise).1 first hmem
        exact absurd first.start_le_end (Nat.not_le.mpr hlater)

/-- An accepted batch is retained exactly when its text has no more lines than a ring may hold. -/
theorem Accepts.retained_iff (h : r.Accepts payloads) :
    (∀ f ∈ (r.appendEach payloads).frames, f ∈ (r.appendEach payloads).ring.frames) ↔
      lineCount payloads.flatten ≤ 2000 := by
  constructor
  · intro hretained
    obtain ⟨older, holder⟩ := suffix_of_retained hretained
    cases payloads with
    | nil => exact Nat.zero_le _
    | cons payload payloads =>
      obtain ⟨frame, r₁, happend⟩ := h.append_isOk
      -- the ring is within its budgets since the first append
      have hover : (r.appendEach (payload :: payloads)).ring.isOver = false := by
        simp only [OutputRing.appendEach, happend]
        exact appendEach_isOver (append_ok happend).2.2.2
      have hlines := ((isOver_eq_false_iff _).mp hover).lines
      rw [← holder, textOf_append, h.appendEach.2] at hlines
      exact Nat.le_trans (lineCount_le_append_right _ _) hlines
  · intro hlines f hf
    exact (h.keeps nil_suffix ⟨h.bytes, hlines⟩).subset hf

/-- A replay from just before retained frames returns them. -/
theorem replay_of_suffix {first : OutputFrame} {rest : List OutputFrame}
    (h : first :: rest <:+ r.frames) (hbound : first.startCursor - 1 ≤ maxOutputCursor) :
    ∃ v, r.replay (first.startCursor - 1) = .ok v ∧ v.kind = .frames ∧ v.frames = first :: rest := by
  obtain ⟨older, holder⟩ := h
  have htiles := r.tiles
  rw [← holder] at htiles
  obtain ⟨m, holderTiles, hframes⟩ := Tiles.append_iff.mp htiles
  have hm : first.startCursor - 1 = m := by rw [hframes.1]; rfl
  rw [hm] at hbound ⊢
  obtain ⟨v, hv⟩ := r.replay_isOk hbound
  have hkind : v.kind = .frames := by
    rcases replay_ok hv hframes.le with ⟨-, hkind, -⟩ | ⟨hgap, -⟩
    · exact hkind
    · exact absurd holderTiles.le (Nat.not_le.mpr hgap)
  refine ⟨v, hv, hkind, ?_⟩
  rw [replay_frames hv holderTiles.le, ← holder, filter_append]
  have hgone : older.filter (fun f => decide (m < f.endCursor)) = [] := by
    rw [filter_eq_nil_iff]
    intro f hf
    simpa using (holderTiles.within hf).2.2
  have hall : (first :: rest).filter (fun f => decide (m < f.endCursor)) = first :: rest := by
    rw [filter_eq_self]
    intro f hf
    have hwithin := hframes.within hf
    simp only [decide_eq_true_eq]
    omega
  rw [hgone, hall]
  rfl

theorem Outcome.Atomic.lines (h : (r.call (.appendBatch payloads)).Atomic r)
    (haccepts : r.Accepts payloads) : lineCount payloads.flatten ≤ 2000 := by
  rcases r.call_appendBatch payloads with ⟨-, heq⟩ | ⟨e, hrejects, -⟩
  · rw [heq] at h
    exact haccepts.retained_iff.mp (h.retained haccepts.appendEach.1)
  · exact absurd haccepts hrejects

/-- A batch is retained atomically exactly when its checks reject it or its text has at most the
2000 lines a ring may hold. -/
theorem appendBatch_atomic_iff (r : OutputRing) (payloads : List Bytes) :
    (r.call (.appendBatch payloads)).Atomic r ↔ (r.Accepts payloads → lineCount payloads.flatten ≤ 2000) := by
  refine ⟨fun h => h.lines, fun h => ?_⟩
  rcases r.call_appendBatch payloads with ⟨haccepts, heq⟩ | ⟨e, -, heq⟩
  · have hretained := haccepts.retained_iff.mpr (h haccepts)
    have hsuffix := suffix_of_retained hretained
    have hstart := (r.appendEach_follows payloads).tiles
    rw [heq]
    refine ⟨fun _ => hretained, fun _ first hfirst => ?_, fun herror => ?_⟩
    · obtain ⟨rest, hframes⟩ := List.head?_eq_some_iff.mp hfirst
      rw [hframes] at hsuffix hstart ⊢
      have hcursors := haccepts.cursors
      have hhead := r.nextCursor_eq
      have hnext := hstart.1
      exact replay_of_suffix hsuffix (by omega)
    · exact absurd haccepts.appendEach.1 herror
  · rw [heq]
    exact ⟨fun h => (by cases h), fun h => (by cases h), fun _ => rfl⟩

/-- A new ring accepts 2001 line feeds as a batch and has evicted them when the call returns. -/
theorem lineFeeds_not_retained : ∃ new, init maxOutputBufferBytes = .ok new ∧
    ¬(new.call (.appendBatch [List.replicate 2001 10])).Atomic new := by
  refine ⟨_, rfl, fun h => ?_⟩
  have hlines := h.lines ⟨by simp [maxOutputFrameBytes, -List.reduceReplicate],
    by simp [maxOutputBufferBytes, -List.reduceReplicate],
    by simp [maxOutputCursor, -List.reduceReplicate]⟩
  simp only [lineCount, lineFeeds, flatten_singleton, count_replicate_self] at hlines
  omega

end OutputRing

end AgentBox.Stream
