import AgentBox.Common.Bytes
import AgentBox.Common.Method
import AgentBox.Common.Tiling
import Mathlib.Algebra.GroupWithZero.Nat

/-!
# The output ring

The Runtime numbers the bytes of a terminal's output with cursors 1, 2, 3, ... and keeps the most
recent ones in frames, within a budget of bytes and of lines. A reader asks for what follows a cursor
and gets frames, or, when some of it has been evicted, the range that is gone.

What the ring keeps consistent are fields of its type: the two counters are those of its frames, and
the frames tile the cursors from the last evicted one to the last allocated one.

Reference: `packages/agentbox-runtime/src/agentbox_runtime/waw_pty.py`.
-/

namespace AgentBox.Stream

def maxOutputFrameBytes : ℕ := 49152

def maxOutputBufferBytes : ℕ := 262144

/-- The largest usable cursor, one below the largest 64-bit number. -/
def maxOutputCursor : ℕ := 18446744073709551614

/-- `WAWPTYError`, by what is wrong. -/
inductive PtyError
  /-- output must be non-empty bytes -/
  | empty
  /-- output frame exceeds the fixed limit -/
  | frameLimit
  /-- output cursor exhausted -/
  | exhausted
  /-- output batch contains an invalid frame -/
  | batchFrame
  /-- output batch cannot be retained atomically -/
  | batchLimit
  /-- after_cursor must be zero or a usable output cursor -/
  | afterCursor
  /-- output buffer capacity is invalid -/
  | capacity
deriving DecidableEq, Repr

/-- A frame of output. Its fields are the conditions of `__post_init__`. -/
structure OutputFrame where
  startCursor : ℕ
  endCursor : ℕ
  payload : Bytes
  positive : 1 ≤ startCursor
  bounded : endCursor ≤ maxOutputCursor + 1
  range : endCursor + 1 = startCursor + payload.length
  nonempty : payload ≠ []
  limit : payload.length ≤ maxOutputFrameBytes
deriving DecidableEq

theorem OutputFrame.start_le_end (f : OutputFrame) : f.startCursor ≤ f.endCursor := by
  have hlength := List.length_pos_iff.mpr f.nonempty
  have hrange := f.range
  omega

variable (a : ℕ) (frames : List OutputFrame) (b : ℕ)

/-- The frames follow one another from cursor `a` to cursor `b`. -/
abbrev Frames : Prop :=
  Tiles OutputFrame.startCursor OutputFrame.endCursor a frames b

/-- The frames leave no hole from cursor `a` to cursor `b`. -/
abbrev Covers : Prop :=
  Spans OutputFrame.startCursor OutputFrame.endCursor a frames b

/-- The number of line feeds. -/
def lineFeeds (payload : Bytes) : ℕ := payload.count 10

/-- A ring and what it keeps consistent. -/
structure OutputRing where
  capacity : ℕ
  frames : List OutputFrame
  bytes : ℕ
  lineBreaks : ℕ
  nextCursor : ℕ
  droppedUntil : ℕ
  bytes_eq : bytes = (frames.map (·.payload.length)).sum
  lineBreaks_eq : lineBreaks = (frames.map (lineFeeds ·.payload)).sum
  positive : 1 ≤ nextCursor
  tiles : Frames droppedUntil frames (nextCursor - 1)

namespace OutputRing

variable (r : OutputRing)

/-- A new ring. -/
def init (capacity : ℕ) : Except PtyError OutputRing :=
  if 1 ≤ capacity ∧ capacity ≤ maxOutputBufferBytes then
    .ok ⟨capacity, [], 0, 0, 1, 0, rfl, rfl, Nat.le_refl 1, rfl⟩
  else .error .capacity

/-- `_retained_line_count`: lines ended by a line feed, plus an unterminated tail. -/
def retainedLineCount : ℕ :=
  r.lineBreaks + if r.frames.getLast?.any (·.payload.getLast? ≠ some 10) then 1 else 0

/-- The ring is over one of its budgets. -/
def isOver : Bool := r.capacity < r.bytes || 2000 < r.retainedLineCount

/-- Evict the oldest frame. -/
def popleft : OutputRing :=
  match h : r.frames with
  | [] => r
  | removed :: rest =>
    { r with
      frames := rest
      bytes := r.bytes - removed.payload.length
      lineBreaks := r.lineBreaks - lineFeeds removed.payload
      droppedUntil := removed.endCursor
      bytes_eq := by rw [r.bytes_eq, h]; simp
      lineBreaks_eq := by rw [r.lineBreaks_eq, h]; simp
      tiles := by have := r.tiles; rw [h] at this; exact this.2.2 }

/-- Evict frames while the ring is over budget; `n` bounds the number of turns. -/
def evict : ℕ → OutputRing → OutputRing
  | 0, r => r
  | n + 1, r => if r.isOver then evict n r.popleft else r

/-- Add a frame at the next cursor. -/
def push (frame : OutputFrame) (h : frame.startCursor = r.nextCursor) : OutputRing :=
  { r with
    frames := r.frames ++ [frame]
    bytes := r.bytes + frame.payload.length
    lineBreaks := r.lineBreaks + lineFeeds frame.payload
    nextCursor := frame.endCursor + 1
    bytes_eq := by simp [r.bytes_eq]
    lineBreaks_eq := by simp [r.lineBreaks_eq]
    positive := Nat.le_add_left 1 _
    tiles := by
      have hpositive := r.positive
      have hle := frame.start_le_end
      exact r.tiles.concat (by omega) (by omega) }

/-- `append` -/
def append (payload : Bytes) : Except PtyError (OutputFrame × OutputRing) :=
  if hempty : payload = [] then .error .empty
  else if hlimit : maxOutputFrameBytes < payload.length then .error .frameLimit
  else if hend : maxOutputCursor < r.nextCursor + payload.length - 1 then .error .exhausted
  else
    let frame : OutputFrame :=
      { startCursor := r.nextCursor
        endCursor := r.nextCursor + payload.length - 1
        payload := payload
        positive := r.positive
        bounded := Nat.le_succ_of_le (Nat.le_of_not_lt hend)
        range := Nat.sub_add_cancel (Nat.le_trans r.positive (Nat.le_add_right _ _))
        nonempty := hempty
        limit := Nat.le_of_not_lt hlimit }
    .ok (frame, evict (r.frames.length + 1) (r.push frame rfl))

/-- The appends of a batch that has been checked. -/
def appendAll (r : OutputRing) : List Bytes → Except PtyError (List OutputFrame × OutputRing)
  | [] => .ok ([], r)
  | payload :: payloads => do
    let (frame, r) ← r.append payload
    let (frames, r) ← r.appendAll payloads
    .ok (frame :: frames, r)

/-- `append_batch`: validate a batch completely before allocating any cursor. -/
def appendBatch (payloads : List Bytes) : Except PtyError (List OutputFrame × OutputRing) :=
  if payloads.any (fun p => p = [] ∨ maxOutputFrameBytes < p.length) then .error .batchFrame
  else
    let total := (payloads.map List.length).sum
    if r.capacity < total ∨ maxOutputCursor < r.nextCursor + total - 1 then .error .batchLimit
    else r.appendAll payloads

/-- `clear`: drop the bytes without reusing their cursors. -/
def clear : OutputRing :=
  { r with
    frames := []
    bytes := 0
    lineBreaks := 0
    droppedUntil := r.nextCursor - 1
    bytes_eq := rfl
    lineBreaks_eq := rfl
    tiles := rfl }

end OutputRing

inductive ReplayKind
  | frames
  | gap
deriving DecidableEq, Repr

/-- What a reader gets. -/
structure OutputReplay where
  kind : ReplayKind
  frames : List OutputFrame
  nextCursor : ℕ
  gapStart : Option ℕ
  gapEnd : Option ℕ
deriving DecidableEq

/-- `replay` -/
def OutputRing.replay (r : OutputRing) (afterCursor : ℕ) : Except PtyError OutputReplay :=
  if maxOutputCursor < afterCursor then .error .afterCursor
  else if afterCursor < r.droppedUntil then
    .ok ⟨.gap, [], r.nextCursor - 1, some (afterCursor + 1), some r.droppedUntil⟩
  else match r.frames with
    | [] => .ok ⟨.frames, [], afterCursor, none, none⟩
    | oldest :: _ =>
      if afterCursor < oldest.startCursor - 1 then
        .ok ⟨.gap, [], r.nextCursor - 1, some (afterCursor + 1), some (oldest.startCursor - 1)⟩
      else
        .ok ⟨.frames, r.frames.filter fun f => afterCursor < f.endCursor, r.nextCursor - 1, none, none⟩

/-! ## What the operations keep -/

namespace OutputRing

variable {r r' : OutputRing} {payloads : List Bytes} {frames : List OutputFrame}

/-- The last allocated cursor. -/
def head (r : OutputRing) : ℕ := r.nextCursor - 1

theorem nextCursor_eq (r : OutputRing) : r.nextCursor = r.head + 1 :=
  (Nat.sub_add_cancel r.positive).symm

theorem droppedUntil_le_head (r : OutputRing) : r.droppedUntil ≤ r.head := r.tiles.le

/-- What is evicted stays evicted and what is allocated stays allocated. -/
structure Grows (r r' : OutputRing) : Prop where
  capacity : r'.capacity = r.capacity
  dropped : r.droppedUntil ≤ r'.droppedUntil
  next : r.nextCursor ≤ r'.nextCursor

theorem Grows.refl (r : OutputRing) : Grows r r := ⟨rfl, Nat.le_refl _, Nat.le_refl _⟩

theorem Grows.trans {r'' : OutputRing} (h : Grows r r') (h' : Grows r' r'') : Grows r r'' :=
  ⟨h'.capacity.trans h.capacity, Nat.le_trans h.dropped h'.dropped, Nat.le_trans h.next h'.next⟩

theorem Grows.head_le (h : Grows r r') : r.head ≤ r'.head := Nat.sub_le_sub_right h.next 1

theorem popleft_grows (r : OutputRing) : Grows r r.popleft ∧ r.popleft.nextCursor = r.nextCursor := by
  unfold popleft
  split
  · exact ⟨.refl r, rfl⟩
  · next removed rest h =>
    have htiles := r.tiles
    rw [h] at htiles
    exact ⟨⟨rfl, Nat.le_of_lt htiles.2.1, Nat.le_refl _⟩, rfl⟩

theorem evict_grows (n : ℕ) (r : OutputRing) :
    Grows r (evict n r) ∧ (evict n r).nextCursor = r.nextCursor := by
  induction n generalizing r with
  | zero => exact ⟨.refl r, rfl⟩
  | succ n ih =>
    unfold evict
    split
    · obtain ⟨hgrows, hnext⟩ := ih r.popleft
      exact ⟨r.popleft_grows.1.trans hgrows, hnext.trans r.popleft_grows.2⟩
    · exact ⟨.refl r, rfl⟩

theorem length_popleft (r : OutputRing) : r.popleft.frames.length = r.frames.length - 1 := by
  unfold popleft
  split
  · next h => simp [h]
  · next h => simp [h]

/-- An empty ring is within its budgets. -/
theorem not_isOver_of_empty (h : r.frames = []) : r.isOver = false := by
  simp [isOver, retainedLineCount, r.bytes_eq, r.lineBreaks_eq, h]

/-- The loop of `append` ends: as many turns as there are frames bring the ring within budget. -/
theorem evict_not_isOver {n : ℕ} (h : r.frames.length ≤ n) : (evict n r).isOver = false := by
  induction n generalizing r with
  | zero => exact not_isOver_of_empty (List.length_eq_zero_iff.mp (Nat.le_zero.mp h))
  | succ n ih =>
    unfold evict
    split
    · exact ih (by rw [length_popleft]; omega)
    · next hover => exact eq_false_of_ne_true hover

/-- A new frame and the evictions that make room for it. -/
theorem evict_push (r : OutputRing) (frame : OutputFrame) (h : frame.startCursor = r.nextCursor) :
    Frames r.head [frame] (evict (r.frames.length + 1) (r.push frame h)).head ∧
      Grows r (evict (r.frames.length + 1) (r.push frame h)) ∧
      (evict (r.frames.length + 1) (r.push frame h)).isOver = false := by
  obtain ⟨hgrows, hnext⟩ := evict_grows (r.frames.length + 1) (r.push frame h)
  have hle := frame.start_le_end
  have hhead := r.nextCursor_eq
  have hpush : (r.push frame h).nextCursor = frame.endCursor + 1 := rfl
  have hpushed : Grows r (r.push frame h) := ⟨rfl, Nat.le_refl _, by omega⟩
  refine ⟨⟨by omega, by omega, ?_⟩, hpushed.trans hgrows, evict_not_isOver (by simp [push])⟩
  change frame.endCursor = head _
  rw [head, hnext, hpush]
  rfl

/-- `append` returns a frame at the next cursor and leaves the ring within its budgets. -/
theorem append_ok {payload : Bytes} {frame : OutputFrame} (h : r.append payload = .ok (frame, r')) :
    frame.payload = payload ∧ Frames r.head [frame] r'.head ∧ Grows r r' ∧ r'.isOver = false := by
  unfold append at h
  split at h
  · cases h
  split at h
  · cases h
  split at h
  · cases h
  · cases h
    exact ⟨rfl, evict_push r _ _⟩

theorem appendAll_ok (h : r.appendAll payloads = .ok (frames, r')) :
    Frames r.head frames r'.head ∧ Grows r r' := by
  induction payloads generalizing r frames with
  | nil => cases h; exact ⟨rfl, .refl _⟩
  | cons payload payloads ih =>
    obtain ⟨⟨frame, r₁⟩, hfirst, h⟩ := bind_eq_ok_iff.mp h
    obtain ⟨⟨rest, r₂⟩, hrest, h⟩ := bind_eq_ok_iff.mp h
    cases h
    obtain ⟨-, hframe, hgrows, -⟩ := append_ok hfirst
    obtain ⟨hframes, hgrows'⟩ := ih hrest
    exact ⟨hframe.append hframes, hgrows.trans hgrows'⟩

/-- A batch is allocated in one piece. -/
theorem appendBatch_ok (h : r.appendBatch payloads = .ok (frames, r')) :
    Frames r.head frames r'.head ∧ Grows r r' := by
  unfold appendBatch at h
  split at h
  · cases h
  · simp only at h
    split at h
    · cases h
    · exact appendAll_ok h

/-- A reader gets every frame beyond the cursor when nothing of it has been evicted, and otherwise
exactly what is gone. -/
theorem replay_ok {cursor : ℕ} {v : OutputReplay} (h : r.replay cursor = .ok v) (hcursor : cursor ≤ r.head) :
    (r.droppedUntil ≤ cursor ∧ v.kind = .frames ∧ Covers cursor v.frames r.head) ∨ (cursor < r.droppedUntil ∧
        v = ⟨.gap, [], r.head, some (cursor + 1), some r.droppedUntil⟩) := by
  have htiles := r.tiles
  unfold replay at h
  split at h
  · cases h
  split at h
  · next hgap => cases h; exact .inr ⟨hgap, rfl⟩
  next hkept =>
  have hkept := Nat.le_of_not_lt hkept
  split at h
  · next hempty =>
    cases h
    rw [hempty] at htiles
    have hhead : r.droppedUntil = r.head := htiles
    exact .inl ⟨hkept, rfl, by change cursor = r.head; omega⟩
  · next oldest rest hframes =>
    split at h
    · next hold =>
      rw [hframes] at htiles
      have := htiles.1
      omega
    · cases h
      exact .inl ⟨hkept, rfl, htiles.filter_beyond hkept hcursor⟩

end OutputRing

end AgentBox.Stream
