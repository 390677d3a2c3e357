import AgentBox.Wire.Schema

/-!
# The incremental parser

Reference: `agentbox_protocol/abws.py`, `ABWSParser`.

The parser takes the bytes of one leg in whatever chunks they arrive. A chunk goes into the buffer in
pieces of bounded size, and after each piece the complete frames are taken out again. `feed_eq` reads
that loop as one pass over the buffer and the whole chunk; from there on `drain_extend` says what the
bytes that follow do to a pass.
-/

namespace AgentBox.Wire

open List

/-- `MAX_FRAME` -/
def maxFrame : ℕ := headerSize + maxPayload

/-- What `ABWSParser` raises. -/
inductive ParserError
  /-- what `decode_frame` raises -/
  | frame (e : AbwsError)
  /-- first_sequence must be a non-zero uint64 -/
  | firstSequence
  /-- ABWS payload exceeds parser limit -/
  | payloadLimit
  /-- ABWS hop sequence exhausted -/
  | exhausted
  /-- ABWS partial-frame buffer exceeds limit -/
  | bufferLimit

def checkSequence (expected hopSequence : ℕ) : Except AbwsError Unit :=
  if expected < 1 ∨ maxU64 < expected then
    .error (.header "expected_sequence must be a non-zero uint64")
  else if hopSequence ≠ expected then .error (.header "ABWS hop sequence is not contiguous")
  else .ok ()

/-- `decode_frame` with an expected sequence, which it checks before it reads the payload. -/
def decodeExpected (expected : ℕ) (raw : Bytes) : Except AbwsError AbwsFrame :=
  match decodeFrame raw with
  | .ok frame => (checkSequence expected frame.hopSequence).map fun _ => frame
  | .error .control =>
    (checkSequence expected (unpackHeader raw).hopSequence).bind fun _ => .error .control
  | .error e => .error e

structure AbwsParser where
  buffer : Bytes
  expectedSequence : ℕ
  exhausted : Bool

/-- What a call returns and leaves, or raises. -/
abbrev Fed := Except ParserError (List AbwsFrame × AbwsParser)

namespace AbwsParser

variable {p q : AbwsParser} {frame : AbwsFrame} {frames : List AbwsFrame} {xs ys rest : Bytes}
  {e : ParserError} {more : Bool}

def init (firstSequence : ℕ) : Except ParserError AbwsParser :=
  if firstSequence < 1 ∨ maxU64 < firstSequence then .error .firstSequence
  else .ok ⟨[], firstSequence, false⟩

def frameLength (buffer : Bytes) : ℕ := headerSize + (unpackHeader buffer).payloadLength

/-- A turn of the inner loop, up to the frame it takes from the buffer; `none` where it breaks. -/
def next (p : AbwsParser) : Except ParserError (Option (AbwsFrame × Bytes)) :=
  if p.buffer.length < headerSize then .ok none
  else if maxPayload < (unpackHeader p.buffer).payloadLength then .error .payloadLimit
  else if p.buffer.length < frameLength p.buffer then .ok none
  else
    match decodeExpected p.expectedSequence (p.buffer.take (frameLength p.buffer)) with
    | .error e => .error (.frame e)
    | .ok frame => .ok (some (frame, p.buffer.drop (frameLength p.buffer)))

theorem length_of_next (h : p.next = .ok (some (frame, rest))) : rest.length < p.buffer.length := by
  unfold next at h
  split at h
  · cases h
  split at h
  · cases h
  split at h
  · cases h
  · next hheader _ _ =>
    split at h
    · cases h
    · cases h
      rw [length_drop, frameLength, headerSize] at *
      omega

/-- The inner loop. `more` says that bytes of the chunk are still to come. -/
def drain (more : Bool) (p : AbwsParser) : Fed :=
  match _h : p.next with
  | .error e => .error e
  | .ok none => .ok ([], p)
  | .ok (some (frame, rest)) =>
    if p.expectedSequence = maxU64 then
      if rest ≠ [] ∨ more then .error .exhausted
      -- the buffer is empty, so that the loop ends here
      else .ok ([frame], { p with buffer := rest, exhausted := true })
    else
      (drain more { p with buffer := rest, expectedSequence := p.expectedSequence + 1 }).map
        fun r => (frame :: r.1, r.2)
termination_by p.buffer.length
decreasing_by exact length_of_next ‹_›

/-- The loop of `feed` over the rest of a chunk. -/
def feedLoop (chunk : Bytes) (p : AbwsParser) : Fed :=
  if chunk = [] then drain false p
  else if maxFrame - p.buffer.length = 0 then .error .bufferLimit
  else
    let take := min (maxFrame - p.buffer.length) chunk.length
    let rest := chunk.drop take
    match drain (rest ≠ []) { p with buffer := p.buffer ++ chunk.take take } with
    | .error e => .error e
    | .ok (frames, q) =>
      if rest = [] then .ok (frames, q)
      else if q.buffer.length = maxFrame ∧ frames = [] then .error .bufferLimit
      else (feedLoop rest q).map fun r => (frames ++ r.1, r.2)
termination_by chunk.length
decreasing_by
  have := length_pos_iff.mpr ‹¬chunk = []›
  rw [length_drop]
  omega

def feed (p : AbwsParser) (chunk : Bytes) : Fed :=
  if p.exhausted ∧ chunk ≠ [] then .error .exhausted else feedLoop chunk p

/-- Calls one after another, up to the first that raises. -/
def andThen (x : Fed) (f : AbwsParser → Fed) : Fed :=
  match x with
  | .error e => .error e
  | .ok (frames, q) => (f q).map fun r => (frames ++ r.1, r.2)

def feedAll (p : AbwsParser) : List Bytes → Fed
  | [] => .ok ([], p)
  | chunk :: chunks => andThen (p.feed chunk) (·.feedAll chunks)

/-! ## A pass and the bytes that follow -/

/-- The parser with further bytes in its buffer. -/
def extend (p : AbwsParser) (ys : Bytes) : AbwsParser := { p with buffer := p.buffer ++ ys }

/-- No complete frame is left in the buffer. -/
def Settled (p : AbwsParser) : Prop := p.next = .ok none

theorem payloadLength_append (h : headerSize ≤ xs.length) :
    (unpackHeader (xs ++ ys)).payloadLength = (unpackHeader xs).payloadLength := by
  have hslice : (xs ++ ys).slice 8 4 = xs.slice 8 4 := by
    unfold headerSize at h
    rw [Bytes.slice, Bytes.slice, drop_append_of_le_length (by omega),
      take_append_of_le_length (by rw [length_drop]; omega)]
  change ((xs ++ ys).slice 8 4).toNat = _
  rw [hslice]
  rfl

/-- What decides a turn is decided by the bytes that are there. -/
theorem next_extend (p : AbwsParser) (ys : Bytes) : p.Settled ∨
    (p.extend ys).next = p.next.map (Option.map fun r => (r.1, r.2 ++ ys)) := by
  unfold Settled next
  split
  · exact .inl rfl
  next hheader =>
  have hheader := Nat.le_of_not_lt hheader
  have hpayload : (unpackHeader (p.buffer ++ ys)).payloadLength =
      (unpackHeader p.buffer).payloadLength := payloadLength_append hheader
  have hlength : frameLength (p.buffer ++ ys) = frameLength p.buffer := congrArg (headerSize + ·) hpayload
  have hextended : ¬(p.buffer ++ ys).length < headerSize := by
    rw [length_append]
    omega
  simp only [extend, hextended, hpayload, hlength, if_false]
  split
  · exact .inr rfl
  split
  · exact .inl rfl
  · next hframe =>
    have hframe := Nat.le_of_not_lt hframe
    rw [if_neg (by rw [length_append]; omega), take_append_of_le_length hframe,
      drop_append_of_le_length hframe]
    refine .inr ?_
    cases decodeExpected p.expectedSequence (p.buffer.take (frameLength p.buffer)) with
    | error e => rfl
    | ok frame => rfl

theorem Settled.length_lt (h : p.Settled) : p.buffer.length < maxFrame := by
  unfold Settled next at h
  unfold maxFrame
  split at h
  · omega
  split at h
  · cases h
  split at h
  · next hpayload hframe =>
    unfold frameLength at hframe
    omega
  · split at h
    · cases h
    · cases h

/-! ## What a pass does after a turn -/

theorem drain_of_error (h : p.next = .error e) : p.drain more = .error e := by
  rw [drain]
  split
  · next heq => rw [h] at heq; cases heq; rfl
  · next heq => rw [h] at heq; cases heq
  · next heq => rw [h] at heq; cases heq

theorem Settled.drain (h : p.Settled) : p.drain more = .ok ([], p) := by
  rw [AbwsParser.drain]
  split
  · next heq => rw [h] at heq; cases heq
  · rfl
  · next heq => rw [h] at heq; cases heq

theorem drain_of_some (h : p.next = .ok (some (frame, rest))) : p.drain more =
    if p.expectedSequence = maxU64 then if rest ≠ [] ∨ more then .error .exhausted
      else .ok ([frame], { p with buffer := rest, exhausted := true })
    else
      (drain more { p with buffer := rest, expectedSequence := p.expectedSequence + 1 }).map
        fun r => (frame :: r.1, r.2) := by
  rw [drain]
  split
  · next heq => rw [h] at heq; cases heq
  · next heq => rw [h] at heq; cases heq
  · next heq => rw [h] at heq; cases heq; rfl

/-- A pass leaves no complete frame, and it never finds the buffer over its limit. -/
theorem drain_spec (more : Bool) (p : AbwsParser) : (∀ frames q, p.drain more = .ok (frames, q) →
      q.Settled ∧ (more = true → q.exhausted = p.exhausted)) ∧ p.drain more ≠ .error .bufferLimit := by
  fun_induction drain more p with
  | case1 p e h =>
    refine ⟨fun _ _ heq => (by cases heq), fun heq => ?_⟩
    cases heq
    unfold next at h
    repeat' split at h
    all_goals cases h
  | case2 p h =>
    refine ⟨fun _ _ heq => ?_, nofun⟩
    cases heq
    exact ⟨h, fun _ => rfl⟩
  | case3 p frame rest h hlast hover =>
    exact ⟨fun _ _ heq => (by cases heq), nofun⟩
  | case4 p frame rest h hlast hover =>
    obtain ⟨hrest, hmore⟩ := not_or.mp hover
    obtain rfl := not_not.mp hrest
    refine ⟨fun _ _ heq => ?_, nofun⟩
    cases heq
    exact ⟨rfl, fun h => absurd h hmore⟩
  | case5 p frame rest h hlast ih =>
    cases hpass : drain more { p with buffer := rest, expectedSequence := p.expectedSequence + 1 } with
    | error e =>
      rw [hpass] at ih
      exact ⟨fun _ _ heq => (by cases heq), fun heq => ih.2 (by cases heq; rfl)⟩
    | ok r =>
      refine ⟨fun _ _ heq => ?_, nofun⟩
      cases heq
      exact ih.1 r.1 r.2 hpass

section
variable {f g : AbwsParser → Fed} {x : Fed}

theorem andThen_congr (h : ∀ frames q, x = .ok (frames, q) → f q = g q) : andThen x f = andThen x g := by
  unfold andThen
  split
  · rfl
  · next frames q => rw [h frames q rfl]

@[simp] theorem andThen_nil : andThen (.ok ([], p)) f = f p := by
  cases h : f p with
  | error | ok => simp [andThen, h, Except.map]

theorem andThen_map : andThen (x.map fun r => (frame :: r.1, r.2)) f =
    (andThen x f).map fun r => (frame :: r.1, r.2) := by
  cases x with
  | error e => rfl
  | ok r =>
    simp only [andThen, Except.map]
    cases f r.2 with
    | error e => rfl
    | ok r' => rfl

end

/-- With more bytes to come, only the frame with the last sequence is treated differently. -/
theorem drain_true (p : AbwsParser) (hp : p.exhausted = false) : p.drain true =
    andThen (p.drain false) fun q => if q.exhausted then .error .exhausted else .ok ([], q) := by
  fun_induction drain true p with
  | case1 p e h => rw [drain_of_error h]; rfl
  | case2 p h => rw [Settled.drain h, andThen_nil, hp]; rfl
  | case3 p frame rest h hlast hover =>
    rw [drain_of_some h, if_pos hlast]
    split
    · rfl
    · rfl
  | case4 p frame rest h hlast hover => exact absurd (.inr rfl) hover
  | case5 p frame rest h hlast ih =>
    rw [ih hp, drain_of_some h, if_neg hlast, andThen_map]

/-- A pass over a buffer with further bytes is a pass without them and one over what it left. -/
theorem drain_extend (p : AbwsParser) (hys : ys ≠ []) :
    (p.extend ys).drain more = andThen (p.drain true) fun q => (q.extend ys).drain more := by
  fun_induction drain true p with
  | case1 p e h =>
    rcases p.next_extend ys with hsettled | hnext
    · rw [hsettled] at h; cases h
    · rw [h] at hnext
      rw [drain_of_error hnext]
      rfl
  | case2 p h => rw [andThen_nil]
  | case3 p frame rest h hlast hover =>
    rcases p.next_extend ys with hsettled | hnext
    · rw [hsettled] at h; cases h
    · rw [h] at hnext
      rw [drain_of_some hnext, if_pos (by exact hlast), if_pos (.inl (by simp [hys]))]
      rfl
  | case4 p frame rest h hlast hover => exact absurd (.inr rfl) hover
  | case5 p frame rest h hlast ih =>
    rcases p.next_extend ys with hsettled | hnext
    · rw [hsettled] at h; cases h
    · rw [h] at hnext
      rw [drain_of_some hnext, if_neg (by exact hlast), andThen_map, ← ih]
      rfl

/-! ## Chunks -/

@[simp] theorem extend_nil (p : AbwsParser) : p.extend [] = p := by simp [extend]

theorem extend_extend (p : AbwsParser) (xs ys : Bytes) : (p.extend xs).extend ys = p.extend (xs ++ ys) := by
  simp [extend]

/-- A pass after a piece of a chunk, and what is left to do for the rest of the chunk. -/
theorem drain_piece (p : AbwsParser) (chunk : Bytes) (n : ℕ) : (p.extend chunk).drain false =
      andThen ((p.extend (chunk.take n)).drain (chunk.drop n ≠ [])) fun q =>
        if chunk.drop n = [] then .ok ([], q) else (q.extend (chunk.drop n)).drain false := by
  by_cases hrest : chunk.drop n = []
  · rw [take_of_length_le (drop_eq_nil_iff.mp hrest)]
    cases hpass : (p.extend chunk).drain false with
    | error e => simp [hrest, hpass, andThen]
    | ok r => simp [hrest, hpass, andThen, Except.map]
  · have hsplit : p.extend chunk = (p.extend (chunk.take n)).extend (chunk.drop n) := by
      rw [extend_extend, take_append_drop]
    rw [hsplit, drain_extend _ hrest]
    simp [hrest]

/-- The loop of `feed` is one pass over the buffer and the whole chunk. -/
theorem feedLoop_eq (chunk : Bytes) (hp : p.Settled) : feedLoop chunk p = (p.extend chunk).drain false := by
  fun_induction feedLoop chunk p with
  | case1 p => rw [extend_nil]
  | case2 chunk p hchunk hfull =>
    have := hp.length_lt
    omega
  | case3 chunk p hchunk hroom take rest e hpass =>
    rw [drain_piece p chunk take]
    exact (congrArg (andThen · _) hpass).symm
  | case4 chunk p hchunk hroom take rest frames q hpass hrest =>
    rw [drain_piece p chunk take]
    refine Eq.trans ?_ (congrArg (andThen · _) hpass).symm
    simp [andThen, show chunk.drop take = [] from hrest, Except.map]
  | case5 chunk p hchunk hroom take rest frames q hpass hrest hover =>
    have := ((drain_spec _ _).1 frames q hpass).1.length_lt
    omega
  | case6 chunk p hchunk hroom take rest frames q hpass hrest hover ih =>
    rw [drain_piece p chunk take, ih ((drain_spec _ _).1 frames q hpass).1]
    refine Eq.trans ?_ (congrArg (andThen · _) hpass).symm
    rw [andThen, if_neg hrest]

/-- `feed`, without its loop. -/
theorem feed_eq (hp : p.Settled) (chunk : Bytes) : p.feed chunk =
    if p.exhausted ∧ chunk ≠ [] then .error .exhausted else (p.extend chunk).drain false := by
  rw [feed, feedLoop_eq chunk hp]

theorem feed_nil (hp : p.Settled) : p.feed [] = .ok ([], p) := by
  rw [feed_eq hp, if_neg (by simp), extend_nil, hp.drain]

theorem settled_of_feed (hp : p.Settled) (h : p.feed xs = .ok (frames, q)) : q.Settled := by
  rw [feed_eq hp] at h
  split at h
  · cases h
  · exact ((drain_spec _ _).1 frames q h).1

/-- Two chunks are one. -/
theorem feed_append (hp : p.Settled) (xs ys : Bytes) :
    p.feed (xs ++ ys) = andThen (p.feed xs) (·.feed ys) := by
  by_cases hys : ys = []
  · subst hys
    rw [append_nil]
    cases hfeed : p.feed xs with
    | error e => rfl
    | ok r => simp [andThen, feed_nil (settled_of_feed hp hfeed), Except.map]
  cases hexhausted : p.exhausted with
  | true =>
    by_cases hxs : xs = []
    · rw [hxs, feed_nil hp, andThen_nil]
      rfl
    · rw [feed_eq hp, feed_eq hp, if_pos ⟨hexhausted, by simp [hxs]⟩, if_pos ⟨hexhausted, hxs⟩]
      rfl
  | false =>
    rw [feed_eq hp, feed_eq hp, if_neg (by simp [hexhausted]), if_neg (by simp [hexhausted]),
      ← extend_extend, drain_extend _ hys, drain_true (p.extend xs) hexhausted]
    cases hpass : (p.extend xs).drain false with
    | error e => rfl
    | ok r =>
      have hsettled := ((drain_spec _ _).1 r.1 r.2 hpass).1
      simp only [andThen, feed_eq hsettled]
      cases hq : r.2.exhausted with
      | true => simp [hys, Except.map]
      | false => simp [Except.map]

theorem feedAll_eq (hp : p.Settled) (chunks : List Bytes) : p.feedAll chunks = p.feed chunks.flatten := by
  induction chunks generalizing p with
  | nil => exact (feed_nil hp).symm
  | cons chunk chunks ih =>
    rw [flatten_cons, feed_append hp]
    exact andThen_congr fun _ _ h => ih (settled_of_feed hp h)

end AbwsParser

end AgentBox.Wire
