import AgentBox.Common.Bytes
import Mathlib.Data.List.DropRight
import Mathlib.Data.List.TakeDrop

/-!
# The bounded redraw

A redraw may send 60 KiB and 24 rows. Its capture is read with one byte more, and
`trim_redraw_sentinels` cuts that byte and every row after the 24th. A row that the byte limit cut
through stays as it was cut.
-/

namespace AgentBox.Runtime

open List

variable {raw p : Bytes} (payload : Bytes)

/-- `_physical_rows` -/
def physicalRows : ℕ :=
  payload.count 10 + if payload.getLast?.any (· != 10) then 1 else 0

structure BoundedRedraw where
  payload : Bytes
  hasMore : Bool
  bounded : payload.length ≤ 61440 ∧ physicalRows payload ≤ 24

/-- `BoundedRedraw(payload, has_more)` -/
def BoundedRedraw.make (hasMore : Bool) : Except String BoundedRedraw :=
  if h : payload.length ≤ 61440 ∧ physicalRows payload ≤ 24 then .ok ⟨payload, hasMore, h⟩
  else .error "redraw payload is outside the fixed bounds"

/-- The loop over the payload: where its 25th row starts, if that row is complete. -/
def sentinelRow (offset newlines rowStart : ℕ) : Bytes → Option ℕ
  | [] => none
  | value :: rest =>
    if value = 10 then
      if newlines + 1 = 25 then some rowStart
      else sentinelRow (offset + 1) (newlines + 1) (offset + 1) rest
    else sentinelRow (offset + 1) newlines rowStart rest

/-- `payload[: payload.rfind(b"\n") + 1]` -/
def completeRows : Bytes := payload.rdropWhile (· != 10)

def trimRedrawSentinels (raw : Bytes) : Except String BoundedRedraw :=
  if 61441 < raw.length then .error "redraw read must be bytes within the sentinel limit"
  else
    let byteSentinel := raw.length == 61441
    let payload := if byteSentinel then raw.take 61440 else raw
    match sentinelRow 0 0 0 payload with
    | some rowStart => BoundedRedraw.make (payload.take rowStart) true
    | none =>
      if physicalRows payload = 25 then BoundedRedraw.make (completeRows payload) true
      else BoundedRedraw.make payload byteSentinel

/-! ## Rows -/

theorem physicalRows_le (p : Bytes) : physicalRows p ≤ p.count 10 + 1 := by
  unfold physicalRows
  split <;> omega

theorem completeRows_concat (p : Bytes) (value : UInt8) :
    completeRows (p ++ [value]) = if value = 10 then p ++ [value] else completeRows p := by
  simp [completeRows, rdropWhile_concat]

/-- Up to the last newline, nothing but an unfinished row is lost. -/
theorem completeRows_spec (h : 0 < p.count 10) : completeRows p <+: p ∧
    (completeRows p).count 10 = p.count 10 ∧ (completeRows p).getLast? = some 10 := by
  induction p using reverseRecOn with
  | nil => cases h
  | append_singleton p value ih =>
    rw [completeRows_concat]
    split
    · next hvalue => simp [hvalue]
    · next hvalue =>
      obtain ⟨hpre, hcount, hlast⟩ := ih (by simpa [hvalue] using h)
      exact ⟨hpre.trans ⟨[value], rfl⟩, by simpa [hvalue] using hcount, hlast⟩

/-- The loop over what follows `d`: it stops at a newline after 24 others. -/
theorem sentinelRow_spec {d : Bytes} (rest : Bytes) (hd : d.count 10 ≤ 24) (row : Option ℕ)
    (h : sentinelRow d.length (d.count 10) (completeRows d).length rest = row) :
    (∀ n ∈ row, ∃ d', d' ++ [10] <+: d ++ rest ∧ d'.count 10 = 24 ∧ n = (completeRows d').length) ∧
      (row = none → (d ++ rest).count 10 ≤ 24) := by
  induction rest generalizing d with
  | nil =>
    subst h
    simpa [sentinelRow] using hd
  | cons value rest ih =>
    rw [sentinelRow] at h
    rw [← concat_append, concat_eq_append]
    by_cases hvalue : value = 10
    · subst hvalue
      rw [if_pos rfl] at h
      by_cases hfull : d.count 10 + 1 = 25
      · rw [if_pos hfull] at h
        subst h
        simpa using ⟨d, ⟨rest, by simp⟩, by omega, rfl⟩
      · rw [if_neg hfull] at h
        refine ih ?_ ?_
        · rw [count_append, count_singleton_self]
          omega
        · simpa [completeRows_concat] using h
    · rw [if_neg hvalue] at h
      exact ih (by simpa [hvalue] using hd) (by simpa [completeRows_concat, hvalue] using h)

/-- What a capture is cut to: nothing but a prefix of it, which is 24 complete rows or all of the first
60 KiB, and `has_more` says whether anything is missing. -/
def Keeps (raw : Bytes) (r : BoundedRedraw) : Prop :=
  r.payload <+: raw ∧
    (r.payload = raw.take 61440 ∨ r.payload.count 10 = 24 ∧ r.payload.getLast? = some 10) ∧
    (r.hasMore = true ↔ r.payload ≠ raw)

theorem make_completeRows {d : Bytes} (hd : d <+: raw.take 61440) (hcount : d.count 10 = 24)
    (hcut : completeRows d ≠ raw.take 61440) :
    ∃ r, BoundedRedraw.make (completeRows d) true = .ok r ∧ Keeps raw r := by
  obtain ⟨hpre, hrows, hlast⟩ := completeRows_spec (p := d) (by omega)
  have hpayload := hpre.trans hd
  have hlength : (completeRows d).length ≤ 61440 := hpayload.length_le.trans (length_take_le _ _)
  have hbounded : physicalRows (completeRows d) ≤ 24 := by simp [physicalRows, hlast, hrows, hcount]
  have hmissing : completeRows d ≠ raw := by
    intro heq
    rw [heq] at hlength hcut
    exact hcut (take_of_length_le hlength).symm
  refine ⟨⟨_, true, hlength, hbounded⟩, dif_pos ⟨hlength, hbounded⟩, ?_, .inr ⟨hrows.trans hcount, hlast⟩, ?_⟩
  · exact hpayload.trans ⟨_, take_append_drop _ _⟩
  · simpa using hmissing

theorem trimRedrawSentinels_eq_ok (raw : Bytes) (hraw : raw.length ≤ 61441) :
    ∃ r, trimRedrawSentinels raw = .ok r ∧ Keeps raw r := by
  have hpayload : (if raw.length == 61441 then raw.take 61440 else raw) = raw.take 61440 := by
    split
    · rfl
    · next h =>
      rw [beq_iff_eq] at h
      exact (take_of_length_le (by omega)).symm
  rw [trimRedrawSentinels, if_neg (not_lt.mpr hraw)]
  simp only [hpayload]
  cases hrow : sentinelRow 0 0 0 (raw.take 61440) with
  | some n =>
    obtain ⟨d, hd, hcount, rfl⟩ := (sentinelRow_spec (d := []) _ (by simp) _ hrow).1 n rfl
    have hbefore : d <+: raw.take 61440 := List.IsPrefix.trans ⟨[10], rfl⟩ hd
    obtain ⟨hcomplete, -, -⟩ := completeRows_spec (p := d) (by omega)
    dsimp only
    rw [← prefix_iff_eq_take.mp (hcomplete.trans hbefore)]
    refine make_completeRows hbefore hcount fun heq => ?_
    have hshort := hd.length_le
    rw [nil_append, ← heq, length_append] at hshort
    exact absurd hcomplete.length_le (not_le.mpr hshort)
  | none =>
    have hrows := (sentinelRow_spec (d := []) _ (by simp) _ hrow).2 rfl
    rw [nil_append] at hrows
    have hphysical := physicalRows_le (raw.take 61440)
    dsimp only
    split
    · next hfull =>
      refine make_completeRows (prefix_refl _) (by omega) fun heq => ?_
      have hlast := (completeRows_spec (p := raw.take 61440) (by omega)).2.2
      rw [heq] at hlast
      simp [physicalRows, hlast] at hfull
      omega
    · next hfull =>
      have hbounded : (raw.take 61440).length ≤ 61440 ∧ physicalRows (raw.take 61440) ≤ 24 :=
        ⟨length_take_le _ _, by omega⟩
      refine ⟨⟨_, _, hbounded⟩, dif_pos hbounded, ⟨_, take_append_drop _ _⟩, .inl rfl, ?_⟩
      rw [beq_iff_eq, Ne, take_eq_self_iff]
      omega

/-- A capture within its limit is cut to whole rows or to the first 60 KiB of it, at most 24 rows either way,
and `has_more` says whether anything of it is missing. -/
theorem trimRedrawSentinels_keeps (raw : Bytes) : if 61441 < raw.length then
      trimRedrawSentinels raw = .error "redraw read must be bytes within the sentinel limit" else
      ∃ r, trimRedrawSentinels raw = .ok r ∧ r.payload.length ≤ 61440 ∧ physicalRows r.payload ≤ 24 ∧
        Keeps raw r := by
  split
  · next hlong => rw [trimRedrawSentinels, if_pos hlong]
  · next hraw =>
    obtain ⟨r, hr, hkeeps⟩ := trimRedrawSentinels_eq_ok raw (not_lt.mp hraw)
    exact ⟨r, hr, r.bounded.1, r.bounded.2, hkeeps⟩

/-- One row that is longer than the limit is cut inside, and more is announced though no row is left out. -/
theorem row_cut_inside : ∃ r, trimRedrawSentinels (List.replicate 61441 120) = .ok r ∧
    r.payload ≠ List.replicate 61441 120 ∧ r.payload.getLast? = some 120 ∧ r.hasMore = true ∧
    physicalRows r.payload = physicalRows (List.replicate 61441 120) := by
  obtain ⟨r, hr, hpre, hend, hmore⟩ := trimRedrawSentinels_eq_ok (List.replicate 61441 120)
    (length_replicate ..).le
  have hpayload : r.payload = List.replicate 61440 120 := by
    rcases hend with heq | ⟨-, hlast⟩
    · rw [heq, take_replicate]
      rfl
    · exact absurd (eq_of_mem_replicate (hpre.subset (mem_of_getLast? hlast))) (by decide)
  have hrow : ∀ n, physicalRows (List.replicate (n + 1) 120) = 1 := fun n => by
    simp [physicalRows, count_replicate, List.getLast?_replicate]
  have hmissing : r.payload ≠ List.replicate 61441 120 := by
    rw [hpayload, Ne, replicate_inj]
    decide
  refine ⟨r, hr, hmissing, ?_, hmore.mpr hmissing, ?_⟩
  · rw [hpayload, List.getLast?_replicate]
    rfl
  · rw [hpayload]
    exact (hrow 61439).trans (hrow 61440).symm

end AgentBox.Runtime
