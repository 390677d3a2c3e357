import AgentBox.Common.Bytes
import AgentBox.Common.Json

/-!
# The shape of UTF-8 text

A byte string that decodes is a row of ASCII bytes and of groups of bytes above them, one code point
each. That is all a scan over the bytes needs which looks for ASCII characters only.
-/

namespace AgentBox

variable {b : UInt8} {n : ℕ} {payload : Bytes} {text : CodePoints}

/-! ## One character -/

theorem continuation_eq {low high : UInt8} (h : continuation low high b = some n) :
    low.toNat ≤ b.toNat ∧ b.toNat ≤ high.toNat ∧ n = b.toNat % 64 := by
  unfold continuation at h
  split at h
  · next hb =>
    cases h
    simp only [UInt8.le_iff_toNat_le] at hb
    exact ⟨hb.1, hb.2, rfl⟩
  · cases h

theorem continuation_head {t : Bytes} (h : t.head?.bind (continuation 0x80 0xBF) = some n) :
    ∃ x u, t = x :: u ∧ 128 ≤ x.toNat := by
  cases t with
  | nil => cases h
  | cons x u => exact ⟨x, u, rfl, (continuation_eq h).1⟩

/-- The second byte, whose range depends on the first. -/
theorem second_bounds {d lead lead' low high : UInt8} (hlow : (if b = lead then low else 0x80).toNat ≤ d.toNat)
    (hhigh : d.toNat ≤ (if b = lead' then high else 0xBF).toNat) (h : 128 ≤ low.toNat) (h' : high.toNat < 192) :
    128 ≤ d.toNat ∧ d.toNat < 192 ∧ (b.toNat = lead.toNat → low.toNat ≤ d.toNat) := by
  refine ⟨Nat.le_trans ?_ hlow, Nat.lt_of_le_of_lt hhigh ?_, fun hlead => ?_⟩
  · split
    · exact h
    · decide
  · split
    · exact h'
    · decide
  · rw [if_pos (UInt8.toNat.inj hlead)] at hlow
    exact hlow

/-- A multi-byte character is beyond ASCII, and so are its bytes. -/
theorem decodeMultibyte_eq {rest : Bytes} {c : ℕ} (h : decodeMultibyte b rest = some (c, n)) :
    128 ≤ c ∧ ∃ w t, rest = w ++ t ∧ w.length = n ∧ ∀ x ∈ w, 128 ≤ x.toNat := by
  unfold decodeMultibyte at h
  split at h
  · next d rest =>
    simp only [UInt8.le_iff_toNat_le] at h
    split at h
    · next hb =>
      obtain ⟨x, hx, h⟩ := Option.bind_eq_some_iff.mp h
      obtain ⟨hlow, hhigh, rfl⟩ := continuation_eq hx
      cases h
      simp only [UInt8.reduceToNat] at hb hlow hhigh
      exact ⟨by omega, [d], rest, rfl, rfl, by simpa using hlow⟩
    · split at h
      · next hb =>
        obtain ⟨x, hx, h₁⟩ := Option.bind_eq_some_iff.mp h
        obtain ⟨y, hy, h₂⟩ := Option.bind_eq_some_iff.mp h₁
        obtain ⟨hlow, hhigh, rfl⟩ := continuation_eq hx
        obtain ⟨e, t, rfl, he⟩ := continuation_head hy
        cases h₂
        have hd := second_bounds hlow hhigh (by decide) (by decide)
        simp only [UInt8.reduceToNat] at hb hd
        exact ⟨by omega, [d, e], t, rfl, rfl, by simpa using ⟨hd.1, he⟩⟩
      · split at h
        · next hb =>
          obtain ⟨x, hx, h₁⟩ := Option.bind_eq_some_iff.mp h
          obtain ⟨y, hy, h₂⟩ := Option.bind_eq_some_iff.mp h₁
          obtain ⟨z, hz, h₃⟩ := Option.bind_eq_some_iff.mp h₂
          obtain ⟨hlow, hhigh, rfl⟩ := continuation_eq hx
          obtain ⟨e, t, rfl, he⟩ := continuation_head hy
          obtain ⟨f, t, rfl, hf⟩ := continuation_head hz
          cases h₃
          have hd := second_bounds hlow hhigh (by decide) (by decide)
          simp only [UInt8.reduceToNat] at hb hd
          exact ⟨by omega, [d, e, f], t, rfl, rfl, by simpa using ⟨hd.1, he, hf⟩⟩
        · cases h
  · cases h

/-! ## Texts -/

/-- The bytes of a text, character by character. -/
inductive Utf8 : Bytes → CodePoints → Prop
  | nil : Utf8 [] []
  | ascii {b : UInt8} {rest : Bytes} {text : CodePoints} (hb : b.toNat < 128)
      (hrest : Utf8 rest text) : Utf8 (b :: rest) (b.toNat :: text)
  | multibyte {b : UInt8} {w rest : Bytes} {c : ℕ} {text : CodePoints} (hc : 128 ≤ c)
      (hw : ∀ x ∈ b :: w, 128 ≤ x.toNat) (hrest : Utf8 rest text) :
      Utf8 (b :: w ++ rest) (c :: text)

theorem decodeUtf8_skip (w rest : Bytes) : decodeUtf8 w.length (w ++ rest) = decodeUtf8 0 rest := by
  induction w with
  | nil => rfl
  | cons b w ih => rw [List.length_cons, List.cons_append, decodeUtf8, ih]

theorem utf8_of_decodeUtf8 (h : decodeUtf8 0 payload = some text) : Utf8 payload text := by
  induction hn : payload.length using Nat.strongRecOn generalizing payload text with
  | _ n ih =>
  subst hn
  cases payload with
  | nil =>
    cases h
    exact .nil
  | cons b rest =>
    rw [decodeUtf8] at h
    split at h
    · next hb =>
      obtain ⟨text, hrest, rfl⟩ := Option.map_eq_some_iff.mp h
      exact .ascii (UInt8.lt_iff_toNat_lt.mp hb) (ih _ (Nat.lt_succ_self _) hrest rfl)
    · next hb =>
      split at h
      · next c n hmultibyte =>
        obtain ⟨text, hrest, rfl⟩ := Option.map_eq_some_iff.mp h
        obtain ⟨hc, w, t, rfl, rfl, hw⟩ := decodeMultibyte_eq hmultibyte
        rw [decodeUtf8_skip] at hrest
        have hfirst : 128 ≤ b.toNat := Nat.not_lt.mp fun hlt =>
          hb (UInt8.lt_iff_toNat_lt.mpr hlt)
        exact .multibyte hc (List.forall_mem_cons.mpr ⟨hfirst, hw⟩)
          (ih _ (by simp only [List.length_cons, List.length_append]; omega) hrest rfl)
      · cases h

theorem Utf8.length_le (h : Utf8 payload text) : text.length ≤ payload.length := by
  induction h with
  | nil => exact Nat.le_refl _
  | ascii _ _ ih => exact Nat.succ_le_succ ih
  | multibyte _ _ _ ih =>
    simp only [List.cons_append, List.length_cons, List.length_append]
    omega

end AgentBox
