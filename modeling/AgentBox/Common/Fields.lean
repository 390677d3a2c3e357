import AgentBox.Common.Bytes
import AgentBox.Common.Sha256
import Mathlib.Data.List.Induction

/-!
# Writing fixed-width fields

`struct.pack("!...")` writes an unsigned field as big-endian bytes, and `Bytes.field` reads it. The two
are inverse: a number that fits is read back, and the bytes of a field are those of its number.
-/

namespace AgentBox

open Sha256

variable {w n : ℕ}

namespace Sha256

theorem bigEndian_succ (w n : ℕ) : bigEndian (w + 1) n = bigEndian w (n / 256) ++ [UInt8.ofNat n] := by
  induction w with
  | zero => simp [bigEndian]
  | succ w ih =>
    have hdiv : n / 256 ^ (w + 1) = n / 256 / 256 ^ w := by rw [Nat.div_div_eq_div_mul, Nat.pow_succ']
    rw [bigEndian, ih, hdiv, bigEndian]
    rfl

@[simp] theorem length_bigEndian (w n : ℕ) : (bigEndian w n).length = w := by
  induction w with
  | zero => rfl
  | succ w ih => rw [bigEndian, List.length_cons, ih]

end Sha256

namespace Bytes

variable (b : Bytes)

theorem toNat_concat (x : UInt8) : toNat (b ++ [x]) = toNat b * 256 + x.toNat := by
  simp [toNat, List.foldl_append]

theorem toNat_bigEndian (h : n < 256 ^ w) : toNat (bigEndian w n) = n := by
  induction w generalizing n with
  | zero => rw [Nat.lt_one_iff.mp h]; rfl
  | succ w ih =>
    rw [Nat.pow_succ] at h
    rw [bigEndian_succ, toNat_concat, ih (Nat.div_lt_of_lt_mul (by omega)), UInt8.toNat_ofNat']
    omega

theorem bigEndian_toNat : bigEndian b.length (toNat b) = b := by
  induction b using List.reverseRecOn with
  | nil => rfl
  | append_singleton b x ih =>
    have hx : x.toNat < 256 := x.toNat_lt
    have hdiv : (toNat b * 256 + x.toNat) / 256 = toNat b := by omega
    rw [List.length_append, List.length_singleton, bigEndian_succ, toNat_concat, hdiv, ih]
    congr 2
    exact UInt8.toNat.inj (by rw [UInt8.toNat_ofNat']; omega)

/-- A byte string from `offset` on is the `w` bytes there and what follows them. -/
theorem slice_append_drop {offset next : ℕ} (h : offset + w = next) :
    b.slice offset w ++ b.drop next = b.drop offset := by
  rw [slice, ← h, ← List.drop_drop, List.take_append_drop]

/-- Writing a field in the place it was read from. -/
theorem field_append_drop {b : Bytes} {offset next : ℕ} (h : offset + w = next)
    (hle : next ≤ b.length) : bigEndian w (b.field offset w) ++ b.drop next = b.drop offset := by
  have hlength : (b.slice offset w).length = w := by
    rw [slice, List.length_take, List.length_drop]
    omega
  have hspelled := bigEndian_toNat (b.slice offset w)
  rw [hlength] at hspelled
  rw [field, hspelled, b.slice_append_drop h]

/-- `result.set(value, offset)` on a buffer that has room for it. -/
def put (offset : ℕ) (value : Bytes) : Bytes :=
  b.take offset ++ value ++ b.drop (offset + value.length)

/-- A buffer that is filled from its start. -/
theorem put_replicate {a : Bytes} {offset : ℕ} (h : a.length = offset) (v : Bytes) (x : UInt8) :
    put (a ++ List.replicate n x) offset v = a ++ v ++ List.replicate (n - v.length) x := by
  subst h
  simp [put, List.drop_append]

end Bytes

end AgentBox
