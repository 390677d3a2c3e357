import Mathlib.Tactic.Common

/-!
# Byte strings and fixed-width fields

Byte strings as lists of bytes, and the big-endian unsigned fields that `struct.unpack("!...")` reads
from a fixed offset.
-/

namespace AgentBox

/-- A Python `bytes` object. -/
abbrev Bytes := List UInt8

namespace Bytes

/-- The number that the bytes spell, most significant byte first. -/
def toNat (b : Bytes) : ℕ := b.foldl (fun n x => n * 256 + x.toNat) 0

/-- The `width` bytes at `offset`. -/
def slice (b : Bytes) (offset width : ℕ) : Bytes := (b.drop offset).take width

/-- The unsigned big-endian field of `width` bytes at `offset`. -/
def field (b : Bytes) (offset width : ℕ) : ℕ := (b.slice offset width).toNat

/-- `bytes.fromhex` on lowercase hexadecimal digits; a dangling digit is dropped. -/
def ofHex : List Char → Bytes
  | a :: b :: rest => UInt8.ofNat (digit a * 16 + digit b) :: ofHex rest
  | _ => []
where
  digit (c : Char) : ℕ := if c.toNat < 58 then c.toNat - 48 else c.toNat - 87

/-- The first digits denote the first bytes. -/
theorem ofHex_take (n : ℕ) (s : List Char) : ofHex (s.take (2 * n)) = (ofHex s).take n := by
  induction n generalizing s with
  | zero => rfl
  | succ n ih =>
    match s with
    | [] => rfl
    | [_] => simp [Nat.mul_succ, ofHex]
    | a :: b :: rest => simp [Nat.mul_succ, ofHex, ih]

end Bytes

end AgentBox
