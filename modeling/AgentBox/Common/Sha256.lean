import Mathlib.Algebra.Group.Nat.Defs

/-!
# SHA-256

The hash function of FIPS 180-4 on byte lists, as `hashlib.sha256(...).digest()` and `hexdigest()`
return it. Everything is structurally recursive, so a digest of a short message evaluates in the kernel.
-/

namespace AgentBox.Sha256

/-- The round constants: the fractional parts of the cube roots of the first 64 primes. -/
def roundConstants : List UInt32 :=
  [0x428a2f98, 0x71374491, 0xb5c0fbcf, 0xe9b5dba5, 0x3956c25b, 0x59f111f1, 0x923f82a4, 0xab1c5ed5,
   0xd807aa98, 0x12835b01, 0x243185be, 0x550c7dc3, 0x72be5d74, 0x80deb1fe, 0x9bdc06a7, 0xc19bf174,
   0xe49b69c1, 0xefbe4786, 0x0fc19dc6, 0x240ca1cc, 0x2de92c6f, 0x4a7484aa, 0x5cb0a9dc, 0x76f988da,
   0x983e5152, 0xa831c66d, 0xb00327c8, 0xbf597fc7, 0xc6e00bf3, 0xd5a79147, 0x06ca6351, 0x14292967,
   0x27b70a85, 0x2e1b2138, 0x4d2c6dfc, 0x53380d13, 0x650a7354, 0x766a0abb, 0x81c2c92e, 0x92722c85,
   0xa2bfe8a1, 0xa81a664b, 0xc24b8b70, 0xc76c51a3, 0xd192e819, 0xd6990624, 0xf40e3585, 0x106aa070,
   0x19a4c116, 0x1e376c08, 0x2748774c, 0x34b0bcb5, 0x391c0cb3, 0x4ed8aa4a, 0x5b9cca4f, 0x682e6ff3,
   0x748f82ee, 0x78a5636f, 0x84c87814, 0x8cc70208, 0x90befffa, 0xa4506ceb, 0xbef9a3f7, 0xc67178f2]

/-- The eight working variables. -/
structure Words where
  a : UInt32
  b : UInt32
  c : UInt32
  d : UInt32
  e : UInt32
  f : UInt32
  g : UInt32
  h : UInt32

/-- The initial hash value. -/
def initial : Words :=
  ⟨0x6a09e667, 0xbb67ae85, 0x3c6ef372, 0xa54ff53a, 0x510e527f, 0x9b05688c, 0x1f83d9ab, 0x5be0cd19⟩

/-- Rotate a word right. -/
def rotr (x : UInt32) (n : UInt32) : UInt32 := (x >>> n) ||| (x <<< (32 - n))

/-- One round with round constant `k` and message word `w`. -/
def round (k w : UInt32) (s : Words) : Words :=
  let bigSigma1 := rotr s.e 6 ^^^ rotr s.e 11 ^^^ rotr s.e 25
  let choose := (s.e &&& s.f) ^^^ (~~~s.e &&& s.g)
  let t1 := s.h + bigSigma1 + choose + k + w
  let bigSigma0 := rotr s.a 2 ^^^ rotr s.a 13 ^^^ rotr s.a 22
  let majority := (s.a &&& s.b) ^^^ (s.a &&& s.c) ^^^ (s.b &&& s.c)
  ⟨t1 + (bigSigma0 + majority), s.a, s.b, s.c, s.d + t1, s.e, s.f, s.g⟩

/-- The next message word, from the window of the last sixteen. -/
def nextWord (window : List UInt32) : UInt32 :=
  let w1 := window.getD 1 0
  let w14 := window.getD 14 0
  let sigma0 := rotr w1 7 ^^^ rotr w1 18 ^^^ (w1 >>> 3)
  let sigma1 := rotr w14 17 ^^^ rotr w14 19 ^^^ (w14 >>> 10)
  window.getD 0 0 + sigma0 + window.getD 9 0 + sigma1

/-- All rounds of one block: the window of message words slides along the round constants. -/
def rounds : List UInt32 → List UInt32 → Words → Words
  | [], _, s => s
  | k :: ks, window, s => rounds ks (window.tail ++ [nextWord window]) (round k (window.getD 0 0) s)

/-- Compress one block of sixteen words. -/
def compress (s : Words) (block : List UInt32) : Words :=
  let t := rounds roundConstants block s
  ⟨s.a + t.a, s.b + t.b, s.c + t.c, s.d + t.d, s.e + t.e, s.f + t.f, s.g + t.g, s.h + t.h⟩

/-- `n` big-endian bytes of a number. -/
def bigEndian : Nat → Nat → List UInt8
  | 0, _ => []
  | n + 1, x => UInt8.ofNat (x / 256 ^ n) :: bigEndian n x

/-- Big-endian words of a byte list, four bytes each. -/
def words : List UInt8 → List UInt32
  | b0 :: b1 :: b2 :: b3 :: rest =>
    (b0.toUInt32 <<< 24 ||| b1.toUInt32 <<< 16 ||| b2.toUInt32 <<< 8 ||| b3.toUInt32) :: words rest
  | _ => []

/-- The message with its padding: one bit, zeros, and the bit length in eight bytes. -/
def pad (message : List UInt8) : List UInt8 :=
  message ++ 0x80 :: List.replicate ((119 - message.length % 64) % 64) 0 ++
    bigEndian 8 (8 * message.length)

/-- Compress `n` blocks of sixteen words in turn. -/
def blocks : Nat → List UInt32 → Words → Words
  | 0, _, s => s
  | n + 1, ws, s => blocks n (ws.drop 16) (compress s (ws.take 16))

end AgentBox.Sha256

namespace AgentBox

/-- `hashlib.sha256(message).digest()`. -/
def sha256 (message : List UInt8) : List UInt8 :=
  let ws := Sha256.words (Sha256.pad message)
  let s := Sha256.blocks (ws.length / 16) ws Sha256.initial
  [s.a, s.b, s.c, s.d, s.e, s.f, s.g, s.h].flatMap fun w => Sha256.bigEndian 4 w.toNat

/-- `bytes.hex()`. -/
def hexBytes (bytes : List UInt8) : String :=
  String.ofList (bytes.flatMap fun b =>
    [Nat.digitChar (b.toNat / 16), Nat.digitChar (b.toNat % 16)])

end AgentBox
