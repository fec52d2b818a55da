import Mathlib.Algebra.Ring.Nat

/-!
# SHA-256

The hash function, executable, for worked transactions whose signature hashes it determines.
-/

namespace Digest

/-- The round constants. -/
def roundConstants : List UInt32 :=
  [0x428a2f98, 0x71374491, 0xb5c0fbcf, 0xe9b5dba5, 0x3956c25b, 0x59f111f1, 0x923f82a4, 0xab1c5ed5,
    0xd807aa98, 0x12835b01, 0x243185be, 0x550c7dc3, 0x72be5d74, 0x80deb1fe, 0x9bdc06a7, 0xc19bf174,
    0xe49b69c1, 0xefbe4786, 0x0fc19dc6, 0x240ca1cc, 0x2de92c6f, 0x4a7484aa, 0x5cb0a9dc, 0x76f988da,
    0x983e5152, 0xa831c66d, 0xb00327c8, 0xbf597fc7, 0xc6e00bf3, 0xd5a79147, 0x06ca6351, 0x14292967,
    0x27b70a85, 0x2e1b2138, 0x4d2c6dfc, 0x53380d13, 0x650a7354, 0x766a0abb, 0x81c2c92e, 0x92722c85,
    0xa2bfe8a1, 0xa81a664b, 0xc24b8b70, 0xc76c51a3, 0xd192e819, 0xd6990624, 0xf40e3585, 0x106aa070,
    0x19a4c116, 0x1e376c08, 0x2748774c, 0x34b0bcb5, 0x391c0cb3, 0x4ed8aa4a, 0x5b9cca4f, 0x682e6ff3,
    0x748f82ee, 0x78a5636f, 0x84c87814, 0x8cc70208, 0x90befffa, 0xa4506ceb, 0xbef9a3f7, 0xc67178f2]

/-- The eight working variables. -/
structure Working where
  a : UInt32 := 0x6a09e667
  b : UInt32 := 0xbb67ae85
  c : UInt32 := 0x3c6ef372
  d : UInt32 := 0xa54ff53a
  e : UInt32 := 0x510e527f
  f : UInt32 := 0x9b05688c
  g : UInt32 := 0x1f83d9ab
  h : UInt32 := 0x5be0cd19

/-- Rotate right, by less than 32 places. -/
def rotr (word places : UInt32) : UInt32 := (word >>> places) ||| (word <<< (32 - places))

/-- Big-endian words of a byte string. -/
def words : List UInt8 → List UInt32
  | b₀ :: b₁ :: b₂ :: b₃ :: rest =>
    (b₀.toUInt32 <<< 24 ||| b₁.toUInt32 <<< 16 ||| b₂.toUInt32 <<< 8 ||| b₃.toUInt32) :: words rest
  | _ => []

/-- Big-endian bytes of a word. -/
def bytes (word : UInt32) : List UInt8 :=
  [(word >>> 24).toUInt8, (word >>> 16).toUInt8, (word >>> 8).toUInt8, word.toUInt8]

/-- The message schedule from its last sixteen words, newest first. -/
def schedule : Nat → List UInt32 → List UInt32
  | 0, recent => recent.reverse
  | more + 1, recent =>
    let near := recent.getD 1 0
    let far := recent.getD 14 0
    let s₀ := rotr far 7 ^^^ rotr far 18 ^^^ (far >>> 3)
    let s₁ := rotr near 17 ^^^ rotr near 19 ^^^ (near >>> 10)
    schedule more ((s₁ + recent.getD 6 0 + s₀ + recent.getD 15 0) :: recent)

/-- One round. -/
def round (v : Working) (constant word : UInt32) : Working :=
  let s₁ := rotr v.e 6 ^^^ rotr v.e 11 ^^^ rotr v.e 25
  let choice := (v.e &&& v.f) ^^^ ((~~~v.e) &&& v.g)
  let t₁ := v.h + s₁ + choice + constant + word
  let s₀ := rotr v.a 2 ^^^ rotr v.a 13 ^^^ rotr v.a 22
  let majority := (v.a &&& v.b) ^^^ (v.a &&& v.c) ^^^ (v.b &&& v.c)
  ⟨t₁ + (s₀ + majority), v.a, v.b, v.c, v.d + t₁, v.e, v.f, v.g⟩

/-- The compression function. -/
def compress (v : Working) (block : List UInt32) : Working :=
  let next := (roundConstants.zip (schedule 48 block.reverse)).foldl
    (fun v step => round v step.1 step.2) v
  ⟨v.a + next.a, v.b + next.b, v.c + next.c, v.d + next.d, v.e + next.e, v.f + next.f,
    v.g + next.g, v.h + next.h⟩

/-- A given number of blocks. -/
def blocks : Nat → List UInt32 → Working → Working
  | 0, _, v => v
  | count + 1, message, v => blocks count (message.drop 16) (compress v (message.take 16))

/-- The padded message. -/
def pad (message : List UInt8) : List UInt8 :=
  let length := message.length
  message ++ 0x80 :: List.replicate ((119 - length % 64) % 64) 0 ++
    ((List.range 8).map fun i => UInt8.ofNat (length * 8 / 256 ^ i)).reverse

/-- SHA-256. -/
def sha256 (message : List UInt8) : List UInt8 :=
  let padded := words (pad message)
  let v := blocks (padded.length / 16) padded {}
  [v.a, v.b, v.c, v.d, v.e, v.f, v.g, v.h].flatMap bytes

example : (sha256 [0x61, 0x62, 0x63]).take 4 = [0xba, 0x78, 0x16, 0xbf] := by decide +kernel

/-- The hash of the hash. -/
def doubleSHA256 (message : List UInt8) : List UInt8 := sha256 (sha256 message)

end Digest
