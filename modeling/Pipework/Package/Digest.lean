/-!
SHA-256 digests.

A message is padded to whole blocks of sixteen words; each block is stretched to 64 words, and
these stir eight registers, which are then added to the ones before. The registers after the
last block are the digest.
-/

namespace Pipework.Digest

/-! ## Words -/

/-- Turns a word to the right. -/
def rotateRight (word : UInt32) (count : UInt32) : UInt32 :=
  (word >>> count) ||| (word <<< (32 - count))

/-- Four bytes as a word, the first one highest. -/
def wordOfBytes (first second third fourth : UInt8) : UInt32 :=
  (first.toUInt32 <<< 24) ||| (second.toUInt32 <<< 16) ||| (third.toUInt32 <<< 8) |||
    fourth.toUInt32

/-- Bytes as words, four by four; up to three at the end are left out. -/
def wordsOfBytes : List UInt8 → List UInt32
  | first :: second :: third :: fourth :: rest =>
      wordOfBytes first second third fourth :: wordsOfBytes rest
  | _ => []

/-! ## Padding -/

/-- The eight bytes of a number, the first one highest. -/
def lengthBytes (bits : Nat) : List UInt8 :=
  (List.range 8).map fun index => UInt8.ofNat (bits >>> (8 * (7 - index)))

/-- How many null bytes follow a message of so many bytes and the mark behind it, so that the
length ends a block. -/
def zeroCount (size : Nat) : Nat := (119 - size % 64) % 64

/-- The bytes of a message, a mark, null bytes, and the length of the message in bits. -/
def padded (message : List UInt8) : List UInt8 :=
  message ++ 0x80 :: List.replicate (zeroCount message.length) 0 ++
    lengthBytes (8 * message.length)

/-! ## Stretching -/

/-- Continues a schedule by `count` words. The window holds the last sixteen words. -/
def stretch : Nat → List UInt32 → List UInt32
  | 0, _ => []
  | count + 1, window =>
      let early := window.getD 1 0
      let late := window.getD 14 0
      let sigma0 := rotateRight early 7 ^^^ rotateRight early 18 ^^^ (early >>> 3)
      let sigma1 := rotateRight late 17 ^^^ rotateRight late 19 ^^^ (late >>> 10)
      let next := window.getD 0 0 + sigma0 + window.getD 9 0 + sigma1
      next :: stretch count (window.drop 1 ++ [next])

/-- The 64 words of a block. -/
def schedule (block : List UInt32) : List UInt32 := block ++ stretch 48 block

/-- The first 32 bits of the fractional parts of the cube roots of the first 64 primes. -/
def roundConstants : List UInt32 :=
  [0x428a2f98, 0x71374491, 0xb5c0fbcf, 0xe9b5dba5, 0x3956c25b, 0x59f111f1, 0x923f82a4,
    0xab1c5ed5, 0xd807aa98, 0x12835b01, 0x243185be, 0x550c7dc3, 0x72be5d74, 0x80deb1fe,
    0x9bdc06a7, 0xc19bf174, 0xe49b69c1, 0xefbe4786, 0x0fc19dc6, 0x240ca1cc, 0x2de92c6f,
    0x4a7484aa, 0x5cb0a9dc, 0x76f988da, 0x983e5152, 0xa831c66d, 0xb00327c8, 0xbf597fc7,
    0xc6e00bf3, 0xd5a79147, 0x06ca6351, 0x14292967, 0x27b70a85, 0x2e1b2138, 0x4d2c6dfc,
    0x53380d13, 0x650a7354, 0x766a0abb, 0x81c2c92e, 0x92722c85, 0xa2bfe8a1, 0xa81a664b,
    0xc24b8b70, 0xc76c51a3, 0xd192e819, 0xd6990624, 0xf40e3585, 0x106aa070, 0x19a4c116,
    0x1e376c08, 0x2748774c, 0x34b0bcb5, 0x391c0cb3, 0x4ed8aa4a, 0x5b9cca4f, 0x682e6ff3,
    0x748f82ee, 0x78a5636f, 0x84c87814, 0x8cc70208, 0x90befffa, 0xa4506ceb, 0xbef9a3f7,
    0xc67178f2]

/-! ## Stirring -/

/-- The eight registers. -/
structure Registers where
  a : UInt32
  b : UInt32
  c : UInt32
  d : UInt32
  e : UInt32
  f : UInt32
  g : UInt32
  h : UInt32
  deriving DecidableEq, Repr, Inhabited

namespace Registers

/-- The first 32 bits of the fractional parts of the square roots of the first eight primes. -/
def start : Registers :=
  ⟨0x6a09e667, 0xbb67ae85, 0x3c6ef372, 0xa54ff53a, 0x510e527f, 0x9b05688c, 0x1f83d9ab,
    0x5be0cd19⟩

/-- Stirs in one word with its constant. -/
def round (r : Registers) (constant word : UInt32) : Registers :=
  let sum1 := rotateRight r.e 6 ^^^ rotateRight r.e 11 ^^^ rotateRight r.e 25
  let choice := (r.e &&& r.f) ^^^ ((r.e ^^^ 0xffffffff) &&& r.g)
  let first := r.h + sum1 + choice + constant + word
  let sum0 := rotateRight r.a 2 ^^^ rotateRight r.a 13 ^^^ rotateRight r.a 22
  let majority := (r.a &&& r.b) ^^^ (r.a &&& r.c) ^^^ (r.b &&& r.c)
  ⟨first + (sum0 + majority), r.a, r.b, r.c, r.d + first, r.e, r.f, r.g⟩

/-- Adds registers one by one. -/
def add (left right : Registers) : Registers :=
  ⟨left.a + right.a, left.b + right.b, left.c + right.c, left.d + right.d, left.e + right.e,
    left.f + right.f, left.g + right.g, left.h + right.h⟩

/-- Stirs in a block. -/
def stir (r : Registers) (block : List UInt32) : Registers :=
  r.add <|
    (roundConstants.zip (schedule block)).foldl
      (fun current step => current.round step.1 step.2) r

/-- Stirs in words, sixteen by sixteen. -/
def stirAll (r : Registers) (words : List UInt32) : Registers :=
  if 16 ≤ words.length then (r.stir (words.take 16)).stirAll (words.drop 16) else r
termination_by words.length
decreasing_by simp only [List.length_drop]; omega

/-- The registers as words. -/
def words (r : Registers) : List UInt32 := [r.a, r.b, r.c, r.d, r.e, r.f, r.g, r.h]

end Registers

/-! ## Digests -/

/-- The digest of a message, as words. -/
def sha256 (message : List UInt8) : List UInt32 :=
  (Registers.start.stirAll (wordsOfBytes (padded message))).words

/-- A word as eight hexadecimal digits. -/
def wordText (word : UInt32) : List Char :=
  (List.range 8).map fun index => Nat.digitChar ((word.toNat >>> (4 * (7 - index))) % 16)

/-- The digest of a message, as hexadecimal digits. -/
def text (message : List UInt8) : String :=
  String.ofList ((sha256 message).flatMap wordText)

end Pipework.Digest
