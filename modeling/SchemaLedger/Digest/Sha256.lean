/-!
# SHA-256

The digest of a byte string. The message is padded to whole blocks of 64 bytes, each block is
expanded to a schedule of 64 words, and 64 rounds mix the schedule into a chaining value of eight
words. Nothing else of the library depends on how `sha256` mixes, only on its being a function of
the bytes.
-/

namespace SchemaLedger.Digest

/-- The eight words carried from block to block. -/
structure Chain where
  a : UInt32
  b : UInt32
  c : UInt32
  d : UInt32
  e : UInt32
  f : UInt32
  g : UInt32
  h : UInt32

/-- The leading fractional bits of the square roots of the first eight primes. -/
def Chain.start : Chain :=
  ⟨0x6a09e667, 0xbb67ae85, 0x3c6ef372, 0xa54ff53a,
   0x510e527f, 0x9b05688c, 0x1f83d9ab, 0x5be0cd19⟩

/-- The leading fractional bits of the cube roots of the first 64 primes. -/
def roundConstants : List UInt32 :=
  [0x428a2f98, 0x71374491, 0xb5c0fbcf, 0xe9b5dba5, 0x3956c25b, 0x59f111f1,
   0x923f82a4, 0xab1c5ed5, 0xd807aa98, 0x12835b01, 0x243185be, 0x550c7dc3,
   0x72be5d74, 0x80deb1fe, 0x9bdc06a7, 0xc19bf174, 0xe49b69c1, 0xefbe4786,
   0x0fc19dc6, 0x240ca1cc, 0x2de92c6f, 0x4a7484aa, 0x5cb0a9dc, 0x76f988da,
   0x983e5152, 0xa831c66d, 0xb00327c8, 0xbf597fc7, 0xc6e00bf3, 0xd5a79147,
   0x06ca6351, 0x14292967, 0x27b70a85, 0x2e1b2138, 0x4d2c6dfc, 0x53380d13,
   0x650a7354, 0x766a0abb, 0x81c2c92e, 0x92722c85, 0xa2bfe8a1, 0xa81a664b,
   0xc24b8b70, 0xc76c51a3, 0xd192e819, 0xd6990624, 0xf40e3585, 0x106aa070,
   0x19a4c116, 0x1e376c08, 0x2748774c, 0x34b0bcb5, 0x391c0cb3, 0x4ed8aa4a,
   0x5b9cca4f, 0x682e6ff3, 0x748f82ee, 0x78a5636f, 0x84c87814, 0x8cc70208,
   0x90befffa, 0xa4506ceb, 0xbef9a3f7, 0xc67178f2]

/-- Rotates a word to the right, for amounts from 1 to 31. -/
def rotateRight (word amount : UInt32) : UInt32 :=
  (word >>> amount) ||| (word <<< (32 - amount))

/-- One round, for a constant and a word of the schedule. -/
def Chain.round (chain : Chain) (constant word : UInt32) : Chain :=
  let mixE := rotateRight chain.e 6 ^^^ rotateRight chain.e 11 ^^^ rotateRight chain.e 25
  let choice := (chain.e &&& chain.f) ^^^ ((~~~chain.e) &&& chain.g)
  let first := chain.h + mixE + choice + constant + word
  let mixA := rotateRight chain.a 2 ^^^ rotateRight chain.a 13 ^^^ rotateRight chain.a 22
  let majority := (chain.a &&& chain.b) ^^^ (chain.a &&& chain.c) ^^^ (chain.b &&& chain.c)
  ⟨first + (mixA + majority), chain.a, chain.b, chain.c, chain.d + first, chain.e, chain.f, chain.g⟩

def Chain.add (left right : Chain) : Chain :=
  ⟨left.a + right.a, left.b + right.b, left.c + right.c, left.d + right.d,
   left.e + right.e, left.f + right.f, left.g + right.g, left.h + right.h⟩

def Chain.words (chain : Chain) : List UInt32 :=
  [chain.a, chain.b, chain.c, chain.d, chain.e, chain.f, chain.g, chain.h]

/-- The four bytes of a word, most significant first. -/
def wordBytes (word : UInt32) : List UInt8 :=
  [(word >>> 24).toUInt8, (word >>> 16).toUInt8, (word >>> 8).toUInt8, word.toUInt8]

/-- The number that some bytes denote, most significant first. -/
def ofBigEndian (bytes : List UInt8) : Nat :=
  bytes.foldl (fun value byte => value * 256 + byte.toNat) 0

/-- Groups bytes into words of four; bytes that fill no word are dropped. -/
def toWords : List UInt8 → List UInt32
  | b₀ :: b₁ :: b₂ :: b₃ :: rest => .ofNat (ofBigEndian [b₀, b₁, b₂, b₃]) :: toWords rest
  | _ => []

/-- Appends `count` words to a schedule that is held with its latest word first. -/
def extendSchedule : Nat → List UInt32 → List UInt32
  | 0, latestFirst => latestFirst
  | count + 1, latestFirst =>
      let word (back : Nat) : UInt32 := latestFirst.getD (back - 1) 0
      let low := rotateRight (word 15) 7 ^^^ rotateRight (word 15) 18 ^^^ (word 15 >>> 3)
      let high := rotateRight (word 2) 17 ^^^ rotateRight (word 2) 19 ^^^ (word 2 >>> 10)
      extendSchedule count ((word 16 + low + word 7 + high) :: latestFirst)

/-- The schedule of a block: its sixteen words and 48 words computed from them. -/
def schedule (block : List UInt8) : List UInt32 :=
  (extendSchedule 48 (toWords block).reverse).reverse

/-- Mixes one block into the chaining value. -/
def Chain.absorb (chain : Chain) (block : List UInt8) : Chain :=
  chain.add <| (roundConstants.zip (schedule block)).foldl
    (fun working (constant, word) => working.round constant word) chain

/-- Mixes the first `count` blocks of 64 bytes into the chaining value. -/
def Chain.absorbBlocks : Nat → List UInt8 → Chain → Chain
  | 0, _, chain => chain
  | count + 1, bytes, chain => absorbBlocks count (bytes.drop 64) (chain.absorb (bytes.take 64))

/-- The eight bytes of a number below `2 ^ 64`, most significant first. -/
def toBigEndian (number : Nat) : List UInt8 :=
  [56, 48, 40, 32, 24, 16, 8, 0].map fun shift => .ofNat (number >>> shift)

/-- A message followed by the bit one, as few zeros as fill the last block, and its length. -/
def pad (message : List UInt8) : List UInt8 :=
  message ++ 0x80 :: List.replicate ((119 - message.length % 64) % 64) 0
    ++ toBigEndian (8 * message.length)

/-- The 32 bytes of the SHA-256 digest of a message. -/
def sha256 (message : List UInt8) : List UInt8 :=
  let padded := pad message
  (Chain.absorbBlocks (padded.length / 64) padded .start).words.flatMap wordBytes

end SchemaLedger.Digest
