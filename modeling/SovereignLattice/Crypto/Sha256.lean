import SovereignLattice.Foundations.BigEndian

/-!
# SHA-256

The hash function of FIPS 180-4 on byte strings.
-/

namespace SovereignLattice
namespace Sha256

/-- Rotation to the right by less than a word. -/
def rotr (amount word : UInt32) : UInt32 :=
  (word >>> amount) ||| (word <<< (32 - amount))

/-- The eight working variables. -/
structure Words where
  a : UInt32
  b : UInt32
  c : UInt32
  d : UInt32
  e : UInt32
  f : UInt32
  g : UInt32
  h : UInt32

def Words.add (left right : Words) : Words where
  a := left.a + right.a
  b := left.b + right.b
  c := left.c + right.c
  d := left.d + right.d
  e := left.e + right.e
  f := left.f + right.f
  g := left.g + right.g
  h := left.h + right.h

def Words.toBytes (words : Words) : List UInt8 :=
  [words.a, words.b, words.c, words.d, words.e, words.f, words.g,
    words.h].flatMap u32Bytes

def initialWords : Words where
  a := 0x6a09e667
  b := 0xbb67ae85
  c := 0x3c6ef372
  d := 0xa54ff53a
  e := 0x510e527f
  f := 0x9b05688c
  g := 0x1f83d9ab
  h := 0x5be0cd19

def roundConstants : List UInt32 :=
  [0x428a2f98, 0x71374491, 0xb5c0fbcf, 0xe9b5dba5,
    0x3956c25b, 0x59f111f1, 0x923f82a4, 0xab1c5ed5,
    0xd807aa98, 0x12835b01, 0x243185be, 0x550c7dc3,
    0x72be5d74, 0x80deb1fe, 0x9bdc06a7, 0xc19bf174,
    0xe49b69c1, 0xefbe4786, 0x0fc19dc6, 0x240ca1cc,
    0x2de92c6f, 0x4a7484aa, 0x5cb0a9dc, 0x76f988da,
    0x983e5152, 0xa831c66d, 0xb00327c8, 0xbf597fc7,
    0xc6e00bf3, 0xd5a79147, 0x06ca6351, 0x14292967,
    0x27b70a85, 0x2e1b2138, 0x4d2c6dfc, 0x53380d13,
    0x650a7354, 0x766a0abb, 0x81c2c92e, 0x92722c85,
    0xa2bfe8a1, 0xa81a664b, 0xc24b8b70, 0xc76c51a3,
    0xd192e819, 0xd6990624, 0xf40e3585, 0x106aa070,
    0x19a4c116, 0x1e376c08, 0x2748774c, 0x34b0bcb5,
    0x391c0cb3, 0x4ed8aa4a, 0x5b9cca4f, 0x682e6ff3,
    0x748f82ee, 0x78a5636f, 0x84c87814, 0x8cc70208,
    0x90befffa, 0xa4506ceb, 0xbef9a3f7, 0xc67178f2]

/-- The schedule with one more word in front; the latest word comes first. -/
def extendSchedule (latest : List UInt32) : List UInt32 :=
  let w2 := latest.getD 1 0
  let w7 := latest.getD 6 0
  let w15 := latest.getD 14 0
  let w16 := latest.getD 15 0
  let s0 := rotr 7 w15 ^^^ rotr 18 w15 ^^^ (w15 >>> 3)
  let s1 := rotr 17 w2 ^^^ rotr 19 w2 ^^^ (w2 >>> 10)
  (w16 + s0 + w7 + s1) :: latest

def extendBy : Nat → List UInt32 → List UInt32
  | 0, latest => latest
  | count + 1, latest => extendBy count (extendSchedule latest)

/-- The sixty-four schedule words of a block. -/
def schedule (block : List UInt8) : List UInt32 :=
  let words := (List.range 16).map fun index =>
    u32OfBytes (slice block (4 * index) (4 * index + 4))
  (extendBy 48 words.reverse).reverse

def round (words : Words) (input : UInt32 × UInt32) : Words :=
  let s1 := rotr 6 words.e ^^^ rotr 11 words.e ^^^ rotr 25 words.e
  let ch := (words.e &&& words.f) ^^^ (~~~words.e &&& words.g)
  let temp1 := words.h + s1 + ch + input.1 + input.2
  let s0 := rotr 2 words.a ^^^ rotr 13 words.a ^^^ rotr 22 words.a
  let maj := (words.a &&& words.b) ^^^ (words.a &&& words.c) ^^^
    (words.b &&& words.c)
  { a := temp1 + (s0 + maj)
    b := words.a
    c := words.b
    d := words.c
    e := words.d + temp1
    f := words.e
    g := words.f
    h := words.g }

/-- One block into the running hash. -/
def compress (hash : Words) (block : List UInt8) : Words :=
  hash.add ((roundConstants.zip (schedule block)).foldl round hash)

/-- A one bit, zeros to eight bytes before a block's end, and the length in
bits. -/
def pad (message : List UInt8) : List UInt8 :=
  message ++ [0x80] ++ List.replicate ((119 - message.length % 64) % 64) 0 ++
    u64Bytes (UInt64.ofNat (8 * message.length))

/-- The first blocks of padded bytes. -/
def blocks : Nat → List UInt8 → List (List UInt8)
  | 0, _ => []
  | count + 1, bytes => bytes.take 64 :: blocks count (bytes.drop 64)

end Sha256

/-- `Sha256::digest`. -/
def sha256 (message : List UInt8) : Vector UInt8 32 :=
  let padded := Sha256.pad message
  let hash := (Sha256.blocks (padded.length / 64) padded).foldl Sha256.compress
    Sha256.initialWords
  Vector.ofFn fun index => hash.toBytes.getD index 0

/-- The first test vector of the standard, `abc`. -/
example : (sha256 [0x61, 0x62, 0x63]).toList =
    [0xba, 0x78, 0x16, 0xbf, 0x8f, 0x01, 0xcf, 0xea,
      0x41, 0x41, 0x40, 0xde, 0x5d, 0xae, 0x22, 0x23,
      0xb0, 0x03, 0x61, 0xa3, 0x96, 0x17, 0x7a, 0x9c,
      0xb4, 0x10, 0xff, 0x61, 0xf2, 0x00, 0x15, 0xad] := by
  decide +kernel

end SovereignLattice
