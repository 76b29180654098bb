/-
SHA-256. `digest` pads a whole message and folds its blocks into eight
words; `Hasher` takes a message in pieces and keeps the bytes of an
unfinished block. Both rest on `compress`, which mixes one block in.
-/
import TracedTransfer.Text.Number

namespace TracedTransfer.Digest

open Text

/-- The eight words of a digest in progress. -/
structure Words where
  a : UInt32
  b : UInt32
  c : UInt32
  d : UInt32
  e : UInt32
  f : UInt32
  g : UInt32
  h : UInt32
deriving DecidableEq, Repr

namespace Sha256

/-- The words before the first block: fractions of the square roots of the first primes. -/
def initial : Words :=
  ⟨0x6a09e667, 0xbb67ae85, 0x3c6ef372, 0xa54ff53a, 0x510e527f, 0x9b05688c, 0x1f83d9ab, 0x5be0cd19⟩

/-- The constants of the rounds: fractions of the cube roots of the first primes. -/
def roundConstants : List UInt32 := [
  0x428a2f98, 0x71374491, 0xb5c0fbcf, 0xe9b5dba5, 0x3956c25b, 0x59f111f1, 0x923f82a4, 0xab1c5ed5,
  0xd807aa98, 0x12835b01, 0x243185be, 0x550c7dc3, 0x72be5d74, 0x80deb1fe, 0x9bdc06a7, 0xc19bf174,
  0xe49b69c1, 0xefbe4786, 0x0fc19dc6, 0x240ca1cc, 0x2de92c6f, 0x4a7484aa, 0x5cb0a9dc, 0x76f988da,
  0x983e5152, 0xa831c66d, 0xb00327c8, 0xbf597fc7, 0xc6e00bf3, 0xd5a79147, 0x06ca6351, 0x14292967,
  0x27b70a85, 0x2e1b2138, 0x4d2c6dfc, 0x53380d13, 0x650a7354, 0x766a0abb, 0x81c2c92e, 0x92722c85,
  0xa2bfe8a1, 0xa81a664b, 0xc24b8b70, 0xc76c51a3, 0xd192e819, 0xd6990624, 0xf40e3585, 0x106aa070,
  0x19a4c116, 0x1e376c08, 0x2748774c, 0x34b0bcb5, 0x391c0cb3, 0x4ed8aa4a, 0x5b9cca4f, 0x682e6ff3,
  0x748f82ee, 0x78a5636f, 0x84c87814, 0x8cc70208, 0x90befffa, 0xa4506ceb, 0xbef9a3f7, 0xc67178f2]

/-- A word turned to the right. -/
def rotate (x n : UInt32) : UInt32 := (x >>> n) ||| (x <<< (32 - n))

/-- The words of a block, four bytes each, the most significant first. -/
def wordsOf : Bytes → List UInt32
  | a :: b :: c :: d :: rest =>
    ((a.toUInt32 <<< 24) ||| (b.toUInt32 <<< 16) ||| (c.toUInt32 <<< 8) ||| d.toUInt32)
      :: wordsOf rest
  | _ => []

/-- Adds `n` words to a schedule, which is given last word first. -/
def extend : Nat → List UInt32 → List UInt32
  | 0, ws => ws
  | n + 1, ws =>
    let at_ (i : Nat) : UInt32 := ws.getD i 0
    let x := at_ 14
    let y := at_ 1
    let s0 := rotate x 7 ^^^ rotate x 18 ^^^ (x >>> 3)
    let s1 := rotate y 17 ^^^ rotate y 19 ^^^ (y >>> 10)
    extend n ((at_ 15 + s0 + at_ 6 + s1) :: ws)

/-- The sixty-four words that the rounds of a block take. -/
def schedule (block : Bytes) : List UInt32 := (extend 48 (wordsOf block).reverse).reverse

/-- One round. -/
def round (v : Words) (kw : UInt32 × UInt32) : Words :=
  let s1 := rotate v.e 6 ^^^ rotate v.e 11 ^^^ rotate v.e 25
  let choice := (v.e &&& v.f) ^^^ ((~~~v.e) &&& v.g)
  let t1 := v.h + s1 + choice + kw.1 + kw.2
  let s0 := rotate v.a 2 ^^^ rotate v.a 13 ^^^ rotate v.a 22
  let majority := (v.a &&& v.b) ^^^ (v.a &&& v.c) ^^^ (v.b &&& v.c)
  ⟨t1 + (s0 + majority), v.a, v.b, v.c, v.d + t1, v.e, v.f, v.g⟩

/-- Mixes a block of sixty-four bytes in. -/
def compress (v : Words) (block : Bytes) : Words :=
  let w := (roundConstants.zip (schedule block)).foldl round v
  ⟨v.a + w.a, v.b + w.b, v.c + w.c, v.d + w.d, v.e + w.e, v.f + w.f, v.g + w.g, v.h + w.h⟩

/-- How many bytes a block has. -/
def blockSize : Nat := 64

/-- Mixes whole blocks in and returns the bytes that are left. -/
def compressAll (v : Words) (s : Bytes) : Words × Bytes :=
  if s.length < blockSize then (v, s)
  else compressAll (compress v (s.take blockSize)) (s.drop blockSize)
termination_by s.length
decreasing_by simp [blockSize] at *; omega

/-- What follows the last bytes of a message of `n` bytes: a one bit, zeros, and the number of bits
in eight bytes, up to the end of a block. -/
def padding (n : Nat) : Bytes :=
  let bits := n * 8
  0x80 :: List.replicate ((119 - n % 64) % 64) 0
    ++ ((List.range 8).reverse.map fun i => UInt8.ofNat (bits / Nat.pow 256 i))

/-- The bytes of a word, the most significant first. -/
def wordBytes (x : UInt32) : Bytes :=
  [(x >>> 24).toUInt8, (x >>> 16).toUInt8, (x >>> 8).toUInt8, x.toUInt8]

/-- The bytes of a digest. -/
def wordsBytes (v : Words) : Bytes :=
  [v.a, v.b, v.c, v.d, v.e, v.f, v.g, v.h].flatMap wordBytes

/-- The digest of a message. -/
def digest (s : Bytes) : Bytes := wordsBytes (compressAll initial (s ++ padding s.length)).1

/-- The digest of a message in hexadecimal. -/
def hexDigest (s : Bytes) : String := String.ofList (hex (digest s))

end Sha256

/-- A message taken in pieces. -/
structure Hasher where
  words : Words
  /-- The bytes of the unfinished block. -/
  rest : Bytes
  /-- How many bytes have been taken. -/
  length : Nat
deriving DecidableEq, Repr

namespace Hasher

/-- Nothing taken. -/
def empty : Hasher := ⟨Sha256.initial, [], 0⟩

/-- Takes a piece. -/
def update (h : Hasher) (piece : Bytes) : Hasher :=
  let (words, rest) := Sha256.compressAll h.words (h.rest ++ piece)
  ⟨words, rest, h.length + piece.length⟩

/-- The digest of everything taken. -/
def finish (h : Hasher) : Bytes :=
  Sha256.wordsBytes (Sha256.compressAll h.words (h.rest ++ Sha256.padding h.length)).1

end Hasher

end TracedTransfer.Digest
