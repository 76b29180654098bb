/-
SHA-256 as FIPS 180-4 defines it, on strings of bits.

A message is padded to whole blocks of 512 bits (§5.1.1) and hashed block by
block (§6.2.2), each block through sixty-four rounds over a schedule of words
that a recurrence gives. The constants are fractions of roots of the first
primes (§4.2.2, §5.3.3), and are computed from these here.

The definitions share nothing with those that run: words are bit vectors,
the schedule is a function of its index and the hash one of the number of
blocks. `Conformance.lean` has that the two agree.
-/
import Mathlib
import TracedTransfer.Text.Utf8

namespace TracedTransfer.Digest.Standard

open Text

/-- A word (§2.1). -/
abbrev Word := BitVec 32

-- ====================================================== functions, §4.1.2

def choice (x y z : Word) : Word := (x &&& y) ^^^ (~~~x &&& z)

def majority (x y z : Word) : Word := (x &&& y) ^^^ (x &&& z) ^^^ (y &&& z)

/-- `Σ₀`, which the rounds apply to the first word. -/
def sum0 (x : Word) : Word := x.rotateRight 2 ^^^ x.rotateRight 13 ^^^ x.rotateRight 22

/-- `Σ₁`, which the rounds apply to the fifth word. -/
def sum1 (x : Word) : Word := x.rotateRight 6 ^^^ x.rotateRight 11 ^^^ x.rotateRight 25

/-- `σ₀` of the schedule. -/
def sigma0 (x : Word) : Word := x.rotateRight 7 ^^^ x.rotateRight 18 ^^^ x >>> 3

/-- `σ₁` of the schedule. -/
def sigma1 (x : Word) : Word := x.rotateRight 17 ^^^ x.rotateRight 19 ^^^ x >>> 10

-- =============================================== constants, §4.2.2, §5.3.3

/-- The first thirty-two bits of the fractional part of the `k`-th root of
`p`: what `2 ^ 32` times the root, rounded down, has beyond its multiples of
`2 ^ 32`. -/
def rootFraction (k p : ℕ) : Word := BitVec.ofNat 32 (Nat.nthRoot k (p * 2 ^ (32 * k)))

/-- `K`: fractions of the cube roots of the first primes. -/
noncomputable def roundConstant (t : ℕ) : Word := rootFraction 3 (Nat.nth Nat.Prime t)

/-- A hash value, or the eight variables of the rounds. -/
structure Value where
  a : Word
  b : Word
  c : Word
  d : Word
  e : Word
  f : Word
  g : Word
  h : Word

/-- The words of a value, the first one first. -/
def Value.words (v : Value) : List Word := [v.a, v.b, v.c, v.d, v.e, v.f, v.g, v.h]

/-- `H⁽⁰⁾`: fractions of the square roots of the first primes. -/
noncomputable def initial : Value :=
  let root (i : ℕ) : Word := rootFraction 2 (Nat.nth Nat.Prime i)
  ⟨root 0, root 1, root 2, root 3, root 4, root 5, root 6, root 7⟩

-- ======================================================= padding, §5.1.1

/-- The bits of a byte, the most significant first. -/
def byteBits (b : UInt8) : List Bool := (List.range 8).map fun i => b.toNat.testBit (7 - i)

/-- The bits of a byte string. -/
def bitsOf (s : Bytes) : List Bool := s.flatMap byteBits

/-- A number in sixty-four bits, the most significant first. The standard has
no messages that are longer; of the length of one that is, these are the last
bits. -/
def lengthBits (l : ℕ) : List Bool := (List.range 64).map fun i => l.testBit (63 - i)

theorem exists_zeros (l : ℕ) : ∃ k, (l + 1 + k) % 512 = 448 := ⟨959 - l % 512, by omega⟩

/-- `k`: the smallest number of zeros that leaves sixty-four bits of a block. -/
def zeros (l : ℕ) : ℕ := Nat.find (exists_zeros l)

/-- A message, a one bit, zeros and the number of the message's bits. -/
def pad (m : List Bool) : List Bool :=
  m ++ true :: List.replicate (zeros m.length) false ++ lengthBits m.length

-- ========================================================= blocks, §5.2.1

/-- The number that bits denote. -/
def number (s : List Bool) : ℕ := s.foldl (fun n b => 2 * n + b.toNat) 0

/-- `M`: the word `j` of block `i`. -/
def blockWord (s : List Bool) (i j : ℕ) : Word :=
  BitVec.ofNat 32 (number ((s.drop (512 * i + 32 * j)).take 32))

-- =========================================================== hash, §6.2.2

/-- `W`: the schedule of a block with the words `M`. -/
def schedule (M : ℕ → Word) (t : ℕ) : Word :=
  if t < 16 then M t
  else sigma1 (schedule M (t - 2)) + schedule M (t - 7) + sigma0 (schedule M (t - 15))
    + schedule M (t - 16)

theorem schedule_first (M : ℕ → Word) {t : ℕ} (h : t < 16) : schedule M t = M t := by
  rw [schedule, if_pos h]

theorem schedule_later (M : ℕ → Word) (n : ℕ) : schedule M (16 + n)
    = sigma1 (schedule M (n + 14)) + schedule M (n + 9) + sigma0 (schedule M (n + 1))
      + schedule M n := by
  rw [schedule, if_neg (by omega), show 16 + n - 2 = n + 14 by omega,
    show 16 + n - 7 = n + 9 by omega, show 16 + n - 15 = n + 1 by omega, Nat.add_sub_cancel_left]

/-- A schedule takes sixteen words of its block. -/
theorem schedule_congr {M N : ℕ → Word} (h : ∀ t < 16, M t = N t) : schedule M = schedule N := by
  funext t
  induction t using Nat.strong_induction_on with
  | h t ih =>
      rcases Nat.lt_or_ge t 16 with ht | ht
      · rw [schedule_first M ht, schedule_first N ht, h t ht]
      · obtain ⟨n, rfl⟩ := Nat.exists_eq_add_of_le ht
        rw [schedule_later, schedule_later, ih (n + 14) (by omega), ih (n + 9) (by omega),
          ih (n + 1) (by omega), ih n (by omega)]

/-- A round with the constant `k` and the scheduled word `w`. -/
def step (k w : Word) (v : Value) : Value :=
  let t1 := v.h + sum1 v.e + choice v.e v.f v.g + k + w
  let t2 := sum0 v.a + majority v.a v.b v.c
  ⟨t1 + t2, v.a, v.b, v.c, v.d + t1, v.e, v.f, v.g⟩

/-- The first `t` rounds. -/
noncomputable def rounds (W : ℕ → Word) (v : Value) : ℕ → Value
  | 0 => v
  | t + 1 => step (roundConstant t) (W t) (rounds W v t)

/-- Adds the words of two values. -/
def Value.add (v w : Value) : Value :=
  ⟨v.a + w.a, v.b + w.b, v.c + w.c, v.d + w.d, v.e + w.e, v.f + w.f, v.g + w.g, v.h + w.h⟩

/-- `H⁽ⁱ⁾`: the hash value of the first `i` blocks of a padded message. -/
noncomputable def hashValue (s : List Bool) : ℕ → Value
  | 0 => initial
  | i + 1 =>
    let v := hashValue s i
    v.add (rounds (schedule (blockWord s i)) v 64)

/-- The hash value of a message. -/
noncomputable def hash (m : List Bool) : Value := hashValue (pad m) ((pad m).length / 512)

-- =========================================================== hexadecimal

/-- The eight digits of a word, in lower case. -/
def wordDigits (x : Word) : List Char :=
  (List.range 8).map fun i => Nat.digitChar (x.toNat / 16 ^ (7 - i) % 16)

/-- The SHA-256 digest of a byte string, in hexadecimal. -/
noncomputable def sha256Hex (s : Bytes) : String :=
  String.ofList ((hash (bitsOf s)).words.flatMap wordDigits)

end TracedTransfer.Digest.Standard
