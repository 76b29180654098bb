/-
The digest that runs is the digest of the standard (`hexDigest_eq`).

Both are followed through the same stages: the constants, the padding, the
words of a block, the schedule, the rounds, the blocks and the digits. Up to
the words of a block the standard counts in bits and the digest in bytes, and
each cut at a bit is one at a byte (`drop_bitsOf`, `take_bitsOf`); from there
on words are compared with words, under `Words.value`.

The schedule is where the two differ in more than notation: the one that runs
is a list that grows at its front (`extend_eq`), the other a function that
recurs on its index.
-/
import Mathlib
import TracedTransfer.Proofs.Digest.Blocks
import TracedTransfer.Proofs.Digest.Standard

namespace TracedTransfer.Digest

open Text

/-- The words as the standard has them. -/
def Words.value (v : Words) : Standard.Value :=
  ⟨v.a.toBitVec, v.b.toBitVec, v.c.toBitVec, v.d.toBitVec,
    v.e.toBitVec, v.f.toBitVec, v.g.toBitVec, v.h.toBitVec⟩

namespace Standard

-- =========================================================== constants

/-- A number from two on that no prime up to seventeen divides but itself. -/
def Undivided (n : ℕ) : Prop := 2 ≤ n ∧ ∀ q ∈ [2, 3, 5, 7, 11, 13, 17], n % q = 0 → q = n

instance : DecidablePred Undivided := fun _ => inferInstanceAs (Decidable (_ ∧ _))

/-- A number below `18 ^ 2` that is not a prime has a factor below eighteen. -/
theorem prime_iff_undivided {n : ℕ} (hn : n < 18 * 18) : Nat.Prime n ↔ Undivided n := by
  constructor
  · intro hprime
    refine ⟨hprime.two_le, fun q hq hdvd => ?_⟩
    have hone : q ≠ 1 := by
      rintro rfl
      revert hq
      decide
    exact (hprime.eq_one_or_self_of_dvd q (Nat.dvd_of_mod_eq_zero hdvd)).resolve_left hone
  · intro ⟨htwo, hfactor⟩
    by_contra hprime
    have hsquare : n.minFac ^ 2 ≤ n := Nat.minFac_sq_le_self (by omega) hprime
    have hsmall : n.minFac < 18 := by nlinarith
    have hlist : ∀ q < 18, Nat.Prime q → q ∈ [2, 3, 5, 7, 11, 13, 17] := by decide
    -- So the least factor is the number itself, and its square is no larger.
    have hself := hfactor _ (hlist _ hsmall (Nat.minFac_prime (by omega)))
      (Nat.mod_eq_zero_of_dvd n.minFac_dvd)
    rw [hself] at hsquare
    nlinarith

/-- Up to the square of 18 the primes are what no number below 18
divides. -/
theorem count_prime {n : ℕ} (hn : n < 18 * 18) : Nat.count Nat.Prime n = Nat.count Undivided n := by
  rw [Nat.count_eq_card_filter_range, Nat.count_eq_card_filter_range]
  congr 1
  refine Finset.filter_congr fun q hq => prime_iff_undivided ?_
  exact (Finset.mem_range.1 hq).trans hn

/-- The first sixty-four primes. -/
def primes : List ℕ := [
  2, 3, 5, 7, 11, 13, 17, 19, 23, 29, 31, 37, 41, 43, 47, 53, 59, 61, 67, 71, 73, 79, 83, 89, 97,
  101, 103, 107, 109, 113, 127, 131, 137, 139, 149, 151, 157, 163, 167, 173, 179, 181, 191, 193,
  197, 199, 211, 223, 227, 229, 233, 239, 241, 251, 257, 263, 269, 271, 277, 281, 283, 293, 307,
  311]

/-- The first 64 primes can be listed. -/
theorem nth_prime {t : ℕ} (ht : t < 64) : Nat.nth Nat.Prime t = primes.getD t 0 := by
  have htable : ∀ t < 64, primes.getD t 0 < 18 * 18 ∧ Undivided (primes.getD t 0)
      ∧ Nat.count Undivided (primes.getD t 0) = t := by decide +kernel
  obtain ⟨hsmall, hprime, hcount⟩ := htable t ht
  calc Nat.nth Nat.Prime t
      = Nat.nth Nat.Prime (Nat.count Nat.Prime (primes.getD t 0)) := by
        rw [count_prime hsmall, hcount]
    _ = primes.getD t 0 := Nat.nth_count ((prime_iff_undivided hsmall).2 hprime)

/-- The constants of the rounds are the fractional parts of cube roots of
primes, -/
theorem roundConstants_eq : Sha256.roundConstants
    = (List.range 64).map fun t => UInt32.ofBitVec (roundConstant t) := by
  have hroots : Sha256.roundConstants = (List.range 64).map fun t =>
      UInt32.ofBitVec (rootFraction 3 (primes.getD t 0)) := by decide +kernel
  rw [hroots]
  refine List.map_congr_left fun t ht => ?_
  rw [roundConstant, nth_prime (List.mem_range.1 ht)]

/-- and the first words those of square roots. -/
theorem initial_eq : Sha256.initial.value = initial := by
  have hfractions : ∀ i < 8, rootFraction 2 (primes.getD i 0)
      = Sha256.initial.value.words.getD i 0 := by decide +kernel
  have hroot {i : ℕ} (hi : i < 8) : rootFraction 2 (Nat.nth Nat.Prime i)
      = Sha256.initial.value.words.getD i 0 := by
    rw [nth_prime (by omega), hfractions i hi]
  unfold initial
  simp (disch := decide) only [hroot]
  rfl

-- ================================================================ bits

/-- A text has the bits of its bytes in order, -/
theorem bitsOf_cons (b : UInt8) (s : Bytes) : bitsOf (b :: s) = byteBits b ++ bitsOf s :=
  List.flatMap_cons

/-- part by part, -/
theorem bitsOf_append (s t : Bytes) : bitsOf (s ++ t) = bitsOf s ++ bitsOf t :=
  List.flatMap_append

/-- eight for each byte, -/
theorem length_byteBits (b : UInt8) : (byteBits b).length = 8 := rfl

/-- so eight times as many as bytes. -/
theorem length_bitsOf (s : Bytes) : (bitsOf s).length = 8 * s.length := by
  induction s with
  | nil => rfl
  | cons b s ih =>
      rw [bitsOf_cons, List.length_append, length_byteBits, ih, List.length_cons]
      ring

/-- Eight bits are a byte, wherever they are cut off. -/
theorem drop_bitsOf (s : Bytes) (n : ℕ) : (bitsOf s).drop (8 * n) = bitsOf (s.drop n) := by
  induction n generalizing s with
  | zero => rfl
  | succ n ih =>
      cases s with
      | nil => rfl
      | cons b s =>
          rw [bitsOf_cons, Nat.mul_succ, Nat.add_comm, ← List.drop_drop,
            List.drop_left' (length_byteBits b), ih, List.drop_succ_cons]

/-- Bits that are cut between bytes are those of the part. -/
theorem take_bitsOf (s : Bytes) (n : ℕ) : (bitsOf s).take (8 * n) = bitsOf (s.take n) := by
  induction n generalizing s with
  | zero => rfl
  | succ n ih =>
      cases s with
      | nil => rfl
      | cons b s =>
          rw [bitsOf_cons, Nat.mul_succ, Nat.add_comm, ← length_byteBits b,
            List.take_length_add_append, length_byteBits, ih, List.take_succ_cons, bitsOf_cons]

-- ============================================================= padding

theorem zeros_eq (n : ℕ) : zeros (8 * n) = 7 + 8 * ((119 - n % 64) % 64) :=
  (Nat.find_eq_iff _).2 ⟨by omega, fun k hk => by omega⟩

/-- Bytes that are zero have bits that are. -/
theorem bitsOf_replicate (n : ℕ) : bitsOf (List.replicate n 0) = List.replicate (8 * n) false := by
  induction n with
  | zero => rfl
  | succ n ih =>
      rw [List.replicate_succ, bitsOf_cons, ih, Nat.mul_succ, Nat.add_comm, List.replicate_add]
      rfl

/-- A byte of a length has eight bits of it, -/
theorem byteBits_ofNat (l i : ℕ) : byteBits (UInt8.ofNat (l / 256 ^ i))
    = (List.range 8).map fun j => l.testBit (8 * i + (7 - j)) := by
  refine List.map_congr_left fun j hj => ?_
  have hlow : 7 - j < 8 := by omega
  rw [UInt8.toNat_ofNat', Nat.testBit_mod_two_pow, decide_eq_true hlow, Bool.true_and,
    show 256 = 2 ^ 8 from rfl, ← Nat.pow_mul, Nat.testBit_div_two_pow, Nat.add_comm]

/-- so the length of 64 bits is eight bytes, the highest first. -/
theorem lengthBits_eq (l : ℕ) : lengthBits l
    = bitsOf ((List.range 8).reverse.map fun i => UInt8.ofNat (l / Nat.pow 256 i)) := by
  have hbytes : (List.range 8).reverse.map (fun i => UInt8.ofNat (l / Nat.pow 256 i))
      = [7, 6, 5, 4, 3, 2, 1, 0].map fun i => UInt8.ofNat (l / 256 ^ i) := rfl
  rw [hbytes, bitsOf, List.flatMap_map]
  simp only [byteBits_ofNat]
  -- Both sides now list the same sixty-four bits.
  rfl

/-- The digest pads as the standard does. -/
theorem pad_bitsOf (s : Bytes) : pad (bitsOf s) = bitsOf (s ++ Sha256.padding s.length) := by
  unfold pad Sha256.padding
  rw [length_bitsOf, zeros_eq, lengthBits_eq, Nat.mul_comm 8 s.length, bitsOf_append, bitsOf_append,
    bitsOf_cons, bitsOf_replicate, List.replicate_add, List.append_assoc]
  rfl

-- =============================================================== words

/-- Bits in front count by how many stand behind them. -/
theorem number_append (s t : List Bool) :
    number (s ++ t) = number s * 2 ^ t.length + number t := by
  induction t using List.reverseRecOn with
  | nil => simp [number]
  | append_singleton t b ih =>
      have hsnoc (u : List Bool) : number (u ++ [b]) = 2 * number u + b.toNat := by
        unfold number
        rw [List.foldl_append, List.foldl_cons, List.foldl_nil]
      rw [← List.append_assoc, hsnoc, hsnoc, ih, List.length_append, List.length_singleton]
      ring

/-- The bits of a byte make its number, -/
theorem number_byteBits (b : UInt8) : number (byteBits b) = b.toNat := by
  have hbytes : ∀ n < 256, number ((List.range 8).map fun i => n.testBit (7 - i)) = n := by
    decide +kernel
  exact hbytes b.toNat b.toNat_lt

/-- and those of four bytes make a word. -/
theorem number_four (a b c d : UInt8) : number (bitsOf [a, b, c, d])
    = ((a.toNat * 2 ^ 8 + b.toNat) * 2 ^ 8 + c.toNat) * 2 ^ 8 + d.toNat := by
  have hsnoc (s : Bytes) (x : UInt8) :
      number (bitsOf (s ++ [x])) = number (bitsOf s) * 2 ^ 8 + x.toNat := by
    rw [bitsOf_append, number_append, bitsOf_cons, show bitsOf [] = [] from rfl, List.append_nil,
      length_byteBits, number_byteBits]
  rw [show [a, b, c, d] = (([] ++ [a] ++ [b]) ++ [c]) ++ [d] from rfl, hsnoc, hsnoc, hsnoc, hsnoc]
  show (((0 * 2 ^ 8 + a.toNat) * 2 ^ 8 + b.toNat) * 2 ^ 8 + c.toNat) * 2 ^ 8 + d.toNat = _
  rw [Nat.zero_mul, Nat.zero_add]

/-- A byte that is shifted within a word loses nothing. -/
theorem toNat_shifted (x : UInt8) {n : UInt32} (hn : n.toNat ≤ 24) :
    (x.toUInt32 <<< n).toNat = x.toNat * 2 ^ n.toNat := by
  have hx := x.toNat_lt
  have hpow : 2 ^ n.toNat ≤ 2 ^ 24 := Nat.pow_le_pow_right (by decide) hn
  have hfits : x.toNat * 2 ^ n.toNat < 2 ^ 32 := by nlinarith
  rw [UInt32.toNat_shiftLeft, Nat.mod_eq_of_lt (a := n.toNat) (by omega), UInt8.toNat_toUInt32,
    Nat.shiftLeft_eq, Nat.mod_eq_of_lt hfits]

/-- Four bytes one beside the other are the number that they denote. -/
theorem word_toBitVec (a b c d : UInt8) :
    ((a.toUInt32 <<< 24) ||| (b.toUInt32 <<< 16) ||| (c.toUInt32 <<< 8) ||| d.toUInt32).toBitVec
      = BitVec.ofNat 32 (number (bitsOf [a, b, c, d])) := by
  have ha := a.toNat_lt
  have hb := b.toNat_lt
  have hc := c.toNat_lt
  have hd := d.toNat_lt
  have hor {k : ℕ} (x y : ℕ) (h : y < 2 ^ k) : x * 2 ^ k ||| y = x * 2 ^ k + y := by
    rw [← Nat.shiftLeft_eq, Nat.shiftLeft_add_eq_or_of_lt h]
  apply BitVec.eq_of_toNat_eq
  rw [number_four, UInt32.toNat_toBitVec, BitVec.toNat_ofNat, Nat.mod_eq_of_lt (by omega),
    UInt32.toNat_or, UInt32.toNat_or, UInt32.toNat_or, UInt8.toNat_toUInt32,
    toNat_shifted a (by decide), toNat_shifted b (by decide), toNat_shifted c (by decide)]
  show a.toNat * 2 ^ 24 ||| b.toNat * 2 ^ 16 ||| c.toNat * 2 ^ 8 ||| d.toNat = _
  rw [hor (k := 24) _ (b.toNat * 2 ^ 16) (by omega),
    show a.toNat * 2 ^ 24 + b.toNat * 2 ^ 16 = (a.toNat * 2 ^ 8 + b.toNat) * 2 ^ 16 by omega,
    hor (k := 16) _ (c.toNat * 2 ^ 8) (by omega),
    show (a.toNat * 2 ^ 8 + b.toNat) * 2 ^ 16 + c.toNat * 2 ^ 8
      = ((a.toNat * 2 ^ 8 + b.toNat) * 2 ^ 8 + c.toNat) * 2 ^ 8 by omega,
    hor (k := 8) _ d.toNat hd]

/-- A word of the standard is four bytes. -/
theorem blockWord_bitsOf (s : Bytes) (i j : ℕ) : blockWord (bitsOf s) i j
    = BitVec.ofNat 32 (number (bitsOf ((s.drop (64 * i + 4 * j)).take 4))) := by
  unfold blockWord
  rw [show 512 * i + 32 * j = 8 * (64 * i + 4 * j) by ring, drop_bitsOf, ← take_bitsOf]

/-- The words of block `i` are those of its bytes. -/
theorem blockWord_block (s : Bytes) (i : ℕ) {j : ℕ} (hj : j < 16) :
    blockWord (bitsOf s) i j = blockWord (bitsOf ((s.drop (64 * i)).take 64)) 0 j := by
  rw [blockWord_bitsOf, blockWord_bitsOf, Nat.mul_zero, Nat.zero_add, List.drop_take,
    List.take_take, List.drop_drop, min_eq_left (by omega)]

/-- Four bytes at a time, the words of a text are those of its bits. -/
theorem wordsOf_eq {s : Bytes} {n : ℕ} (h : s.length = 4 * n) : Sha256.wordsOf s
    = (List.range n).map fun j => UInt32.ofBitVec (blockWord (bitsOf s) 0 j) := by
  induction n generalizing s with
  | zero =>
      rw [List.eq_nil_of_length_eq_zero h]
      rfl
  | succ n ih =>
      obtain ⟨a, b, c, d, rest, rfl⟩ : ∃ a b c d rest, s = a :: b :: c :: d :: rest := by
        match s, h with
        | a :: b :: c :: d :: rest, _ => exact ⟨a, b, c, d, rest, rfl⟩
      have hrest : rest.length = 4 * n := by simpa [Nat.mul_succ] using h
      have hfirst : blockWord (bitsOf (a :: b :: c :: d :: rest)) 0 0
          = BitVec.ofNat 32 (number (bitsOf [a, b, c, d])) := blockWord_bitsOf _ 0 0
      have hlater (j : ℕ) : blockWord (bitsOf (a :: b :: c :: d :: rest)) 0 (j + 1)
          = blockWord (bitsOf rest) 0 j := by
        rw [blockWord_bitsOf, blockWord_bitsOf, Nat.mul_succ, ← Nat.add_assoc]
        rfl
      rw [Sha256.wordsOf, ih hrest, List.range_succ_eq_map, List.map_cons, List.map_map, hfirst,
        ← word_toBitVec]
      simp only [Function.comp_def, Nat.succ_eq_add_one, hlater]

-- ============================================================== schedule

/-- To rotate a word by two shifts is to rotate it. -/
theorem toBitVec_rotate (x : UInt32) {n : UInt32} (hpos : 0 < n.toNat) (hn : n.toNat < 32) :
    (Sha256.rotate x n).toBitVec = x.toBitVec.rotateRight n.toNat := by
  have hright : (x >>> n).toBitVec = x.toBitVec >>> n.toNat := by
    rw [UInt32.toBitVec_shiftRight, BitVec.ushiftRight_eq', BitVec.toNat_umod]
    congr 1
    exact Nat.mod_eq_of_lt hn
  have hleft : (x <<< (32 - n)).toBitVec = x.toBitVec <<< (32 - n.toNat) := by
    have hle : n ≤ 32 := UInt32.le_iff_toNat_le.2 hn.le
    rw [UInt32.toBitVec_shiftLeft, BitVec.shiftLeft_eq', BitVec.toNat_umod]
    congr 1
    rw [UInt32.toNat_toBitVec, UInt32.toNat_sub_of_le _ _ hle]
    exact Nat.mod_eq_of_lt (Nat.sub_lt (by decide) hpos)
  rw [BitVec.rotateRight_def, Nat.mod_eq_of_lt hn, Sha256.rotate, UInt32.toBitVec_or, hright, hleft]

/-- The four functions of words, as they are computed and as they are meant:
those of the schedule, -/
theorem sigma0_eq (x : UInt32) :
    (Sha256.rotate x 7 ^^^ Sha256.rotate x 18 ^^^ (x >>> 3)).toBitVec = sigma0 x.toBitVec := by
  simp (disch := decide) only [UInt32.toBitVec_xor, toBitVec_rotate]
  rfl

/-- of which this is the second, -/
theorem sigma1_eq (x : UInt32) :
    (Sha256.rotate x 17 ^^^ Sha256.rotate x 19 ^^^ (x >>> 10)).toBitVec = sigma1 x.toBitVec := by
  simp (disch := decide) only [UInt32.toBitVec_xor, toBitVec_rotate]
  rfl

/-- and those of the rounds, -/
theorem sum0_eq (x : UInt32) :
    (Sha256.rotate x 2 ^^^ Sha256.rotate x 13 ^^^ Sha256.rotate x 22).toBitVec
      = sum0 x.toBitVec := by
  simp (disch := decide) only [UInt32.toBitVec_xor, toBitVec_rotate]
  rfl

/-- of which this is. -/
theorem sum1_eq (x : UInt32) :
    (Sha256.rotate x 6 ^^^ Sha256.rotate x 11 ^^^ Sha256.rotate x 25).toBitVec
      = sum1 x.toBitVec := by
  simp (disch := decide) only [UInt32.toBitVec_xor, toBitVec_rotate]
  rfl

theorem length_block (t : Bytes) (i : ℕ) (h : 64 * (i + 1) ≤ t.length) :
    ((t.drop (64 * i)).take 64).length = 64 := by
  rw [List.length_take, List.length_drop]
  omega

/-- The words of a schedule, as the words of the machine. -/
def scheduled (M : ℕ → Word) (t : ℕ) : UInt32 := UInt32.ofBitVec (schedule M t)

/-- Each word of the schedule is made of four before it. -/
theorem scheduled_step (M : ℕ → Word) (n : ℕ) : scheduled M (16 + n)
    = scheduled M n
      + (Sha256.rotate (scheduled M (n + 1)) 7 ^^^ Sha256.rotate (scheduled M (n + 1)) 18
        ^^^ (scheduled M (n + 1) >>> 3))
      + scheduled M (n + 9)
      + (Sha256.rotate (scheduled M (n + 14)) 17 ^^^ Sha256.rotate (scheduled M (n + 14)) 19
        ^^^ (scheduled M (n + 14) >>> 10)) := by
  apply UInt32.eq_of_toBitVec_eq
  rw [UInt32.toBitVec_add, UInt32.toBitVec_add, UInt32.toBitVec_add, sigma0_eq, sigma1_eq]
  show schedule M (16 + n) = schedule M n + sigma0 (schedule M (n + 1)) + schedule M (n + 9)
    + sigma1 (schedule M (n + 14))
  rw [schedule_later]
  ac_rfl

/-- The schedule grows as the recurrence says. -/
theorem extend_eq (M : ℕ → Word) (k n : ℕ) :
    Sha256.extend k ((List.range (16 + n)).map (scheduled M)).reverse
      = ((List.range (16 + (n + k))).map (scheduled M)).reverse := by
  induction k generalizing n with
  | zero => rfl
  | succ k ih =>
      have hat {i j : ℕ} (h : i + j = 15 + n) :
          ((List.range (16 + n)).map (scheduled M)).reverse.getD i 0 = scheduled M j := by
        -- The last word of the schedule stands first.
        have hi : i < ((List.range (16 + n)).map (scheduled M)).reverse.length := by
          rw [List.length_reverse, List.length_map, List.length_range]
          omega
        rw [List.getD_eq_getElem _ _ hi, List.getElem_reverse, List.getElem_map, List.getElem_range,
          List.length_map, List.length_range]
        congr 1
        omega
      rw [Sha256.extend]
      dsimp only
      rw [hat (show 14 + (n + 1) = 15 + n by omega),
        hat (show 1 + (n + 14) = 15 + n by omega), hat (show 15 + n = 15 + n from rfl),
        hat (show 6 + (n + 9) = 15 + n by omega), ← scheduled_step,
        show n + (k + 1) = n + 1 + k by omega, ← ih (n + 1), ← Nat.add_assoc 16, List.range_succ,
        List.map_append, List.reverse_append]
      rfl

/-- The 48 steps behind the block give the schedule of the standard. -/
theorem schedule_eq {block : Bytes} (h : block.length = 64) : Sha256.schedule block
    = (List.range 64).map (scheduled (blockWord (bitsOf block) 0)) := by
  have hwords : Sha256.wordsOf block
      = (List.range (16 + 0)).map (scheduled (blockWord (bitsOf block) 0)) := by
    rw [wordsOf_eq (show block.length = 4 * 16 from h)]
    refine List.map_congr_left fun t ht => ?_
    rw [scheduled, schedule_first _ (List.mem_range.1 ht)]
  rw [Sha256.schedule, hwords, extend_eq, List.reverse_reverse]

-- ============================================================== rounds

/-- One round is a step of the standard, -/
theorem round_eq (v : Words) (k w : UInt32) :
    (Sha256.round v (k, w)).value = step k.toBitVec w.toBitVec v.value := by
  have h1 := sum1_eq v.e
  have h0 := sum0_eq v.a
  unfold Words.value step
  dsimp only
  rw [← h1, ← h0]
  rfl

/-- so all of them are its steps, -/
theorem rounds_eq (W : ℕ → Word) (v : Words) (n : ℕ) :
    (((List.range n).map fun t => (UInt32.ofBitVec (roundConstant t), UInt32.ofBitVec (W t))).foldl
      Sha256.round v).value = rounds W v.value n := by
  induction n with
  | zero => rfl
  | succ n ih =>
      rw [List.range_succ, List.map_append, List.foldl_append, rounds, ← ih]
      exact round_eq _ _ _

/-- and one block is taken in as the standard says. -/
theorem compress_eq (v : Words) {block : Bytes} (h : block.length = 64) :
    (Sha256.compress v block).value
      = v.value.add (rounds (schedule (blockWord (bitsOf block) 0)) v.value 64) := by
  have hzip : Sha256.roundConstants.zip (Sha256.schedule block) = (List.range 64).map fun t =>
      (UInt32.ofBitVec (roundConstant t),
        UInt32.ofBitVec (schedule (blockWord (bitsOf block) 0) t)) := by
    rw [roundConstants_eq, schedule_eq h, List.zip_map']
    rfl
  rw [← rounds_eq, ← hzip]
  rfl

-- =============================================================== blocks

/-- Block after block the words are the hash value. -/
theorem hashValue_eq {s : Bytes} {n : ℕ} (h : 64 * n ≤ s.length) :
    (Sha256.compressAll Sha256.initial (s.take (64 * n))).1.value = hashValue (bitsOf s) n := by
  induction n with
  | zero =>
      rw [Sha256.compressAll_short _ _ (by simp [Sha256.blockSize])]
      exact initial_eq
  | succ n ih =>
      have hle : 64 * n ≤ s.length := by omega
      have hblock : ((s.drop (64 * n)).take 64).length = 64 := length_block s n h
      have hwhole : (Sha256.compressAll Sha256.initial (s.take (64 * n))).2 = [] :=
        Sha256.compressAll_whole _ _ (List.length_take_of_le hle)
      -- The blocks before leave nothing that would go in front of this one.
      rw [Nat.mul_succ, List.take_add, Sha256.compressAll_append, hwhole, List.nil_append,
        Sha256.compressAll_block _ hblock, compress_eq _ hblock, ih hle, hashValue,
        schedule_congr fun t ht => blockWord_block s n ht]

/-- A padded message is whole blocks. -/
theorem length_padded (n : ℕ) : (n + (Sha256.padding n).length) % 64 = 0 := by
  have hlength : (Sha256.padding n).length = 1 + (119 - n % 64) % 64 + 8 := by
    unfold Sha256.padding
    simp only [List.length_append, List.length_cons, List.length_replicate, List.length_map,
      List.length_reverse, List.length_range]
    omega
  omega

/-- The words of a digest are the hash value. -/
theorem hash_bitsOf (s : Bytes) : hash (bitsOf s)
    = (Sha256.compressAll Sha256.initial (s ++ Sha256.padding s.length)).1.value := by
  have hlength := length_padded s.length
  have hblocks : 64 * ((s ++ Sha256.padding s.length).length / 64)
      = (s ++ Sha256.padding s.length).length := by
    rw [List.length_append]
    omega
  have hvalue := hashValue_eq hblocks.le
  rw [hblocks, List.take_length] at hvalue
  rw [hash, pad_bitsOf, length_bitsOf, hvalue, show 512 = 8 * 64 from rfl,
    Nat.mul_div_mul_left _ _ (by decide)]

-- ========================================================== hexadecimal

theorem hexDigit_eq {n : ℕ} (hn : n < 16) : hexDigit n = Nat.digitChar n := by
  have hdigits : ∀ n < 16, hexDigit n = Nat.digitChar n := by decide
  exact hdigits n hn

/-- The digits of a byte of a word. -/
theorem hex_wordByte (x : UInt32) {n : UInt32} {i : ℕ} (hi : i < 4) (hn : n.toNat = 8 * i) :
    hex [(x >>> n).toUInt8] = [Nat.digitChar (x.toNat / 16 ^ (2 * i + 1) % 16),
      Nat.digitChar (x.toNat / 16 ^ (2 * i) % 16)] := by
  have hbyte : (x >>> n).toUInt8.toNat = x.toNat / 16 ^ (2 * i) % 256 := by
    rw [UInt32.toNat_toUInt8, UInt32.toNat_shiftRight, hn,
      Nat.mod_eq_of_lt (a := 8 * i) (by omega), Nat.shiftRight_eq_div_pow,
      show 8 * i = 4 * (2 * i) by ring, Nat.pow_mul 2 4]
  have hhigh : x.toNat / 16 ^ (2 * i) % 256 / 16 = x.toNat / 16 ^ (2 * i + 1) % 16 := by
    rw [Nat.pow_succ, ← Nat.div_div_eq_div_mul]
    omega
  show [hexDigit _, hexDigit _] = _
  rw [hbyte, hexDigit_eq (by omega), hexDigit_eq (by omega), hhigh,
    Nat.mod_mod_of_dvd _ (by decide)]

/-- The digest is written part by part, -/
theorem hex_append (s t : Bytes) : hex (s ++ t) = hex s ++ hex t := List.flatMap_append

/-- word by word, -/
theorem hex_wordBytes (x : UInt32) : hex (Sha256.wordBytes x) = wordDigits x.toBitVec := by
  have hbytes : Sha256.wordBytes x = [(x >>> 24).toUInt8] ++ [(x >>> 16).toUInt8]
      ++ [(x >>> 8).toUInt8] ++ [(x >>> 0).toUInt8] := by
    rw [UInt32.shiftRight_zero]
    rfl
  rw [hbytes, hex_append, hex_append, hex_append,
    hex_wordByte x (i := 3) (by decide) (by decide),
    hex_wordByte x (i := 2) (by decide) (by decide),
    hex_wordByte x (i := 1) (by decide) (by decide),
    hex_wordByte x (i := 0) (by decide) (by decide)]
  rfl

/-- all eight of them. -/
theorem hex_wordsBytes (v : Words) :
    hex (Sha256.wordsBytes v) = v.value.words.flatMap wordDigits := by
  have hwords (ws : List UInt32) :
      hex (ws.flatMap Sha256.wordBytes) = (ws.map UInt32.toBitVec).flatMap wordDigits := by
    induction ws with
    | nil => rfl
    | cons w ws ih =>
        rw [List.flatMap_cons, hex_append, hex_wordBytes, ih, List.map_cons, List.flatMap_cons]
  exact hwords _

/-- The digest of a byte string is the one that the standard defines. -/
theorem hexDigest_eq (s : Bytes) : Sha256.hexDigest s = sha256Hex s := by
  unfold Sha256.hexDigest Sha256.digest sha256Hex
  rw [hash_bitsOf, hex_wordsBytes]

example : sha256Hex [0x61, 0x62, 0x63]
    = "ba7816bf8f01cfea414140de5dae2223b00361a396177a9cb410ff61f20015ad" := by
  rw [← hexDigest_eq]
  decide +kernel

end Standard

end TracedTransfer.Digest
