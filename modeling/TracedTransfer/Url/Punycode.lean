/-
Punycode: a text with characters outside ASCII as letters, digits and
hyphens. The ASCII characters come first, then one number for each other
character, in the order of code points; a number counts the states
`(code point, position)` between two insertions and is written in a
variable-length base 36 whose thresholds follow a bias.

Both directions end without fuel: the writer recurses on the code points
that occur, the reader on the digits left.
-/
import TracedTransfer.Text.Number

namespace TracedTransfer.Url.Punycode

open Text

-- ================================================= digits, thresholds

/-- The digit of a value below 36: letters, then decimal digits. -/
def digit (v : Nat) : Char :=
  if v < 26 then Char.ofNat (0x61 + v) else Char.ofNat (0x30 + (v - 26))

/-- The value of a digit, either case. -/
def value? (c : Char) : Option Nat :=
  let n := c.toNat
  if 0x61 ≤ n && n ≤ 0x7a then some (n - 0x61)
  else if 0x41 ≤ n && n ≤ 0x5a then some (n - 0x41)
  else if 0x30 ≤ n && n ≤ 0x39 then some (n - 0x30 + 26)
  else none

/-- Where a digit in place `k` (36, 72, …) ends a number. -/
def threshold (bias k : Nat) : Nat := min 26 (max 1 (k - bias))

theorem threshold_pos (bias k : Nat) : 1 ≤ threshold bias k := by
  unfold threshold; omega

theorem threshold_le (bias k : Nat) : threshold bias k ≤ 26 := by
  unfold threshold; omega

/-- Divides a mean distance down, counting 36 for each step. -/
def settle (delta k : Nat) : Nat :=
  if 455 < delta then settle (delta / 35) (k + 36) else k + 36 * delta / (delta + 38)
termination_by delta
decreasing_by omega

/-- The bias after a number, from the number, how many characters now stand, and whether it was
the first. -/
def adapt (delta count : Nat) (first : Bool) : Nat :=
  let d := if first then delta / 700 else delta / 2
  settle (d + d / count) 0

-- ============================================================ writing

/-- The digits of a number. -/
def number (bias k n : Nat) : List Char :=
  let t := threshold bias k
  if n < t then [digit n]
  else digit (t + (n - t) % (36 - t)) :: number bias (k + 36) ((n - t) / (36 - t))
termination_by n
decreasing_by
  have h1 := threshold_pos bias k
  have h2 := Nat.div_le_self (n - threshold bias k) (36 - threshold bias k)
  omega

/-- The writer between two characters of its input. -/
structure Writer where
  /-- States passed since the last insertion. -/
  delta : Nat
  bias : Nat
  /-- Characters that stand already. -/
  count : Nat
  /-- Whether the next number is the first. -/
  first : Bool
  written : List Char

/-- One character of the input while the code point `n` is inserted. -/
def Writer.pass (n : Nat) (w : Writer) (c : Char) : Writer :=
  if c.toNat < n then { w with delta := w.delta + 1 }
  else if c.toNat = n then
    { delta := 0, bias := adapt w.delta (w.count + 1) w.first, count := w.count + 1, first := false
      written := w.written ++ number w.bias 36 w.delta }
  else w

/-- Inserts the code points of a rising list, the last of which before it was `n - 1`. -/
def Writer.insertAll (s : List Char) (w : Writer) (n : Nat) : List Nat → Writer
  | [] => w
  | m :: rest =>
    let w := s.foldl (Writer.pass m) { w with delta := w.delta + (m - n) * (w.count + 1) }
    insertAll s { w with delta := w.delta + 1 } (m + 1) rest

/-- The code points outside ASCII that occur in a text, rising and without repetition. -/
def wideCodePoints (s : List Char) : List Nat :=
  ((s.map Char.toNat).filter (0x80 ≤ ·)).mergeSort.eraseDups

/-- The ASCII characters of a text. -/
def basic (s : List Char) : List Char := s.filter fun c => c.toNat < 0x80

/-- The written form of a text. -/
def encode (s : List Char) : List Char :=
  let b := basic s
  let start : Writer := ⟨0, 72, b.length, true, []⟩
  let front := if b.isEmpty then [] else b ++ ['-']
  front ++ (start.insertAll s 0x80 (wideCodePoints s)).written

-- ============================================================ reading

/-- Reads one number; `weight` is the weight of the digit in place `k`. -/
def readNumber (bias : Nat) : Nat → Nat → Nat → List Char → Option (Nat × List Char)
  | _, _, _, [] => none
  | k, weight, acc, c :: rest => do
    let d ← value? c
    let t := threshold bias k
    if d < t then some (acc + d * weight, rest)
    else readNumber bias (k + 36) (weight * (36 - t)) (acc + d * weight) rest

theorem readNumber_length_lt {bias k weight acc n : Nat} {s r : List Char}
    (h : readNumber bias k weight acc s = some (n, r)) : r.length < s.length := by
  induction s generalizing k weight acc with
  | nil => simp [readNumber] at h
  | cons c rest ih =>
    simp only [readNumber] at h
    cases hv : value? c with
    | none => simp [hv] at h
    | some d =>
      simp only [hv, Option.bind_eq_bind, Option.bind_some] at h
      split at h
      · simp only [Option.some.injEq, Prod.mk.injEq] at h
        simp [← h.2]
      · exact Nat.lt_trans (ih h) (by simp)

/-- Inserts the characters that the numbers of a text denote. `n` is the last code point inserted
and `i` the position after it. -/
def readInsertions (acc : List Char) (n i bias : Nat) (first : Bool) (s : List Char) :
    Option (List Char) :=
  match s with
  | [] => some acc
  | c :: rest =>
    match h : readNumber bias 36 1 0 (c :: rest) with
    | none => none
    | some (delta, tail) =>
      let count := acc.length + 1
      let n := n + (i + delta) / count
      let place := (i + delta) % count
      if n.isValidChar then
        readInsertions (acc.take place ++ Char.ofNat n :: acc.drop place) n (place + 1)
          (adapt delta count first) false tail
      else none
termination_by s.length
decreasing_by exact readNumber_length_lt h

/-- What stands before and after the last hyphen; all stands after it if nothing is before. -/
def splitBasic (s : List Char) : List Char × List Char :=
  match splitOnce '-' s.reverse with
  | some (after, before) => if before.isEmpty then ([], s) else (before.reverse, after.reverse)
  | none => ([], s)

/-- The text of a written form. -/
def decode? (s : List Char) : Option (List Char) :=
  let (front, digits) := splitBasic s
  readInsertions front 0x80 0 72 true digits

end TracedTransfer.Url.Punycode
