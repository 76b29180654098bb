/-
UTF-8 on lists of bytes: writing, strict reading, and the lossy reading
that puts U+FFFD for each malformed run. A malformed run is the longest
beginning of a well-formed sequence that stands there, or one byte.

The reader looks at one character at a time (`next`); both readings are
folds of it. Bytes come from files and responses, so both go through an
accumulator and take no stack.
-/
import TracedTransfer.Text.Blank

namespace TracedTransfer.Text

/-- Content: bytes in order. -/
abbrev Bytes := List UInt8

namespace Utf8

/-- The bytes of a text. -/
def encode (s : List Char) : Bytes := s.flatMap String.utf8EncodeChar

/-- Reads `n` continuation bytes, the first of them within `lo` and `hi`.
The character is `none` when a byte does not fit; the rest then starts at that byte. -/
def continuation : Nat → UInt8 → UInt8 → Nat → Bytes → Option Char × Bytes
  | 0, _, _, acc, rest => (some (Char.ofNat acc), rest)
  | _ + 1, _, _, _, [] => (none, [])
  | n + 1, lo, hi, acc, b :: rest =>
    if lo ≤ b && b ≤ hi then
      continuation n 0x80 0xbf (acc * 64 + (b &&& 0x3f).toNat) rest
    else (none, b :: rest)

theorem continuation_length_le (n : Nat) (lo hi : UInt8) (acc : Nat) (s : Bytes) :
    (continuation n lo hi acc s).2.length ≤ s.length := by
  induction n generalizing lo hi acc s with
  | zero => simp [continuation]
  | succ n ih =>
    cases s with
    | nil => simp [continuation]
    | cons b rest =>
      simp only [continuation]
      split
      · exact Nat.le_trans (ih ..) (by simp)
      · simp

/-- The character that starts with byte `b`, or `none` for a malformed run, and what follows. -/
def next (b : UInt8) (rest : Bytes) : Option Char × Bytes :=
  if b < 0x80 then (some (Char.ofNat b.toNat), rest)
  else if 0xc2 ≤ b && b ≤ 0xdf then continuation 1 0x80 0xbf (b &&& 0x1f).toNat rest
  else if b = 0xe0 then continuation 2 0xa0 0xbf 0 rest
  else if b = 0xed then continuation 2 0x80 0x9f 0xd rest
  else if 0xe1 ≤ b && b ≤ 0xef then continuation 2 0x80 0xbf (b &&& 0xf).toNat rest
  else if b = 0xf0 then continuation 3 0x90 0xbf 0 rest
  else if b = 0xf4 then continuation 3 0x80 0x8f 4 rest
  else if 0xf1 ≤ b && b ≤ 0xf3 then continuation 3 0x80 0xbf (b &&& 0x7).toNat rest
  else (none, rest)

theorem next_length_le (b : UInt8) (rest : Bytes) : (next b rest).2.length ≤ rest.length := by
  unfold next
  repeat' split
  all_goals first
    | exact Nat.le_refl _
    | exact continuation_length_le ..

/-- The characters read, last one first, with `none` for each malformed run. -/
def readOnto (acc : List (Option Char)) : Bytes → List (Option Char)
  | [] => acc
  | b :: rest => readOnto ((next b rest).1 :: acc) (next b rest).2
termination_by s => s.length
decreasing_by exact Nat.lt_succ_of_le (next_length_le b rest)

/-- The characters of a byte sequence in order, with `none` for each malformed run. -/
def read (s : Bytes) : List (Option Char) := (readOnto [] s).reverse

/-- The text with U+FFFD in the place of each malformed run. -/
def decodeLossy (s : Bytes) : List Char := (read s).map fun c => c.getD '\ufffd'

/-- The text of a well-formed sequence. -/
def decode? (s : Bytes) : Option (List Char) :=
  let cs := read s
  if cs.all Option.isSome then some (cs.map fun c => c.getD '\ufffd') else none

/-- Whether a place among the bytes of a text is inside no character: at the beginning, at the end,
or in front of a byte that no character goes on with. -/
def isBoundary (s : Bytes) (n : Nat) : Bool :=
  n = 0
    || (match s[n]? with
        | some b => b < 0x80 || 0xc0 ≤ b
        | none => n = s.length)

/-- The last boundary that is at a place or before it, found step by step; `none` if there is none
down to the beginning. -/
def boundary? (s : Bytes) : Nat → Option Nat
  | 0 => if isBoundary s 0 then some 0 else none
  | n + 1 => if isBoundary s (n + 1) then some (n + 1) else boundary? s n

end Utf8

/-- The bytes of a string. -/
def bytesOf (s : String) : Bytes := Utf8.encode s.toList

end TracedTransfer.Text
