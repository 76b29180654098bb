/-
Tables of characters read from lines of text: sets of ranges, runs that
send a range to another, and lists with labels. The lines hold words of
hexadecimal code points between blanks.
-/
import TracedTransfer.Text.Number

namespace TracedTransfer.Unicode

open Text

/-- The number that hexadecimal digits denote; zero if they are none. -/
def codePoint (s : List Char) : Nat := (ofDigits? 16 s).getD 0

/-- The characters of a text of code points between plus signs. -/
def charactersOf (s : List Char) : List Char := (s.splitOn '+').map fun p => Char.ofNat (codePoint p)

/-- A set of characters as ranges with both ends. -/
structure RangeTable where
  ranges : List (Nat × Nat)

/-- One range: `a-b`, or `a` alone. -/
def rangeOf (s : List Char) : Nat × Nat :=
  match splitOnce '-' s with
  | some (a, b) => (codePoint a, codePoint b)
  | none => (codePoint s, codePoint s)

/-- The words of lines. -/
def wordsOf (lines : List String) : List (List Char) := lines.flatMap fun l => l.toList.splitOn ' '

/-- A table of ranges. -/
def RangeTable.ofText (lines : List String) : RangeTable := ⟨(wordsOf lines).map rangeOf⟩

/-- Whether a character lies in one of the ranges. -/
def RangeTable.contains (t : RangeTable) (c : Char) : Bool :=
  t.ranges.any fun r => r.1 ≤ c.toNat && c.toNat ≤ r.2

/-- Tables with a number each: `label=ranges`, the ranges between commas. -/
def labelledOfText (lines : List String) : List (Nat × RangeTable) :=
  (wordsOf lines).filterMap fun entry => do
    let (label, ranges) ← splitOnce '=' entry
    return ((ofDigits? 10 label).getD 0, ⟨(ranges.splitOn ',').map rangeOf⟩)

/-- A range of characters, every one or every other of which turns into another. -/
structure Run where
  first : Nat
  last : Nat
  step : Nat
  target : Nat

/-- One run: `a-b>c`, `a-b/2>c` or `a>c`. -/
def Run.ofList? (s : List Char) : Option Run := do
  let (source, target) ← splitOnce '>' s
  let (range, step) :=
    match splitOnce '/' source with
    | some (r, _) => (r, 2)
    | none => (source, 1)
  let (first, last) := rangeOf range
  return ⟨first, last, step, codePoint target⟩

/-- The runs of a table. -/
def Run.listOfText (lines : List String) : List Run := (wordsOf lines).filterMap Run.ofList?

/-- What a run turns a character into, if it covers it. -/
def Run.image? (c : Char) (r : Run) : Option Char :=
  let n := c.toNat
  if r.first ≤ n && n ≤ r.last && (n - r.first) % r.step = 0 then
    some (Char.ofNat (r.target + (n - r.first)))
  else none

/-- Characters with the texts they turn into: `a>c+d`. -/
def expansionsOfText (lines : List String) : List (Nat × List Char) :=
  (wordsOf lines).filterMap fun entry => do
    let (a, text) ← splitOnce '>' entry
    return (codePoint a, charactersOf text)

/-- Composites with their parts: `a=b+c`. -/
def compositesOfText (lines : List String) : List (Char × Char × Char) :=
  (wordsOf lines).filterMap fun entry => do
    let (a, parts) ← splitOnce '=' entry
    match charactersOf parts with
    | [b, c] => return (Char.ofNat (codePoint a), b, c)
    | _ => none

end TracedTransfer.Unicode
