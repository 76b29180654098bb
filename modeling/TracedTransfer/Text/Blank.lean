/-
Characters that count as blank or as control, and the trimming built on
them. `isBlank` is the White_Space property: the five blanks of ASCII,
the next line mark, the no-break space and the wide blanks of the
General Punctuation and CJK blocks. `isControl` is the category Cc, the
two blocks C0 and C1 with DEL between them.

Everything is on `List Char`; the other text modules build on it.
-/
namespace TracedTransfer.Text

/-- Whether a character has the White_Space property. -/
def isBlank (c : Char) : Bool :=
  let n := c.toNat
  (0x09 ≤ n && n ≤ 0x0d) || n == 0x20 || n == 0x85 || n == 0xa0 || n == 0x1680
    || (0x2000 ≤ n && n ≤ 0x200a) || n == 0x2028 || n == 0x2029 || n == 0x202f
    || n == 0x205f || n == 0x3000

/-- Whether a character is a control character: C0, DEL or C1. -/
def isControl (c : Char) : Bool :=
  let n := c.toNat
  n < 0x20 || (0x7f ≤ n && n ≤ 0x9f)

/-- A text without the characters of a class at its two ends. -/
def trimMatches (p : Char → Bool) (s : List Char) : List Char :=
  ((s.dropWhile p).reverse.dropWhile p).reverse

/-- A text without the blanks at its two ends. -/
def trim (s : List Char) : List Char := trimMatches isBlank s

/-- Two texts that differ in the case of ASCII letters only. -/
def equalIgnoringCase (a b : List Char) : Bool :=
  a.map Char.toLower == b.map Char.toLower

/-- The parts before and after the first occurrence of a character. -/
def splitOnce (sep : Char) : List Char → Option (List Char × List Char)
  | [] => none
  | c :: rest =>
    if c = sep then some ([], rest)
    else (splitOnce sep rest).map fun (a, b) => (c :: a, b)

/-- What follows a given beginning, if the text has it. -/
def stripStart? : List Char → List Char → Option (List Char)
  | [], s => some s
  | _ :: _, [] => none
  | p :: ps, c :: cs => if p = c then stripStart? ps cs else none

theorem stripStart?_append (p s : List Char) : stripStart? p (p ++ s) = some s := by
  induction p with
  | nil => rfl
  | cons c p ih => simp [stripStart?, ih]

theorem eq_append_of_stripStart? {p s r : List Char} (h : stripStart? p s = some r) :
    s = p ++ r := by
  induction p generalizing s with
  | nil => simpa [stripStart?] using h
  | cons c p ih =>
    cases s with
    | nil => simp [stripStart?] at h
    | cons d s =>
      by_cases hcd : c = d
      · simp [stripStart?, hcd] at h
        simp [hcd, ih h]
      · simp [stripStart?, hcd] at h

end TracedTransfer.Text
