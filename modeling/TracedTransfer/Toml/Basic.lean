/-
TOML values. The entries of a table stand in the order in which they are
written, each key once. A date or a time is kept as its text.
-/
import TracedTransfer.Number.Binary64

namespace TracedTransfer

/-- A TOML value. -/
inductive Toml where
  | string (s : String)
  | integer (n : Int)
  | float (x : Binary64)
  | boolean (b : Bool)
  | datetime (text : String)
  | array (items : List Toml)
  | table (entries : List (String × Toml))
deriving Repr

namespace Toml

instance : Inhabited Toml := ⟨.table []⟩

/-- Whole numbers have sixty-four bits. -/
def isWhole (n : Int) : Bool := -9223372036854775808 ≤ n && n < 9223372036854775808

/-- How deep values may be nested, and how many parts a key may have. -/
def maxDepth : Nat := 80

-- ============================================================== blanks

/-- Whether a character separates the words of a line. -/
def isSeparator (c : Char) : Bool := c = ' ' || c = '\t'

/-- What follows the separators at the front. -/
def skipSeparators (s : List Char) : List Char := s.dropWhile isSeparator

/-- What follows the end of a line at the front. -/
def afterNewline : List Char → Option (List Char)
  | '\n' :: rest => some rest
  | '\r' :: '\n' :: rest => some rest
  | _ => none

/-- Whether a character may stand in comments and strings: any but the control characters of
ASCII, of which only the tab may. -/
def isText (c : Char) : Bool := c = '\t' || (0x20 ≤ c.toNat && c.toNat ≠ 0x7f)

/-- What follows a line whose last word has been read: separators, a comment and the end. -/
def endLine (s : List Char) : Option (List Char) :=
  let s := match skipSeparators s with
    | '#' :: rest => rest.dropWhile isText
    | s => s
  if s.isEmpty then some [] else afterNewline s

/-- What follows the separators, comments and ends of lines at the front. The fuel bounds the
number of lines. -/
def skipLines : Nat → List Char → List Char
  | 0, s => s
  | fuel + 1, s =>
    let s := skipSeparators s
    let line := match s with
      | '#' :: rest => rest.dropWhile isText
      | s => s
    match afterNewline line with
    | some rest => skipLines fuel rest
    | none => s

end Toml

end TracedTransfer
