/-
Strings of TOML. A basic string has escapes, a literal string has none;
either may be written over several lines between three quotes, where up
to two quotes stand for themselves, an end of line is a line feed, and a
basic one is continued on the next line that is not blank after a
backslash.

A string is written in the style that needs no escapes, if there is one.
-/
import TracedTransfer.Toml.Basic

namespace TracedTransfer.Toml

open Text

-- ============================================================= escapes

/-- The character with a number, unless it is a surrogate or beyond the range. -/
def charOf? (n : Nat) : Option Char := if h : n.isValidChar then some (Char.ofNatAux n h) else none

/-- The character that `digits` hexadecimal digits denote. -/
def codePoint? (digits : Nat) (s : List Char) : Option (Char × List Char) :=
  let front := s.take digits
  if front.length = digits then
    ((ofDigits? 16 front).bind charOf?).map fun c => (c, s.drop digits)
  else none

/-- The character that an escape denotes, after its backslash. -/
def escape? : List Char → Option (Char × List Char)
  | 'b' :: rest => some ('\x08', rest)
  | 't' :: rest => some ('\t', rest)
  | 'n' :: rest => some ('\n', rest)
  | 'f' :: rest => some ('\x0c', rest)
  | 'r' :: rest => some ('\r', rest)
  | '"' :: rest => some ('"', rest)
  | '\\' :: rest => some ('\\', rest)
  | 'u' :: rest => codePoint? 4 rest
  | 'U' :: rest => codePoint? 8 rest
  | _ => none

-- ============================================================ one line

/-- A basic string after its opening quote. `acc` is what has been read, the last character
first. -/
def readBasic : Nat → List Char → List Char → Option (String × List Char)
  | 0, _, _ => none
  | fuel + 1, acc, s =>
    match s with
    | [] => none
    | '"' :: rest => some (String.ofList acc.reverse, rest)
    | '\\' :: rest =>
      match escape? rest with
      | some (c, rest) => readBasic fuel (c :: acc) rest
      | none => none
    | c :: rest => if isText c then readBasic fuel (c :: acc) rest else none

/-- Whether a character stands for itself in a literal string. -/
def isLiteral (c : Char) : Bool := isText c && c ≠ '\''

/-- A literal string after its opening quote. -/
def readLiteral (s : List Char) : Option (String × List Char) :=
  match s.dropWhile isLiteral with
  | '\'' :: rest => some (String.ofList (s.takeWhile isLiteral), rest)
  | _ => none

-- ========================================================= several lines

/-- What follows the blanks and the ends of lines at the front. -/
def skipBlankLines : List Char → List Char
  | ' ' :: rest => skipBlankLines rest
  | '\t' :: rest => skipBlankLines rest
  | '\n' :: rest => skipBlankLines rest
  | '\r' :: '\n' :: rest => skipBlankLines rest
  | s => s

/-- A string over several lines after its opening quotes. `quote` is the quote and `escapes` says
whether a backslash is one. `acc` is what has been read, the last character first. -/
def readLines (quote : Char) (escapes : Bool) :
    Nat → List Char → List Char → Option (String × List Char)
  | 0, _, _ => none
  | fuel + 1, acc, s =>
    match s with
    | [] => none
    | c :: rest =>
      if c = quote then
        let n := (s.takeWhile (· = quote)).length
        if n < 3 then readLines quote escapes fuel (List.replicate n quote ++ acc) (s.drop n)
        else if n < 6 then
          some (String.ofList (List.replicate (n - 3) quote ++ acc).reverse, s.drop n)
        else none
      else if c = '\\' && escapes then
        match afterNewline (skipSeparators rest) with
        | some rest => readLines quote escapes fuel acc (skipBlankLines rest)
        | none =>
          match escape? rest with
          | some (c, rest) => readLines quote escapes fuel (c :: acc) rest
          | none => none
      else
        match afterNewline s with
        | some rest => readLines quote escapes fuel ('\n' :: acc) rest
        | none => if isText c then readLines quote escapes fuel (c :: acc) rest else none

/-- An end of line right after the opening quotes does not count. -/
def afterOpening (s : List Char) : List Char := (afterNewline s).getD s

/-- A string at the front of a text. -/
def readQuoted (s : List Char) : Option (String × List Char) :=
  match s with
  | '"' :: '"' :: '"' :: rest => readLines '"' true (rest.length + 1) [] (afterOpening rest)
  | '\'' :: '\'' :: '\'' :: rest => readLines '\'' false (rest.length + 1) [] (afterOpening rest)
  | '"' :: rest => readBasic (rest.length + 1) [] rest
  | '\'' :: rest => readLiteral rest
  | _ => none

-- ============================================================== styles

/-- How a string is written. -/
inductive Style where
  | basic
  | literal
  /-- A basic string over several lines. -/
  | basicLines
  /-- A literal string over several lines. -/
  | literalLines
deriving DecidableEq, Repr

/-- Whether a character is written as an escape in every style that has them: the control characters
of ASCII, line feeds and tabs apart. -/
def isCode (c : Char) : Bool := !isText c && c ≠ '\n'

/-- Whether a character stands somewhere `n` times in a row. -/
def hasRun (c : Char) (n : Nat) : List Char → Bool
  | [] => n = 0
  | d :: rest => (stripStart? (List.replicate n c) (d :: rest)).isSome || hasRun c n rest

/-- The style of a string: the plainest that shows every character bare, and one with escapes if
there is none. -/
def Style.of (s : List Char) : Style :=
  let bare := !s.any isCode
  let slash := s.contains '\\'
  let line := s.contains '\n'
  if bare && !slash && !s.contains '"' && !line then .basic
  else if bare && !s.contains '\'' && !line then .literal
  else if bare && !slash && !hasRun '"' 3 s then .basicLines
  else if bare && !hasRun '\'' 3 s then .literalLines
  else if line then .basicLines
  else .basic

/-- The style of a part of a key, which stands on one line. -/
def Style.ofKey (s : List Char) : Style :=
  let bare := s.all isText
  if bare && !s.contains '\\' && !s.contains '"' then .basic
  else if bare && !s.contains '\'' then .literal
  else .basic

-- ============================================================== writing

/-- A character as an escape. -/
def escapeOf (c : Char) : List Char :=
  if c = '\x08' then ['\\', 'b']
  else if c = '\t' then ['\\', 't']
  else if c = '\n' then ['\\', 'n']
  else if c = '\x0c' then ['\\', 'f']
  else if c = '\r' then ['\\', 'r']
  else if c = '"' then ['\\', '"']
  else if c = '\\' then ['\\', '\\']
  else ['\\', 'u', '0', '0', hexDigitUpper (c.toNat / 16), hexDigitUpper (c.toNat % 16)]

/-- Whether a character but the quote stands bare in a basic string, over several lines or not. -/
def staysBare (lines : Bool) (c : Char) : Bool :=
  isText c && c ≠ '\t' && c ≠ '\\' || lines && c = '\n'

/-- The characters of a basic string. -/
def escaped (s : List Char) : List Char :=
  s.flatMap fun c => if staysBare false c && c ≠ '"' then [c] else escapeOf c

/-- The characters of a basic string over several lines, after `quotes` bare quotes. The third quote
of a run is escaped. -/
def escapedLines (quotes : Nat) : List Char → List Char
  | [] => []
  | c :: rest =>
    if c = '"' then
      if quotes < 2 then c :: escapedLines (quotes + 1) rest else escapeOf c ++ escapedLines 0 rest
    else if staysBare true c then c :: escapedLines 0 rest
    else escapeOf c ++ escapedLines 0 rest

/-- What follows the opening quotes of a string over several lines: one that holds an end of line
starts on a line of its own. -/
def opening (s : List Char) : List Char := if s.contains '\n' then ['\n'] else []

/-- The quotes around a string over several lines. -/
def fence (quote : Char) : List Char := [quote, quote, quote]

/-- A string in a style. -/
def Style.write : Style → List Char → List Char
  | .basic, s => '"' :: escaped s ++ ['"']
  | .literal, s => '\'' :: s ++ ['\'']
  | .basicLines, s => fence '"' ++ opening s ++ escapedLines 0 s ++ fence '"'
  | .literalLines, s => fence '\'' ++ opening s ++ s ++ fence '\''

/-- A string in quotes. -/
def quoted (s : String) : List Char := (Style.of s.toList).write s.toList

end TracedTransfer.Toml
