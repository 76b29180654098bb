/-
Reading JSON. The reader takes a value from the front of a text and
returns what follows; its fuel is the length of the text, which every
step shortens. A whole number that fits sixty-four bits stays whole, any
other number is floating-point.
-/
import TracedTransfer.Json.Writer

namespace TracedTransfer.Json

open Text

/-- Whether a character may stand between the parts of a value. -/
def isSpace (c : Char) : Bool := c = ' ' || c = '\t' || c = '\n' || c = '\r'

/-- A text without the blanks at its beginning. -/
def skipSpace (s : List Char) : List Char := s.dropWhile isSpace

-- ============================================================ strings

/-- Four hexadecimal digits. -/
def hex4? : List Char → Option (Nat × List Char)
  | a :: b :: c :: d :: rest => (ofDigits? 16 [a, b, c, d]).map fun n => (n, rest)
  | _ => none

/-- The character of an escape after `\u`: two escapes for a surrogate pair. -/
def unicodeEscape? (s : List Char) : Option (Char × List Char) := do
  let (hi, rest) ← hex4? s
  if 0xd800 ≤ hi && hi < 0xdc00 then
    let (lo, rest) ← (stripStart? ['\\', 'u'] rest).bind hex4?
    if 0xdc00 ≤ lo && lo < 0xe000 then
      return (Char.ofNat (0x10000 + (hi - 0xd800) * 1024 + (lo - 0xdc00)), rest)
    else none
  else if 0xdc00 ≤ hi && hi < 0xe000 then none
  else return (Char.ofNat hi, rest)

/-- The character of an escape after the backslash. -/
def escape? : List Char → Option (Char × List Char)
  | '"' :: rest => some ('"', rest)
  | '\\' :: rest => some ('\\', rest)
  | '/' :: rest => some ('/', rest)
  | 'b' :: rest => some ('\x08', rest)
  | 'f' :: rest => some ('\x0c', rest)
  | 'n' :: rest => some ('\n', rest)
  | 'r' :: rest => some ('\r', rest)
  | 't' :: rest => some ('\t', rest)
  | 'u' :: rest => unicodeEscape? rest
  | _ => none

/-- The rest of a string after its first quote. `acc` is what has been read, last character
first. -/
def readString : Nat → List Char → List Char → Option (String × List Char)
  | 0, _, _ => none
  | _ + 1, _, [] => none
  | fuel + 1, acc, c :: rest =>
    if c = '"' then some (String.ofList acc.reverse, rest)
    else if c = '\\' then
      match escape? rest with
      | some (d, rest) => readString fuel (d :: acc) rest
      | none => none
    else if c.toNat < 0x20 then none
    else readString fuel (c :: acc) rest

-- ============================================================ numbers

/-- The digits at the front of a text, at least one. -/
def digits1? (s : List Char) : Option (List Char × List Char) :=
  let ds := s.takeWhile Char.isDigit
  if ds.isEmpty then none else some (ds, s.dropWhile Char.isDigit)

/-- The digits after the point; none if there is no point. -/
def fraction? (s : List Char) : Option (List Char × List Char) :=
  match s with
  | '.' :: rest => digits1? rest
  | _ => some ([], s)

/-- The exponent, if there is one. -/
def exponent? (s : List Char) : Option (Option Int × List Char) :=
  match s with
  | c :: rest =>
    if c = 'e' || c = 'E' then
      let (negative, rest) :=
        match rest with
        | '+' :: r => (false, r)
        | '-' :: r => (true, r)
        | _ => (false, rest)
      (digits1? rest).map fun (ds, rest) =>
        let n : Int := (ofDigits? 10 ds).getD 0
        (some (if negative then -n else n), rest)
    else some (none, s)
  | [] => some (none, s)

/-- A number from its parts. -/
def ofNumberParts (negative : Bool) (whole fraction : List Char) (e : Option Int) : Json :=
  if fraction.isEmpty && e.isNone then
    let n := (ofDigits? 10 whole).getD 0
    if negative then
      if n = 0 || 9223372036854775808 < n then .float (.ofDecimal true n 0) else .int (-(n : Int))
    else if n < u64Bound then .int n
    else .float (.ofDecimal false n 0)
  else
    let n := (ofDigits? 10 (whole ++ fraction)).getD 0
    .float (.ofDecimal negative n (e.getD 0 - fraction.length))

/-- A number at the front of a text. -/
def readNumber (s : List Char) : Option (Json × List Char) := do
  let (negative, s) :=
    match s with
    | '-' :: rest => (true, rest)
    | _ => (false, s)
  let (whole, rest) ← digits1? s
  if whole.head? = some '0' && 1 < whole.length then none
  else
    let (fraction, rest) ← fraction? rest
    let (e, rest) ← exponent? rest
    return (ofNumberParts negative whole fraction e, rest)

-- ============================================================= values

mutual

/-- A value at the front of a text. -/
def readValue : Nat → List Char → Option (Json × List Char)
  | 0, _ => none
  | fuel + 1, s =>
    match skipSpace s with
    | [] => none
    | '"' :: rest => (readString (rest.length + 1) [] rest).map fun (t, r) => (.str t, r)
    | '[' :: rest =>
      match skipSpace rest with
      | ']' :: r => some (.arr [], r)
      | _ => (readItems fuel [] rest).map fun (js, r) => (.arr js, r)
    | '\x7b' :: rest =>
      match skipSpace rest with
      | '\x7d' :: r => some (.obj [], r)
      | _ => (readMembers fuel [] rest).map fun (ms, r) => (.obj ms, r)
    | c :: rest =>
      match stripStart? "null".toList (c :: rest) with
      | some r => some (.null, r)
      | none =>
        match stripStart? "true".toList (c :: rest) with
        | some r => some (.bool true, r)
        | none =>
          match stripStart? "false".toList (c :: rest) with
          | some r => some (.bool false, r)
          | none => readNumber (c :: rest)

/-- Items up to the closing bracket. `acc` is what has been read, last item first. -/
def readItems : Nat → List Json → List Char → Option (List Json × List Char)
  | 0, _, _ => none
  | fuel + 1, acc, s =>
    match readValue fuel s with
    | none => none
    | some (j, rest) =>
      match skipSpace rest with
      | ',' :: r => readItems fuel (j :: acc) r
      | ']' :: r => some ((j :: acc).reverse, r)
      | _ => none

/-- Members up to the closing brace. `acc` is what has been read, last member first. -/
def readMembers : Nat → List (String × Json) → List Char →
    Option (List (String × Json) × List Char)
  | 0, _, _ => none
  | fuel + 1, acc, s =>
    match skipSpace s with
    | '"' :: rest =>
      match readString (rest.length + 1) [] rest with
      | none => none
      | some (name, rest) =>
        match skipSpace rest with
        | ':' :: rest =>
          match readValue fuel rest with
          | none => none
          | some (j, rest) =>
            match skipSpace rest with
            | ',' :: r => readMembers fuel ((name, j) :: acc) r
            | '\x7d' :: r => some (((name, j) :: acc).reverse, r)
            | _ => none
        | _ => none
    | _ => none

end

/-- Reads a text that holds one value and blanks. -/
def parseChars (s : List Char) : Option Json :=
  match readValue (s.length + 1) s with
  | some (j, rest) => if (skipSpace rest).isEmpty then some j else none
  | none => none

/-- Reads a text that holds one value and blanks. -/
def parse (s : String) : Option Json := parseChars s.toList

end TracedTransfer.Json
