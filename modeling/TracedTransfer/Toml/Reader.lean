/-
Reading TOML: keys, values, and the statements of a document, one on
each line.
-/
import TracedTransfer.Toml.Document
import TracedTransfer.Toml.Number
import TracedTransfer.Toml.Quoted

namespace TracedTransfer.Toml

open Text

-- ================================================================ keys

/-- Whether a character may stand in a key without quotes. -/
def isBare (c : Char) : Bool := c.isAlphanum || c = '-' || c = '_'

/-- One part of a key. -/
def readKeyPart (s : List Char) : Option (String × List Char) :=
  match s with
  | '"' :: rest => readBasic (rest.length + 1) [] rest
  | '\'' :: rest => readLiteral rest
  | _ =>
    let front := s.takeWhile isBare
    if front.isEmpty then none else some (String.ofList front, s.dropWhile isBare)

/-- The parts of a key between points, with the separators around them. -/
def readKeyParts : Nat → List Char → Option (List String × List Char)
  | 0, _ => none
  | fuel + 1, s => do
    let (part, rest) ← readKeyPart (skipSeparators s)
    match skipSeparators rest with
    | '.' :: rest => do
      let (parts, rest) ← readKeyParts fuel rest
      return (part :: parts, rest)
    | rest => return ([part], rest)

/-- A key: the parts before the last, and the last. -/
def readKey (s : List Char) : Option ((List String × String) × List Char) := do
  let (parts, rest) ← readKeyParts (s.length + 1) s
  if maxDepth ≤ parts.length then none
  else return ((parts.dropLast, ← parts.getLast?), rest)

-- ============================================================== values

/-- A number, a date or a time. -/
def readNumber (s : List Char) : Option (Toml × List Char) :=
  match readDatetime s with
  | some (t, rest) => some (.datetime t, rest)
  | none =>
    match readFloat s with
    | some (x, rest) => some (.float x, rest)
    | none => (readInteger s).map fun (n, rest) => (.integer n, rest)

/-- A value that starts with neither a bracket nor a brace. -/
def readScalar (s : List Char) : Option (Toml × List Char) :=
  match s with
  | [] => none
  | c :: _ =>
    if c = '"' || c = '\'' then (readQuoted s).map fun (t, rest) => (.string t, rest)
    else if c = 't' then (stripStart? "true".toList s).map fun rest => (.boolean true, rest)
    else if c = 'f' then (stripStart? "false".toList s).map fun rest => (.boolean false, rest)
    else readNumber s

mutual

/-- A value at the front of a text, inside `depth` others. -/
def readValue : Nat → Nat → List Char → Option (Toml × List Char)
  | 0, _, _ => none
  | fuel + 1, depth, s =>
    match s with
    | '[' :: rest =>
      if maxDepth ≤ depth + 1 then none
      else (readItems fuel (depth + 1) [] rest).map fun (vs, rest) => (.array vs, rest)
    | '\x7b' :: rest =>
      if maxDepth ≤ depth + 1 then none
      else
        match skipSeparators rest with
        | '\x7d' :: rest => some (.table [], rest)
        | _ => do
          let (es, rest) ← readEntries fuel (depth + 1) [] rest
          return (← inlineTable es, rest)
    | _ => readScalar s

/-- Items up to the closing bracket. `acc` is what has been read, the last item first. -/
def readItems : Nat → Nat → List Toml → List Char → Option (List Toml × List Char)
  | 0, _, _, _ => none
  | fuel + 1, depth, acc, s =>
    match skipLines s.length s with
    | ']' :: rest => some (acc.reverse, rest)
    | s => do
      let (v, rest) ← readValue fuel depth s
      match skipLines rest.length rest with
      | ',' :: rest => readItems fuel depth (v :: acc) rest
      | ']' :: rest => some ((v :: acc).reverse, rest)
      | _ => none

/-- Entries up to the closing brace. `acc` is what has been read, the last entry first. -/
def readEntries : Nat → Nat → List (List String × String × Toml) → List Char →
    Option ((List (List String × String × Toml)) × List Char)
  | 0, _, _, _ => none
  | fuel + 1, depth, acc, s => do
    let ((path, key), rest) ← readKey s
    let rest ← stripStart? ['='] rest
    let (v, rest) ← readValue fuel depth (skipSeparators rest)
    match skipSeparators rest with
    | ',' :: rest => readEntries fuel depth ((path, key, v) :: acc) rest
    | '\x7d' :: rest => some (((path, key, v) :: acc).reverse, rest)
    | _ => none

end

-- ========================================================== statements

/-- A statement up to the end of its line. The line is not blank. -/
def readStatement (s : List Char) : Option (Statement × List Char) :=
  match s with
  | '[' :: '[' :: rest => do
    let ((path, key), rest) ← readKey rest
    return (.element path key, ← endLine (← stripStart? [']', ']'] rest))
  | '[' :: rest => do
    let ((path, key), rest) ← readKey rest
    return (.table path key, ← endLine (← stripStart? [']'] rest))
  | _ => do
    let ((path, key), rest) ← readKey s
    let (v, rest) ← readValue (s.length + 1) 0 (skipSeparators (← stripStart? ['='] rest))
    return (.entry path key v, ← endLine rest)

/-- The statements of a document. `acc` is what has been read, the last statement first. -/
def readStatements : Nat → List Statement → List Char → Option (List Statement)
  | 0, _, _ => none
  | fuel + 1, acc, s =>
    let s := skipSeparators s
    if s.isEmpty then some acc.reverse
    else
      match endLine s with
      | some rest => readStatements fuel acc rest
      | none =>
        match readStatement s with
        | some (statement, rest) => readStatements fuel (statement :: acc) rest
        | none => none

/-- A mark at the beginning of a text that does not belong to it. -/
def byteOrderMark : Char := '\ufeff'

/-- The statements of a text. -/
def statements? (s : List Char) : Option (List Statement) :=
  let s := (stripStart? [byteOrderMark] s).getD s
  readStatements (s.length + 1) [] s

/-- The entries of the table that a text describes, unless it is not TOML. -/
def parse (s : String) : Option (List (String × Toml)) := (statements? s.toList).bind ofStatements

end TracedTransfer.Toml
