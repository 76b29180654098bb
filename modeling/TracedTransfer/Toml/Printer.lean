/-
Writing TOML: one statement on a line, a blank line before each header.
-/
import TracedTransfer.Json.Writer
import TracedTransfer.Toml.Reader

namespace TracedTransfer.Toml

open Text

/-- One part of a key: bare if it can be, in quotes if not. -/
def keyPartText (k : String) : List Char :=
  if !k.isEmpty && k.toList.all isBare then k.toList else (Style.ofKey k.toList).write k.toList

/-- The parts of a key between points. -/
def keyText (path : List String) (key : String) : List Char :=
  path.flatMap (fun k => keyPartText k ++ ['.']) ++ keyPartText key

/-- A floating-point number. -/
def floatText : Binary64 → List Char
  | .infinite negative => (if negative then ['-'] else []) ++ "inf".toList
  | .nan => "nan".toList
  | x => Json.floatText x

mutual

/-- The text of a value, on one line. -/
def valueText : Toml → List Char
  | .string s => quoted s
  | .integer n => Json.intText n
  | .float x => floatText x
  | .boolean true => "true".toList
  | .boolean false => "false".toList
  | .datetime t => t.toList
  | .array items => '[' :: itemsText items ++ [']']
  | .table es => '\x7b' :: entriesText es ++ ['\x7d']

/-- Items between commas. -/
def itemsText : List Toml → List Char
  | [] => []
  | [v] => valueText v
  | v :: rest => valueText v ++ ',' :: ' ' :: itemsText rest

/-- Entries between commas. -/
def entriesText : List (String × Toml) → List Char
  | [] => []
  | [(k, v)] => keyPartText k ++ ' ' :: '=' :: ' ' :: valueText v
  | (k, v) :: rest =>
    keyPartText k ++ ' ' :: '=' :: ' ' :: (valueText v ++ ',' :: ' ' :: entriesText rest)

end

/-- The text of a statement with the end of its line. -/
def Statement.text : Statement → List Char
  | .entry path key v => keyText path key ++ ' ' :: '=' :: ' ' :: valueText v ++ ['\n']
  | .table path key => '\n' :: '[' :: keyText path key ++ [']', '\n']
  | .element path key => '\n' :: '[' :: '[' :: keyText path key ++ [']', ']', '\n']

/-- The text of a document. -/
def printStatements (statements : List Statement) : List Char := statements.flatMap Statement.text

end TracedTransfer.Toml
