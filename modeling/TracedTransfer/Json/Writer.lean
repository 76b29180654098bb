/-
JSON text without blanks. In a string the quote, the backslash and the
control characters of C0 are escaped, five of them by letters; all else
stands bare. A floating-point number has the fewest digits that read
back; it is positional from 1e-5 up to below 1e16.
-/
import TracedTransfer.Json.Basic

namespace TracedTransfer.Json

open Text

/-- A character within a string. -/
def escapeChar (c : Char) : List Char :=
  if c = '"' then ['\\', '"']
  else if c = '\\' then ['\\', '\\']
  else if c = '\n' then ['\\', 'n']
  else if c = '\r' then ['\\', 'r']
  else if c = '\t' then ['\\', 't']
  else if c = '\x08' then ['\\', 'b']
  else if c = '\x0c' then ['\\', 'f']
  else if c.toNat < 0x20 then
    ['\\', 'u', '0', '0', hexDigit (c.toNat / 16), hexDigit (c.toNat % 16)]
  else [c]

/-- A string with its quotes. -/
def quoted (s : String) : List Char := '"' :: s.toList.flatMap escapeChar ++ ['"']

/-- A whole number. -/
def intText (n : Int) : List Char :=
  match n with
  | .ofNat k => decimal k
  | .negSucc k => '-' :: decimal (k + 1)

/-- Digits with the point in its place, or with an exponent. -/
def layOut (d : Binary64.Decimal) : List Char :=
  let ds := decimal d.digits
  let n : Int := ds.length
  let point := n + d.exponent
  if 0 ≤ d.exponent && point ≤ 16 then
    ds ++ List.replicate d.exponent.toNat '0' ++ ['.', '0']
  else if 0 < point && point ≤ 16 then ds.take point.toNat ++ '.' :: ds.drop point.toNat
  else if -5 < point && point ≤ 0 then
    ['0', '.'] ++ List.replicate (-point).toNat '0' ++ ds
  else
    let tail := ds.drop 1
    ds.take 1 ++ (if tail.isEmpty then [] else '.' :: tail) ++ 'e' :: intText (point - 1)

/-- A floating-point number; one that is not finite is null. -/
def floatText : Binary64 → List Char
  | .finite negative m q =>
    (if negative then ['-'] else [])
      ++ (if m = 0 then ['0', '.', '0'] else layOut (Binary64.digits m q))
  | _ => "null".toList

mutual

/-- The text of a value. -/
def text : Json → List Char
  | .null => "null".toList
  | .bool true => "true".toList
  | .bool false => "false".toList
  | .int n => intText n
  | .float x => floatText x
  | .str s => quoted s
  | .arr items => '[' :: itemsText items ++ [']']
  | .obj ms => '\x7b' :: membersText ms ++ ['\x7d']

/-- Items between commas. -/
def itemsText : List Json → List Char
  | [] => []
  | [j] => text j
  | j :: rest => text j ++ ',' :: itemsText rest

/-- Members between commas. -/
def membersText : List (String × Json) → List Char
  | [] => []
  | [(n, v)] => quoted n ++ ':' :: text v
  | (n, v) :: rest => quoted n ++ ':' :: (text v ++ ',' :: membersText rest)

end

/-- The text of a value as a string. -/
def render (j : Json) : String := String.ofList (text j)

end TracedTransfer.Json
