/-
Where redirects lead. A location is read more literally than a URL is
elsewhere: blanks and what is not ASCII are written out, segments of dots
are taken out of the path, and everything else is asked for as it stands.

A location without a scheme keeps the scheme of the URL that answered
with it. One that names no server keeps the server too, and its user.
-/
import TracedTransfer.Http.Failure
import TracedTransfer.Url.Parser

namespace TracedTransfer.Http

open Text

namespace Location

/-- A text with its blanks written as something else. -/
def withBlanksAs (blank s : List Char) : List Char :=
  s.flatMap fun c => if c = ' ' then blank else [c]

/-- The segments of a path without those made of dots, after the ones above, the last of them
first. Dots at the end leave the slash before them. -/
def withoutDots (above : List (List Char)) : List (List Char) → List (List Char)
  | [] => above.reverse
  | segment :: rest =>
    if Url.isSingleDot segment then
      if rest.isEmpty then ([] :: above).reverse else withoutDots above rest
    else if Url.isDoubleDot segment then
      if rest.isEmpty then ([] :: above.drop 1).reverse else withoutDots (above.drop 1) rest
    else withoutDots (segment :: above) rest

/-- A path as it is asked for. -/
def readPath (s : List Char) : List Char :=
  '/' :: ['/'].intercalate (withoutDots [] (((withBlanksAs "%20".toList s).splitOn '/').drop 1))

/-- A query as it is asked for. -/
def readQuery (s : List Char) : List Char := withBlanksAs ['+'] s

/-- The URL with the path and query of a location, the path read onto a beginning. -/
def onto (u : Url) (start s : List Char) : Url :=
  match splitOnce '?' (s.takeWhile (· ≠ '#')) with
  | some (p, q) =>
    { u with path := readPath (start ++ p), query := some (readQuery q), fragment := none }
  | none =>
    { u with path := readPath (start ++ s.takeWhile (· ≠ '#')), query := none, fragment := none }

/-- Where a location leads that names no server. -/
def onSameServer (u : Url) (s : List Char) : Url :=
  match s with
  | '#' :: _ => { u with fragment := none }
  | '?' :: rest =>
    { u with query := some (readQuery (rest.takeWhile (· ≠ '#'))), fragment := none }
  | '/' :: _ => onto u [] s
  | _ => onto u (Url.throughLastSlash u.path) s

/-- The client cannot make sense of a location. -/
def malformed : Failure := .badTarget "Malformed input to a URL function"

/-- Where a location leads, from what follows the slashes before its server. -/
def onServer (scheme s : List Char) : Except Failure Url :=
  let server := s.takeWhile (!Url.endsAuthority .other ·)
  if '\\' ∈ server then .error malformed
  else
    match Url.afterSlashes scheme server with
    | .error _ => .error malformed
    | .ok u => .ok (onto u [] (s.dropWhile (!Url.endsAuthority .other ·)))

/-- Where a location leads that has a scheme, from what follows the colon. -/
def ofScheme (scheme s : List Char) : Except Failure Url :=
  if scheme = "http".toList || scheme = "https".toList then
    let slashes := (s.takeWhile (· = '/')).length
    if 1 ≤ slashes && slashes ≤ 3 then onServer scheme (s.drop slashes)
    else .error (.badTarget "Unsupported number of slashes following scheme")
  else .error (.otherScheme (String.ofList scheme))

/-- Where a text leads from a URL. -/
def read (u : Url) (s : List Char) : Except Failure Url :=
  match Url.splitScheme? s with
  | some (scheme, rest) => ofScheme scheme rest
  | none =>
    match stripStart? ['/', '/'] s with
    | some rest => onServer u.scheme rest
    | none => .ok (onSameServer u s)

end Location

/-- Where a redirect leads from a URL. A location with control characters leads nowhere. -/
def redirectTarget (u : Url) (location : Bytes) : Except Failure Url :=
  if location.any fun b => b < 0x20 || b = 0x7f then .error Location.malformed
  else Location.read u (Url.percentEncodeBytes Url.EncodeSet.controls location)

end TracedTransfer.Http
