/-
Paths of URLs. A path is built segment by segment onto a text that is
empty or starts with a slash: `.` disappears, `..` takes the segment
before it away, anything else is percent-encoded and appended.

File paths know drive letters (`c:`): one at the beginning is written
with a colon, is never taken away, and makes the host disappear.
-/
import TracedTransfer.Url.Basic

namespace TracedTransfer.Url

open Text

-- ====================================================== drive letters

/-- Two characters that are a letter and `:` or `|`. -/
def isDriveLetter : List Char → Bool
  | [a, b] => a.isAlpha && (b = ':' || b = '|')
  | _ => false

/-- A letter and a colon. -/
def isNormalDriveLetter : List Char → Bool
  | [a, b] => a.isAlpha && b = ':'
  | _ => false

/-- Whether a text starts with a drive letter that is a whole segment. -/
def startsWithDriveLetter (s : List Char) : Bool :=
  isDriveLetter (s.take 2)
    && (match s.drop 2 with
        | [] => true
        | c :: _ => c ∈ ['/', '\\', '?', '#'])

-- =========================================================== segments

/-- What follows the last slash of a path. -/
def lastPart (p : List Char) : List Char := (p.reverse.takeWhile (· ≠ '/')).reverse

/-- A path up to its last slash. -/
def throughLastSlash (p : List Char) : List Char := (p.reverse.dropWhile (· ≠ '/')).reverse

/-- Whether a path ends in a slash. -/
def endsInSlash (p : List Char) : Bool := p.getLast? = some '/'

/-- Takes what follows the last slash away, a drive letter apart. -/
def popSegment (kind : SchemeKind) (p : List Char) : List Char :=
  if kind = .file && isNormalDriveLetter (lastPart p) then p else throughLastSlash p

/-- Whether the final slash of a path may go with the segment before it: there is another slash,
and no drive letter stands between the two. -/
def finalSlashCanGo (p : List Char) : Bool :=
  let front := throughLastSlash p.dropLast
  !front.isEmpty && !startsWithDriveLetter (p.drop front.length)

/-- A path without its last segment, for a `..` that follows it. -/
def goUp (kind : SchemeKind) (p : List Char) : List Char :=
  popSegment kind (if endsInSlash p && finalSlashCanGo p then p.dropLast else p)

/-- The spellings of a segment that stays where it is. -/
def isSingleDot (seg : List Char) : Bool :=
  seg.map Char.toLower ∈ [".".toList, "%2e".toList]

/-- The spellings of a segment that goes up. -/
def isDoubleDot (seg : List Char) : Bool :=
  seg.map Char.toLower ∈ ["..".toList, "%2e%2e".toList, "%2e.".toList, ".%2e".toList]

/-- A path being built. -/
structure PathState where
  text : List Char
  /-- Whether a drive letter stood at the beginning. -/
  drive : Bool
deriving DecidableEq, Repr

/-- Appends an encoded segment, and a slash if it was closed by one. -/
def PathState.push (kind : SchemeKind) (st : PathState) (seg : List Char) (closed : Bool) :
    PathState :=
  let slash := if closed then ['/'] else []
  let p :=
    if kind = .file && !seg.isEmpty && isNormalDriveLetter (st.text.drop 1) then st.text ++ ['/']
    else st.text
  if isDoubleDot seg then
    let p := goUp kind p
    { st with text := if closed && !endsInSlash p then p ++ ['/'] else p }
  else if isSingleDot seg then
    { st with text := if endsInSlash p then p else p ++ ['/'] }
  else if kind = .file && p.length = 1 && isDriveLetter seg then
    ⟨p ++ seg.take 1 ++ [':'] ++ slash, true⟩
  else { st with text := p ++ seg ++ slash }

/-- Whether a character ends a segment. -/
def isSeparator (kind : SchemeKind) (c : Char) : Bool :=
  c = '/' || (kind ≠ .other && c = '\\')

/-- Whether a character ends a path. -/
def endsPath (c : Char) : Bool := c = '?' || c = '#'

/-- Reads segments until the path ends; the rest starts with the character that ended it. `seg` is
the segment read so far, last character first. -/
def PathState.readSegments (kind : SchemeKind) (st : PathState) (seg : List Char) :
    List Char → PathState × List Char
  | [] => (st.push kind (percentEncode EncodeSet.path seg.reverse) false, [])
  | c :: rest =>
    if endsPath c then
      (st.push kind (percentEncode EncodeSet.path seg.reverse) false, c :: rest)
    else if isSeparator kind c then
      readSegments kind (st.push kind (percentEncode EncodeSet.path seg.reverse) true) [] rest
    else readSegments kind st (c :: seg) rest

/-- The path of a file starts with one slash. -/
def PathState.close (kind : SchemeKind) (st : PathState) : PathState :=
  if kind = .file then { st with text := '/' :: st.text.dropWhile (· = '/') } else st

/-- Reads a path onto a given beginning. -/
def readPath (kind : SchemeKind) (start : List Char) (input : List Char) : PathState × List Char :=
  let (st, rest) := PathState.readSegments kind ⟨start, false⟩ [] input
  (st.close kind, rest)

/-- Reads the path that follows an authority. The path of a special scheme starts with a slash
even if none is written. -/
def readPathStart (kind : SchemeKind) (input : List Char) : PathState × List Char :=
  if kind ≠ .other then
    match input with
    | c :: rest => if c = '/' || c = '\\' then readPath kind ['/'] rest else readPath kind ['/'] input
    | [] => readPath kind ['/'] []
  else
    match input with
    | [] => (⟨[], false⟩, [])
    | c :: _ =>
      if endsPath c then (⟨[], false⟩, input)
      else if c = '/' then readPath kind [] input
      else readPath kind ['/'] input

/-- An opaque path, up to where it ends. -/
def readOpaquePath (input : List Char) : List Char × List Char :=
  (percentEncode EncodeSet.controls (input.takeWhile (!endsPath ·)), input.dropWhile (!endsPath ·))

/-- The URL with another path, read by the rules of its scheme. -/
def setPath (u : Url) (p : List Char) : Url :=
  if u.isOpaque then
    match stripStart? ['/'] p with
    | some rest => { u with path := "%2F".toList ++ percentEncode EncodeSet.controls rest }
    | none => { u with path := percentEncode EncodeSet.controls p }
  else if u.kind = .file && u.host?.isNone then
    { u with path := (readPath .file [] p).1.text }
  else { u with path := (readPathStart u.kind p).1.text }

end TracedTransfer.Url
