/-
Host names in ASCII. Each character of a name is mapped (letters to
lower case, compatibility forms to plain ones), the text is put into
canonical form and cut at dots. A label with characters outside ASCII
becomes `xn--` and its Punycode, after the checks on wide labels; a
label that comes as `xn--` must decode to a label that passes the same
checks. In the end no forbidden ASCII character may be left.
-/
import TracedTransfer.Unicode.Composition
import TracedTransfer.Unicode.DomainMapping
import TracedTransfer.Url.Punycode

namespace TracedTransfer.Url.Domain

open Text Unicode

/-- Whether a text is ASCII. -/
def isAscii (s : List Char) : Bool := s.all fun c => c.toNat < 0x80

/-- ASCII characters that no host name may hold. -/
def isForbidden (c : Char) : Bool :=
  c.toNat ≤ 0x20 || c.toNat = 0x7f
    || c ∈ ['%', '#', '/', ':', '<', '>', '?', '@', '[', '\\', ']', '^', '|']

/-- What a character of a name turns into. -/
def mapChar (c : Char) : Option (List Char) :=
  if c.toNat < 0x80 then some [c.toLower]
  else
    match appearance c with
    | .stays => some [c]
    | .vanishes => some []
    | .becomes text => some text
    | .forbidden => none

/-- A name with every character mapped; `none` if one may not appear. -/
def mapName : List Char → Option (List Char)
  | [] => some []
  | c :: rest => do
    let here ← mapChar c
    let tail ← mapName rest
    return here ++ tail

-- ======================================================== wide labels

/-- Whether a zero-width joiner or non-joiner after `before` (last character first) and in front
of `after` is in its place. -/
def joinerAllowed (joiner : Char) (before after : List Char) : Bool :=
  match before with
  | [] => false
  | c :: _ =>
    isVirama c
      || (joiner = '\u200c'
        && (match before.dropWhile joinsThrough.contains with
            | [] => false
            | c :: _ => joinsNext.contains c || joinsBoth.contains c)
        && (match after.dropWhile joinsThrough.contains with
            | [] => false
            | c :: _ => joinsPrevious.contains c || joinsBoth.contains c))

/-- Whether every joiner of a label is in its place. -/
def joinersAllowed (before : List Char) : List Char → Bool
  | [] => true
  | c :: rest =>
    (if c = '\u200c' || c = '\u200d' then joinerAllowed c before rest else true)
      && joinersAllowed (c :: before) rest

/-- Whether a character may stand in a wide label: it would be mapped to itself. -/
def mapsToItself (c : Char) : Bool := mapChar c = some [c]

/-- The checks on a label with characters outside ASCII: every character stands for itself, the
text is in canonical form, does not start with a mark and has its joiners in place. -/
def isWideLabel (s : List Char) : Bool :=
  !isAscii s && s.all mapsToItself && canonical s = s
    && (match s with
        | [] => false
        | c :: _ => !marks.contains c)
    && joinersAllowed [] s

/-- Longest wide label that is written. -/
def maxWritten : Nat := 1000

/-- Longest written label that is read. -/
def maxRead : Nat := 2000

/-- What stands before the Punycode of a label. -/
def wideMark : List Char := "xn--".toList

/-- A label in ASCII, with the wide label it stands for. -/
structure Label where
  ascii : List Char
  wide : List Char

/-- The ASCII form of a mapped label. -/
def label? (s : List Char) : Option Label :=
  match stripStart? wideMark s with
  | some written =>
    if isAscii written && written.getLast? ≠ some '-' && written.length ≤ maxRead then do
      let wide ← Punycode.decode? written
      if isWideLabel wide then some ⟨s, wide⟩ else none
    else none
  | none =>
    if isAscii s then some ⟨s, s⟩
    else if isWideLabel s && s.length ≤ maxWritten then some ⟨wideMark ++ Punycode.encode s, s⟩
    else none

-- ========================================================== direction

/-- Whether a label makes the rule of direction apply to the whole name. -/
def hasRightToLeft (s : List Char) : Bool :=
  s.any fun c => direction c = .right || direction c = .arabicNumber

/-- The rule of direction for one label: it starts with a letter and runs one way, ends with a
letter or a digit under its marks, and has digits of one kind. -/
def runsOneWay (s : List Char) : Bool :=
  let ds := s.map direction
  let closing := ds.reverse.dropWhile (· = .nonspacing)
  match ds with
  | [] => true
  | .right :: _ =>
    ds.all (· ∈ [.right, .arabicNumber, .europeanNumber, .neutral, .nonspacing])
      && closing.head?.any (· ∈ [.right, .arabicNumber, .europeanNumber])
      && !(ds.contains .arabicNumber && ds.contains .europeanNumber)
  | .left :: _ =>
    ds.all (· ∈ [.left, .europeanNumber, .neutral, .nonspacing])
      && closing.head?.any (· ∈ [.left, .europeanNumber])
  | _ => false

-- ========================================================= whole name

/-- The ASCII form of a name, or `none` if it has none. -/
def toAscii? (s : List Char) : Option (List Char) := do
  let mapped ← mapName s
  let text := if isAscii mapped then mapped else canonical mapped
  let labels ← (text.splitOn '.').mapM label?
  let ascii := ['.'].intercalate (labels.map Label.ascii)
  let wide := labels.map Label.wide
  if ascii.any isForbidden then none
  else if !wide.all isAscii && wide.any hasRightToLeft && !wide.all runsOneWay then none
  else some ascii

end TracedTransfer.Url.Domain
