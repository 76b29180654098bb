/-
Reading URLs and references. A text with a scheme is a URL of its own,
except that a special scheme equal to the base's may be followed by a
relative reference; a text without one is read relative to a base.

The reading goes from left to right: scheme, authority, path, query,
fragment. Each function takes what is left of the text and ends the URL.
-/
import TracedTransfer.Url.Path

namespace TracedTransfer.Url

open Text

-- ============================================================= pieces

/-- A text as it is read: without control characters and blanks at its ends, and without tabs and
line ends anywhere. -/
def clean (s : List Char) : List Char :=
  (trimMatches (fun c => c.toNat ≤ 0x20) s).filter fun c => c ≠ '\t' && c ≠ '\n' && c ≠ '\r'

/-- Whether a character may follow the first letter of a scheme. -/
def isSchemeChar (c : Char) : Bool := c.isAlphanum || c = '+' || c = '-' || c = '.'

/-- The scheme of a text in lower case, and what follows its colon. -/
def splitScheme? (s : List Char) : Option (List Char × List Char) :=
  match s with
  | [] => none
  | c :: _ =>
    if c.isAlpha then
      match s.dropWhile isSchemeChar with
      | ':' :: rest => some ((s.takeWhile isSchemeChar).map Char.toLower, rest)
      | _ => none
    else none

/-- Reads query and fragment, whose marks start them. -/
def readTail (kind : SchemeKind) (s : List Char) : Option (List Char) × Option (List Char) :=
  let set := if kind = .other then EncodeSet.query else EncodeSet.specialQuery
  match s with
  | '?' :: rest =>
    match splitOnce '#' rest with
    | some (q, f) => (some (percentEncode set q), some (percentEncode EncodeSet.fragment f))
    | none => (some (percentEncode set rest), none)
  | '#' :: f => (none, some (percentEncode EncodeSet.fragment f))
  | _ => (none, none)

/-- A URL from its front and a text with its query and fragment. -/
def ofParts (scheme : List Char) (authority : Option Authority) (path rest : List Char) : Url :=
  let tail := readTail (schemeKind scheme) rest
  ⟨scheme, authority, path, tail.1, tail.2⟩

-- ========================================================== authority

/-- Whether a character ends an authority. -/
def endsAuthority (kind : SchemeKind) (c : Char) : Bool :=
  c = '/' || c = '?' || c = '#' || (kind ≠ .other && c = '\\')

/-- The parts before and after the last at sign. -/
def splitUserInfo (s : List Char) : Option (List Char × List Char) :=
  (splitOnce '@' s.reverse).map fun (after, before) => (before.reverse, after.reverse)

/-- User name and password of a text between the slashes and the at sign. -/
def readUserInfo (s : List Char) : List Char × List Char :=
  match splitOnce ':' s with
  | some (u, p) => (percentEncode EncodeSet.userinfo u, percentEncode EncodeSet.userinfo p)
  | none => (percentEncode EncodeSet.userinfo s, [])

/-- Splits host and port at the first colon outside brackets. -/
def splitPort (inBrackets : Bool) : List Char → List Char × Option (List Char)
  | [] => ([], none)
  | c :: rest =>
    if c = ':' && !inBrackets then ([], some rest)
    else
      let inside := if c = '[' then true else if c = ']' then false else inBrackets
      let (host, port) := splitPort inside rest
      (c :: host, port)

/-- Reads a port and returns what follows it, which must be nothing or a backslash. -/
def readPort (scheme s : List Char) : Except Error (Option Nat × List Char) :=
  let digits := s.takeWhile Char.isDigit
  let rest := s.dropWhile Char.isDigit
  let n := (ofDigits? 10 digits).getD 0
  if 65535 < n then .error .invalidPort
  else if rest.head?.any (· ≠ '\\') then .error .invalidPort
  else if digits.isEmpty || defaultPort? scheme = some n then .ok (none, rest)
  else .ok (some n, rest)

/-- Reads the host of an authority. -/
def readHost (kind : SchemeKind) (s : List Char) : Except Error (Option Host) :=
  if kind = .other then Host.parseOpaque s
  else if s.isEmpty then .error .emptyHost
  else (Host.parse s).map some

/-- Reads host and port. Returns what follows them. -/
def readServer (scheme s : List Char) :
    Except Error (Option Host × Option Nat × List Char) := do
  let (hostText, portText) := splitPort false s
  let host ← readHost (schemeKind scheme) hostText
  match portText with
  | none => return (host, none, [])
  | some p =>
    if host.isNone then .error .emptyHost
    else
      let (port, rest) ← readPort scheme p
      return (host, port, rest)

/-- Reads an authority, which is not followed by anything that belongs to it. -/
def readAuthority (scheme s : List Char) (isLast : Bool) :
    Except Error (Authority × List Char) := do
  let (info, server) :=
    match splitUserInfo s with
    | some (info, server) => (some info, server)
    | none => (none, s)
  if info = some [] && server.isEmpty && !isLast then .error .emptyHost
  else
    let (username, password) := readUserInfo (info.getD [])
    let (host, port, rest) ← readServer scheme server
    let authority : Authority := ⟨username, password, host, port⟩
    if host.isNone && authority.hasCredentials then .error .emptyHost
    else return (authority, rest)

/-- A URL of a scheme, from what follows its two slashes. -/
def afterSlashes (scheme s : List Char) : Except Error Url := do
  let kind := schemeKind scheme
  let front := s.takeWhile (!endsAuthority kind ·)
  let back := s.dropWhile (!endsAuthority kind ·)
  let (authority, rest) ← readAuthority scheme front back.isEmpty
  let (path, tail) := readPathStart kind (rest ++ back)
  return ofParts scheme (some authority) path.text tail

-- ================================================= relative references

/-- The base with another fragment. -/
def withFragment (base : Url) (s : List Char) : Url :=
  { base with fragment := some (percentEncode EncodeSet.fragment s) }

/-- The base with the query and fragment of a reference that starts with a question mark. -/
def withTail (base : Url) (s : List Char) : Url :=
  ofParts base.scheme base.authority base.path s

/-- The base with a path read onto a beginning. -/
def withPath (base : Url) (start s : List Char) : Url :=
  let (path, tail) := readPath base.kind start s
  ofParts base.scheme base.authority path.text tail

/-- How many slashes of either kind a text starts with. -/
def leadingSlashes (s : List Char) : Nat := (s.takeWhile fun c => c = '/' || c = '\\').length

/-- A relative reference to a base that is no file. -/
def relative (base : Url) (s : List Char) : Except Error Url :=
  match s with
  | [] => .ok { base with fragment := none }
  | '?' :: _ => .ok (withTail base s)
  | '#' :: rest => .ok (withFragment base rest)
  | c :: rest =>
    if c = '/' || c = '\\' then
      let n := leadingSlashes s
      if 2 ≤ n then
        match stripStart? ['/', '/'] s with
        | some after => afterSlashes base.scheme after
        | none => afterSlashes base.scheme (s.drop n)
      else .ok (withPath base ['/'] rest)
    else
      let start := throughLastSlash base.path
      .ok (withPath base (if start.isEmpty then ['/'] else start) s)

-- ============================================================== files

/-- A file URL from a path read onto a beginning. -/
def fileOf (host : Option Host) (start s : List Char) : Url :=
  let (path, tail) := readPath .file start s
  ofParts "file".toList (some (Authority.ofHost host)) path.text tail

/-- Whether a host means this machine. -/
def isLocalHost (host : Host) : Bool := host = .named "localhost".toList

/-- A file URL from what follows its two slashes. A drive letter in the place of the host is the
beginning of the path; one at the beginning of the path takes the host away. -/
def fileAfterSlashes (s : List Char) : Except Error Url := do
  let ends := fun c => c = '/' || c = '\\' || c = '?' || c = '#'
  let hostText := s.takeWhile (!ends ·)
  let rest := s.dropWhile (!ends ·)
  if isDriveLetter hostText then return fileOf none ['/'] s
  else if hostText.isEmpty then return fileOf none ['/'] rest
  else
    let host ← Host.parse hostText
    if isLocalHost host then return fileOf none ['/'] rest
    else
      let (path, tail) := readPathStart .file rest
      let shown := if path.drive then none else some host
      return ofParts "file".toList (some (Authority.ofHost shown)) path.text tail

/-- A file URL from a text that starts with one slash, which is given too. A base lends its drive
letter, or its host. -/
def fileAfterSlash (base : Option Url) (s : List Char) : Url :=
  if startsWithDriveLetter (s.drop 1) then fileOf none [] s
  else
    match base with
    | none => fileOf none [] s
    | some b =>
      let first := ((b.segments?).bind List.head?).getD []
      if isNormalDriveLetter first then fileOf none ('/' :: first) s
      else fileOf b.host? [] s

/-- A reference to a file, with the base if that is a file too. -/
def readFileUrl (base : Option Url) (s : List Char) : Except Error Url :=
  let isSlash := fun c => c = '/' || c = '\\'
  match s with
  | a :: b :: rest =>
    if isSlash a && isSlash b then fileAfterSlashes rest
    else if isSlash a then .ok (fileAfterSlash base s)
    else fileReference base s
  | [a] => if isSlash a then .ok (fileAfterSlash base s) else fileReference base s
  | [] => fileReference base s
where
  /-- A reference that does not start with a slash. -/
  fileReference (base : Option Url) (s : List Char) : Except Error Url :=
    match base with
    | none => .ok (fileOf none ['/'] s)
    | some b =>
      match s with
      | [] => .ok { b with fragment := none }
      | '?' :: _ => .ok (withTail b s)
      | '#' :: rest => .ok (withFragment b rest)
      | _ =>
        if startsWithDriveLetter s then .ok (fileOf none ['/'] s)
        else .ok (withPath b (popSegment .file b.path) s)

-- ============================================================ reading

/-- A URL from its scheme and what follows the colon. -/
def readAfterScheme (base : Option Url) (scheme s : List Char) : Except Error Url :=
  match schemeKind scheme with
  | .file => readFileUrl (base.filter fun b => b.scheme = scheme) s
  | .special =>
    let n := leadingSlashes s
    match base.filter fun b => b.scheme = scheme && n < 2 with
    | some b => relative b s
    | none => afterSlashes scheme (s.drop n)
  | .other =>
    match stripStart? ['/', '/'] s with
    | some rest => afterSlashes scheme rest
    | none =>
      match stripStart? ['/'] s with
      | some rest =>
        let (path, tail) := readPath .other ['/'] rest
        .ok (ofParts scheme none path.text tail)
      | none =>
        let (path, tail) := readOpaquePath s
        .ok (ofParts scheme none path tail)

/-- Reads a text that has no scheme. -/
def readReference (base : Option Url) (s : List Char) : Except Error Url :=
  match base with
  | none => .error .relativeWithoutBase
  | some b =>
    match s with
    | '#' :: rest => .ok (withFragment b rest)
    | _ =>
      if b.isOpaque then .error .relativeToOpaque
      else if b.kind = .file then readFileUrl (some b) s
      else relative b s

/-- Reads a cleaned text, relative to a base if there is one. -/
def read (base : Option Url) (s : List Char) : Except Error Url :=
  match splitScheme? s with
  | some (scheme, rest) => readAfterScheme base scheme rest
  | none => readReference base s

/-- Reads an absolute URL. -/
def parse (s : String) : Except Error Url := read none (clean s.toList)

/-- Reads a reference relative to a URL. -/
def join (base : Url) (s : String) : Except Error Url := read (some base) (clean s.toList)

end TracedTransfer.Url
