/-
File names for fetched resources: the last part of the path of a name,
decoded and made safe as a single component of a path.
-/
import TracedTransfer.Resource.Name

namespace TracedTransfer.Resource.Filename

open Text

/-- The longest file name in bytes. -/
def maxLength : Nat := 255

/-- The file name of a resource whose path gives none. -/
def default : String := "download.bin"

/-- Characters that do not stand in a file name: separators, blanks and control characters. -/
def isSeparator (c : Char) : Bool :=
  c ∈ ['\x00', '/', '\\', ' ', '\t'] || isControl c

/-- Writes every run of separators and underscores as one underscore. `after` says whether an
underscore has just been written. -/
def collapse (after : Bool) : List Char → List Char
  | [] => []
  | c :: rest =>
    if isSeparator c || c = '_' then
      if after then collapse true rest else '_' :: collapse true rest
    else c :: collapse false rest

/-- Characters that do not stand at the ends of a file name. -/
def isEdge (c : Char) : Bool := c = '.' || c = '_'

/-- A text without the separators inside and the characters that do not stand at its ends. -/
def trimmed (s : List Char) : List Char := trimMatches isEdge (collapse false s)

/-- A text cut to at most `n` bytes, in front of a character; `none` if there is no such place. -/
def cut? (n : Nat) (s : List Char) : Option (List Char) :=
  let bytes := Utf8.encode s
  (Utf8.boundary? bytes (min bytes.length n)).bind fun k => Utf8.decode? (bytes.take k)

/-- A text made usable as one component of a path. -/
def sanitizeChars (s : List Char) : List Char := (cut? maxLength (trimmed s)).getD []

/-- A text made usable as one component of a path. It may come out empty. -/
def sanitize (s : String) : String := String.ofList (sanitizeChars s.toList)

/-- The names of this directory and the one above. -/
def isDots (s : List Char) : Bool := s = ['.'] || s = ['.', '.']

/-- The decoded last part of the path of a URL. -/
def ofUrl? (u : Url) : Option String :=
  match u.lastSegment? with
  | none => none
  | some seg =>
    let decoded := Utf8.decodeLossy (Url.percentDecode seg)
    if decoded.isEmpty || isDots decoded then none else some (String.ofList decoded)

/-- The file name under which a resource is saved. -/
def ofName (n : Name) : String :=
  match ofUrl? n.url with
  | none => default
  | some raw =>
    let s := sanitizeChars raw.toList
    if s.isEmpty || isDots s then default else String.ofList s

end TracedTransfer.Resource.Filename
