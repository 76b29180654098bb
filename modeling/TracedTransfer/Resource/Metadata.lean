/-
What is known of a resource without reading its content, and how the
header lines of a response give it. Each field is decided by the last
line that bears its name; other lines do not count.
-/
import TracedTransfer.Resource.Name

namespace TracedTransfer.Resource

open Text

/-- What is known of a resource without reading its content. -/
structure Metadata where
  location : Url
  lastModified : Option String
  contentLength : Option Nat
  contentType : Option String
  /-- The entity tag without the mark of weakness and the quotes. -/
  etag : Option String
  /-- The published SHA-1 in lower case. -/
  sha1 : Option String
deriving DecidableEq, Repr

/-- The header fields that metadata are read from. -/
inductive HeaderField where
  | contentLength
  | lastModified
  | contentType
  | etag
  | sha1
deriving DecidableEq, Repr

namespace HeaderField

/-- All fields. -/
def all : List HeaderField := [.contentLength, .lastModified, .contentType, .etag, .sha1]

/-- The name of a field in lower case. -/
def name : HeaderField → List Char
  | .contentLength => "content-length".toList
  | .lastModified => "last-modified".toList
  | .contentType => "content-type".toList
  | .etag => "etag".toList
  | .sha1 => "x-checksum-sha1".toList

/-- The field with a name, in any case of letters. -/
def ofName? (s : List Char) : Option HeaderField :=
  all.find? fun f => equalIgnoringCase s f.name

end HeaderField

/-- Name and value of a header line, both without blanks at their ends. -/
def splitHeader (line : List Char) : Option (List Char × List Char) :=
  (splitOnce ':' (trim line)).map fun (n, v) => (trim n, trim v)

/-- The field that a line bears, with its value. -/
def headerOf (line : String) : Option (HeaderField × List Char) :=
  (splitHeader line.toList).bind fun (n, v) => (HeaderField.ofName? n).map fun f => (f, v)

/-- An entity tag without the mark of weakness and the quotes at its ends. -/
def bareTag (v : List Char) : List Char :=
  trimMatches (· = '"') ((stripStart? ['W', '/'] v).getD v)

namespace Metadata

/-- Metadata of which only the location is known. -/
def ofLocation (location : Url) : Metadata := ⟨location, none, none, none, none, none⟩

/-- Metadata of a resource of known length. -/
def ofLength (location : Url) (length : Nat) : Metadata :=
  { ofLocation location with contentLength := some length }

/-- The metadata after a header with a field and a value. An empty checksum does not count. -/
def set (m : Metadata) (f : HeaderField) (v : List Char) : Metadata :=
  match f with
  | .contentLength => { m with contentLength := unsigned? u64Bound v }
  | .lastModified => { m with lastModified := some (String.ofList v) }
  | .contentType => { m with contentType := some (String.ofList v) }
  | .etag => { m with etag := some (String.ofList (bareTag v)) }
  | .sha1 => if v.isEmpty then m else { m with sha1 := some (String.ofList (v.map Char.toLower)) }

/-- The metadata after one header line. -/
def addLine (m : Metadata) (line : String) : Metadata :=
  match headerOf line with
  | some (f, v) => m.set f v
  | none => m

/-- The metadata that header lines give. -/
def ofHeaders (location : Url) (lines : List String) : Metadata :=
  lines.foldl addLine (ofLocation location)

end Metadata

end TracedTransfer.Resource
