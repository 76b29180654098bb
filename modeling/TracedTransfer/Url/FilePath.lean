/-
File paths and the URLs that name them. A path is a list of bytes; its
components stand between slashes, and empty and `.` components do not
count, `..` does. A URL without a host names the path that its segments
denote, whatever its scheme.
-/
import TracedTransfer.Url.Parser

namespace TracedTransfer

open Text

/-- A file path. -/
abbrev FilePath := Bytes

namespace FilePath

/-- The byte between components. -/
def slash : UInt8 := 0x2f

/-- Whether a path starts at the root. -/
def isAbsolute (p : FilePath) : Bool := p.head? = some slash

/-- A path as people read it. -/
def shown (p : FilePath) : String := String.ofList (Utf8.decodeLossy p)

/-- The components of a path that count. -/
def components (p : FilePath) : List Bytes :=
  (p.splitOn slash).filter fun c => !c.isEmpty && c ≠ [0x2e]

/-- The absolute path with given components. -/
def ofComponents (cs : List Bytes) : FilePath :=
  if cs.isEmpty then [slash] else cs.flatMap (slash :: ·)

/-- A path relative to a directory; an absolute path is its own. -/
def relativeTo (p dir : FilePath) : FilePath :=
  if isAbsolute p || dir.isEmpty then p
  else if dir.getLast? = some slash then dir ++ p
  else dir ++ slash :: p

end FilePath

namespace Url

/-- The URL of an absolute path. -/
def ofFilePath (p : FilePath) : Option Url :=
  if p.isAbsolute then
    let segments := p.components.map (percentEncodeBytes EncodeSet.pathSegment)
    let path := if segments.isEmpty then ['/'] else segments.flatMap ('/' :: ·)
    some ⟨"file".toList, some Authority.empty, path, none, none⟩
  else none

/-- Whether a path ends in a letter and `:` or `|`, after at least one other byte. -/
def endsInDriveLetter (p : FilePath) : Bool :=
  match p.reverse with
  | b :: a :: _ :: _ => (Char.ofNat a.toNat).isAlpha && (b = 0x3a || b = 0x7c)
  | _ => false

/-- The path that a URL without a foreign host names. A drive letter at its end is a directory. -/
def filePath? (u : Url) : Option FilePath :=
  match u.segments? with
  | none => none
  | some segments =>
    if u.host?.all isLocalHost then
      let p := segments.flatMap fun s => FilePath.slash :: percentDecode s
      some (if endsInDriveLetter p then p ++ [FilePath.slash] else p)
    else none

end Url

end TracedTransfer
