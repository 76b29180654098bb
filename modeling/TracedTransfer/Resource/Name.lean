/-
Names of resources: absolute URLs with the forms in which they are
shown. A name is a directory for the paths resolved against it. User
name and password belong to the name but are never shown.
-/
import TracedTransfer.Url.Parser

namespace TracedTransfer.Resource

open Text

/-- The name of a resource. -/
structure Name where
  url : Url
deriving DecidableEq, Repr

namespace Name

/-- Reads a name from an absolute URL. -/
def parse (s : String) : Except Url.Error Name := (Url.parse s).map Name.mk

/-- The name as a directory: its path ends in a slash. -/
def directory (n : Name) : Url :=
  if Url.endsInSlash n.url.path then n.url else n.url.setPath (n.url.path ++ ['/'])

/-- The name of a path below this one. Slashes at the beginning of the path do not count. -/
def resolve (n : Name) (path : String) : Except Url.Error Name :=
  (n.directory.join (String.ofList (path.toList.dropWhile (· = '/')))).map Name.mk

/-- The name as a transport uses it. -/
def location (n : Name) : String := n.url.text

/-- The name as it is shown. -/
def displayName (n : Name) : String := n.url.withoutCredentials.text

/-- The last part of the path, or the whole name if the path has none. -/
def shortDisplayName (n : Name) : String :=
  match n.url.lastSegment? with
  | some s => String.ofList s
  | none => n.displayName

end Name

end TracedTransfer.Resource
