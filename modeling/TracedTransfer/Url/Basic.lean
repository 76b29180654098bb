/-
URLs as records, with the text that a record shows. Every part is held
in the form in which it is shown: percent-encoded, the scheme and the
domain in lower case, a default port left out.

A URL without an authority whose path does not start with a slash has an
opaque path: it cannot be a base.
-/
import TracedTransfer.Url.Host

namespace TracedTransfer

open Text

namespace Url

/-- What kind of rules a scheme follows. -/
inductive SchemeKind where
  | file
  /-- A scheme with a host and a default port. -/
  | special
  | other
deriving DecidableEq, Repr

/-- The schemes that have a default port, with it. -/
def defaultPort? (scheme : List Char) : Option Nat :=
  if scheme = "http".toList || scheme = "ws".toList then some 80
  else if scheme = "https".toList || scheme = "wss".toList then some 443
  else if scheme = "ftp".toList then some 21
  else none

/-- The rules of a scheme. -/
def schemeKind (scheme : List Char) : SchemeKind :=
  if scheme = "file".toList then .file
  else if (defaultPort? scheme).isSome then .special
  else .other

/-- Who serves a URL. -/
structure Authority where
  username : List Char
  /-- Empty when there is none. -/
  password : List Char
  /-- `none` for the empty host. -/
  host : Option Host
  /-- `none` for the default port of the scheme. -/
  port : Option Nat
deriving DecidableEq, Repr

namespace Authority

/-- The authority without a host. -/
def empty : Authority := ⟨[], [], none, none⟩

/-- The authority of a host alone. -/
def ofHost (host : Option Host) : Authority := ⟨[], [], host, none⟩

/-- Whether there is a user name or a password. -/
def hasCredentials (a : Authority) : Bool := !a.username.isEmpty || !a.password.isEmpty

/-- User name and password with the sign that ends them. -/
def userInfoText (a : Authority) : List Char :=
  if a.hasCredentials then
    a.username ++ (if a.password.isEmpty then [] else ':' :: a.password) ++ ['@']
  else []

/-- Host and port. -/
def serverText (a : Authority) : List Char :=
  (a.host.map Host.text).getD [] ++ ((a.port.map fun p => ':' :: decimal p).getD [])

/-- The authority after its two slashes. -/
def text (a : Authority) : List Char := a.userInfoText ++ a.serverText

end Authority

end Url

/-- A URL. -/
structure Url where
  scheme : List Char
  authority : Option Url.Authority
  path : List Char
  query : Option (List Char)
  fragment : Option (List Char)
deriving DecidableEq, Repr

namespace Url

/-- What stands between the scheme and the path. A path that starts with two slashes and has no
authority before it is marked, so that it is not read as one. -/
def authorityText (u : Url) : List Char :=
  match u.authority with
  | some a => '/' :: '/' :: a.text
  | none => if (stripStart? ['/', '/'] u.path).isSome then ['/', '.'] else []

/-- Query and fragment with their marks. -/
def tailText (u : Url) : List Char :=
  ((u.query.map ('?' :: ·)).getD []) ++ ((u.fragment.map ('#' :: ·)).getD [])

/-- The URL as characters. -/
def chars (u : Url) : List Char :=
  u.scheme ++ ':' :: u.authorityText ++ u.path ++ u.tailText

/-- The URL as text. -/
def text (u : Url) : String := String.ofList u.chars

/-- The rules that the URL follows. -/
def kind (u : Url) : SchemeKind := schemeKind u.scheme

/-- Whether the path has no structure. -/
def isOpaque (u : Url) : Bool := u.authority.isNone && (stripStart? ['/'] u.path).isNone

/-- The parts of a path between slashes; an opaque or empty path has none. -/
def segments? (u : Url) : Option (List (List Char)) :=
  (stripStart? ['/'] u.path).map (·.splitOn '/')

/-- The last part of the path that is not empty. -/
def lastSegment? (u : Url) : Option (List Char) :=
  (u.segments?).bind fun ps => (ps.filter (!·.isEmpty)).getLast?

/-- The host, if there is one. -/
def host? (u : Url) : Option Host := u.authority.bind Authority.host

/-- User name and password, if there are any. -/
def credentials? (u : Url) : Option (List Char × List Char) :=
  u.authority.bind fun a => if a.hasCredentials then some (a.username, a.password) else none

/-- The URL without user name and password. -/
def withoutCredentials (u : Url) : Url :=
  { u with authority := u.authority.map fun a => { a with username := [], password := [] } }

end Url

end TracedTransfer
