/-
Where plugins come from and which versions of them to use: an ordered
list of repositories, and pins, of which a later one replaces an earlier
one of the same plugin.

A block of declarations is applied in order up to the first URL that is
none; what came before it has been applied.
-/
import TracedTransfer.Io.Error
import TracedTransfer.Url.Parser

namespace TracedTransfer.Plugin

/-- A repository as it is written. -/
inductive Declaration where
  | portal
  | maven (name url : String)
deriving DecidableEq, Repr

/-- A repository. -/
inductive Repository where
  | portal
  | maven (name : String) (url : Url)
deriving DecidableEq, Repr

-- ================================================================ pins

/-- Versions by plugin, in the order of plugins. -/
abbrev Pins := List (String × String)

namespace Pins

/-- Pins a plugin to a version, in the place of a pin that it has. -/
def pin (plugin version : String) : Pins → Pins
  | [] => [(plugin, version)]
  | (p, v) :: rest =>
    if plugin = p then (plugin, version) :: rest
    else if plugin < p then (plugin, version) :: (p, v) :: rest
    else (p, v) :: pin plugin version rest

/-- Many pins, one after the other. -/
def ofList (ps : List (String × String)) : Pins := ps.foldl (fun pins p => pin p.1 p.2 pins) []

/-- The version that a plugin is pinned to. -/
def version? (pins : Pins) (plugin : String) : Option String :=
  (pins.find? (·.1 = plugin)).map Prod.snd

end Pins

-- ========================================================== management

/-- Repositories and pins. -/
structure Management where
  repositories : List Repository
  pins : Pins
deriving DecidableEq, Repr

namespace Management

/-- Nothing declared. -/
def empty : Management := ⟨[], []⟩

/-- Declares a repository. -/
def declare (m : Management) (r : Repository) : Management :=
  { m with repositories := m.repositories ++ [r] }

/-- Pins a plugin to a version. -/
def pin (m : Management) (plugin version : String) : Management :=
  { m with pins := m.pins.pin plugin version }

end Management

/-- Why a repository was not declared. -/
structure DeclarationError where
  /-- The name of the repository. -/
  name : String
  cause : Url.Error
deriving DecidableEq, Repr

/-- The texts of why a repository was not declared. -/
def DeclarationError.chain (e : DeclarationError) : Io.Chain :=
  [.known ("invalid URL for repository " ++ e.name), .known e.cause.message]

/-- The repository that a declaration describes. -/
def Declaration.repository : Declaration → Except DeclarationError Repository
  | .portal => .ok .portal
  | .maven name url =>
    match Url.parse url with
    | .ok u => .ok (.maven name u)
    | .error e => .error ⟨name, e⟩

/-- Declares the repositories of a block in order, up to the first that is none. -/
def Management.apply (m : Management) : List Declaration → Management × Except DeclarationError Unit
  | [] => (m, .ok ())
  | d :: rest =>
    match d.repository with
    | .ok r => (m.declare r).apply rest
    | .error e => (m, .error e)

end TracedTransfer.Plugin
