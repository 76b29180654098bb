/-
Why an operation on a resource failed. Every failure tells the location
of the resource, so that it can be reported by itself.
-/
import TracedTransfer.Http.Failure
import TracedTransfer.Io.Error
import TracedTransfer.Resource.Name

namespace TracedTransfer.Resource

/-- Why an operation on a resource failed. -/
inductive Error where
  /-- A read of something that must be there found nothing. -/
  | notFound (location : String)
  /-- Content could not be read or written. -/
  | io (location : String) (cause : Io.Error)
  /-- The transform of the caller failed. -/
  | transform (location : String) (cause : Io.Chain)
  /-- The server answered with a status that is neither success nor absence. -/
  | http (location : String) (status : Nat)
  /-- The transfer did not come about. -/
  | transport (location : String) (cause : Http.Failure)
  /-- The transport has no way to do it. -/
  | unsupported (location : String) (operation : String)
  /-- There is no transport for the scheme. -/
  | unsupportedScheme (location : String) (scheme : String)
deriving DecidableEq, Repr

namespace Error

/-- The text of a failure, without its cause. -/
def message : Error → String
  | .notFound l => "resource not found: " ++ l
  | .io l _ => "could not access " ++ l
  | .transform l _ => "could not process content of " ++ l
  | .http l status => l ++ " returned HTTP " ++ Nat.repr status
  | .transport l _ => "transfer of " ++ l ++ " failed"
  | .unsupported l operation => operation ++ " is not supported for " ++ l
  | .unsupportedScheme l scheme => "no transport for scheme \x60" ++ scheme ++ "\x60 (" ++ l ++ ")"

/-- The location of the resource. -/
def location : Error → String
  | .notFound l => l
  | .io l _ => l
  | .transform l _ => l
  | .http l _ => l
  | .transport l _ => l
  | .unsupported l _ => l
  | .unsupportedScheme l _ => l

/-- Whether nothing was found. -/
def isNotFound : Error → Bool
  | .notFound _ => true
  | _ => false

/-- The texts of what caused a failure. -/
def causes : Error → Io.Chain
  | .io _ e => e.chain
  | .transform _ c => c
  | .transport _ e => [.known e.text]
  | _ => []

/-- The failure with everything that caused it. -/
def chain (e : Error) : Io.Chain := .known e.message :: e.causes

/-- There is no transport for the scheme of a name. -/
def schemeOf (n : Name) : Error :=
  .unsupportedScheme n.location (String.ofList n.url.scheme)

end Error

end TracedTransfer.Resource
