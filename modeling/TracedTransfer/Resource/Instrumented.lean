/-
Resources whose reads run in scopes. Each read is an operation called
`Download` and the name of the resource; its record tells how many bytes
were read. Everything else, and every value and failure, passes through
unchanged.
-/
import TracedTransfer.Operation.Runner
import TracedTransfer.Resource.Source

namespace TracedTransfer.Resource

open Operation

/-- The operation that a read of a resource is. -/
def readDescriptor (n : Name) : Descriptor where
  displayName := "Download " ++ n.displayName
  progressDisplayName := some n.shortDisplayName
  details := .obj [("location", .str n.location)]

/-- The result that a read leaves in its record. -/
def readResult (bytesRead : Nat) : Json := .obj [("bytesRead", .nat bytesRead)]

/-- The bytes of a read of content that may be absent. -/
def presentBytes {α : Type} : Option (ReadResult α) → Nat
  | some r => r.bytesRead
  | none => 0

/-- Runs a read in a scope. -/
def inScope {α : Type} (n : Name) (r : Runner) (bytesOf : α → Nat) (read : Run (Except Error α)) :
    Run (Except Error α) :=
  call r (readDescriptor n) Error.message fun id => do
    match ← read with
    | .ok a =>
      setResult id (readResult (bytesOf a))
      return .ok a
    | .error e => return .error e

/-- A resource whose reads run in scopes under a name. -/
def instrumented (d : Resource) (n : Name) (r : Runner) : Resource where
  url := d.url
  displayName := d.displayName
  metadata := d.metadata
  list := d.list
  put := d.put
  writeTo p := inScope n r ReadResult.bytesRead (d.writeTo p)
  writeToIfPresent p := inScope n r presentBytes (d.writeToIfPresent p)
  writeToStream w := inScope n r ReadResult.bytesRead (d.writeToStream w)
  withContent f := inScope n r ReadResult.bytesRead (d.withContent f)
  withContentIfPresent f := inScope n r presentBytes (d.withContentIfPresent f)
  withAction a := inScope n r ReadResult.bytesRead (d.withAction a)
  withActionIfPresent a := inScope n r presentBytes (d.withActionIfPresent a)

end TracedTransfer.Resource
