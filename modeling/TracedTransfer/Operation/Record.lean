/-
Operations: described units of work. A descriptor says what an operation
is before it runs; its context collects what the body says of it; a
record holds everything known when its scope has closed.
-/
import TracedTransfer.Json.Basic

namespace TracedTransfer.Operation

/-- The number of an operation. Operations are numbered in the order in which they open. -/
abbrev Id := Nat

/-- What an operation is, before it runs. -/
structure Descriptor where
  displayName : String
  progressDisplayName : Option String
  /-- Structured details; null when there are none. -/
  details : Json
deriving Repr

namespace Descriptor

/-- A descriptor of a name alone. -/
def named (displayName : String) : Descriptor := ⟨displayName, none, .null⟩

end Descriptor

/-- What a body says of its operation. -/
structure Context where
  result : Option Json
  status : Option String
  failure : Option String
deriving Repr

namespace Context

/-- Nothing said. -/
def empty : Context := ⟨none, none, none⟩

end Context

/-- Everything known of an operation whose scope has closed. -/
structure Record where
  id : Id
  /-- The operation that was open on the same thread when this one opened. -/
  parent : Option Id
  descriptor : Descriptor
  startedAtMs : Nat
  durationMs : Nat
  status : Option String
  result : Option Json
  failure : Option String
deriving Repr

namespace Record

/-- Whether the operation did not fail. -/
def succeeded (r : Record) : Bool := r.failure.isNone

/-- An unsigned field of the result. -/
def resultU64? (r : Record) (field : String) : Option Nat :=
  (r.result.bind (·.get? field)).bind Json.u64?

/-- A text field of the details. -/
def detailStr? (r : Record) (field : String) : Option String :=
  (r.descriptor.details.get? field).bind Json.str?

/-- The failure of a body that unwound. -/
def panicFailure : String := "operation panicked"

end Record

end TracedTransfer.Operation
