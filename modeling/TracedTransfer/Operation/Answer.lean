/-
What a program of calls answers: how each call ended, what its steps
answered, and which operation was open after it.
-/
import TracedTransfer.Operation.Record

namespace TracedTransfer.Operation

/-- How a call ended. -/
inductive Returned where
  | ok (value : Json)
  | failed (text : String)
  | panicked
deriving Repr

/-- What a recording listener shows, with the operation that is open on the thread. -/
structure Summary where
  started : List Id
  open_ : List Id
  records : List Id
  current : Option Id
deriving DecidableEq, Repr

/-- What a step of a program answers. -/
inductive Answer where
  | call (returned : Returned) (inner : List Answer) (currentAfter : Option Id)
  | current (id : Option Id)
  | summary (s : Summary)
deriving Repr

end TracedTransfer.Operation
