/-
Open scopes. `frames` are the scopes open on the running thread, the
innermost first; `current` is the operation that a new one would have as
its parent. The two differ while a scope closes: its frame is still
there, but it is no longer current.
-/
import TracedTransfer.Operation.Record

namespace TracedTransfer.Operation

/-- An open scope. -/
structure Frame where
  id : Id
  parent : Option Id
  descriptor : Descriptor
  startedAtMs : Nat
  context : Context
deriving Repr

/-- The scopes of a program as one of its threads sees them. -/
structure Scopes where
  /-- The number of the next operation, on whatever thread. -/
  nextId : Id
  current : Option Id
  frames : List Frame
deriving Repr

namespace Scopes

/-- No scope has been opened yet. -/
def initial : Scopes := ⟨1, none, []⟩

/-- The frame that the next operation opens. -/
def nextFrame (s : Scopes) (d : Descriptor) (now : Nat) : Frame :=
  ⟨s.nextId, s.current, d, now, .empty⟩

/-- Opens a scope. -/
def enter (s : Scopes) (f : Frame) : Scopes := ⟨s.nextId + 1, some f.id, f :: s.frames⟩

/-- Changes the context of an open scope. -/
def updateContext (s : Scopes) (id : Id) (f : Context → Context) : Scopes :=
  { s with
    frames := s.frames.map fun fr => if fr.id = id then { fr with context := f fr.context } else fr }

/-- The context of an open scope. -/
def context (s : Scopes) (id : Id) : Context :=
  ((s.frames.find? (·.id = id)).map Frame.context).getD .empty

/-- Makes the parent of a closing scope current again. -/
def restore (s : Scopes) (f : Frame) : Scopes := { s with current := f.parent }

/-- Takes the innermost frame away. -/
def leave (s : Scopes) : Scopes := { s with frames := s.frames.tail }

/-- The scopes as a new thread sees them. -/
def onNewThread (s : Scopes) : Scopes := { s with current := none, frames := [] }

/-- The scopes of a thread after another one has ended. -/
def afterThread (s ended : Scopes) : Scopes := { s with nextId := ended.nextId }

end Scopes

end TracedTransfer.Operation
