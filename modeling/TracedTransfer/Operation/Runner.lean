/-
Running a body inside a scope. The scope opens, every listener hears of
it, the body runs, the scope closes, and every listener hears of that:
once for each call, however the body ends. What the body returns is
handed back unchanged.

A scope closes in the middle of an unwinding too. A listener that panics
then aborts the program.
-/
import TracedTransfer.Operation.Listener

namespace TracedTransfer.Operation

/-- A fixed list of listeners, told of every scope in order. -/
abbrev Runner := List Listener

namespace Runner

/-- How a runner shows itself to a programmer. -/
def debugText (r : Runner) : String :=
  "DefaultOperationRunner \x7b listeners: " ++ Nat.repr r.length ++ " \x7d"

/-- Tells the listeners in order that an operation has started. -/
def notifyStarted (f : Frame) : Runner → Run Unit
  | [] => pure ()
  | l :: rest => do
    l.started f.id f.parent f.descriptor
    notifyStarted f rest

/-- Tells the listeners in order that an operation has finished. -/
def notifyFinished (r : Record) : Runner → Run Unit
  | [] => pure ()
  | l :: rest => do
    l.finished r
    notifyFinished r rest

end Runner

/-- Opens a scope. -/
def openScope (d : Descriptor) : Run Frame := fun m =>
  let f := m.scopes.nextFrame d m.clock
  (.value f, { m with scopes := m.scopes.enter f })

/-- Changes the context of an open scope. -/
def updateContext (id : Id) (f : Context → Context) : Run Unit :=
  Action.modify fun m => { m with scopes := m.scopes.updateContext id f }

/-- The structured result of an operation; the last one counts. -/
def setResult (id : Id) (result : Json) : Run Unit :=
  updateContext id fun c => { c with result := some result }

/-- The short outcome of an operation; the last one counts. -/
def setStatus (id : Id) (status : String) : Run Unit :=
  updateContext id fun c => { c with status := some status }

/-- Marks an operation failed. -/
def setFailure (id : Id) (failure : String) : Run Unit :=
  updateContext id fun c => { c with failure := some failure }

/-- The record of a closing scope. A body that unwound has failed, whether it said so or not. -/
def Frame.record (f : Frame) (c : Context) (now : Nat) (unwound : Bool) : Record where
  id := f.id
  parent := f.parent
  descriptor := f.descriptor
  startedAtMs := f.startedAtMs
  durationMs := now - f.startedAtMs
  status := c.status
  result := c.result
  failure := if c.failure.isNone && unwound then some Record.panicFailure else c.failure

/-- The part of a call between the opening and the closing of its scope. -/
def runBody {ε α : Type} (r : Runner) (f : Frame) (display : ε → String)
    (body : Id → Run (Except ε α)) : Run (Except ε α) := do
  r.notifyStarted f
  let outcome ← body f.id
  match outcome with
  | .error e => setFailure f.id (display e)
  | .ok _ => pure ()
  return outcome

/-- Closes a scope: its parent is current again, and the listeners hear of it. -/
def closeScope (r : Runner) (f : Frame) (unwound : Bool) : Run Unit := do
  let record ← Action.gets fun m => f.record (m.scopes.context f.id) m.clock unwound
  Action.modify fun m => { m with scopes := m.scopes.restore f }
  r.notifyFinished record

/-- Takes the frame of a closed scope away. -/
def dropFrame (m : Machine) : Machine := { m with scopes := m.scopes.leave }

/-- Runs a body in a scope. `display` is the text of a failure. -/
def call {ε α : Type} (r : Runner) (d : Descriptor) (display : ε → String)
    (body : Id → Run (Except ε α)) : Run (Except ε α) := fun m =>
  match openScope d m with
  | (.value f, m) =>
    match runBody r f display body m with
    | (.abort, m) => (.abort, m)
    | (.value outcome, m) =>
      match closeScope r f false m with
      | (.value (), m) => (.value outcome, dropFrame m)
      | (.unwind, m) => (.unwind, dropFrame m)
      | (.abort, m) => (.abort, m)
    | (.unwind, m) =>
      match closeScope r f true m with
      | (.value (), m) => (.unwind, dropFrame m)
      | (_, m) => (.abort, m)
  | (_, m) => (.abort, m)

/-- Runs a step on a new thread and waits for it. No operation is open there. -/
def onNewThread {α : Type} (x : Run α) : Run α := fun m =>
  let (exit, ended) := x { m with scopes := m.scopes.onNewThread }
  (exit, { ended with scopes := m.scopes.afterThread ended.scopes })

/-- A value for a record, or the text of why it has no structured form. Such a value is recorded
as null and logged. -/
def structured (what : String) (value : Except String Json) : Run Json :=
  match value with
  | .ok j => pure j.normalized
  | .error e => do
    Run.log .warn "resfetch_core::operation::descriptor"
      ("could not serialize operation " ++ what ++ ": " ++ e) []
    return .null

end TracedTransfer.Operation
