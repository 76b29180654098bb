/-
Programs of calls: bodies that set outcomes, open further calls, start
threads, look around, fail and panic. A program runs through one runner;
the answers of its steps gather in the machine, so that those given
before a panic are kept.
-/
import TracedTransfer.Operation.TraceFile

namespace TracedTransfer.Operation

/-- What a call is made with. -/
structure Outline where
  displayName : String
  progressDisplayName : Option String
  details : Option Json
  /-- The text of why further details have no structured form, if such are given. -/
  unstructured : Option String
deriving Repr

/-- A step of a body. -/
inductive Step where
  | setResult (value : Except String Json)
  | setStatus (status : String)
  | setFailure (failure : String)
  /-- A call. One that is not caught takes the body along when it unwinds. -/
  | call (caught : Bool) (outline : Outline) (returns : Json) (body : List Step)
  /-- A caught call on a new thread. -/
  | thread (outline : Outline) (returns : Json) (body : List Step)
  | current
  | summary
  /-- Empties the recording. -/
  | clear
  | fail (text : String)
  | panic

/-- The descriptor of an outline. -/
def Outline.descriptor (o : Outline) : Run Descriptor := do
  let given ←
    match o.details with
    | some j => structured "details" (.ok j)
    | none => pure .null
  let details ←
    match o.unstructured with
    | some e => structured "details" (.error e)
    | none => pure given
  return ⟨o.displayName, o.progressDisplayName, details⟩

/-- Adds an answer to those of the innermost running call. -/
def answer (a : Answer) : Run Unit := Action.modify fun m =>
  match m.answers with
  | [] => { m with answers := [[a]] }
  | top :: rest => { m with answers := (top ++ [a]) :: rest }

/-- Runs a step with answers of its own, and returns them with how it ended. -/
def answering {α : Type} (x : Run α) : Run (Option α × List Answer) := fun m =>
  match Action.catching x { m with answers := [] :: m.answers } with
  | (.value r, m) => (.value (r, m.answers.headD []), { m with answers := m.answers.tail })
  | (.unwind, m) => (.unwind, m)
  | (.abort, m) => (.abort, m)

/-- What the machine shows of its operations. -/
def summary : Run Summary := Action.gets fun m => m.recording.summary m.scopes.current

/-- Makes a call and answers how it ended. A panic goes on if it is not caught. -/
def callAndAnswer (caught : Bool) (o : Outline) (r : Runner) (body : Id → Run (Except String Json)) :
    Run Unit := do
  let (outcome, inner) ← answering do
    let d ← o.descriptor
    call r d (fun e => e) body
  let after ← Run.currentOperation
  let returned : Returned :=
    match outcome with
    | some (.ok v) => .ok v
    | some (.error e) => .failed e
    | none => .panicked
  answer (.call returned inner after)
  if outcome.isNone && !caught then Action.panic else pure ()

mutual

/-- Runs the steps of a body, which then returns a value unless a step fails. -/
def runSteps (r : Runner) (id : Id) (returns : Json) : List Step → Run (Except String Json)
  | [] => pure (.ok returns)
  | s :: rest => do
    match ← runStep r id s with
    | some e => return .error e
    | none => runSteps r id returns rest

/-- Runs one step of a body; a text is the failure that the body returns. -/
def runStep (r : Runner) (id : Id) : Step → Run (Option String)
  | .setResult v => do
    setResult id (← structured "result" v)
    return none
  | .setStatus s => do
    setStatus id s
    return none
  | .setFailure s => do
    setFailure id s
    return none
  | .call caught o returns body => do
    callAndAnswer caught o r fun inner => runSteps r inner returns body
    return none
  | .thread o returns body => do
    onNewThread (callAndAnswer true o r fun inner => runSteps r inner returns body)
    return none
  | .current => do
    answer (.current (← Run.currentOperation))
    return none
  | .summary => do
    answer (.summary (← summary))
    return none
  | .clear => do
    Action.modify fun m => { m with recording := .empty }
    return none
  | .fail e => return some e
  | .panic => Action.panic

end

end TracedTransfer.Operation
