/-
Operations on several threads. Each thread makes calls one after the
other, with further calls in their bodies; all go through one runner
whose listener records. The threads share the counter of operations and
the recording, and each has its own open calls.

A step of a thread is one thing that no other thread can come between:
opening a scope, one notification, one deed of a body, or closing a
scope. A schedule says whose turn it is, so a run under every schedule
is every order in which the steps of the threads can come. Time stands
still.
-/
import TracedTransfer.Operation.Runner

namespace TracedTransfer.Operation.Threads

-- =========================================================== programs

/-- What a body does. -/
inductive Deed where
  | setResult (value : Json)
  | setStatus (status : String)
  | setFailure (failure : String)
  /-- A call. One that is not caught takes the body along when it unwinds. -/
  | call (caught : Bool) (descriptor : Descriptor) (body : List Deed)
  /-- The body returns a failure. -/
  | fail (text : String)
  | panic

/-- A call that a thread makes outside all others. -/
structure Call where
  caught : Bool
  descriptor : Descriptor
  body : List Deed

-- ============================================================= states

/-- How far a call has come. -/
inductive Stage where
  /-- Its scope is open, and the listener has not heard of it. -/
  | opened
  | running
  /-- Its scope is closed, and the listener has not heard of its record. -/
  | closed (record : Record) (unwound : Bool)

/-- A call that has started and not ended. -/
structure Activation where
  frame : Frame
  caught : Bool
  stage : Stage
  /-- What is left of the body. -/
  body : List Deed

/-- A thread. -/
structure Thread where
  current : Option Id
  /-- The calls that have not ended, the innermost first. -/
  calls : List Activation
  /-- The calls still to be made outside these. -/
  left : List Call
  /-- What the listener heard from this thread, in order. -/
  told : List Event

/-- A thread that has not started. -/
def Thread.start (calls : List Call) : Thread := ⟨none, [], calls, []⟩

/-- What the threads share. -/
structure Shared where
  nextId : Id
  recording : Recording

/-- Nothing done yet. -/
def Shared.start : Shared := ⟨1, .empty⟩

/-- The threads and what they share. -/
structure System where
  shared : Shared
  threads : List Thread

/-- Threads that have not started, each with its calls. -/
def System.start (programs : List (List Call)) : System := ⟨.start, programs.map Thread.start⟩

-- ============================================================== steps

namespace Thread

/-- Opens the scope of a call on top of others: it takes a number and becomes current. -/
def enter (s : Shared) (t : Thread) (outer : List Activation) (c : Call) : Shared × Thread :=
  let frame : Frame := ⟨s.nextId, t.current, c.descriptor, 0, .empty⟩
  ({ s with nextId := s.nextId + 1 },
    { t with current := some frame.id, calls := ⟨frame, c.caught, .opened, c.body⟩ :: outer })

/-- Tells the listener that the innermost call has started. -/
def tellStarted (s : Shared) (t : Thread) (outer : List Activation) (a : Activation) :
    Shared × Thread :=
  let f := a.frame
  ({ s with recording := { s.recording with started := s.recording.started ++ [f.id] } },
    { t with calls := { a with stage := .running } :: outer
             told := t.told ++ [.started f.id f.parent f.descriptor.displayName] })

/-- Closes the scope of the innermost call: its parent is current again. -/
def close (t : Thread) (outer : List Activation) (a : Activation) (unwound : Bool) : Thread :=
  let record := a.frame.record a.frame.context 0 unwound
  { t with current := a.frame.parent, calls := { a with stage := .closed record unwound } :: outer }

/-- What a call that has ended leaves to those around it. One that unwound and is not caught makes
the next one unwind; outside all calls it ends the thread. -/
def resume (t : Thread) (outer : List Activation) (unwinding : Bool) : Thread :=
  match unwinding, outer with
  | true, a :: rest => { t with calls := { a with body := [.panic] } :: rest }
  | true, [] => { t with calls := [], left := [] }
  | false, _ => { t with calls := outer }

/-- Tells the listener that the innermost call has finished, and ends the call. -/
def tellFinished (s : Shared) (t : Thread) (outer : List Activation) (a : Activation) (r : Record)
    (unwound : Bool) : Shared × Thread :=
  let t := { t with told := t.told ++ [Event.finished r] }
  ({ s with recording := { s.recording with records := s.recording.records ++ [r] } },
    t.resume outer (unwound && !a.caught))

/-- Changes what the innermost call says of its operation, and goes on with its body. -/
def say (t : Thread) (outer : List Activation) (a : Activation) (rest : List Deed)
    (f : Context → Context) : Thread :=
  let frame := { a.frame with context := f a.frame.context }
  { t with calls := { a with frame, body := rest } :: outer }

/-- Does the next deed of the innermost call, or closes its scope when there is none. -/
def act (s : Shared) (t : Thread) (outer : List Activation) (a : Activation) : Shared × Thread :=
  match a.body with
  | [] => (s, t.close outer a false)
  | .setResult v :: rest => (s, t.say outer a rest fun c => { c with result := some v })
  | .setStatus v :: rest => (s, t.say outer a rest fun c => { c with status := some v })
  | .setFailure v :: rest => (s, t.say outer a rest fun c => { c with failure := some v })
  | .call caught d body :: rest => t.enter s ({ a with body := rest } :: outer) ⟨caught, d, body⟩
  | .fail e :: _ => (s, t.say outer a [] fun c => { c with failure := some e })
  | .panic :: _ => (s, t.close outer a true)

/-- The next step of a thread, if it has not ended. -/
def step? (s : Shared) (t : Thread) : Option (Shared × Thread) :=
  match t.calls with
  | [] =>
    match t.left with
    | [] => none
    | c :: left => some ({ t with left }.enter s [] c)
  | a :: outer =>
    match a.stage with
    | .opened => some (t.tellStarted s outer a)
    | .running => some (t.act s outer a)
    | .closed r unwound => some (t.tellFinished s outer a r unwound)

/-- Whether a thread has ended. -/
def isDone (t : Thread) : Bool := t.calls.isEmpty && t.left.isEmpty

end Thread

namespace System

/-- One step of a thread. A thread that is not there or has ended takes none. -/
def step (y : System) (i : Nat) : System :=
  match y.threads[i]? with
  | none => y
  | some t =>
    match t.step? y.shared with
    | none => y
    | some (shared, t) => ⟨shared, y.threads.set i t⟩

/-- The steps of a schedule, which names the thread of each step. -/
def run (y : System) (schedule : List Nat) : System := schedule.foldl step y

/-- Whether all threads have ended. -/
def isDone (y : System) : Bool := y.threads.all Thread.isDone

end System

end TracedTransfer.Operation.Threads
