/-
The state that transfers work on: files, the place of temporary files,
the server that can be reached, open scopes, the log, the console and a
clock; and what listeners and rehearsed sources keep in memory.

Each part changes through small functions here; everything else states
what it does in terms of them.
-/
import TracedTransfer.Console
import TracedTransfer.Effect
import TracedTransfer.Http.Server
import TracedTransfer.Operation.Answer
import TracedTransfer.Operation.Scope
import TracedTransfer.Storage.TempFile

namespace TracedTransfer

open Text

namespace Operation

/-- What a listener is told. -/
inductive Event where
  | started (id : Id) (parent : Option Id) (displayName : String)
  | finished (record : Record)
deriving Repr

/-- What a recording listener keeps. -/
structure Recording where
  /-- The operations that have started, in order. -/
  started : List Id
  /-- The records of those that have finished, in order. -/
  records : List Record
deriving Repr

namespace Recording

/-- Nothing recorded. -/
def empty : Recording := ⟨[], []⟩

/-- The operations that have started and not finished. -/
def open_ (r : Recording) : List Id := r.started.filter fun id => !r.records.any (·.id = id)

end Recording

end Operation

namespace Operation

/-- What a recording shows beside the operation that is open. -/
def Recording.summary (r : Recording) (current : Option Id) : Summary :=
  ⟨r.started, r.open_, r.records.map Record.id, current⟩

end Operation

/-- The content of a source in memory, with how often it was used. -/
structure Shelf where
  /-- What its next readers will read; `none` when it is absent. -/
  content : Option (List Io.Event)
  opens : Nat
  uploads : Nat
deriving DecidableEq, Repr

/-- The state that transfers work on. -/
structure Machine where
  files : FileSystem
  /-- Where temporary files are kept. -/
  spool : Storage.Spool
  /-- The server and its port, if there is one. -/
  server : Option (Nat × Http.Server)
  scopes : Operation.Scopes
  log : Log
  console : Console
  /-- Milliseconds since the epoch. -/
  clock : Nat
  recording : Operation.Recording
  /-- What the journal listener was told. -/
  events : List Operation.Event
  /-- The answers of the running calls of a program so far, those of the innermost call first. -/
  answers : List (List Operation.Answer)
  shelves : List Shelf
  sinks : List Io.Sink

namespace Machine

/-- A machine with files, on which nothing has happened. -/
def initial (files : FileSystem) (filter : Log.Filter) : Machine :=
  { files, spool := .sound, server := none, scopes := .initial, log := .empty filter
    console := .empty, clock := 0, recording := .empty, events := []
    answers := [], shelves := [], sinks := [] }

/-- The open operations with their names, the outermost first. -/
def spans (m : Machine) : List (Nat × String) :=
  m.scopes.frames.reverse.map fun f => (f.id, f.descriptor.displayName)

/-- The machine after a log line. -/
def logged (m : Machine) (level : Log.Level) (target message : String)
    (fields : List (String × String)) : Machine :=
  match m.log.kept? ⟨level, m.spans, target, message, fields⟩ with
  | none => m
  | some line =>
    if m.log.onConsole then { m with console := m.console.notify (.log line) }
    else { m with log := m.log.write line }

end Machine

/-- A sink of the machine as a writer. -/
def Machine.sinkWriter (i : Nat) : Io.Writer Machine where
  write data m :=
    let (outcome, s) := (m.sinks.getD i .open_).write data
    (outcome, { m with sinks := m.sinks.set i s })
  flush m := ((m.sinks.getD i .open_).flush.1, m)

/-- The output of the console as a writer. -/
def Machine.outputWriter : Io.Writer Machine where
  write data m := (.ok data.length, { m with console := m.console.print data })
  flush m := (.ok (), m)

/-- A step of a transfer. -/
abbrev Run (α : Type) : Type := Action Machine α

namespace Run

/-- Writes a log line. -/
def log (level : Log.Level) (target message : String) (fields : List (String × String)) : Run Unit :=
  Action.modify fun m => m.logged level target message fields

/-- Prints text on the output. -/
def print (s : String) : Run Unit :=
  Action.modify fun m => { m with console := m.console.print (bytesOf s) }

/-- Prints a line on the error output. -/
def report (s : String) : Run Unit :=
  Action.modify fun m => { m with console := m.console.notify (.text (s ++ "\n")) }

/-- A step on the files. -/
def onFiles {α : Type} (f : FileSystem → α × FileSystem) : Run α := fun m =>
  let (a, files) := f m.files
  (.value a, { m with files })

/-- The operation open on the running thread. -/
def currentOperation : Run (Option Operation.Id) := Action.gets fun m => m.scopes.current

end Run

end TracedTransfer
