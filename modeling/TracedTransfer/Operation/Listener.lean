/-
Listeners: those who are told when operations start and finish. The ones
here write log lines, record in memory, keep a journal, stay silent, or
panic.
-/
import TracedTransfer.Json.Writer
import TracedTransfer.Machine

namespace TracedTransfer.Operation

open Text

/-- Who is told when operations start and finish. -/
structure Listener where
  started : Id → Option Id → Descriptor → Run Unit
  finished : Record → Run Unit

namespace Listener

/-- Does nothing. -/
def silent : Listener := ⟨fun _ _ _ => pure (), fun _ => pure ()⟩

/-- Keeps started operations and records. -/
def recording : Listener where
  started id _ _ := Action.modify fun m =>
    { m with recording := { m.recording with started := m.recording.started ++ [id] } }
  finished r := Action.modify fun m =>
    { m with recording := { m.recording with records := m.recording.records ++ [r] } }

/-- Keeps everything it is told. -/
def journal : Listener where
  started id parent d := Action.modify fun m =>
    { m with events := m.events ++ [.started id parent d.displayName] }
  finished r := Action.modify fun m => { m with events := m.events ++ [.finished r] }

/-- The part of the program that log lines of operations come from. -/
def logTarget : String := "resfetch_core::operation::listener"

/-- The number of an operation as a named value. -/
def idField (name : String) (id : Id) : String × String := (name, Nat.repr id)

/-- Writes a log line for each start and each finish. -/
def logging : Listener where
  started id parent d :=
    Run.log .debug logTarget ("started " ++ d.displayName)
      (idField "id" id :: ((parent.map (idField "parent")).toList
        ++ [("details", d.details.render)]))
  finished r :=
    let fields := [idField "id" r.id, ("elapsed_ms", Nat.repr r.durationMs)]
    match r.failure with
    | none =>
      Run.log .info logTarget ("finished " ++ r.descriptor.displayName)
        (fields ++ (r.result.map fun j => ("result", j.render)).toList)
    | some f => Run.log .warn logTarget ("failed " ++ r.descriptor.displayName ++ ": " ++ f) fields

/-- Panics when an operation starts. -/
def panicOnStart : Listener := ⟨fun _ _ _ => Action.panic, fun _ => pure ()⟩

/-- Panics when an operation finishes. -/
def panicOnFinish : Listener := ⟨fun _ _ _ => pure (), fun _ => Action.panic⟩

end Listener

end TracedTransfer.Operation
