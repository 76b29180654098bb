/-
What a command works with: the limits of transfers and the listeners
that hear of its operations; and why a command failed.
-/
import TracedTransfer.Command.Progress
import TracedTransfer.Command.Target
import TracedTransfer.Config.Store
import TracedTransfer.Operation.TraceFile
import TracedTransfer.Resource.Connector

namespace TracedTransfer.Command

open Text

/-- Why a command failed. -/
inductive Failure where
  | settings (e : Config.LoadError)
  /-- The trace file could not be opened. -/
  | trace (cause : Io.Chain)
  | target (e : TargetError)
  | resource (e : Resource.Error)
  | fetch (displayName : String) (e : Resource.Error)
  | upload (file : FilePath) (displayName : String) (e : Resource.Error)
  /-- There is no directory to put a download in. -/
  | noWorkingDirectory
  | absent (displayName : String)
  | notListable (displayName : String)
  /-- The settings for plugins describe no management. -/
  | plugins (cause : Io.Chain)

namespace Failure

/-- The texts of why a command failed. -/
def chain : Failure → Io.Chain
  | .settings e => e.chain
  | .trace c => c
  | .target e => e.chain
  | .resource e => e.chain
  | .fetch name e => .known ("fetch " ++ name) :: e.chain
  | .upload file name e =>
    .known ("upload " ++ FilePath.shown file ++ " to " ++ name) :: e.chain
  | .noWorkingDirectory => [.system]
  | .absent name => [.known (name ++ " not found")]
  | .notListable name => [.known (name ++ " cannot be listed")]
  | .plugins c => c

/-- The line that tells of a failure. -/
def line (f : Failure) : String := Io.Chain.text (.known "resfetch error" :: f.chain)

end Failure

/-- The limits and listeners of one run of the program. -/
structure Session where
  options : Http.Options
  runner : Operation.Runner

namespace Session

/-- The listeners of a session: the log, the console unless it is to be quiet, and the trace file
if there is one. -/
def listeners (quiet : Bool) (tracer : Option Operation.Listener) : Operation.Runner :=
  .logging :: ((if quiet then [] else [Progress.listener]) ++ tracer.toList)

/-- Starts a session. A trace file that is asked for counts more than the one of the settings. -/
def start (settings : Config.Settings) (traceFile : Option String) (quiet : Bool) :
    Run (Except Failure Session) := do
  match traceFile.or settings.traceFile with
  | none => return .ok ⟨settings.httpOptions, listeners quiet none⟩
  | some file =>
    match ← Operation.TraceFile.create (bytesOf file) with
    | .error c => return .error (.trace c)
    | .ok tracer =>
      Run.log .debug "resfetch::cli::session" "writing operation trace" [("path", file)]
      return .ok ⟨settings.httpOptions, listeners quiet (some tracer)⟩

/-- The resource that an argument means, with its reads in scopes of the session. -/
def resource (s : Session) (working : Option FilePath) (argument : String) :
    Except Failure Resource :=
  match target working argument with
  | .error e => .error (.target e)
  | .ok name =>
    match Resource.connectInstrumented s.options name s.runner with
    | .error e => .error (.resource e)
    | .ok r => .ok r

end Session

end TracedTransfer.Command
