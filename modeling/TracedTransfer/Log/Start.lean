/-
Where the log goes: to its file, or to the console if there can be none.
-/
import TracedTransfer.Config.Store

namespace TracedTransfer.Log

/-- Opens the file of the log, with the directories above it, or says what could not be done. -/
def openFile (places : Config.Places) : Run (Except Io.Chain Unit) :=
  Run.onFiles fun fs =>
    let shown := FilePath.shown
    match fs.makeDirectories places.logDirectory with
    | (fs, some e) => (.error (.known ("create " ++ shown places.logDirectory) :: e.chain), fs)
    | (fs, none) =>
      match fs.openToWrite false places.logFile with
      | .ok (fs, _) => (.ok (), fs)
      | .error e => (.error (.known ("open " ++ shown places.logFile) :: e.chain), fs)

/-- Makes a log keep what a filter says, in its file or on the console. -/
def direct (filter : Filter) (onConsole : Bool) : Run Unit :=
  Action.modify fun m => { m with log := { m.log with filter, onConsole } }

/-- Starts the log. -/
def start (places : Config.Places) (filter : Filter) : Run Unit := do
  match ← openFile places with
  | .ok () =>
    direct filter false
    Run.log .info "resfetch_core::logging"
      ("resfetch logging initialized at " ++ FilePath.shown places.logFile) []
  | .error c =>
    direct filter true
    Run.log .warn "resfetch"
      (Io.Chain.text (.known "file logging unavailable, using stderr" :: c)) []

end TracedTransfer.Log
