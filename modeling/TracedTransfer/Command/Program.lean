/-
The program: it starts the log, reads the arguments and the settings,
does what the arguments ask for, and ends with a status.
-/
import TracedTransfer.Command.Execution
import TracedTransfer.Log.Start

namespace TracedTransfer.Command

/-- What the program is told by where it runs. -/
structure Environment where
  home : FilePath
  configHome : Option FilePath
  stateHome : Option FilePath
  /-- What the log is to keep. -/
  logFilter : Option String
deriving DecidableEq, Repr

/-- Where the program keeps its own files. -/
def Environment.places (e : Environment) : Config.Places :=
  .ofEnvironment e.configHome e.stateHome e.home

/-- The status of a program that did what it was asked for, of one that failed, and of one whose
arguments ask for nothing. -/
inductive Status where
  | success
  | failure
  | usage
deriving DecidableEq, Repr

/-- The number of a status. -/
def Status.code : Status → Nat
  | .success => 0
  | .failure => 1
  | .usage => 2

/-- Does what arguments ask for with the settings. -/
def perform (places : Config.Places) (i : Invocation) : Run (Except Failure Unit) := do
  match ← Config.load places with
  | .error e => return .error (.settings e)
  | .ok settings =>
    Run.log .debug "resfetch::cli" "loaded config" []
    match ← Session.start settings i.traceFile i.quiet with
    | .error e => return .error e
    | .ok s => execute settings s i.command

/-- Does what arguments ask for. Texts about the program need no settings. -/
def invoke (places : Config.Places) (i : Invocation) : Run Status := do
  match i.command with
  | .completions shell =>
    Run.print (Manual.text (Manual.completions shell))
    return .success
  | .manpage =>
    Run.print (Manual.text Manual.manual)
    return .success
  | _ =>
    match ← perform places i with
    | .ok () => return .success
    | .error e =>
      Run.report e.line
      return .failure

/-- Tells what is wrong with arguments, or helps those who ask for it. -/
def refuse (e : UsageError) : Run Status := do
  match e with
  | .helpWanted =>
    Run.print (Manual.text Manual.help)
    return .success
  | e =>
    Run.report ("error: " ++ e.message ++ "\n\n" ++ "\n".intercalate Manual.help)
    return .usage

/-- The program after its log has started. -/
def runArguments (places : Config.Places) (arguments : List String) : Run Status :=
  match Invocation.ofArguments arguments with
  | .ok i => invoke places i
  | .error e => refuse e

/-- The program. -/
def program (e : Environment) (arguments : List String) : Run Status := do
  Log.start e.places (.ofSetting e.logFilter)
  runArguments e.places arguments

end TracedTransfer.Command
