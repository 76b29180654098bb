/-
The program on the files of the system. The files that the arguments and
the settings name are copied onto a machine, the program runs there, and
what it has changed is copied back. Directories are not looked into, and
there is no server to reach.
-/
import TracedTransfer.Command.Program

namespace TracedTransfer.Command

open Text

/-- The path of the file that an argument means, if it means one. -/
def argumentPath? (working : FilePath) (argument : String) : Option FilePath :=
  match target (some working) argument with
  | .ok n => n.url.filePath?
  | .error _ => none

/-- The paths that a command looks at. -/
def lookedAt (working : FilePath) : Command → List FilePath
  | .fetch argument output _ => (argumentPath? working argument).toList ++ (output.map bytesOf).toList
  | .cat argument | .ls argument | .head argument | .checksum argument =>
    (argumentPath? working argument).toList
  | .put file argument => bytesOf file :: (argumentPath? working argument).toList
  | .repos | .completions _ | .manpage => []

/-- The paths that arguments name. -/
def Invocation.paths (i : Invocation) (working : FilePath) : List FilePath :=
  lookedAt working i.command ++ (i.traceFile.map bytesOf).toList

/-- The file that traces operations if settings in a file say so. -/
def tracePath? (fs : FileSystem) (places : Config.Places) : Option FilePath :=
  match Config.readFrom places.configFile fs with
  | .ok settings => settings.traceFile.map bytesOf
  | .error _ => none

/-- The files that differ from those of another file system, with their contents. -/
def changedFiles (before after : FileSystem) : List (FilePath × Bytes) :=
  (after.treeBelow [FilePath.slash]).filterMap fun (p, n) =>
    let path := FilePath.slash :: p
    match n with
    | .file s => if (before.contentAt path).toOption = some s then none else some (path, s)
    | _ => none

/-- Copies a file of the system onto a file system, if it can be read. -/
def copyIn (fs : FileSystem) (p : FilePath) : IO FileSystem := do
  try
    let content ← IO.FS.readBinFile (FilePath.shown p)
    return fs.withNode p (.file content.toList)
  catch _ => return fs

/-- Copies a file to the system. -/
def copyOut (p : FilePath) (content : Bytes) : IO Unit := do
  IO.FS.createDirAll (FilePath.shown (p.parent?.getD [FilePath.slash]))
  IO.FS.writeBinFile (FilePath.shown p) (ByteArray.mk content.toArray)

/-- Adds lines to the file of the log. -/
def copyLog (p : FilePath) (lines : List Log.Line) : IO Unit := do
  let h ← IO.FS.Handle.mk (FilePath.shown p) .append
  for l in lines do
    h.putStrLn l.text

/-- Shows what a console has shown. -/
def showConsole (c : Console) : IO Unit := do
  let out ← IO.getStdout
  out.write (ByteArray.mk c.output.toArray)
  out.flush
  for n in c.notices do
    match n with
    | .text s => IO.eprint s
    | .log l => IO.eprintln l.text

/-- Runs the program and leaves what it has done on the system. -/
def runOnSystem (e : Environment) (working : FilePath) (arguments : List String) : IO Nat := do
  let named := match Invocation.ofArguments arguments with
    | .ok i => i.paths working
    | .error _ => []
  let start := (FileSystem.empty.withDirectory working).within working
  let files ← (e.places.configFile :: e.places.logFile :: named).foldlM copyIn start
  let files ← (tracePath? files e.places).toList.foldlM copyIn files
  match program e arguments (Machine.initial files .default) with
  | (.value status, m) =>
    for (p, content) in changedFiles files m.files do
      copyOut p content
    if !m.log.onConsole then copyLog e.places.logFile m.log.lines
    showConsole m.console
    return status.code
  | _ => return 101

end TracedTransfer.Command

open TracedTransfer in
/-- The program with the arguments and the environment of the system. -/
def main (arguments : List String) : IO UInt32 := do
  let path (s : String) : FilePath := Text.bytesOf s
  let e : Command.Environment :=
    ⟨path ((← IO.getEnv "HOME").getD "/"), (← IO.getEnv "XDG_CONFIG_HOME").map path,
      (← IO.getEnv "XDG_STATE_HOME").map path, ← IO.getEnv "RUST_LOG"⟩
  try
    let code ← Command.runOnSystem e (path (← IO.currentDir).toString) arguments
    return UInt32.ofNat code
  catch failure =>
    IO.eprintln ("resfetch error: " ++ toString failure)
    return 1
