/-
Where the program keeps its own files, and the file of settings, which
is made with the default settings when it is missing and never changed
after that.
-/
import TracedTransfer.Config.Document
import TracedTransfer.Resource.Local

namespace TracedTransfer.Config

open Text

/-- The directories under which programs keep their files. -/
structure Places where
  configHome : FilePath
  stateHome : FilePath
deriving DecidableEq, Repr

namespace Places

/-- A directory that the environment names, or one below the home directory. A relative name does
not count. -/
def choose (named : Option FilePath) (home : FilePath) (below : String) : FilePath :=
  (named.filter FilePath.isAbsolute).getD (FilePath.relativeTo (bytesOf below) home)

/-- The directories that the environment names. -/
def ofEnvironment (config state : Option FilePath) (home : FilePath) : Places :=
  ⟨choose config home ".config", choose state home ".local/state"⟩

/-- The directory of the settings. -/
def configDirectory (p : Places) : FilePath := FilePath.relativeTo (bytesOf "resfetch") p.configHome

/-- The file of the settings. -/
def configFile (p : Places) : FilePath := FilePath.relativeTo (bytesOf "config.toml") p.configDirectory

/-- The directory of the log. -/
def logDirectory (p : Places) : FilePath := FilePath.relativeTo (bytesOf "resfetch/resfetch") p.stateHome

/-- The log. -/
def logFile (p : Places) : FilePath := FilePath.relativeTo (bytesOf "resfetch.log") p.logDirectory

end Places

/-- Why the settings could not be had. -/
inductive LoadError where
  /-- The file could not be made or read. -/
  | io (cause : Io.Error)
  /-- The file does not hold settings. -/
  | read (path : FilePath) (cause : ReadError)

namespace LoadError

/-- What was done when a file turned out not to hold settings. -/
def context (path : FilePath) : String := "parse " ++ FilePath.shown path

/-- The texts of why the settings could not be had. Where in a file they are wrong is not told. -/
def chain : LoadError → Io.Chain
  | .io e => e.chain
  | .read path _ => [.known (context path), .known "TOML parse error"]

end LoadError

/-- A step on the files that may fail. -/
def attempt (f : FileSystem → FileSystem × Option Io.Error) : Run (Except LoadError Unit) :=
  Run.onFiles fun fs =>
    match f fs with
    | (fs, none) => (.ok (), fs)
    | (fs, some e) => (.error (.io e), fs)

/-- Writes the default settings to a file. -/
def writeDefault (path : FilePath) (fs : FileSystem) : FileSystem × Option Io.Error :=
  match fs.openToWrite true path with
  | .error e => (fs, some e)
  | .ok (fs, h) =>
    match fs.writeHandle h (bytesOf Settings.default.text) with
    | .ok (fs, _) => (fs, none)
    | .error e => (fs, some e)

/-- The settings that a file holds. -/
def readFrom (path : FilePath) (fs : FileSystem) : Except LoadError Settings :=
  match fs.contentAt path with
  | .error e => .error (.io e)
  | .ok s =>
    match Utf8.decode? s with
    | none => .error (.io Io.Error.notUtf8)
    | some text =>
      match read (String.ofList text) with
      | .ok c => .ok c
      | .error e => .error (.read path e)

/-- The settings in their file. If there is none, one is made with the default settings. -/
def load (p : Places) : Run (Except LoadError Settings) := do
  let path := p.configFile
  match ← attempt fun fs => fs.makeDirectories p.configDirectory with
  | .error e => return .error e
  | .ok () =>
    if ← Action.gets fun m => (m.files.resolve path).isOk then
      Action.gets fun m => readFrom path m.files
    else
      match ← attempt (writeDefault path) with
      | .error e => return .error e
      | .ok () =>
        Run.log .info "resfetch_core::config"
          ("created default config at " ++ FilePath.shown path) []
        return .ok .default

end TracedTransfer.Config
