/-
What the commands do. Each prints what it found or did on the output, or
fails.
-/
import TracedTransfer.Command.Manual
import TracedTransfer.Command.Session
import TracedTransfer.Resource.Filename
import TracedTransfer.Resource.Local

namespace TracedTransfer.Command

open Text Resource

/-- Goes on with the result of a step on a resource, or fails for a reason. -/
def orElseFail {α : Type} (reason : Resource.Error → Failure) (x : Run (Except Resource.Error α))
    (f : α → Run (Except Failure Unit)) : Run (Except Failure Unit) := do
  match ← x with
  | .ok a => f a
  | .error e => return .error (reason e)

/-- Prints a line on the output. -/
def printLine (s : String) : Run (Except Failure Unit) := do
  Run.print (s ++ "\n")
  return .ok ()

-- =============================================================== reads

/-- Where a download goes: where it is told to, or to a file in the working directory that is
named for the resource. -/
def destination (working : Option FilePath) (url : Url) (output : Option String) :
    Except Failure FilePath :=
  match output, working with
  | some path, _ => .ok (bytesOf path)
  | none, some d => .ok (FilePath.relativeTo (bytesOf (Filename.ofName ⟨url⟩)) d)
  | none, none => .error .noWorkingDirectory

/-- Downloads a resource to a file. Absence is no failure if `ifPresent` says so; it brings
`none`. -/
def download (r : Resource) (path : FilePath) (ifPresent : Bool) :
    Run (Except Resource.Error (Option Nat)) := do
  if ifPresent then return (← r.writeToIfPresent path).map (Option.map ReadResult.bytesRead)
  else return (← r.writeTo path).map fun read => some read.bytesRead

/-- Downloads a resource and says what came of it. -/
def fetchResource (r : Resource) (output : Option String) (ifPresent : Bool) :
    Run (Except Failure Unit) := do
  match destination (← Action.gets fun m => m.files.workingPath?) r.url output with
  | .error e => return .error e
  | .ok path =>
    orElseFail (.fetch r.displayName) (download r path ifPresent) fun
      | some n => printLine (FilePath.shown path ++ " (" ++ Nat.repr n ++ " bytes)")
      | none => printLine (r.displayName ++ ": not present")

/-- Prints the content of a resource. -/
def printContent (r : Resource) : Run (Except Failure Unit) :=
  orElseFail .resource (r.writeToStream Machine.outputWriter) fun read => do
    Run.log .debug "resfetch::cli::commands::cat" "cat finished"
      [("bytes", Nat.repr read.bytesRead)]
    return .ok ()

/-- Prints the digest of a resource. -/
def printDigest (r : Resource) : Run (Except Failure Unit) :=
  orElseFail .resource (r.withAction sha256Action) fun read =>
    printLine (read.result ++ "  " ++ r.displayName)

-- =============================================================== looks

/-- Prints the entries of a resource. -/
def printEntries (r : Resource) : Run (Except Failure Unit) :=
  orElseFail .resource r.list fun
    | some names => do
      Run.print (Manual.text names)
      return .ok ()
    | none => pure (.error (.notListable r.displayName))

/-- The fields of metadata that are known, as lines. -/
def metadataLines (m : Metadata) : List String :=
  let field (name : String) (value : Option String) : List String :=
    value.toList.map fun v => name ++ ": " ++ v
  ("location: " ++ m.location.text)
    :: (field "content-length" (m.contentLength.map Nat.repr)
      ++ field "content-type" m.contentType
      ++ field "last-modified" m.lastModified
      ++ field "etag" m.etag
      ++ field "sha1" m.sha1)

/-- Prints the metadata of a resource. -/
def printMetadata (r : Resource) : Run (Except Failure Unit) :=
  orElseFail .resource r.metadata fun
    | some m => do
      Run.print (Manual.text (metadataLines m))
      return .ok ()
    | none => pure (.error (.absent r.displayName))

-- ============================================================= uploads

/-- Uploads a file to a resource. -/
def uploadFile (r : Resource) (file : FilePath) : Run (Except Failure Unit) :=
  orElseFail (.upload file r.displayName) (r.put (.file file)) fun () =>
    printLine (FilePath.shown file ++ " -> " ++ r.displayName)

-- ============================================================= plugins

/-- A management as lines. -/
def managementLines (m : Plugin.Management) : List String :=
  let repository : Plugin.Repository → String
    | .portal => "  plugin portal"
    | .maven name url => "  maven " ++ name ++ " " ++ url.text
  ["repositories:"] ++ m.repositories.map repository
    ++ ["resolution:"] ++ m.pins.map fun (plugin, version) => "  " ++ plugin ++ " = " ++ version

/-- Prints the management of plugins. -/
def printManagement (settings : Config.Settings) : Run (Except Failure Unit) :=
  match settings.plugins with
  | none => printLine "No plugin management configured."
  | some p =>
    match p.management with
    | .error c => pure (.error (.plugins c))
    | .ok m => do
      Run.print (Manual.text (managementLines m))
      return .ok ()

-- ============================================================ dispatch

/-- Does something with the resource that an argument means. -/
def Session.on (s : Session) (argument : String) (f : Resource → Run (Except Failure Unit)) :
    Run (Except Failure Unit) := fun m =>
  match s.resource m.files.workingPath? argument with
  | .ok r => f r m
  | .error e => (.value (.error e), m)

/-- Does what a command asks for. Texts about the program need no session; here they do
nothing. -/
def execute (settings : Config.Settings) (s : Session) : Command → Run (Except Failure Unit)
  | .fetch argument output ifPresent => s.on argument fun r => fetchResource r output ifPresent
  | .cat argument => s.on argument printContent
  | .ls argument => s.on argument printEntries
  | .put file argument => s.on argument fun r => uploadFile r (bytesOf file)
  | .head argument => s.on argument printMetadata
  | .checksum argument => s.on argument printDigest
  | .repos => printManagement settings
  | .completions _ | .manpage => pure (.ok ())

end TracedTransfer.Command
