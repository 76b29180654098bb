/-
The transport of local files. A regular file is present; a directory, a
device and a path that leads nowhere are absent; any other failure to
look at the path is reported. An upload replaces the file as a whole.
-/
import TracedTransfer.Resource.Read
import TracedTransfer.Resource.Local

namespace TracedTransfer.Resource

open Text Io

/-- A resource at a path. -/
structure FileResource where
  name : Name
  path : FilePath
deriving DecidableEq, Repr

namespace FileResource

/-- The resource of a name, if the name has a path. -/
def ofName (n : Name) : Except Resource.Error FileResource :=
  match n.url.filePath? with
  | some path => .ok ⟨n, path⟩
  | none => .error (.schemeOf n)

/-- The resource at a path, relative to a directory unless it is absolute. There may be no
directory to be relative to. -/
def ofPath (directory : Option FilePath) (p : FilePath) : Except Resource.Error FileResource :=
  let shown := FilePath.shown p
  let absolute : Except Resource.Error FilePath :=
    if p.isAbsolute then .ok p
    else
      match directory with
      | some d => .ok (p.relativeTo d)
      | none => .error (.io shown (.system .notFound))
  match absolute with
  | .error e => .error e
  | .ok a =>
    match Url.ofFilePath a with
    | some url => ofName ⟨url⟩
    | none => .error (.io shown (.custom .invalidInput "not an absolute path"))

variable (r : FileResource)

/-- A failure of the files, told of this resource. -/
def failure (e : Io.Error) : Resource.Error := .io r.name.location e

/-- The length of the file; `none` when it is absent. -/
def length? (fs : FileSystem) : Except Resource.Error (Option Nat) :=
  match fs.fileLength? r.path with
  | .ok n => .ok n
  | .error e => if e.kind = .notFound then .ok none else .error (r.failure e)

/-- The metadata of a file of known length. -/
def metadataOf (n : Nat) : Metadata := .ofLength r.name.url n

/-- Opens the content. -/
def openContent (fs : FileSystem) : Except Resource.Error (Option Content) :=
  match r.length? fs with
  | .error e => .error e
  | .ok none => .ok none
  | .ok (some n) =>
    match fs.openToRead r.path with
    | .ok h => .ok (some ⟨.file h, r.metadataOf n⟩)
    | .error e => if e.kind = .notFound then .ok none else .error (r.failure e)

/-- The names in the directory at the path, in order; `none` if there is no directory. -/
def listEntries (fs : FileSystem) : Except Resource.Error (Option (List String)) :=
  if fs.isDirectoryAt r.path then
    match fs.list r.path with
    | .ok names => .ok (some ((names.map FilePath.shown).mergeSort fun a b => !(b < a)))
    | .error e => .error (r.failure e)
  else .ok none

/-- What an upload leaves of the files, with a failure to take the part file away. -/
def replace (fs : FileSystem) (reader : Reader) :
    FileSystem × Except Io.Error Unit × Option Io.Error :=
  match Storage.PartFile.create fs r.path with
  | (fs, .error e) => (fs, .error e, none)
  | (fs, .ok part) =>
    let copied := copy Prod.fst Storage.PartFile.writer reader (fs, part)
    let (fs, part) := copied.state
    match copied.outcome with
    | .error e =>
      let (fs, removal) := part.remove fs
      (fs, .error e, removal)
    | .ok _ =>
      let closed := part.commit fs
      (closed.files, closed.outcome, closed.removal)

/-- Replaces the file by local content. -/
def upload (source : LocalSource) : Run (Except Resource.Error Unit) := do
  match ← source.openReader with
  | .error e => return .error (.io source.displayName e)
  | .ok reader =>
    let (outcome, removal) ← Run.onFiles fun fs =>
      let (fs, outcome, removal) := r.replace fs reader
      ((outcome, removal), fs)
    logRemoval removal
    match outcome with
    | .error e => return .error (r.failure e)
    | .ok () =>
      Run.log .debug "resfetch_core::resource::file" "uploaded"
        [("to", FilePath.shown r.path), ("from", source.displayName)]
      return .ok ()

/-- What the transport provides. -/
def source : ContentSource where
  name := r.name
  readMetadata := Action.gets fun m => (r.length? m.files).map fun n => n.map r.metadataOf
  listEntries := Action.gets fun m => r.listEntries m.files
  upload := r.upload
  openContent := Action.gets fun m => r.openContent m.files

end FileResource

end TracedTransfer.Resource
