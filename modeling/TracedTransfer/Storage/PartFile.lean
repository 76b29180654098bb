/-
Destinations written through a sibling. Content goes to a part file
beside the destination, whose name is the destination's and `.part`; when
it is complete the part file takes the destination's name. A copy that
fails takes the part file away and leaves the destination alone.
-/
import TracedTransfer.Io.Writer

namespace TracedTransfer.Storage

open Text Io

/-- What the name of a part file ends in. -/
def partSuffix : Bytes := bytesOf ".part"

/-- The path of the part file of a destination. -/
def partPath (destination : FilePath) : FilePath := destination ++ partSuffix

/-- A part file being written. -/
structure PartFile where
  destination : FilePath
  handle : FileSystem.Handle
deriving DecidableEq, Repr

namespace PartFile

/-- The path of the part file. -/
def path (p : PartFile) : FilePath := partPath p.destination

/-- Makes the directories above a destination. -/
def makeParents (fs : FileSystem) (destination : FilePath) : FileSystem × Option Error :=
  match destination.parent? with
  | some up => if up.isEmpty then (fs, none) else fs.makeDirectories up
  | none => (fs, none)

/-- Opens the part file of a destination, empty, with the directories above it. -/
def create (fs : FileSystem) (destination : FilePath) : FileSystem × Except Error PartFile :=
  match makeParents fs destination with
  | (fs, some e) => (fs, .error e)
  | (fs, none) =>
    match fs.openToWrite true (partPath destination) with
    | .ok (fs, h) => (fs, .ok ⟨destination, h⟩)
    | .error e => (fs, .error e)

/-- Takes the part file away. Returns the failure to do so, unless it was gone already. -/
def remove (fs : FileSystem) (p : PartFile) : FileSystem × Option Error :=
  match fs.removeFile p.path with
  | .ok fs => (fs, none)
  | .error e => (fs, if e.kind = .notFound then none else some e)

/-- What closing a part file leaves behind. -/
structure Closed where
  files : FileSystem
  outcome : Except Error Unit
  /-- The failure to take the part file away, if that was to be done. -/
  removal : Option Error

/-- Gives the part file, once it is stored, the destination's name. On a failure the part file is
taken away. -/
def commit (fs : FileSystem) (p : PartFile) : Closed :=
  match (fs.syncHandle p.handle).bind fun () => fs.rename p.path p.destination with
  | .ok fs => ⟨fs, .ok (), none⟩
  | .error e =>
    let (fs, removal) := p.remove fs
    ⟨fs, .error e, removal⟩

/-- Writes to the part file. -/
def write (data : Bytes) (s : FileSystem × PartFile) : Except Error Nat × FileSystem × PartFile :=
  match s.1.writeHandle s.2.handle data with
  | .ok (fs, h) => (.ok data.length, fs, { s.2 with handle := h })
  | .error e => (.error e, s)

/-- The part file as a writer. -/
def writer : Writer (FileSystem × PartFile) := ⟨write, fun s => (.ok (), s)⟩

end PartFile

/-- What a copy to a path leaves behind. -/
structure Stored (ρ : Type) where
  files : FileSystem
  reader : ρ
  /-- How many bytes were stored, or what failed. -/
  outcome : Except Error Nat
  /-- The failure to take the part file away, if that was to be done. -/
  removal : Option Error

/-- Stores everything from a reader under a path, or nothing. -/
def copyToPath {ρ : Type} [Source ρ] (fs : FileSystem) (r : ρ) (destination : FilePath) :
    Stored ρ :=
  match PartFile.create fs destination with
  | (fs, .error e) => ⟨fs, r, .error e, none⟩
  | (fs, .ok part) =>
    let copied := copy Prod.fst PartFile.writer r (fs, part)
    let (fs, part) := copied.state
    match copied.outcome with
    | .ok n =>
      let closed := part.commit fs
      ⟨closed.files, copied.reader, closed.outcome.map fun _ => n, closed.removal⟩
    | .error e =>
      let (fs, removal) := part.remove fs
      ⟨fs, copied.reader, .error e, removal⟩

end TracedTransfer.Storage
