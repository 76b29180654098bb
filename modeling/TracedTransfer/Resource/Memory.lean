/-
A source in memory, for rehearsing reads. Its content stands on a shelf
of the machine, which counts how often it is opened and replaced; its
metadata, entries and failures are given.
-/
import TracedTransfer.Resource.Read

namespace TracedTransfer.Resource

open Text Io

/-- A source in memory. -/
structure MemoryResource where
  name : Name
  shelf : Nat
  /-- The header lines that its metadata are read from; if none, the length of the data. -/
  headers : List String
  /-- The names to list, or that listing is not supported, or none. -/
  entries : Except Unit (Option (List String))
  /-- How opening fails, and reading the metadata, if they do. -/
  openFailure : Option Resource.Error

namespace MemoryResource

variable (r : MemoryResource)

/-- What stands on the shelf. -/
def onShelf : Run Shelf := Action.gets fun m => m.shelves.getD r.shelf ⟨none, 0, 0⟩

/-- Changes what stands on the shelf. -/
def updateShelf (f : Shelf → Shelf) : Run Unit := Action.modify fun m =>
  { m with shelves := m.shelves.modify r.shelf f }

/-- The metadata of a content. -/
def metadataOf (events : List Event) : Metadata :=
  if r.headers.isEmpty then .ofLength r.name.url (events.flatMap Event.bytes).length
  else .ofHeaders r.name.url r.headers

/-- The metadata. -/
def readMetadata : Run (Except Resource.Error (Option Metadata)) := do
  match r.openFailure with
  | some e => return .error e
  | none => return .ok ((← r.onShelf).content.map r.metadataOf)

/-- Opens the content, which is read from its beginning. -/
def openContent : Run (Except Resource.Error (Option Content)) := do
  r.updateShelf fun s => { s with opens := s.opens + 1 }
  match r.openFailure with
  | some e => return .error e
  | none => return .ok ((← r.onShelf).content.map fun es => ⟨.script es, r.metadataOf es⟩)

/-- The names to list. -/
def listEntries : Run (Except Resource.Error (Option (List String))) :=
  match r.entries with
  | .ok names => pure (.ok names)
  | .error () => pure (.error (.unsupported r.name.location "list"))

/-- Replaces the content by all that a local source gives. -/
def upload (source : LocalSource) : Run (Except Resource.Error Unit) := do
  match ← source.openReader with
  | .error e => return .error (.io source.displayName e)
  | .ok reader =>
    match ← Action.gets fun m => (readToEnd m.files reader).1 with
    | (_, some e) => return .error (.io source.displayName e)
    | (bytes, none) =>
      r.updateShelf fun s =>
        { s with content := some (if bytes.isEmpty then [] else [.data bytes])
                 uploads := s.uploads + 1 }
      return .ok ()

/-- What the source provides. -/
def source : ContentSource where
  name := r.name
  readMetadata := r.readMetadata
  listEntries := r.listEntries
  upload := r.upload
  openContent := r.openContent

end MemoryResource

end TracedTransfer.Resource
