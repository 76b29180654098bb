/-
The reads of a resource, built on what its transport provides. All of
them open the content once, read it through one counting reader and
report what that reader has handed out.
-/
import TracedTransfer.Digest.Streaming
import TracedTransfer.Resource.Source
import TracedTransfer.Storage.PartFile

namespace TracedTransfer.Resource

open Text

/-- Goes on with a value, or returns the failure. -/
def orFail {ε α β : Type} (x : Run (Except ε α)) (f : α → Run (Except ε β)) : Run (Except ε β) := do
  match ← x with
  | .ok a => f a
  | .error e => return .error e

/-- A read that insists that there is something. -/
def insist {α : Type} (n : Name) (x : IfPresent α) : MustExist α :=
  orFail x fun
    | some r => pure (.ok r)
    | none => pure (.error (.notFound n.location))

/-- Logs that a part file could not be taken away. -/
def logRemoval : Option Io.Error → Run Unit
  | none => pure ()
  | some e =>
    Run.log .warn "resfetch_core::storage"
      (Io.Chain.text [.known "could not remove temp file", e.cause]) []

/-- Stores everything from a reader under a path, or nothing. -/
def store (r : ContentReader) (destination : FilePath) :
    Run (Except Io.Error Nat × ContentReader) := do
  let stored ← Run.onFiles fun fs =>
    let stored := Storage.copyToPath fs r destination
    (stored, stored.files)
  logRemoval stored.removal
  return (stored.outcome, stored.reader)

/-- Copies everything from a reader to a writer and flushes that. -/
def copyAndFlush (w : Io.Writer Machine) (r : ContentReader) :
    Run (Except Io.Error Unit × ContentReader) := fun m =>
  let copied := Io.copy Machine.files w r m
  match copied.outcome with
  | .error e => (.value (.error e, copied.reader), copied.state)
  | .ok _ =>
    let (flushed, m) := w.flush copied.state
    (.value (flushed, copied.reader), m)

namespace ContentSource

variable {α : Type} (s : ContentSource)

/-- Opens the content and goes on with it, if there is any. -/
def ifPresent (f : Content → Run (Except Error (ReadResult α))) : IfPresent α :=
  orFail s.openContent fun
    | none => pure (.ok none)
    | some c => orFail (f c) fun r => pure (.ok (some r))

/-- Reads into a file. -/
def writeToIfPresent (destination : FilePath) : IfPresent Unit :=
  s.ifPresent fun c => do
    let (outcome, r) ← store (.ofSource c.reader) destination
    match outcome with
    | .ok _ => return .ok ⟨r.count, ()⟩
    | .error e => return .error (.io s.name.location e)

/-- Reads into a stream. -/
def writeToStream (w : Io.Writer Machine) : MustExist Unit :=
  insist s.name <| s.ifPresent fun c => do
    let (outcome, r) ← copyAndFlush w (.ofSource c.reader)
    match outcome with
    | .ok () => return .ok ⟨r.count, ()⟩
    | .error e => return .error (.io s.name.location e)

/-- Reads through a transform that sees the metadata. -/
def withActionIfPresent (act : ContentAction α) : IfPresent α :=
  s.ifPresent fun c => do
    let (outcome, r) ← act c.metadata (.ofSource c.reader)
    match outcome with
    | .ok a => return .ok ⟨r.count, a⟩
    | .error e => return .error (.transform s.name.location e)

/-- Reads through a transform. -/
def withContentIfPresent (f : Transform α) : IfPresent α := s.withActionIfPresent fun _ => f

/-- What programs do with what a transport provides. -/
def resource : Resource where
  url := s.name.url
  displayName := s.name.displayName
  metadata := s.readMetadata
  list := s.listEntries
  put := s.upload
  writeTo d := insist s.name (s.writeToIfPresent d)
  writeToIfPresent := s.writeToIfPresent
  writeToStream := s.writeToStream
  withContent f := insist s.name (s.withContentIfPresent f)
  withContentIfPresent := s.withContentIfPresent
  withAction a := insist s.name (s.withActionIfPresent a)
  withActionIfPresent := s.withActionIfPresent

end ContentSource

-- ========================================================== transforms

/-- What reads brought, unless one of them failed. -/
def unlessFailed (x : (Bytes × Option Io.Error) × ContentReader) :
    Except Io.Chain Bytes × ContentReader :=
  match x with
  | ((bytes, none), r) => (.ok bytes, r)
  | ((_, some e), r) => (.error e.chain, r)

/-- Reads nothing. -/
def readNothing : Transform Bytes := fun r => pure (.ok [], r)

/-- Reads everything. -/
def readAll : Transform Bytes := fun r =>
  Action.gets fun m => unlessFailed (Io.readToEnd m.files r)

/-- Reads everything, which must be UTF-8. -/
def readText : Transform Bytes := fun r => do
  match ← readAll r with
  | (.ok bytes, r) =>
    if (Utf8.decode? bytes).isSome then return (.ok bytes, r)
    else return (.error Io.Error.notUtf8.chain, r)
  | (.error e, r) => return (.error e, r)

/-- Reads exactly `n` bytes. -/
def readExactly (n : Nat) : Transform Bytes := fun r =>
  Action.gets fun m => unlessFailed (Io.readExact m.files n r)

/-- Reads once, up to `n` bytes. -/
def readOnce (n : Nat) : Transform Bytes := fun r =>
  Action.gets fun m =>
    match Io.Source.read m.files n r with
    | (.ok bytes, r) => (.ok bytes, r)
    | (.error e, r) => (.error e.chain, r)

/-- Reads `n` bytes, or fewer if there are no more. -/
def readAtMost (n : Nat) : Transform Bytes := fun r =>
  Action.gets fun m => unlessFailed (Io.readUpTo m.files n r)

/-- The digest of everything. -/
def sha256Action : ContentAction String := fun meta_ r => do
  let (outcome, r) ← Action.gets fun m => Digest.sha256 m.files r
  match outcome with
  | .ok d => return (.ok d, r)
  | .error e => return (.error (.known ("hash " ++ meta_.location.text) :: e.chain), r)

end TracedTransfer.Resource
