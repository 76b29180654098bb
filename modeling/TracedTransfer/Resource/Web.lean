/-
The transport of HTTP. A success brings content, the statuses 404 and 410
mean that nothing is there, and any other status is a failure. Metadata
are read from the header lines of the final response. A body is kept in a
temporary file before anyone reads it.
-/
import TracedTransfer.Http.Client
import TracedTransfer.Resource.Read

namespace TracedTransfer.Resource

open Text

/-- Whether a status means that nothing is there. -/
def isAbsentStatus (status : Nat) : Bool := status = 404 || status = 410

/-- Whether a status means success. -/
def isSuccessStatus (status : Nat) : Bool := 200 ≤ status && status < 300

-- ======================================================== header lines

/-- The beginning of a status line. -/
def statusLineStart : List Char := "HTTP/".toList

/-- A header line as text without the blanks at its end, unless it is not UTF-8. -/
def headerText? (line : Bytes) : Option (List Char) :=
  (Utf8.decode? line).map fun s => (s.reverse.dropWhile isBlank).reverse

/-- The header lines that count after one more has come: a status line starts them afresh. -/
def addHeaderLine (kept : List String) (line : Bytes) : List String :=
  match headerText? line with
  | none => kept
  | some s =>
    let kept := if (stripStart? statusLineStart s).isSome then [] else kept
    if s.isEmpty then kept else kept ++ [String.ofList s]

/-- The header lines that count when all lines of a transfer have come. -/
def headerLines (lines : List Bytes) : List String := lines.foldl addHeaderLine []

-- ========================================================== a resource

/-- A resource on an HTTP server. -/
structure WebResource where
  name : Name
  options : Http.Options
deriving DecidableEq, Repr

namespace WebResource

/-- The resource of a name whose scheme is `http` or `https`. -/
def ofName (n : Name) (options : Http.Options) : Except Resource.Error WebResource :=
  if n.url.scheme = "http".toList || n.url.scheme = "https".toList then .ok ⟨n, options⟩
  else .error (.schemeOf n)

/-- The log target of the transport. -/
def logTarget : String := "resfetch_core::resource::http"

variable (r : WebResource)

/-- A failed transfer, told of this resource. -/
def failure (e : Http.Failure) : Resource.Error := .transport r.name.location e

/-- The metadata that a transfer brought. -/
def metadataOf (t : Http.Transfer) : Metadata := .ofHeaders r.name.url (headerLines t.lines)

/-- What the status of a transfer makes of its value: a success has it, an absent resource has
none, and any other status is a failure. -/
def classify {α : Type} (t : Http.Transfer) (value : α) : Except Resource.Error (Option α) :=
  if isAbsentStatus t.status then .ok none
  else if isSuccessStatus t.status then .ok (some value)
  else .error (.http r.name.location t.status)

/-- Asks for the metadata alone. -/
def readMetadata : Run (Except Resource.Error (Option Metadata)) := do
  match (← Http.download r.options .head r.name.url).bind Http.Transfer.whole with
  | .error e => return .error (r.failure e)
  | .ok t => return r.classify t (r.metadataOf t)

/-- A transfer with the temporary file that its body has been written to. A body that cannot be
written is a failure before one that does not come whole. -/
def keep (spool : Storage.Spool) (file : Storage.TempFile) (t : Http.Transfer) :
    Except Resource.Error (Http.Transfer × Storage.TempFile) :=
  match spool.writePieces t.pieces file with
  | .error e => .error (.io r.name.location e)
  | .ok file =>
    match t.whole with
    | .error e => .error (r.failure e)
    | .ok t => .ok (t, file)

/-- What the status of a transfer makes of its temporary file, which is read from its beginning. -/
def opened (spool : Storage.Spool) (file : Storage.TempFile) (t : Http.Transfer) :
    Except Resource.Error (Option Content) :=
  match r.classify t file with
  | .error e => .error e
  | .ok none => .ok none
  | .ok (some file) =>
    match spool.rewind file with
    | .error e => .error (.io r.name.location e)
    | .ok file => .ok (some ⟨file.reader, r.metadataOf t⟩)

/-- Opens the content. -/
def openContent : Run (Except Resource.Error (Option Content)) := do
  let spool ← Action.gets Machine.spool
  match spool.create with
  | .error e => return .error (.io r.name.location e)
  | .ok file =>
    match ← Http.download r.options .get r.name.url with
    | .error e => return .error (r.failure e)
    | .ok t =>
      match r.keep spool file t with
      | .error e => return .error e
      | .ok (t, file) =>
        if isAbsentStatus t.status then
          Run.log .debug logTarget "resource absent"
            [("location", r.name.location), ("status", Nat.repr t.status)]
        return r.opened spool file t

/-- Uploads local content. -/
def upload (source : LocalSource) : Run (Except Resource.Error Unit) := do
  match ← source.contentLength with
  | .error e => return .error (.io source.displayName e)
  | .ok length =>
    match ← source.openReader with
    | .error e => return .error (.io source.displayName e)
    | .ok reader =>
      match ← Http.upload r.options r.name.url length reader with
      | .error e => return .error (r.failure e)
      | .ok t =>
        if isSuccessStatus t.status then
          Run.log .debug logTarget "uploaded"
            [("to", r.name.location), ("bytes", Nat.repr length)]
          return .ok ()
        else return .error (.http r.name.location t.status)

/-- What the transport provides. A server has no entries to list. -/
def source : ContentSource where
  name := r.name
  readMetadata := r.readMetadata
  listEntries := pure (.ok none)
  upload := r.upload
  openContent := r.openContent

end WebResource

end TracedTransfer.Resource
