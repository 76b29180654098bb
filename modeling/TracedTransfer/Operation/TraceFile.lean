/-
The trace file: one line of JSON for each finished operation, appended in
the order in which they finish. A line that cannot be written is logged
and otherwise ignored.
-/
import TracedTransfer.Operation.Runner

namespace TracedTransfer.Operation.TraceFile

open Text

/-- The members of a record's line, in their order. -/
def entry (r : Record) : Json := .obj [
  ("id", .nat r.id),
  ("parentId", (r.parent.map Json.nat).getD .null),
  ("displayName", .str r.descriptor.displayName),
  ("progressDisplayName", .ofString? r.descriptor.progressDisplayName),
  ("details", r.descriptor.details),
  ("startedAtMs", .nat r.startedAtMs),
  ("durationMs", .nat r.durationMs),
  ("status", .ofString? r.status),
  ("result", r.result.getD .null),
  ("failure", .ofString? r.failure)]

/-- The line of a record, with its end. -/
def line (r : Record) : Bytes := Utf8.encode ((entry r).text ++ ['\n'])

/-- Appends the line of a record to an open file. -/
def append (path : FilePath) (node : FileSystem.Id) (r : Record) : Run Unit := do
  let outcome ← Run.onFiles fun fs =>
    match fs.appendToNode node (line r) with
    | .ok fs => (none, fs)
    | .error e => (some e, fs)
  match outcome with
  | none => pure ()
  | some e =>
    Run.log .warn "resfetch_core::operation::trace_file"
      (Io.Chain.text [.known ("could not write trace " ++ path.shown), e.cause]) []

/-- The listener of a trace file that is open. -/
def listener (path : FilePath) (node : FileSystem.Id) : Listener where
  started _ _ _ := pure ()
  finished r := append path node r

/-- Opens a trace file, with the directories above it, or says what could not be done. -/
def create (path : FilePath) : Run (Except Io.Chain Listener) :=
  Run.onFiles fun fs =>
    let up := (path.parent?).getD []
    let (fs, failure) := if up.isEmpty then (fs, none) else fs.makeDirectories up
    match failure with
    | some e => (.error (.known ("create trace dir " ++ up.shown) :: e.chain), fs)
    | none =>
      match fs.openToWrite false path with
      | .ok (fs, h) => (.ok (listener path h.node), fs)
      | .error e => (.error (.known ("open trace file " ++ path.shown) :: e.chain), fs)

end TracedTransfer.Operation.TraceFile
