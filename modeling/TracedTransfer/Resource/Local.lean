/-
Local content for uploads: a file, bytes in memory, or a script of data
and failures.
-/
import TracedTransfer.Resource.Source

namespace TracedTransfer.Resource.LocalSource

open Text

/-- The length that the system reports for a directory, which holds something but no content. -/
def directoryLength : Nat := 4096

/-- The length that the system reports for what a path leads to. -/
def reportedLength (fs : FileSystem) (p : FilePath) : Except Io.Error Nat :=
  (fs.resolve p).map fun i =>
    if fs.isDirectory i then directoryLength else (fs.content i).length

/-- A file. -/
def file (p : FilePath) : LocalSource where
  displayName := p.shown
  contentLength := Action.gets fun m => reportedLength m.files p
  openReader := Action.gets fun m => (m.files.openToRead p).map Io.Reader.file

/-- Bytes in memory. -/
def inMemory (displayName : String) (s : Bytes) : LocalSource where
  displayName
  contentLength := pure (.ok s.length)
  openReader := pure (.ok (.ofBytes s))

/-- A script of content, which may fail to open. Its length is that of its data. -/
def scripted (displayName : String) (events : List Io.Event) (openFailure : Option Io.Error) :
    LocalSource where
  displayName
  contentLength := pure (.ok (events.flatMap Io.Event.bytes).length)
  openReader := pure
    (match openFailure with
    | some e => .error e
    | none => .ok (.script events))

end TracedTransfer.Resource.LocalSource
