/-
What transports provide and what resources offer.

A transport opens content or reports it absent, and knows metadata,
entries and uploads: a `ContentSource`. A resource offers the reads that
programs use: into a file, into a stream, or through a transform; each
either insists that there is something or also takes absence for an
answer. Transforms read from a counted reader and may do anything else
besides.
-/
import TracedTransfer.Machine
import TracedTransfer.Resource.Error
import TracedTransfer.Resource.Metadata

namespace TracedTransfer.Resource

open Text

/-- Local content that can be uploaded. -/
structure LocalSource where
  displayName : String
  contentLength : Run (Except Io.Error Nat)
  /-- A fresh reader at the beginning of the content. -/
  openReader : Run (Except Io.Error Io.Reader)

/-- Content that has been opened. -/
structure Content where
  reader : Io.Reader
  metadata : Metadata

/-- What a transport provides. -/
structure ContentSource where
  name : Name
  readMetadata : Run (Except Error (Option Metadata))
  listEntries : Run (Except Error (Option (List String)))
  upload : LocalSource → Run (Except Error Unit)
  /-- `none` when nothing is there. -/
  openContent : Run (Except Error (Option Content))

/-- A reader as transforms see it. -/
abbrev ContentReader := Io.Counted Io.Reader

/-- Makes a value of content, or says why it cannot. The reader comes back as it was left. -/
abbrev Transform (α : Type) := ContentReader → Run (Except Io.Chain α × ContentReader)

/-- A transform that also sees the metadata of the content. -/
abbrev ContentAction (α : Type) := Metadata → Transform α

/-- What a read brought: how many bytes were handed out, and what was made of them. -/
structure ReadResult (α : Type) where
  bytesRead : Nat
  result : α
deriving DecidableEq, Repr

/-- What a read of content that may be absent brings. -/
abbrev IfPresent (α : Type) := Run (Except Error (Option (ReadResult α)))

/-- What a read of content that must be there brings. -/
abbrev MustExist (α : Type) := Run (Except Error (ReadResult α))

end TracedTransfer.Resource

namespace TracedTransfer

open Resource in
/-- What programs do with a resource. -/
structure Resource : Type 1 where
  url : Url
  displayName : String
  metadata : Run (Except Error (Option Metadata))
  list : Run (Except Error (Option (List String)))
  put : LocalSource → Run (Except Error Unit)
  writeTo : FilePath → MustExist Unit
  writeToIfPresent : FilePath → IfPresent Unit
  writeToStream : Io.Writer Machine → MustExist Unit
  withContent : {α : Type} → Transform α → MustExist α
  withContentIfPresent : {α : Type} → Transform α → IfPresent α
  withAction : {α : Type} → ContentAction α → MustExist α
  withActionIfPresent : {α : Type} → ContentAction α → IfPresent α

end TracedTransfer
