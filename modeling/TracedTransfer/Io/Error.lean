/-
Failures of reading and writing. A failure has a kind, which programs
decide on, and a text, which people read. The text of a failure that the
system raises is the system's own and not known here.

The texts of several failures, one the reason of the other, form a chain.
-/
import TracedTransfer.Text.Blank

namespace TracedTransfer.Io

/-- What kind of failure it is. -/
inductive ErrorKind where
  | notFound
  | permissionDenied
  | connectionRefused
  | connectionReset
  | alreadyExists
  | notADirectory
  | isADirectory
  | directoryNotEmpty
  | resourceBusy
  | filesystemLoop
  | invalidFilename
  | invalidInput
  | invalidData
  | unexpectedEof
  | writeZero
  | interrupted
  | timedOut
  | brokenPipe
  | wouldBlock
  | storageFull
  | other
deriving DecidableEq, Repr

/-- The name of a kind. -/
def ErrorKind.name : ErrorKind → String
  | .notFound => "NotFound"
  | .permissionDenied => "PermissionDenied"
  | .connectionRefused => "ConnectionRefused"
  | .connectionReset => "ConnectionReset"
  | .alreadyExists => "AlreadyExists"
  | .notADirectory => "NotADirectory"
  | .isADirectory => "IsADirectory"
  | .directoryNotEmpty => "DirectoryNotEmpty"
  | .resourceBusy => "ResourceBusy"
  | .filesystemLoop => "FilesystemLoop"
  | .invalidFilename => "InvalidFilename"
  | .invalidInput => "InvalidInput"
  | .invalidData => "InvalidData"
  | .unexpectedEof => "UnexpectedEof"
  | .writeZero => "WriteZero"
  | .interrupted => "Interrupted"
  | .timedOut => "TimedOut"
  | .brokenPipe => "BrokenPipe"
  | .wouldBlock => "WouldBlock"
  | .storageFull => "StorageFull"
  | .other => "Other"

/-- One text of a chain of failures. -/
inductive Cause where
  | known (text : String)
  /-- The text of the system. -/
  | system
deriving DecidableEq, Repr

/-- A chain of failures, the outermost first. -/
abbrev Chain := List Cause

/-- A chain of one text. -/
def Chain.ofText (s : String) : Chain := [.known s]

/-- The texts of a chain between colons, up to the first that is not known. -/
def Chain.text : Chain → String
  | [] => ""
  | .system :: _ => ""
  | [.known s] => s
  | .known s :: .system :: _ => s
  | .known s :: rest => s ++ ": " ++ Chain.text rest

/-- A failure of reading or writing. -/
structure Error where
  kind : ErrorKind
  cause : Cause
deriving DecidableEq, Repr

namespace Error

/-- A failure that the system raises. -/
def system (kind : ErrorKind) : Error := ⟨kind, .system⟩

/-- A failure with a text of its own. -/
def custom (kind : ErrorKind) (text : String) : Error := ⟨kind, .known text⟩

/-- A path holds the byte zero. -/
def zeroInPath : Error := custom .invalidInput "file name contained an unexpected NUL byte"

/-- The content ends before the bytes asked for. -/
def shortContent : Error := custom .unexpectedEof "failed to fill whole buffer"

/-- The content is not UTF-8. -/
def notUtf8 : Error := custom .invalidData "stream did not contain valid UTF-8"

/-- The destination takes no more bytes. -/
def noProgress : Error := custom .writeZero "failed to write whole buffer"

/-- The failure as a chain. -/
def chain (e : Error) : Chain := [e.cause]

end Error

end TracedTransfer.Io
