/-
Temporary files. One has no name, is written from its beginning on, and
is read once it has been rewound. The place where temporary files are
kept, the spool, may not let one be made, may have no room for all that
is written to one, and may not let one be rewound.
-/
import TracedTransfer.Io.Writer

namespace TracedTransfer.Storage

open Text Io

/-- A temporary file. -/
structure TempFile where
  content : Bytes
  /-- Where the next byte is written or read. -/
  position : Nat
deriving DecidableEq, Repr

namespace TempFile

/-- A temporary file that has just been made. -/
def empty : TempFile := ⟨[], 0⟩

/-- Puts bytes at the position, and moves it behind them. -/
def put (f : TempFile) (data : Bytes) : TempFile :=
  ⟨FileSystem.overwrite f.content f.position data, f.position + data.length⟩

/-- What reads the file from its position on. -/
def reader (f : TempFile) : Reader := .ofBytes (f.content.drop f.position)

end TempFile

/-- A failure that trying once more does not mend. -/
abbrev Lasting : Type := { e : Io.Error // e.kind ≠ .interrupted }

/-- The place where temporary files are kept. -/
structure Spool where
  /-- Why no file can be made, if none can. -/
  creation : Option Io.Error
  /-- How many bytes a file can hold, and what it answers to more. -/
  room : Option (Nat × Lasting)
  /-- Why no file can be rewound, if none can. -/
  rewinding : Option Io.Error
deriving DecidableEq, Repr

namespace Spool

/-- The spool that keeps everything. -/
def sound : Spool := ⟨none, none, none⟩

variable (p : Spool)

/-- Makes a temporary file. -/
def create : Except Io.Error TempFile :=
  match p.creation with
  | some e => .error e
  | none => .ok .empty

/-- Writes what there is room for. -/
def write (data : Bytes) (f : TempFile) : Except Io.Error Nat × TempFile :=
  match p.room with
  | none => (.ok data.length, f.put data)
  | some (size, e) =>
    let taken := data.take (size - f.position)
    if taken.isEmpty && !data.isEmpty then (.error e, f) else (.ok taken.length, f.put taken)

/-- Temporary files as writers. -/
def writer : Writer TempFile := ⟨p.write, fun f => (.ok (), f)⟩

/-- Writes one piece after another, up to one that cannot be written. -/
def writePieces : List Bytes → TempFile → Except Io.Error TempFile
  | [], f => .ok f
  | data :: rest, f =>
    match p.writer.writeAll data f with
    | (.ok (), f) => writePieces rest f
    | (.error e, _) => .error e

/-- Goes back to the beginning of a file. -/
def rewind (f : TempFile) : Except Io.Error TempFile :=
  match p.rewinding with
  | some e => .error e
  | none => .ok { f with position := 0 }

end Spool

end TracedTransfer.Storage
