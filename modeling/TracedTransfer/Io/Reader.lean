/-
Reading content. A source of bytes answers a read with bytes, of which
an empty answer means the end, or with a failure, after which it may go
on. The readers here are an open file and a script of data and failures;
`Counted` counts what a reader hands out.

The loops retry interrupted reads. Each is bounded by `pending`, the
number of reads a source can still answer with something other than the
end.
-/
import TracedTransfer.FileSystem.Access

namespace TracedTransfer.Io

open Text

/-- Something that answers reads of up to a number of bytes. -/
class Source (ρ : Type) where
  read : FileSystem → Nat → ρ → Except Error Bytes × ρ
  /-- A bound on the reads that are not answered by the end. -/
  pending : FileSystem → ρ → Nat

-- ============================================================ readers

/-- What a script of content holds. -/
inductive Event where
  | data (bytes : Bytes)
  | fail (error : Error)
deriving DecidableEq, Repr

namespace Event

/-- The bytes of an event. -/
def bytes : Event → Bytes
  | .data s => s
  | .fail _ => []

/-- The reads that an event can answer with something other than the end. -/
def weight (e : Event) : Nat := e.bytes.length + 1

end Event

/-- A reader of content. -/
inductive Reader where
  | script (events : List Event)
  | file (handle : FileSystem.Handle)
deriving DecidableEq, Repr

namespace Reader

/-- A reader of bytes held in memory. -/
def ofBytes (s : Bytes) : Reader := .script (if s.isEmpty then [] else [.data s])

/-- One read from a script. A data event longer than asked for keeps its rest; an empty one
answers with the end once. -/
def readScript (n : Nat) : List Event → Except Error Bytes × List Event
  | [] => (.ok [], [])
  | .fail e :: rest => (.error e, rest)
  | .data s :: rest =>
    if s.length ≤ n then (.ok s, rest) else (.ok (s.take n), .data (s.drop n) :: rest)

/-- One read of up to `n` bytes. -/
def read (fs : FileSystem) (n : Nat) (r : Reader) : Except Error Bytes × Reader :=
  match r with
  | .script events =>
    if n = 0 then (.ok [], r)
    else
      let (answer, rest) := readScript n events
      (answer, .script rest)
  | .file h =>
    match fs.readHandle h n with
    | .ok (s, h) => (.ok s, .file h)
    | .error e => (.error e, r)

/-- How many reads can still be answered with something other than the end. -/
def pending (fs : FileSystem) : Reader → Nat
  | .script events => (events.map Event.weight).foldr (· + ·) 0
  | .file h => fs.bytesLeft h

instance : Source Reader := ⟨read, pending⟩

end Reader

/-- A reader with the number of bytes that it has handed out. -/
structure Counted (ρ : Type) where
  inner : ρ
  count : Nat

namespace Counted

/-- A reader that has handed out nothing. -/
def ofSource {ρ : Type} (r : ρ) : Counted ρ := ⟨r, 0⟩

instance {ρ : Type} [Source ρ] : Source (Counted ρ) where
  read fs n r :=
    match Source.read fs n r.inner with
    | (.ok s, inner) => (.ok s, ⟨inner, r.count + s.length⟩)
    | (.error e, inner) => (.error e, ⟨inner, r.count⟩)
  pending fs r := Source.pending fs r.inner

end Counted

-- ============================================================== loops

variable {ρ : Type} [Source ρ]

/-- How many bytes a loop asks for at once. -/
def chunkSize : Nat := 8192

/-- Reads to the end onto what has been read, given as chunks, the last one first. -/
def readToEndWithin (fs : FileSystem) : Nat → List Bytes → ρ → (List Bytes × Option Error) × ρ
  | 0, acc, r => ((acc, none), r)
  | fuel + 1, acc, r =>
    match Source.read fs chunkSize r with
    | (.ok s, r) => if s.isEmpty then ((acc, none), r) else readToEndWithin fs fuel (s :: acc) r
    | (.error e, r) =>
      if e.kind = .interrupted then readToEndWithin fs fuel acc r else ((acc, some e), r)

/-- Reads to the end. Returns what was read, also when a read failed. -/
def readToEnd (fs : FileSystem) (r : ρ) : (Bytes × Option Error) × ρ :=
  let ((chunks, e), r) := readToEndWithin fs (Source.pending fs r + 1) [] r
  ((chunks.reverse.flatten, e), r)

/-- Reads `n` bytes onto what has been read, or up to the end. `atEnd` is the failure, if it is
one, to meet the end before. -/
def readUpToWithin (fs : FileSystem) (atEnd : Option Error) : Nat → Nat → List Bytes → ρ →
    (List Bytes × Option Error) × ρ
  | 0, _, acc, r => ((acc, atEnd), r)
  | fuel + 1, n, acc, r =>
    if n = 0 then ((acc, none), r)
    else
      match Source.read fs n r with
      | (.ok s, r) =>
        if s.isEmpty then ((acc, atEnd), r)
        else readUpToWithin fs atEnd fuel (n - s.length) (s :: acc) r
      | (.error e, r) =>
        if e.kind = .interrupted then readUpToWithin fs atEnd fuel n acc r
        else ((acc, some e), r)

/-- Reads exactly `n` bytes; to meet the end before is a failure. Returns what was read. -/
def readExact (fs : FileSystem) (n : Nat) (r : ρ) : (Bytes × Option Error) × ρ :=
  let ((chunks, e), r) :=
    readUpToWithin fs (some .shortContent) (Source.pending fs r + 1) n [] r
  ((chunks.reverse.flatten, e), r)

/-- Reads up to `n` bytes, fewer only at the end. Returns what was read. -/
def readUpTo (fs : FileSystem) (n : Nat) (r : ρ) : (Bytes × Option Error) × ρ :=
  let ((chunks, e), r) := readUpToWithin fs none (Source.pending fs r + 1) n [] r
  ((chunks.reverse.flatten, e), r)

end TracedTransfer.Io
