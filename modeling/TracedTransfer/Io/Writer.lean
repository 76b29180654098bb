/-
Writing and copying. A writer takes bytes into a state, possibly fewer
than it is given; a copy moves content from a reader to a writer in
chunks until the end.
-/
import TracedTransfer.Io.Reader

namespace TracedTransfer.Io

open Text

/-- Something that takes bytes into a state. -/
structure Writer (σ : Type) where
  /-- Takes some of the bytes and says how many. -/
  write : Bytes → σ → Except Error Nat × σ
  flush : σ → Except Error Unit × σ

namespace Writer

variable {σ : Type}

/-- Writes all bytes. Each round takes at least one of them, or ends. The fuel bounds the rounds;
a write that is interrupted takes one too. -/
def writeAllWithin (w : Writer σ) : Nat → Bytes → σ → Except Error Unit × σ
  | 0, data, s => (if data.isEmpty then .ok () else .error .noProgress, s)
  | fuel + 1, data, s =>
    if data.isEmpty then (.ok (), s)
    else
      match w.write data s with
      | (.ok n, s) =>
        if n = 0 then (.error .noProgress, s) else writeAllWithin w fuel (data.drop n) s
      | (.error e, s) =>
        if e.kind = .interrupted then writeAllWithin w fuel data s else (.error e, s)

/-- How many interrupted writes are retried. -/
def maxInterruptions : Nat := 65536

/-- Writes all bytes. -/
def writeAll (w : Writer σ) (data : Bytes) (s : σ) : Except Error Unit × σ :=
  w.writeAllWithin (data.length + maxInterruptions) data s

end Writer

-- ============================================================ copying

variable {σ ρ : Type} [Source ρ]

/-- What a copy leaves behind. -/
structure Copied (ρ σ : Type) where
  /-- How many bytes were copied, or what failed. -/
  outcome : Except Error Nat
  reader : ρ
  state : σ

/-- Copies to the end, after `count` bytes. `files` is where readers find open files. -/
def copyWithin (files : σ → FileSystem) (w : Writer σ) : Nat → Nat → ρ → σ → Copied ρ σ
  | 0, count, r, s => ⟨.ok count, r, s⟩
  | fuel + 1, count, r, s =>
    match Source.read (files s) chunkSize r with
    | (.ok data, r) =>
      if data.isEmpty then ⟨.ok count, r, s⟩
      else
        match w.writeAll data s with
        | (.ok (), s) => copyWithin files w fuel (count + data.length) r s
        | (.error e, s) => ⟨.error e, r, s⟩
    | (.error e, r) =>
      if e.kind = .interrupted then copyWithin files w fuel count r s else ⟨.error e, r, s⟩

/-- Copies everything from a reader to a writer. -/
def copy (files : σ → FileSystem) (w : Writer σ) (r : ρ) (s : σ) : Copied ρ σ :=
  copyWithin files w (Source.pending (files s) r + 1) 0 r s

-- =============================================================== sinks

/-- A writer in memory, which may take only so many bytes. -/
structure Sink where
  written : Bytes
  /-- How many bytes it takes in all, and what it answers after that. -/
  limit : Option (Nat × Option ErrorKind)
  /-- How a flush fails, if it does. -/
  flushFailure : Option ErrorKind
deriving DecidableEq, Repr

namespace Sink

/-- A sink that takes everything. -/
def open_ : Sink := ⟨[], none, none⟩

/-- Takes the bytes that the limit allows. Beyond it the sink fails, or takes nothing. -/
def write (data : Bytes) (s : Sink) : Except Error Nat × Sink :=
  match s.limit with
  | none => (.ok data.length, { s with written := s.written ++ data })
  | some (limit, failure) =>
    let room := limit - s.written.length
    if room = 0 && !data.isEmpty then
      match failure with
      | some kind => (.error (.custom kind "sink"), s)
      | none => (.ok 0, s)
    else
      let taken := data.take room
      (.ok taken.length, { s with written := s.written ++ taken })

/-- Flushes a sink. -/
def flush (s : Sink) : Except Error Unit × Sink :=
  match s.flushFailure with
  | some kind => (.error (.custom kind "flush"), s)
  | none => (.ok (), s)

/-- The sink as a writer. -/
def writer : Writer Sink := ⟨write, flush⟩

end Sink

end TracedTransfer.Io
