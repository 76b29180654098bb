/-
The digest of content while it is read. Content is read in pieces of up
to sixty-four KiB to the first empty answer; a failure ends the reading,
an interruption too.
-/
import TracedTransfer.Digest.Sha256
import TracedTransfer.Io.Reader

namespace TracedTransfer.Digest

open Text Io

variable {ρ : Type} [Source ρ]

/-- How many bytes are asked for at once. -/
def pieceSize : Nat := 65536

/-- Takes content into a hasher. -/
def absorbWithin (fs : FileSystem) : Nat → Hasher → ρ → Except Error Hasher × ρ
  | 0, h, r => (.ok h, r)
  | fuel + 1, h, r =>
    match Source.read fs pieceSize r with
    | (.ok piece, r) =>
      if piece.isEmpty then (.ok h, r) else absorbWithin fs fuel (h.update piece) r
    | (.error e, r) => (.error e, r)

/-- The digest in hexadecimal of everything that a reader gives. -/
def sha256 (fs : FileSystem) (r : ρ) : Except Error String × ρ :=
  let (outcome, r) := absorbWithin fs (Source.pending fs r + 1) Hasher.empty r
  (outcome.map fun h => String.ofList (hex h.finish), r)

end TracedTransfer.Digest
